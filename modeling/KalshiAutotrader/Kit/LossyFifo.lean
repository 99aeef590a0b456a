import KalshiAutotrader.Kit.Machine
import Mathlib.Data.List.Sublists

/-!
Lossy first-in first-out channels.

A bounded channel under load has to lose something, and what may be asked of it
is that nothing else goes wrong: what it keeps is in the order it was offered,
nothing is kept twice, and what is missing is counted. `Fifo` is that promise as
a type. Its values carry the order and the count as fields, and its three
operations are the three things an offer can do.
-/

namespace KalshiAutotrader.Kit

universe u

/-- The history of a lossy channel: what was offered, what of it was kept, and
how many were lost. -/
@[ext] structure Fifo (α : Type u) where
  offered : List α
  kept : List α
  lost : ℕ
  /-- What was kept is in the order it was offered, each item at most as often. -/
  ordered : kept.Sublist offered
  /-- Whatever was not kept was counted. -/
  counted : offered.length = kept.length + lost

namespace Fifo

variable {α : Type u}

def empty : Fifo α := ⟨[], [], 0, .slnil, rfl⟩

/-- The offered item is kept. -/
def keep (c : Fifo α) (x : α) : Fifo α where
  offered := c.offered ++ [x]
  kept := c.kept ++ [x]
  lost := c.lost
  ordered := c.ordered.append_right [x]
  counted := by
    have := c.counted
    simp only [List.length_append, List.length_singleton]
    omega

/-- The offered item is the one that is lost. -/
def refuse (c : Fifo α) (x : α) : Fifo α where
  offered := c.offered ++ [x]
  kept := c.kept
  lost := c.lost + 1
  ordered := c.ordered.trans (List.sublist_append_left _ _)
  counted := by
    have := c.counted
    simp only [List.length_append, List.length_singleton]
    omega

/-- The offered item is kept, and an item kept so far is lost for it. -/
def evict (c : Fifo α) (x : α) (front : List α) (y : α) (back : List α)
    (h : c.kept = front ++ y :: back) : Fifo α where
  offered := c.offered ++ [x]
  kept := front ++ back ++ [x]
  lost := c.lost + 1
  ordered := by
    have hsub : (front ++ back).Sublist c.kept := by
      rw [h]
      exact (List.sublist_cons_self y back).append_left front
    exact (hsub.trans c.ordered).append_right [x]
  counted := by
    have hlen := c.counted
    rw [h] at hlen
    simp only [List.length_append, List.length_cons, List.length_nil] at hlen ⊢
    omega

/-- One offer. -/
inductive Step : Fifo α → Fifo α → Prop
  | keep (c : Fifo α) (x : α) : Step c (c.keep x)
  | refuse (c : Fifo α) (x : α) : Step c (c.refuse x)
  | evict (c : Fifo α) (x : α) (front : List α) (y : α) (back : List α)
      (h : c.kept = front ++ y :: back) : Step c (c.evict x front y back h)

/-- Distinct offers are kept at most once each. -/
theorem nodup_kept (c : Fifo α) (h : c.offered.Nodup) : c.kept.Nodup := h.sublist c.ordered

end Fifo

end KalshiAutotrader.Kit
