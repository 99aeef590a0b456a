import Mathlib.Data.List.DropRight
import Mathlib.Algebra.Ring.Nat

/-!
Bounded buffers that are emptied as a whole.

A producer offers items one by one, and a full buffer gives way at one of its
ends. What the consumer takes is then a window of what was offered since it took
last: the end of it when the oldest items give way, the beginning when the newest
do. Nothing about the order in which producer and consumer run is left in that
statement but the places where the offers are cut into batches.
-/

namespace KalshiAutotrader.Kit

universe u

/-- Which items of a full buffer give way. -/
inductive Evict | oldest | newest
  deriving DecidableEq

namespace Evict

variable {α : Type u}

/-- One offer to a buffer of this size. -/
def offer (e : Evict) (size : ℕ) (buffer : List α) (x : α) : List α :=
  if size ≤ buffer.length then
    match e with
    | .oldest => buffer.tail ++ [x]
    | .newest => buffer
  else buffer ++ [x]

/-- What is left of a batch of offers. -/
def window (e : Evict) (size : ℕ) (batch : List α) : List α :=
  match e with
  | .oldest => batch.rtake size
  | .newest => batch.take size

/-- How many offers of a batch are lost. -/
def overflow (size : ℕ) (batch : List α) : ℕ := batch.length - size

@[simp] theorem window_nil (e : Evict) (size : ℕ) : e.window size ([] : List α) = [] := by
  cases e <;> simp [window]

@[simp] theorem overflow_nil (size : ℕ) : overflow size ([] : List α) = 0 := by simp [overflow]

@[simp] theorem length_window (e : Evict) (size : ℕ) (batch : List α) :
    (e.window size batch).length = min size batch.length := by
  cases e with
  | oldest =>
      rw [window, List.rtake, List.length_drop]
      omega
  | newest => rw [window, List.length_take]

/-- A batch that fits is kept as a whole. -/
theorem window_eq_self {e : Evict} {size : ℕ} {batch : List α} (h : batch.length ≤ size) :
    e.window size batch = batch := by
  cases e with
  | oldest => rw [window, List.rtake, Nat.sub_eq_zero_of_le h, List.drop_zero]
  | newest => rw [window, List.take_of_length_le h]

theorem overflow_eq_zero_iff {size : ℕ} {batch : List α} :
    overflow size batch = 0 ↔ batch.length ≤ size := by
  rw [overflow]
  omega

/-- The window moves along with the offers. -/
theorem window_snoc (e : Evict) {size : ℕ} (hsize : 1 ≤ size) (batch : List α) (x : α) :
    e.window size (batch ++ [x]) = e.offer size (e.window size batch) x := by
  unfold offer
  rw [length_window]
  by_cases hfull : size ≤ batch.length
  · rw [if_pos (by omega)]
    cases e with
    | oldest =>
        have hcut : batch.length + 1 - size = batch.length - size + 1 := by omega
        simp only [window, List.rtake, List.length_append, List.length_singleton, hcut]
        rw [List.drop_append_of_le_length (by omega), List.tail_drop]
    | newest => exact List.take_append_of_le_length hfull
  · have hfits : (batch ++ [x]).length ≤ size := by
      rw [List.length_append, List.length_singleton]
      omega
    rw [if_neg (by omega), window_eq_self hfits, window_eq_self (by omega)]

theorem overflow_snoc (e : Evict) (size : ℕ) (batch : List α) (x : α) :
    overflow size (batch ++ [x]) =
      overflow size batch + if size ≤ (e.window size batch).length then 1 else 0 := by
  rw [overflow, overflow, length_window, List.length_append, List.length_singleton]
  split <;> omega

theorem sum_overflow_eq_zero_iff {size : ℕ} {batches : List (List α)} :
    (batches.map (overflow size)).sum = 0 ↔ ∀ batch ∈ batches, batch.length ≤ size := by
  induction batches with
  | nil => simp
  | cons batch batches ih =>
      rw [List.map_cons, List.sum_cons, Nat.add_eq_zero_iff, ih, overflow_eq_zero_iff,
        List.forall_mem_cons]

end Evict

end KalshiAutotrader.Kit
