import Mathlib.Data.List.Count
import Mathlib.Logic.Function.Iterate

/-!
Calls to several objects at once.

The objects are a family of states, and a list of references says which of them are
called. Nothing keeps two references from being to one object, which is then called twice.
From the outside each object behaves as if it were alone and got every call as often as
it is referred to.
-/

namespace KalshiAutotrader.Kit

universe u v w

variable {ι : Type u} {σ : ι → Type v} {α : Type w} [DecidableEq ι]

/-- The call is made to every object referred to, in order. -/
def broadcast (call : ∀ i, σ i → α → σ i) (refs : List ι) (state : ∀ i, σ i) (a : α) :
    ∀ i, σ i :=
  refs.foldl (fun state i => Function.update state i (call i (state i) a)) state

theorem broadcast_apply (call : ∀ i, σ i → α → σ i) (refs : List ι) (state : ∀ i, σ i) (a : α)
    (i : ι) :
    broadcast call refs state a i = (List.replicate (refs.count i) a).foldl (call i) (state i) := by
  induction refs generalizing state with
  | nil => rfl
  | cons j refs ih =>
      have hcons : broadcast call (j :: refs) state a =
          broadcast call refs (Function.update state j (call j (state j) a)) a := rfl
      rw [hcons, ih]
      by_cases hij : i = j
      · subst hij
        rw [Function.update_self, List.count_cons_self, List.replicate_succ, List.foldl_cons]
      · rw [Function.update_of_ne hij, List.count_cons_of_ne (Ne.symm hij)]

/-- Over a list of calls, each object gets every call as often as it is referred to. -/
theorem foldl_broadcast (call : ∀ i, σ i → α → σ i) (refs : List ι) (state : ∀ i, σ i)
    (as : List α) (i : ι) :
    as.foldl (broadcast call refs) state i =
      (as.flatMap (List.replicate (refs.count i))).foldl (call i) (state i) := by
  induction as generalizing state with
  | nil => rfl
  | cons a as ih =>
      rw [List.foldl_cons, ih, broadcast_apply, List.flatMap_cons, List.foldl_append]

end KalshiAutotrader.Kit
