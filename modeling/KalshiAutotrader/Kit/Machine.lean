import Mathlib.Data.List.Induction
import Mathlib.Logic.Relation

/-!
Machines with partial actions, and their runs.

A concurrent or event-driven program is given as one function: the state after
an action, or `none` where the action cannot happen. A run is a list of
actions, so a scenario is a value that evaluates, and a set of runs is a
condition on the steps. The rules of this file are the only inductions over
runs: an invariant is checked on one step and holds wherever a run gets to, and
a machine that simulates another one inherits its invariants.
-/

namespace KalshiAutotrader.Kit

universe u v

/-- A machine: where it starts, and the state after an action. -/
structure Machine (σ : Type u) (α : Type v) where
  start : σ
  next : σ → α → Option σ

namespace Machine

variable {σ : Type u} {α : Type v}

/-- The state a list of actions leads to, when all of them can happen. -/
def exec (M : Machine σ α) : σ → List α → Option σ
  | s, [] => some s
  | s, a :: as => (M.next s a).bind fun s' => M.exec s' as

/-- Every step of the run meets `P`, a condition on the state before the step
and the action. -/
def Along (M : Machine σ α) (P : σ → α → Prop) : σ → List α → Prop
  | _, [] => True
  | s, a :: as => P s a ∧ ∀ s' ∈ M.next s a, M.Along P s' as

/-- `Along` is decided by running the machine. -/
instance instDecidableAlong (M : Machine σ α) (P : σ → α → Prop)
    [∀ s a, Decidable (P s a)] : ∀ s as, Decidable (M.Along P s as)
  | _, [] => isTrue trivial
  | s, a :: as =>
      match h : M.next s a with
      | none => decidable_of_iff (P s a) (by simp [Along, h])
      | some s' =>
          have := instDecidableAlong M P s' as
          decidable_of_iff (P s a ∧ M.Along P s' as) (by simp [Along, h])

/-- The states reached by the runs whose steps all meet `P`. -/
inductive Reach (M : Machine σ α) (P : σ → α → Prop) : σ → Prop
  | start : Reach M P M.start
  | step {s s' : σ} {a : α} :
      Reach M P s → P s a → M.next s a = some s' → Reach M P s'

/-- The states reached by any run. -/
abbrev Reachable (M : Machine σ α) : σ → Prop := M.Reach fun _ _ => True

variable {M : Machine σ α} {P Q : σ → α → Prop} {s s' : σ} {a : α} {as bs : List α}

@[simp] theorem exec_nil : M.exec s [] = some s := rfl

theorem exec_cons : M.exec s (a :: as) = (M.next s a).bind fun s' => M.exec s' as := rfl

theorem exec_cons_eq_some :
    M.exec s (a :: as) = some s' ↔ ∃ m, M.next s a = some m ∧ M.exec m as = some s' := by
  rw [exec_cons, Option.bind_eq_some_iff]

theorem exec_append : M.exec s (as ++ bs) = (M.exec s as).bind fun m => M.exec m bs := by
  induction as generalizing s with
  | nil => rfl
  | cons a as ih =>
      simp only [List.cons_append, exec_cons, Option.bind_assoc]
      exact congrArg _ (funext fun m => ih)

/-- The invariant rule: what holds at the start and survives every step that
meets `P` holds of every state such runs reach. -/
theorem Reach.invariant {I : σ → Prop} (h0 : I M.start)
    (hstep : ∀ {s a s'}, I s → P s a → M.next s a = some s' → I s')
    (h : M.Reach P s) : I s := by
  induction h with
  | start => exact h0
  | step _ hP hnext ih => exact hstep ih hP hnext

theorem Reach.mono (hPQ : ∀ s a, P s a → Q s a) (h : M.Reach P s) : M.Reach Q s := by
  induction h with
  | start => exact .start
  | step _ hP hnext ih => exact .step ih (hPQ _ _ hP) hnext

theorem Reach.reachable (h : M.Reach P s) : M.Reachable s :=
  h.mono fun _ _ _ => trivial

/-- A run whose steps all meet `P` stays inside what such runs reach. -/
theorem Reach.exec (h : M.Reach P s) (hAlong : M.Along P s as)
    (hexec : M.exec s as = some s') : M.Reach P s' := by
  induction as generalizing s with
  | nil =>
      obtain rfl := Option.some.inj hexec
      exact h
  | cons a as ih =>
      obtain ⟨m, hnext, hrest⟩ := exec_cons_eq_some.mp hexec
      exact ih (.step h hAlong.1 hnext) (hAlong.2 m hnext) hrest

theorem reach_of_exec (hAlong : M.Along P M.start as) (hexec : M.exec M.start as = some s) :
    M.Reach P s :=
  Reach.exec .start hAlong hexec

theorem along_of_forall (h : ∀ s a, P s a) : M.Along P s as := by
  induction as generalizing s with
  | nil => trivial
  | cons a as ih => exact ⟨h s a, fun _ _ => ih⟩

theorem reachable_of_exec (hexec : M.exec M.start as = some s) : M.Reachable s :=
  reach_of_exec (along_of_forall fun _ _ => trivial) hexec

/-- The rule for runs of any length: if a stretch of actions always leads from one stage
to the next, every stage is reached. -/
theorem exists_reachable_of_stages {I : ℕ → σ → Prop} (h0 : ∃ s, M.Reachable s ∧ I 0 s)
    (hstage : ∀ {n s}, I n s → ∃ as s', M.exec s as = some s' ∧ I (n + 1) s') (n : ℕ) :
    ∃ s, M.Reachable s ∧ I n s := by
  induction n with
  | zero => exact h0
  | succ n ih =>
      obtain ⟨s, hs, hI⟩ := ih
      obtain ⟨as, s', hexec, hI'⟩ := hstage hI
      exact ⟨s', hs.exec (along_of_forall fun _ _ => trivial) hexec, hI'⟩

/-- What is reached is reached by a run. -/
theorem exists_exec_of_reach (h : M.Reach P s) : ∃ as, M.exec M.start as = some s := by
  induction h with
  | start => exact ⟨[], rfl⟩
  | @step s s' a _ _ hnext ih =>
      obtain ⟨as, has⟩ := ih
      exact ⟨as ++ [a], by simp [exec_append, has, exec_cons, hnext]⟩

theorem along_snoc :
    M.Along P s (as ++ [a]) ↔ M.Along P s as ∧ ∀ m ∈ M.exec s as, P m a := by
  induction as generalizing s with
  | nil => simp [Along]
  | cons b as ih =>
      simp only [List.cons_append, Along, ih, exec_cons, Option.mem_def,
        Option.bind_eq_some_iff]
      constructor
      · rintro ⟨hb, hrest⟩
        exact ⟨⟨hb, fun m hm => (hrest m hm).1⟩, fun r ⟨m, hm, hr⟩ => (hrest m hm).2 r hr⟩
      · rintro ⟨⟨hb, hrest⟩, hlast⟩
        exact ⟨hb, fun m hm => ⟨hrest m hm, fun r hr => hlast r ⟨m, hm, hr⟩⟩⟩

/-- Induction over a run from its start, one more action at its end. -/
theorem run_induction {C : List α → σ → Prop} (h0 : C [] M.start)
    (hstep : ∀ {as s a s'}, M.exec M.start as = some s → C as s →
      M.next s a = some s' → C (as ++ [a]) s')
    (hexec : M.exec M.start as = some s) : C as s := by
  induction as using List.reverseRecOn generalizing s with
  | nil =>
      obtain rfl := Option.some.inj hexec
      exact h0
  | append_singleton as a ih =>
      rw [exec_append, Option.bind_eq_some_iff] at hexec
      obtain ⟨m, hm, hlast⟩ := hexec
      obtain ⟨r, hr, hrest⟩ := exec_cons_eq_some.mp hlast
      obtain rfl := Option.some.inj hrest
      exact hstep hm (ih hm) hr

/-- A run whose steps meet `P` has every property of a step that `P` ensures in
the states such runs reach. -/
theorem Along.of_reach (hPQ : ∀ {s a}, M.Reach P s → P s a → Q s a)
    (hs : M.Reach P s) (h : M.Along P s as) : M.Along Q s as := by
  induction as generalizing s with
  | nil => trivial
  | cons a as ih =>
      exact ⟨hPQ hs h.1, fun m hm => ih (.step hs h.1 hm) (h.2 m hm)⟩

/-- A reflexive and transitive relation that every step respects relates the
two ends of a run. -/
theorem exec_rel {R : σ → σ → Prop} (hrefl : ∀ s, R s s)
    (htrans : ∀ {s t u}, R s t → R t u → R s u)
    (hstep : ∀ {s a s'}, M.next s a = some s' → R s s')
    (hexec : M.exec s as = some s') : R s s' := by
  induction as generalizing s with
  | nil =>
      obtain rfl := Option.some.inj hexec
      exact hrefl s
  | cons a as ih =>
      obtain ⟨m, hnext, hrest⟩ := exec_cons_eq_some.mp hexec
      exact htrans (hstep hnext) (ih hrest)

/-- The lockstep rule: two machines that look alike and take steps that look alike have
runs that look alike, and the same ones. -/
theorem exec_lockstep {ρ τ : Type*} {N : Machine ρ α} {v : σ → τ} {w : ρ → τ}
    (hstep : ∀ {s t a}, v s = w t → (M.next s a).map v = (N.next t a).map w) {t : ρ}
    (hst : v s = w t) : (M.exec s as).map v = (N.exec t as).map w := by
  induction as generalizing s t with
  | nil => exact congrArg some hst
  | cons a as ih =>
      have hnext := hstep (a := a) hst
      rw [exec_cons, exec_cons]
      cases hs : M.next s a with
      | none =>
          rw [hs] at hnext
          rw [Option.map_eq_none_iff.mp hnext.symm]
          rfl
      | some s' =>
          rw [hs] at hnext
          obtain ⟨t', ht, hst'⟩ := Option.map_eq_some_iff.mp hnext.symm
          rw [ht]
          exact ih hst'.symm

/-- The simulation rule: when every step is matched by zero or more steps of an
abstract relation, every state reached is related to one reached there. -/
theorem Reach.simulates {τ : Type*} {T : τ → τ → Prop} {R : σ → τ → Prop} {t0 : τ}
    (h0 : R M.start t0)
    (hstep : ∀ {s a s' t}, R s t → P s a → M.next s a = some s' →
      ∃ t', Relation.ReflTransGen T t t' ∧ R s' t')
    (h : M.Reach P s) : ∃ t, Relation.ReflTransGen T t0 t ∧ R s t := by
  induction h with
  | start => exact ⟨t0, .refl, h0⟩
  | step _ hP hnext ih =>
      obtain ⟨t, ht, hR⟩ := ih
      obtain ⟨t', ht', hR'⟩ := hstep hR hP hnext
      exact ⟨t', ht.trans ht', hR'⟩

/-! ### Progress -/

/-- The variant rule: when every step that meets `P` keeps `I` and makes a measure smaller, a
run of such steps is no longer than the measure at its start. -/
theorem length_le_of_variant {I : σ → Prop} {μ : σ → ℕ}
    (hstep : ∀ {s a s'}, I s → P s a → M.next s a = some s' → I s' ∧ μ s' < μ s)
    (hs : I s) (hAlong : M.Along P s as) (hexec : M.exec s as = some s') :
    I s' ∧ as.length + μ s' ≤ μ s := by
  induction as generalizing s with
  | nil =>
      obtain rfl := Option.some.inj hexec
      exact ⟨hs, by simp⟩
  | cons a as ih =>
      obtain ⟨m, hnext, hrest⟩ := exec_cons_eq_some.mp hexec
      obtain ⟨hm, hless⟩ := hstep hs hAlong.1 hnext
      obtain ⟨hs', hbound⟩ := ih hm (hAlong.2 m hnext) hrest
      refine ⟨hs', ?_⟩
      rw [List.length_cons]
      omega

/-- The ranking rule, for the steps of one party among those of others: when the steps of
the party lower a bound by one and no other step raises it, the bound after a run is lower
by the number of the party's steps in it. -/
theorem Reach.exec_rank {R : σ → ℕ → Prop} (mine : α → Bool)
    (hstep : ∀ {s a s' n}, M.Reach P s → R s n → P s a → M.next s a = some s' →
      R s' (n - if mine a then 1 else 0))
    (hs : M.Reach P s) {n : ℕ} (hR : R s n) (hAlong : M.Along P s as)
    (hexec : M.exec s as = some s') : R s' (n - as.countP mine) := by
  induction as generalizing s n with
  | nil =>
      obtain rfl := Option.some.inj hexec
      simpa using hR
  | cons a as ih =>
      obtain ⟨m, hnext, hrest⟩ := exec_cons_eq_some.mp hexec
      have hbound := ih (.step hs hAlong.1 hnext) (hstep hs hR hAlong.1 hnext)
        (hAlong.2 m hnext) hrest
      rwa [Nat.sub_sub, Nat.add_comm, ← List.countP_cons] at hbound

/-! ### History variables -/

/-- The machine with a variable that is told of every step and has no part in any. -/
def withHistory {η : Type*} (M : Machine σ α) (init : η) (update : η → σ → α → σ → η) :
    Machine (σ × η) α where
  start := (M.start, init)
  next p a := (M.next p.1 a).map fun s' => (s', update p.2 p.1 a s')

theorem withHistory_next {η : Type*} {init : η} {update : η → σ → α → σ → η} {p p' : σ × η} :
    (M.withHistory init update).next p a = some p' ↔
      ∃ s', M.next p.1 a = some s' ∧ (s', update p.2 p.1 a s') = p' :=
  Option.map_eq_some_iff

/-- Without its history, a run is one of the machine. -/
theorem Reach.forget {η : Type*} {init : η} {update : η → σ → α → σ → η} {p : σ × η}
    (h : (M.withHistory init update).Reach (fun p => P p.1) p) : M.Reach P p.1 := by
  induction h with
  | start => exact .start
  | step _ hP hnext ih =>
      obtain ⟨s', hs', rfl⟩ := withHistory_next.mp hnext
      exact .step ih hP hs'

/-- Every run of the machine has a history. -/
theorem Reach.remember {η : Type*} (init : η) (update : η → σ → α → σ → η) (h : M.Reach P s) :
    ∃ e, (M.withHistory init update).Reach (fun p => P p.1) (s, e) := by
  induction h with
  | start => exact ⟨init, .start⟩
  | @step s s' a _ hP hnext ih =>
      obtain ⟨e, he⟩ := ih
      exact ⟨_, .step he hP (withHistory_next.mpr ⟨s', hnext, rfl⟩)⟩

end Machine

end KalshiAutotrader.Kit
