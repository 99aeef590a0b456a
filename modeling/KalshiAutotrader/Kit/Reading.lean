import Mathlib.Data.List.Basic

/-!
Fallible computations over a hidden state.

A reader of a document moves a cursor, and where the cursor stands should make
no difference. `Answers` says so for one computation: from every state that
meets `C` it gives the same answer, and `C` still holds afterwards. The rules
follow the shape of the computation, so its answer can be read off without
running it.
-/

namespace KalshiAutotrader.Kit

universe u

abbrev Reading (σ ε α : Type u) := ExceptT ε (StateM σ) α

namespace Reading

variable {σ ε ε' α β : Type u}

/-- The answer and the state after it. -/
def runFrom (p : Reading σ ε α) (s : σ) : Except ε α × σ := p.run s

/-- The computation with its errors renamed. -/
def mapError (f : ε → ε') (p : Reading σ ε α) : Reading σ ε' α :=
  fun s => ((p.runFrom s).1.mapError f, (p.runFrom s).2)

/-- The answer as a value, error or not. -/
def observe (p : Reading σ ε α) : Reading σ ε' (Except ε α) :=
  fun s => (.ok (p.runFrom s).1, (p.runFrom s).2)

/-- From every state in `C` the answer is `r`, and the state stays in `C`. -/
def Answers (C : σ → Prop) (p : Reading σ ε α) (r : Except ε α) : Prop :=
  ∀ s, C s → (p.runFrom s).1 = r ∧ C (p.runFrom s).2

variable {C : σ → Prop} {p : Reading σ ε α} {r : Except ε α} {f : α → Reading σ ε β}

theorem answers_pure (a : α) : Answers C (pure a : Reading σ ε α) (.ok a) :=
  fun _ hs => ⟨rfl, hs⟩

theorem answers_throw (e : ε) : Answers C (throw e : Reading σ ε α) (.error e) :=
  fun _ hs => ⟨rfl, hs⟩

theorem answers_ofExcept (r : Except ε α) : Answers C (ofExcept r : Reading σ ε α) r := by
  cases r with
  | ok a => exact answers_pure a
  | error e => exact answers_throw e

theorem Answers.ite {P : Prop} [Decidable P] {q : Reading σ ε α} {r' : Except ε α}
    (hp : P → Answers C p r) (hq : ¬ P → Answers C q r') :
    Answers C (if P then p else q) (if P then r else r') := by
  split
  · next h => exact hp h
  · next h => exact hq h

theorem runFrom_bind (s : σ) :
    (p >>= f).runFrom s = match p.runFrom s with
      | (.ok a, s') => (f a).runFrom s'
      | (.error e, s') => (.error e, s') := by
  simp only [runFrom, ExceptT.run, bind, ExceptT.bind, ExceptT.mk, StateT.bind]
  cases p s with
  | mk answer s' => cases answer <;> rfl

/-- What comes first answers first. The rest need only answer to what can come. -/
theorem Answers.bind {g : α → Except ε β} (hp : Answers C p r)
    (hf : ∀ a, r = .ok a → Answers C (f a) (g a)) : Answers C (p >>= f) (r >>= g) := by
  intro s hs
  obtain ⟨hanswer, hstate⟩ := hp s hs
  rw [runFrom_bind]
  cases hrun : p.runFrom s with
  | mk answer s' =>
      rw [hrun] at hanswer hstate
      subst hanswer
      cases answer with
      | ok a => exact hf a rfl s' hstate
      | error e => exact ⟨rfl, hstate⟩

theorem Answers.bind_ok {a : α} {r' : Except ε β} (hp : Answers C p (.ok a))
    (hf : Answers C (f a) r') : Answers C (p >>= f) r' :=
  hp.bind (g := fun _ => r') fun b hb => by
    obtain rfl := Except.ok.inj hb
    exact hf

theorem Answers.map (g : α → β) (hp : Answers C p r) : Answers C (g <$> p) (g <$> r) := by
  rw [map_eq_pure_bind, map_eq_pure_bind]
  exact hp.bind fun a _ => answers_pure (g a)

theorem Answers.mapError (g : ε → ε') (hp : Answers C p r) :
    Answers C (p.mapError g) (r.mapError g) :=
  fun s hs => ⟨congrArg (Except.mapError g) (hp s hs).1, (hp s hs).2⟩

theorem Answers.observe (hp : Answers C p r) :
    Answers C (p.observe : Reading σ ε' (Except ε α)) (.ok r) :=
  fun s hs => ⟨congrArg Except.ok (hp s hs).1, (hp s hs).2⟩

theorem Answers.mapM {α β : Type u} {f : α → Reading σ ε β} {g : α → Except ε β}
    (hf : ∀ a, Answers C (f a) (g a)) (as : List α) : Answers C (as.mapM f) (as.mapM g) := by
  induction as with
  | nil => exact answers_pure []
  | cons a as ih =>
      rw [List.mapM_cons, List.mapM_cons]
      exact (hf a).bind fun b _ => ih.bind fun bs _ => answers_pure (b :: bs)

theorem Answers.mapM_map {α β γ : Type u} {f : α → Reading σ ε β} {g : γ → Except ε β} {w : γ → α}
    (hf : ∀ c, Answers C (f (w c)) (g c)) (cs : List γ) :
    Answers C ((cs.map w).mapM f) (cs.mapM g) := by
  rw [List.mapM_map]
  exact .mapM hf cs

end Reading

/-! ### Outcomes

Where the answer depends on the state, it may still have a property. `Yields` says
that it does from every state that meets `C`, whether it is a value or an error. -/

namespace Reading

variable {σ ε ε' α β : Type u}

/-- From every state in `C` the answer satisfies `P`, and the state stays in `C`. -/
def Yields (C : σ → Prop) (p : Reading σ ε α) (P : Except ε α → Prop) : Prop :=
  ∀ s, C s → P (p.runFrom s).1 ∧ C (p.runFrom s).2

variable {C : σ → Prop} {p q : Reading σ ε α} {r : Except ε α} {f : α → Reading σ ε β}
  {P P' : Except ε α → Prop} {Q : Except ε β → Prop}

/-- An answer that is known is an outcome. -/
theorem Answers.yields (hp : Answers C p r) (h : P r) : Yields C p P := by
  intro s hs
  obtain ⟨hanswer, hstate⟩ := hp s hs
  exact ⟨hanswer ▸ h, hstate⟩

theorem Yields.mono (hp : Yields C p P) (h : ∀ r, P r → P' r) : Yields C p P' :=
  fun s hs => ⟨h _ (hp s hs).1, (hp s hs).2⟩

theorem Yields.bind (hp : Yields C p P) (hok : ∀ a, P (.ok a) → Yields C (f a) Q)
    (herror : ∀ e, P (.error e) → Q (.error e)) : Yields C (p >>= f) Q := by
  intro s hs
  obtain ⟨hanswer, hstate⟩ := hp s hs
  rw [runFrom_bind]
  cases hrun : p.runFrom s with
  | mk answer s' =>
      rw [hrun] at hanswer hstate
      cases answer with
      | ok a => exact hok a hanswer s' hstate
      | error e => exact ⟨herror e hanswer, hstate⟩

theorem Yields.mapError {P : Except ε' α → Prop} {p : Reading σ ε' α} (g : ε' → ε)
    (hp : Yields C p P) (h : ∀ r, P r → P' (r.mapError g)) : Yields C (p.mapError g) P' :=
  fun s hs => ⟨h _ (hp s hs).1, (hp s hs).2⟩

theorem Yields.observe {P' : Except ε' (Except ε α) → Prop} (hp : Yields C p P)
    (h : ∀ r, P r → P' (.ok r)) : Yields C p.observe P' :=
  fun s hs => ⟨h _ (hp s hs).1, (hp s hs).2⟩

theorem Yields.ite {R : Prop} [Decidable R] (hp : R → Yields C p P) (hq : ¬ R → Yields C q P) :
    Yields C (if R then p else q) P := by
  split
  · next h => exact hp h
  · next h => exact hq h

end Reading

/-! ### Postconditions

`Ensures` is the weaker statement that holds from every state: whatever the
computation answers with, if it answers, has a property. -/

namespace Reading

variable {σ ε ε' α β : Type u}

/-- Every answer satisfies `P`. -/
def Ensures (p : Reading σ ε α) (P : α → Prop) : Prop :=
  ∀ s a, (p.runFrom s).1 = .ok a → P a

variable {p : Reading σ ε α} {f : α → Reading σ ε β} {P : α → Prop} {Q : β → Prop}

theorem ensures_trivial : Ensures p fun _ => True := fun _ _ _ => trivial

theorem ensures_pure {a : α} (h : P a) : Ensures (pure a : Reading σ ε α) P := by
  intro s b hb
  obtain rfl := Except.ok.inj hb
  exact h

theorem ensures_ofExcept {r : Except ε α} (h : ∀ a, r = .ok a → P a) :
    Ensures (ofExcept r : Reading σ ε α) P := by
  cases r with
  | error e => exact fun _ _ hb => by cases hb
  | ok a => exact ensures_pure (h a rfl)

theorem Ensures.bind (hp : Ensures p P) (hf : ∀ a, P a → Ensures (f a) Q) :
    Ensures (p >>= f) Q := by
  intro s b hb
  rw [runFrom_bind] at hb
  cases hrun : p.runFrom s with
  | mk answer s' =>
      rw [hrun] at hb
      cases answer with
      | error e => cases hb
      | ok a => exact hf a (hp s a (by rw [hrun])) s' b hb

/-- What comes first may answer with anything. -/
theorem ensures_bind (hf : ∀ a, Ensures (f a) Q) : Ensures (p >>= f) Q :=
  ensures_trivial.bind fun a _ => hf a

theorem Ensures.observe (hp : Ensures p P) :
    Ensures (p.observe : Reading σ ε' (Except ε α)) fun r => ∀ a, r = .ok a → P a :=
  fun s _ hr a ha => hp s a ((Except.ok.inj hr).trans ha)

theorem Ensures.mapM {γ : Type u} {g : γ → Reading σ ε α} (hg : ∀ c, Ensures (g c) P)
    (cs : List γ) : Ensures (cs.mapM g) fun as => ∀ a ∈ as, P a := by
  induction cs with
  | nil => exact ensures_pure (by simp)
  | cons c cs ih =>
      rw [List.mapM_cons]
      refine (hg c).bind fun a ha => ih.bind fun as has => ensures_pure ?_
      exact List.forall_mem_cons.mpr ⟨ha, has⟩

end Reading

/-! ### Triples

Where the state matters as much as the answer, a computation has a condition before it
and two after it, one for its values and one for its errors. -/

namespace Reading

variable {σ ε α β : Type u}

/-- From every state in `P`, a value `a` leaves a state in `Q a` and an error `e` one in
`E e`. -/
def Triple (P : σ → Prop) (p : Reading σ ε α) (Q : α → σ → Prop) (E : ε → σ → Prop) : Prop :=
  ∀ s, P s → match p.runFrom s with
    | (.ok a, s') => Q a s'
    | (.error e, s') => E e s'

variable {P : σ → Prop} {p : Reading σ ε α} {f : α → Reading σ ε β} {Q : α → σ → Prop}
  {R : β → σ → Prop} {E : ε → σ → Prop}

/-- What holds after it, however it ends. -/
theorem Triple.state {I : σ → Prop} (hp : Triple P p (fun _ => I) fun _ => I) {s : σ} (hs : P s) :
    I (p.runFrom s).2 := by
  have hrun := hp s hs
  revert hrun
  cases p.runFrom s with
  | mk answer s' => cases answer <;> exact id

theorem Triple.mono {Q' : α → σ → Prop} (hp : Triple P p Q E) (h : ∀ a s, Q a s → Q' a s) :
    Triple P p Q' E := by
  intro s hs
  have hrun := hp s hs
  revert hrun
  cases p.runFrom s with
  | mk answer s' => cases answer with
    | ok a => exact h a s'
    | error e => exact id

theorem Triple.bind (hp : Triple P p Q E) (hf : ∀ a, Triple (Q a) (f a) R E) :
    Triple P (p >>= f) R E := by
  intro s hs
  have hfirst := hp s hs
  rw [runFrom_bind]
  cases hrun : p.runFrom s with
  | mk answer s' =>
      rw [hrun] at hfirst
      cases answer with
      | ok a => exact hf a s' hfirst
      | error e => exact hfirst

end Reading

/-! ### The answers of one run -/

namespace Reading

variable {σ ε ε' α β : Type u} {p : Reading σ ε α} {f : α → Reading σ ε β} {s s' : σ}

theorem runFrom_bind_eq_ok {b : β} : (p >>= f).runFrom s = (.ok b, s') ↔
    ∃ a t, p.runFrom s = (.ok a, t) ∧ (f a).runFrom t = (.ok b, s') := by
  rw [runFrom_bind]
  cases hrun : p.runFrom s with
  | mk answer t => cases answer <;> simp

theorem runFrom_observe_eq_ok {r : Except ε α} :
    (p.observe : Reading σ ε' (Except ε α)).runFrom s = (.ok r, s') ↔ p.runFrom s = (r, s') := by
  simp [runFrom, observe, ExceptT.run, Prod.ext_iff]

theorem runFrom_mapError_eq_ok {g : ε → ε'} {a : α} :
    (p.mapError g).runFrom s = (.ok a, s') ↔ p.runFrom s = (.ok a, s') := by
  simp only [runFrom, mapError, ExceptT.run]
  cases p s with
  | mk answer t => cases answer <;> simp [Except.mapError]

@[simp] theorem runFrom_ofExcept (r : Except ε α) :
    (ofExcept r : Reading σ ε α).runFrom s = (r, s) := by
  cases r <;> rfl

end Reading

/-! ### Fallible computations without a state -/

theorem bind_eq_ok {ε α β : Type u} {x : Except ε α} {f : α → Except ε β} {b : β} :
    (x >>= f) = .ok b ↔ ∃ a, x = .ok a ∧ f a = .ok b := by
  cases x with
  | error e => simp [bind, Except.bind]
  | ok a => simp [bind, Except.bind]

theorem bind_eq_error {ε α β : Type u} {x : Except ε α} {f : α → Except ε β} {e : ε} :
    (x >>= f) = .error e ↔ x = .error e ∨ ∃ a, x = .ok a ∧ f a = .error e := by
  cases x with
  | error e' => simp [bind, Except.bind]
  | ok a => simp [bind, Except.bind]

theorem mapError_eq_error {ε ε' α : Type u} {x : Except ε α} {f : ε → ε'} {e' : ε'} :
    x.mapError f = .error e' ↔ ∃ e, x = .error e ∧ f e = e' := by
  cases x with
  | error e => simp [Except.mapError]
  | ok a => simp [Except.mapError]

theorem mapError_eq_ok {ε ε' α : Type u} {x : Except ε α} {f : ε → ε'} {a : α} :
    x.mapError f = .ok a ↔ x = .ok a := by
  cases x with
  | error e => simp [Except.mapError]
  | ok a => simp [Except.mapError]

theorem map_eq_ok {ε α β : Type u} {x : Except ε α} {f : α → β} {b : β} :
    f <$> x = .ok b ↔ ∃ a, x = .ok a ∧ f a = b := by
  cases x with
  | error e => simp [Functor.map, Except.map]
  | ok a => simp [Functor.map, Except.map]

theorem map_eq_error {ε α β : Type u} {x : Except ε α} {f : α → β} {e : ε} :
    f <$> x = .error e ↔ x = .error e := by
  cases x with
  | error e' => simp [Functor.map, Except.map]
  | ok a => simp [Functor.map, Except.map]

theorem ite_error_eq_ok {ε α : Type u} {P : Prop} [Decidable P] {e : ε} {x : Except ε α} {a : α} :
    (if P then .error e else x) = .ok a ↔ ¬ P ∧ x = .ok a := by
  split
  · next h => simp [h]
  · next h => simp [h]

theorem mapM_eq_ok {ε α β : Type u} {f : α → Except ε β} {as : List α} {bs : List β} :
    as.mapM f = .ok bs ↔ List.Forall₂ (fun a b => f a = .ok b) as bs := by
  induction as generalizing bs with
  | nil =>
      cases bs with
      | nil => exact ⟨fun _ => .nil, fun _ => rfl⟩
      | cons b bs =>
          refine ⟨fun h => ?_, fun h => by cases h⟩
          cases Except.ok.inj h
  | cons a as ih =>
      rw [List.mapM_cons, bind_eq_ok]
      constructor
      · rintro ⟨b, hb, hrest⟩
        obtain ⟨bs', hbs, heq⟩ := bind_eq_ok.mp hrest
        obtain rfl := Except.ok.inj heq
        exact .cons hb (ih.mp hbs)
      · rintro (_ | ⟨hb, hbs⟩)
        exact ⟨_, hb, bind_eq_ok.mpr ⟨_, ih.mpr hbs, rfl⟩⟩

/-! ### The errors of a computation

Where a computation has only one error to fail with, its answer is known once it is
known that it fails. -/

/-- A failure is the error `e`. -/
def Only {ε α : Type u} (e : ε) (x : Except ε α) : Prop := ∀ e', x = .error e' → e' = e

theorem only_ok {ε α : Type u} {e : ε} (a : α) : Only e (.ok a) := fun _ h => by cases h

theorem only_error {ε α : Type u} (e : ε) : Only e (.error e : Except ε α) :=
  fun _ h => (Except.error.inj h).symm

theorem Only.bind {ε α β : Type u} {e : ε} {x : Except ε α} {f : α → Except ε β} (hx : Only e x)
    (hf : ∀ a, Only e (f a)) : Only e (x >>= f) := by
  cases x with
  | error e' => exact fun _ h => hx _ (by rw [← Except.error.inj h])
  | ok a => exact hf a

theorem Only.ite {ε α : Type u} {e : ε} {P : Prop} [Decidable P] {x y : Except ε α}
    (hx : Only e x) (hy : Only e y) : Only e (if P then x else y) := by
  split
  · exact hx
  · exact hy

theorem Only.mapM {ε α β : Type u} {e : ε} {f : α → Except ε β} (hf : ∀ a, Only e (f a))
    (as : List α) : Only e (as.mapM f) := by
  induction as with
  | nil => exact only_ok []
  | cons a as ih =>
      rw [List.mapM_cons]
      exact (hf a).bind fun b => ih.bind fun bs => only_ok (b :: bs)

namespace Reading

variable {σ ε ε' α β : Type u} {e : ε}

/-- From every state, a failure is the error `e`. -/
def Fails (e : ε) (p : Reading σ ε α) : Prop := ∀ s, Only e (p.runFrom s).1

variable {p : Reading σ ε α} {f : α → Reading σ ε β}

theorem fails_ofExcept {r : Except ε α} (h : Only e r) : Fails e (ofExcept r : Reading σ ε α) := by
  intro s
  rw [runFrom_ofExcept]
  exact h

theorem fails_pure (a : α) : Fails e (pure a : Reading σ ε α) := fun _ => only_ok a

theorem fails_throw : Fails e (throw e : Reading σ ε α) := fun _ => only_error e

theorem fails_mapError (q : Reading σ ε' α) : Fails e (q.mapError fun _ => e) := by
  intro s
  show Only e ((q.runFrom s).1.mapError fun _ => e)
  cases (q.runFrom s).1 with
  | error e' => exact only_error e
  | ok a => exact only_ok a

theorem Fails.bind (hp : Fails e p) (hf : ∀ a, Fails e (f a)) : Fails e (p >>= f) := by
  intro s
  rw [runFrom_bind]
  have honly := hp s
  cases hrun : p.runFrom s with
  | mk answer t =>
      rw [hrun] at honly
      cases answer with
      | error e' =>
          obtain rfl := honly e' rfl
          exact only_error e'
      | ok a => exact hf a t

/-- What is observed does not fail here, but where its answer is used. -/
theorem Fails.observe_bind {g : Except ε α → Reading σ ε β} (hp : Fails e p)
    (hg : ∀ r, Only e r → Fails e (g r)) : Fails e (p.observe >>= g) := by
  intro s
  exact hg _ (hp s) _

theorem fails_observe_bind {q : Reading σ ε' α} {g : Except ε' α → Reading σ ε β}
    (hg : ∀ r, Fails e (g r)) : Fails e (q.observe >>= g) :=
  fun _ => hg _ _

theorem Fails.mapM {α β : Type u} {f : α → Reading σ ε β} (hf : ∀ a, Fails e (f a)) (as : List α) :
    Fails e (as.mapM f) := by
  induction as with
  | nil => exact fails_pure []
  | cons a as ih =>
      rw [List.mapM_cons]
      exact (hf a).bind fun b => ih.bind fun bs => fails_pure (b :: bs)

end Reading

end KalshiAutotrader.Kit
