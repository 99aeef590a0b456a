import KalshiAutotrader.Kit.Json

/-!
Values that differ only in what a reader does not look at.

A reader looks members up by name and goes into some of them. A `Layout` says
which names those are. A value is `Rearranged` when, in the objects of the
layout, members have been moved or members of other names have been added. As
long as the names of the layout are not repeated, a lookup finds the same in
both values, up to a rearrangement of what it finds.
-/

namespace KalshiAutotrader.Kit

namespace Json

/-- What a reader looks at: a value as it is, or the members of some names. -/
inductive Layout
  | whole
  | object (names : List (Bytes × Layout))

/-- The second value is the first one with members moved and others added, in the
objects the layout goes into. -/
inductive Rearranged : Layout → Json → Json → Prop
  | same {l : Layout} (v : Json) : Rearranged l v v
  | move {names : List (Bytes × Layout)} {ms ms' : List (Bytes × Json)} (h : ms.Perm ms') :
      Rearranged (.object names) (.obj ms) (.obj ms')
  | add {names : List (Bytes × Layout)} {ms : List (Bytes × Json)} {m : Bytes × Json}
      (h : names.lookup m.1 = none) : Rearranged (.object names) (.obj ms) (.obj (m :: ms))
  | inside {names : List (Bytes × Layout)} {pre post : List (Bytes × Json)} {name : Bytes}
      {l : Layout} {v v' : Json} (hname : names.lookup name = some l) (h : Rearranged l v v') :
      Rearranged (.object names) (.obj (pre ++ (name, v) :: post)) (.obj (pre ++ (name, v') :: post))
  | trans {l : Layout} {u v w : Json} (h : Rearranged l u v) (h' : Rearranged l v w) :
      Rearranged l u w

/-- Where the layout looks a name up, the name is not repeated. -/
inductive Clear : Layout → Json → Prop
  | whole (v : Json) : Clear .whole v
  | other {names : List (Bytes × Layout)} {v : Json} (h : ∀ ms, v ≠ .obj ms) :
      Clear (.object names) v
  | object {names : List (Bytes × Layout)} {ms : List (Bytes × Json)}
      (honce : ∀ name l, names.lookup name = some l → Once ms name)
      (hinside : ∀ name l, names.lookup name = some l → ∀ v, ms.lookup name = some v → Clear l v) :
      Clear (.object names) (.obj ms)

/-- An object that is not gone into any further. -/
def Layout.flat (names : List Bytes) : Layout := .object (names.map (·, .whole))

/-- A value without repeated names is clear for every layout. -/
theorem clear_of_distinct (l : Layout) (v : Json) (h : v.distinct = true) : Clear l v := by
  match l, v with
  | .whole, v => exact .whole v
  | .object names, .obj ms =>
      obtain ⟨hnames, hms⟩ := distinct_obj.mp h
      refine .object (fun name l _ => once_of_nodup hnames name) fun name l _ v hv => ?_
      have hmem : (name, v) ∈ ms := (lookup_eq_some_iff hnames).mp hv
      exact clear_of_distinct l v (hms _ hmem)
  | .object _, .null | .object _, .bool _ | .object _, .int _ _ | .object _, .float _
  | .object _, .str _ | .object _, .unpaired | .object _, .arr _ => exact .other (by simp)
termination_by sizeOf v
decreasing_by
  have hlt := List.sizeOf_lt_of_mem hmem
  simp only [Prod.mk.sizeOf_spec] at hlt
  simp only [obj.sizeOf_spec]
  omega

variable {names : List (Bytes × Layout)} {ms ms' : List (Bytes × Json)} {name : Bytes} {l : Layout}
  {v v' : Json}

theorem Rearranged.eq_of_whole (h : Rearranged .whole v v') : v = v' := by
  generalize hl : Layout.whole = l at h
  induction h with
  | same => rfl
  | trans _ _ ih ih' => exact (ih hl).trans (ih' hl)
  | _ => cases hl

/-- Only objects are rearranged. -/
theorem Rearranged.eq_or_obj (h : Rearranged l v v') :
    v = v' ∨ ∃ ms ms', v = .obj ms ∧ v' = .obj ms' := by
  induction h with
  | same => exact .inl rfl
  | trans _ _ ih ih' =>
      rcases ih with rfl | ⟨ms, ms', rfl, rfl⟩
      · exact ih'
      · rcases ih' with rfl | ⟨-, ms'', -, rfl⟩
        · exact .inr ⟨ms, _, rfl, rfl⟩
        · exact .inr ⟨ms, ms'', rfl, rfl⟩
  | _ => exact .inr ⟨_, _, rfl, rfl⟩

theorem Clear.once (h : Clear (.object names) (.obj ms)) (hname : names.lookup name = some l) :
    Once ms name := by
  cases h with
  | other h => exact absurd rfl (h ms)
  | object honce _ => exact honce name l hname

theorem Clear.inside (h : Clear (.object names) (.obj ms)) (hname : names.lookup name = some l)
    (hv : ms.lookup name = some v) : Clear l v := by
  cases h with
  | other h => exact absurd rfl (h ms)
  | object _ hinside => exact hinside name l hname v hv

theorem lookup_flat {flat : List Bytes} (h : name ∈ flat) :
    (flat.map (·, Layout.whole)).lookup name = some .whole := by
  induction flat with
  | nil => cases h
  | cons key flat ih =>
      rw [List.map_cons, List.lookup_cons]
      by_cases heq : name = key
      · simp [heq]
      · rw [beq_false_of_ne heq]
        exact ih ((List.mem_cons.mp h).resolve_left heq)

theorem Clear.once_flat {flat : List Bytes} (h : Clear (.flat flat) (.obj ms))
    (hname : name ∈ flat) : Once ms name :=
  h.once (lookup_flat hname)

/-! ### Lookups -/

theorem Once.perm (honce : Once ms name) (h : ms.Perm ms') : Once ms' name := by
  rwa [Once, ← (h.map Prod.fst).count_eq]

theorem lookup_perm (honce : Once ms name) (h : ms.Perm ms') :
    ms.lookup name = ms'.lookup name := by
  apply Option.ext
  intro v
  rw [lookup_eq_some_iff_of_once honce, lookup_eq_some_iff_of_once (honce.perm h), h.mem_iff]

section Inside

variable {pre post : List (Bytes × Json)} {key : Bytes} {u u' : Json}

theorem Once.inside (honce : Once (pre ++ (key, u) :: post) name) :
    Once (pre ++ (key, u') :: post) name := by
  simpa [Once] using honce

theorem lookup_inside_self (honce : Once (pre ++ (key, u) :: post) key) :
    (pre ++ (key, u) :: post).lookup key = some u :=
  (lookup_eq_some_iff_of_once honce).mpr (by simp)

theorem lookup_inside_ne (hne : name ≠ key) :
    (pre ++ (key, u) :: post).lookup name = (pre ++ (key, u') :: post).lookup name := by
  induction pre with
  | nil => simp only [List.nil_append, List.lookup_cons, beq_false_of_ne hne]
  | cons m pre ih => rw [List.cons_append, List.lookup_cons, ih, List.cons_append, List.lookup_cons]

end Inside

theorem rel_same (x : Option Json) : Option.Rel (Rearranged l) x x := by
  cases x with
  | none => exact .none
  | some v => exact .some (.same v)

theorem rel_trans {x y z : Option Json} (h : Option.Rel (Rearranged l) x y)
    (h' : Option.Rel (Rearranged l) y z) : Option.Rel (Rearranged l) x z := by
  cases h with
  | none => exact h'
  | some h =>
      cases h' with
      | some h' => exact .some (h.trans h')

/-- A lookup that the layout makes finds the same, up to what is rearranged inside. -/
theorem Rearranged.lookup (h : Rearranged (.object names) (.obj ms) (.obj ms'))
    (hname : names.lookup name = some l) (honce : Once ms name) :
    Once ms' name ∧ Option.Rel (Rearranged l) (ms.lookup name) (ms'.lookup name) := by
  generalize hL : Layout.object names = L at h
  generalize hv : Json.obj ms = v at h
  generalize hv' : Json.obj ms' = v' at h
  induction h generalizing ms ms' with
  | same =>
      obtain rfl := Json.obj.inj (hv.trans hv'.symm)
      exact ⟨honce, rel_same _⟩
  | move hperm =>
      obtain rfl := Json.obj.inj hv
      obtain rfl := Json.obj.inj hv'
      exact ⟨honce.perm hperm, lookup_perm honce hperm ▸ rel_same _⟩
  | @add names' _ m hnew =>
      obtain rfl := Layout.object.inj hL
      obtain rfl := Json.obj.inj hv
      obtain rfl := Json.obj.inj hv'
      have hne : name ≠ m.1 := by
        rintro rfl
        simp [hname] at hnew
      refine ⟨?_, ?_⟩
      · rwa [Once, List.map_cons, List.count_cons_of_ne (Ne.symm hne)]
      · rw [List.lookup_cons, beq_false_of_ne hne]
        exact rel_same _
  | @inside names' pre post key l' u u' hkey hu =>
      obtain rfl := Layout.object.inj hL
      obtain rfl := Json.obj.inj hv
      obtain rfl := Json.obj.inj hv'
      refine ⟨honce.inside, ?_⟩
      by_cases heq : name = key
      · subst heq
        obtain rfl := Option.some.inj (hname.symm.trans hkey)
        rw [lookup_inside_self honce, lookup_inside_self honce.inside]
        exact .some hu
      · rw [lookup_inside_ne heq]
        exact rel_same _
  | trans hfst _ ih ih' =>
      rcases hfst.eq_or_obj with rfl | ⟨_, ms'', -, rfl⟩
      · exact ih' honce hL hv hv'
      · obtain ⟨honce', hrel⟩ := ih honce hL hv rfl
        obtain ⟨honce'', hrel'⟩ := ih' honce' hL rfl hv'
        exact ⟨honce'', rel_trans hrel hrel'⟩

/-- A lookup of a value that is read as it is finds the same. -/
theorem Rearranged.lookup_whole (h : Rearranged (.object names) (.obj ms) (.obj ms'))
    (hname : names.lookup name = some .whole) (honce : Once ms name) :
    ms.lookup name = ms'.lookup name := by
  obtain ⟨-, hrel⟩ := h.lookup hname honce
  generalize ms.lookup name = x at hrel
  generalize ms'.lookup name = y at hrel
  cases hrel with
  | none => rfl
  | some hv => rw [hv.eq_of_whole]

/-- The same members have these names, if any. -/
def Agree (names : List Bytes) (ms ms' : List (Bytes × Json)) : Prop :=
  ∀ name ∈ names, ms.lookup name = ms'.lookup name

theorem Rearranged.agree {flat : List Bytes} (h : Rearranged (.flat flat) (.obj ms) (.obj ms'))
    (hclear : Clear (.flat flat) (.obj ms)) : Agree flat ms ms' :=
  fun _ hname => h.lookup_whole (lookup_flat hname) (hclear.once_flat hname)

/-- What is found under the name of an object the layout goes into. -/
theorem Rearranged.inside_lookup {flat : List Bytes}
    (h : Rearranged (.object names) (.obj ms) (.obj ms')) (hclear : Clear (.object names) (.obj ms))
    (hname : names.lookup name = some (.flat flat)) :
    ms.lookup name = ms'.lookup name ∨ ∃ sub sub', ms.lookup name = some (.obj sub) ∧
      ms'.lookup name = some (.obj sub') ∧ Agree flat sub sub' := by
  obtain ⟨-, hrel⟩ := h.lookup hname (hclear.once hname)
  have hinside : ∀ v, ms.lookup name = some v → Clear (.flat flat) v :=
    fun v hv => hclear.inside hname hv
  generalize ms.lookup name = x at hrel hinside
  generalize ms'.lookup name = y at hrel
  cases hrel with
  | none => exact .inl rfl
  | some hv =>
      rcases hv.eq_or_obj with rfl | ⟨sub, sub', rfl, rfl⟩
      · exact .inl rfl
      · exact .inr ⟨sub, sub', rfl, rfl, hv.agree (hinside _ rfl)⟩

theorem Rearranged.clear (h : Rearranged l v v') (hclear : Clear l v) : Clear l v' := by
  induction h with
  | same => exact hclear
  | trans _ _ ih ih' => exact ih' (ih hclear)
  | move hperm =>
      cases hclear with
      | other h => exact absurd rfl (h _)
      | object honce hinside =>
          refine .object (fun name l hname => (honce name l hname).perm hperm)
            fun name l hname => ?_
          rw [← lookup_perm (honce name l hname) hperm]
          exact hinside name l hname
  | @add names ms m hnew =>
      cases hclear with
      | other h => exact absurd rfl (h _)
      | object honce hinside =>
          have hne : ∀ name l, names.lookup name = some l → name ≠ m.1 := by
            rintro name l hname rfl
            simp [hname] at hnew
          refine .object (fun name l hname => ?_) fun name l hname => ?_
          · rw [Once, List.map_cons, List.count_cons_of_ne (Ne.symm (hne name l hname))]
            exact honce name l hname
          · rw [List.lookup_cons, beq_false_of_ne (hne name l hname)]
            exact hinside name l hname
  | @inside names pre post key l' u u' hkey _ ih =>
      cases hclear with
      | other h => exact absurd rfl (h _)
      | object honce hinside =>
          refine .object (fun name l hname => (honce name l hname).inside)
            fun name l hname w hw => ?_
          by_cases heq : name = key
          · subst heq
            obtain rfl := Option.some.inj (hname.symm.trans hkey)
            rw [lookup_inside_self (honce name l hname).inside] at hw
            obtain rfl := Option.some.inj hw
            exact ih (hinside name l hname u (lookup_inside_self (honce name l hname)))
          · rw [lookup_inside_ne heq] at hw
            exact hinside name l hname w hw

end Json

end KalshiAutotrader.Kit
