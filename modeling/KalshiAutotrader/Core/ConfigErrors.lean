import KalshiAutotrader.Core.Config

/-!
What becomes of the errors that lookups report.

The helpers tell a missing field from any other error and reject the file on the
other ones. The lookups that see whether a section is there do not tell them apart: a
section that cannot be read counts as absent, and its defaults are used.
-/

namespace KalshiAutotrader.Core

open Kit Simdjson Reading

/-! ### Reports -/

/-- What a lookup reports: it answers with a value, or it says `NO_SUCH_FIELD`, or it has
another error. -/
inductive Report | nothing | noSuchField | otherError
  deriving DecidableEq

def Lookup.report (l : Lookup) : Report :=
  match l.error with
  | none => .nothing
  | some .noSuchField => .noSuchField
  | some _ => .otherError

/-- The first lookup of a name in the root object. -/
def firstInRoot (lookups : List Lookup) (key : Bytes) : Option Lookup :=
  lookups.find? fun l => l.depth = 0 && l.key = key

/-- What the lookup of a section reports by which it is seen whether it is there, if it is
made. -/
def sectionReport (lookups : List Lookup) (key : Bytes) : Report :=
  (firstInRoot lookups key).elim .nothing Lookup.report

structure SectionReports where
  ws : Report
  logging : Report
  output : Report
  deriving DecidableEq

/-- The lookups made in a document. -/
def lookupsOf (doc : Document) : List Lookup := ((readConfig doc).runFrom doc.session).2.lookups

def sectionReports (doc : Document) : SectionReports where
  ws := sectionReport (lookupsOf doc) (ascii "ws")
  logging := sectionReport (lookupsOf doc) (ascii "logging")
  output := sectionReport (lookupsOf doc) (ascii "output")

/-! ### Quiet computations -/

/-- From one state to the next no lookup has had another error, and those in the root object
were of this name. -/
def Quietly (key : Bytes) (s s' : Session) : Prop :=
  ∃ made, s'.lookups = s.lookups ++ made ∧
    ∀ l ∈ made, Lookup.report l ≠ .otherError ∧ (l.depth = 0 → l.key = key)

/-- An answer means that it came about quietly. -/
def Quiet {ε α : Type} (key : Bytes) (p : Read ε α) : Prop :=
  ∀ (s : Session) (a : α) (s' : Session), p.runFrom s = (.ok a, s') → Quietly key s s'

section Rules

variable {ε ε' α β : Type} {key : Bytes} {p : Read ε α} {s s' s'' : Session}

theorem quietly_of_eq (h : s'.lookups = s.lookups) : Quietly key s s' :=
  ⟨[], by rw [h, List.append_nil], by simp⟩

theorem Quietly.trans (h : Quietly key s s') (h' : Quietly key s' s'') : Quietly key s s'' := by
  obtain ⟨made, hmade, hquiet⟩ := h
  obtain ⟨made', hmade', hquiet'⟩ := h'
  refine ⟨made ++ made', ?_, List.forall_mem_append.mpr ⟨hquiet, hquiet'⟩⟩
  rw [hmade', hmade, List.append_assoc]

theorem quiet_pure (a : α) : Quiet key (pure a : Read ε α) := by
  intro s b s' h
  obtain ⟨-, rfl⟩ := Prod.mk.inj h
  exact quietly_of_eq rfl

theorem quiet_throw (e : ε) : Quiet key (throw e : Read ε α) := by
  intro s a s' h
  cases (Prod.mk.inj h).1

/-- What is known of the first answer may be used for the rest. -/
theorem Quiet.bind_of {f : α → Read ε β} {P : α → Prop} (hp : Quiet key p) (hP : Ensures p P)
    (hf : ∀ a, P a → Quiet key (f a)) : Quiet key (p >>= f) := by
  intro s b s' h
  obtain ⟨a, t, ha, hb⟩ := runFrom_bind_eq_ok.mp h
  exact (hp s a t ha).trans (hf a (hP s a (by rw [ha])) t b s' hb)

theorem Quiet.bind {f : α → Read ε β} (hp : Quiet key p) (hf : ∀ a, Quiet key (f a)) :
    Quiet key (p >>= f) :=
  hp.bind_of ensures_trivial fun a _ => hf a

theorem Quiet.map (f : α → β) (hp : Quiet key p) : Quiet key (f <$> p) := by
  rw [map_eq_pure_bind]
  exact hp.bind fun a => quiet_pure (f a)

theorem Quiet.mapError (g : ε → ε') (hp : Quiet key p) : Quiet key (p.mapError g) := by
  intro s a s' h
  exact hp s a s' (runFrom_mapError_eq_ok.mp h)

theorem Quiet.mapM {f : α → Read ε β} (hf : ∀ a, Quiet key (f a)) (as : List α) :
    Quiet key (as.mapM f) := by
  induction as with
  | nil => exact quiet_pure []
  | cons a as ih =>
      rw [List.mapM_cons]
      exact (hf a).bind fun b => ih.bind fun bs => quiet_pure (b :: bs)

end Rules

/-! ### Calls and lookups -/

variable {key : Bytes}

theorem call_lookups {α : Type} (answer : Except SimdError α) (s : Session) :
    ((call answer).runFrom s).2.lookups = s.lookups := by
  show (call answer s).2.lookups = _
  unfold call
  split <;> rfl

theorem quiet_call {α : Type} (answer : Except SimdError α) : Quiet key (call answer) := by
  intro s a s' h
  have hlookups := call_lookups answer s
  rw [h] at hlookups
  exact quietly_of_eq hlookups

theorem quiet_openObject (depth : ℕ) (json : Json) : Quiet key (openObject depth json) := by
  intro s obj s' h
  exact (quiet_call (asObject json)).map (Object.mk depth)
    { s with passed := Function.update s.passed depth 0 } obj s' h

theorem depth_openObject (depth : ℕ) (json : Json) :
    Ensures (openObject depth json) fun obj => obj.depth = depth := by
  intro s obj h
  have hmap : Ensures (Object.mk depth <$> call (asObject json)) fun obj => obj.depth = depth := by
    rw [map_eq_pure_bind]
    exact ensures_bind fun members => ensures_pure rfl
  exact hmap _ obj h

theorem recorded_lookups (depth : ℕ) (name : Bytes) (answer : Except SimdError Value)
    (s : Session) : ((recorded depth name (call answer)).runFrom s).2.lookups = s.lookups ++
      [⟨depth, name, errorOf ((recorded depth name (call answer)).runFrom s).1⟩] := by
  show (((call answer).runFrom s).2.record _).lookups = _
  rw [Session.record, call_lookups]
  rfl

/-- A lookup is recorded with what it answers. -/
theorem field_lookups (obj : Object) (name : Bytes) (s : Session) :
    ((obj.field name).runFrom s).2.lookups =
      s.lookups ++ [⟨obj.depth, name, errorOf ((obj.field name).runFrom s).1⟩] := by
  show (obj.field name s).2.lookups = s.lookups ++ [⟨_, _, errorOf (obj.field name s).1⟩]
  unfold Object.field
  split
  · exact recorded_lookups _ _ _ s
  · exact recorded_lookups _ _ _ { s with passed := _ }

/-- A lookup that is not of the root object, or is of this name. -/
def Concerns (key : Bytes) (obj : Object) (name : Bytes) : Prop := obj.depth = 0 → name = key

/-- A lookup that finds its field, or misses it. -/
theorem quietly_field {obj : Object} {name : Bytes} (hname : Concerns key obj name)
    {s s' : Session} {r : Except SimdError Value} (h : (obj.field name).runFrom s = (r, s'))
    (hr : ∀ e, r = .error e → e = .noSuchField) : Quietly key s s' := by
  have hlookups := field_lookups obj name s
  rw [h] at hlookups
  refine ⟨_, hlookups, ?_⟩
  rw [List.forall_mem_singleton]
  refine ⟨?_, hname⟩
  cases r with
  | ok v => simp [Lookup.report, errorOf]
  | error e =>
      obtain rfl := hr e rfl
      simp [Lookup.report, errorOf]

theorem quiet_field {obj : Object} {name : Bytes} (hname : Concerns key obj name) :
    Quiet key (obj.field name) :=
  fun _ _ _ h => quietly_field hname h (by simp)

/-! ### The helpers -/

section Helpers

variable {obj : Object} {name : Bytes}

theorem quiet_getString (hname : Concerns key obj name) : Quiet key (getString obj name) :=
  ((quiet_field hname).mapError _).bind fun _ => (quiet_call _).mapError _

theorem quiet_getOptional {α : Type} {getter : Value → Read SimdError α}
    (hgetter : ∀ v, Quiet key (getter v)) (hname : Concerns key obj name) :
    Quiet key (getOptional getter obj name) := by
  intro s a s' h
  obtain ⟨r, t, hr, hrest⟩ := runFrom_bind_eq_ok.mp h
  have hrun := runFrom_observe_eq_ok.mp hr
  -- the answer is used only if it is a field or a missing one
  split at hrest
  · exact (quietly_field hname hrun (by simp)).trans (quiet_pure _ _ _ _ hrest)
  · cases (Prod.mk.inj hrest).1
  · next v =>
    have hquiet := ((hgetter v).mapError fun _ => ConfigError.parseFailed).bind fun val =>
      quiet_pure (some val)
    exact (quietly_field hname hrun (by simp)).trans (hquiet t a s' hrest)

theorem quiet_getOptionalString (hname : Concerns key obj name) :
    Quiet key (getOptionalString obj name) :=
  quiet_getOptional (fun _ => quiet_call _) hname

theorem quiet_getOptionalSize (hname : Concerns key obj name) :
    Quiet key (getOptionalSize obj name) :=
  quiet_getOptional (fun _ => quiet_call _) hname

theorem quiet_getOptionalBool (hname : Concerns key obj name) :
    Quiet key (getOptionalBool obj name) :=
  quiet_getOptional (fun _ => quiet_call _) hname

theorem quiet_getStringArray (hname : Concerns key obj name) :
    Quiet key (getStringArray obj name) :=
  ((quiet_field hname).mapError _).bind fun _ =>
    (((quiet_call _).map _).mapError _).bind fun items =>
      .mapM (fun _ => (quiet_call _).mapError _) items

end Helpers

theorem quiet_getSection (root : Object) (key : Bytes) : Quiet key (getSection root key) :=
  ((quiet_field fun _ => rfl).bind fun _ => quiet_openObject _ _).mapError _

/-- A section is not the root object. -/
theorem concerns_of_getSection (root : Object) (key : Bytes) :
    Ensures (getSection root key) fun obj => ∀ name, Concerns key obj name := by
  intro s obj h name hzero
  have hdepth : Ensures (root.field key >>= Value.getObject) fun obj => obj.depth ≠ 0 := by
    refine ensures_bind fun v s obj h => ?_
    rw [depth_openObject (v.depth + 1) v.json s obj h]
    exact Nat.succ_ne_zero _
  exact absurd hzero (hdepth s obj (mapError_eq_ok.mp h))

/-! ### The sections -/

theorem quiet_parseSubscription (root : Object) :
    Quiet (ascii "subscription") (parseSubscription root) := by
  apply (quiet_getSection root _).bind_of (concerns_of_getSection root _)
  intro sub hsub
  apply (quiet_getStringArray (hsub _)).bind
  intro channels
  split
  · exact quiet_throw _
  · apply (quiet_getStringArray (hsub _)).bind
    intro tickers
    exact quiet_pure _

theorem quiet_parseOutput (root : Object) : Quiet (ascii "output") (parseOutput root) := by
  apply (quiet_getSection root _).bind_of (concerns_of_getSection root _)
  intro out hout
  apply (quiet_getString (hout _)).bind
  intro path
  split
  · exact quiet_throw _
  · exact quiet_pure _

/-- A section that is accepted has had answers to all its lookups. -/
theorem quiet_parseWs (root : Object) (base : WsConfig) :
    Quiet (ascii "ws") (parseWs root base) := by
  intro s ws s' h
  simp only [parseWs, runFrom_bind_eq_ok, runFrom_observe_eq_ok, runFrom_ofExcept, Prod.mk.injEq,
    bind_eq_ok] at h
  obtain ⟨obj, s₀, h₀, r₁, s₁, h₁, r₂, s₂, h₂, r₃, s₃, h₃, r₄, s₄, h₄, r₅, s₅, h₅, r₆, s₆, h₆,
    ⟨_, rfl, _, rfl, _, rfl, _, rfl, _, rfl, _, rfl, -⟩, rfl⟩ := h
  have hobj := concerns_of_getSection root _ s obj (by rw [h₀])
  exact (quiet_getSection _ _ _ _ _ h₀).trans <|
    (quiet_getOptionalSize (hobj _) _ _ _ h₁).trans <|
    (quiet_getOptionalSize (hobj _) _ _ _ h₂).trans <|
    (quiet_getOptionalBool (hobj _) _ _ _ h₃).trans <|
    (quiet_getOptionalBool (hobj _) _ _ _ h₄).trans <|
    (quiet_getOptionalSize (hobj _) _ _ _ h₅).trans <|
    quiet_getOptionalSize (hobj _) _ _ _ h₆

theorem quiet_parseLogging (root : Object) (base : LoggingConfig) :
    Quiet (ascii "logging") (parseLogging root base) := by
  intro s log s' h
  simp only [parseLogging, runFrom_bind_eq_ok, runFrom_observe_eq_ok, runFrom_ofExcept,
    Prod.mk.injEq, bind_eq_ok] at h
  obtain ⟨obj, s₀, h₀, r₁, s₁, h₁, r₂, s₂, h₂, r₃, s₃, h₃, r₄, s₄, h₄, r₅, s₅, h₅, r₆, s₆, h₆,
    ⟨_, rfl, _, rfl, _, rfl, _, rfl, _, rfl, _, rfl, -⟩, rfl⟩ := h
  have hobj := concerns_of_getSection root _ s obj (by rw [h₀])
  exact (quiet_getSection _ _ _ _ _ h₀).trans <|
    (quiet_getOptionalString (hobj _) _ _ _ h₁).trans <|
    (quiet_getOptionalSize (hobj _) _ _ _ h₂).trans <|
    (quiet_getOptionalString (hobj _) _ _ _ h₃).trans <|
    (quiet_getOptionalBool (hobj _) _ _ _ h₄).trans <|
    (quiet_getOptionalBool (hobj _) _ _ _ h₅).trans <|
    quiet_getOptionalString (hobj _) _ _ _ h₆

/-! ### Accepted documents -/

/-- The sections that need not be there. -/
def optionalSections : List Bytes := [ascii "ws", ascii "logging", ascii "output"]

/-- In the root object only these names have been looked up, and the lookups with other errors
are those by which it is seen whether a section is there. -/
structure Accounted (names : List Bytes) (s : Session) : Prop where
  inRoot : ∀ l ∈ s.lookups, l.depth = 0 → l.key ∈ names
  otherError : ∀ l ∈ s.lookups, Lookup.report l = .otherError →
    l.key ∈ optionalSections ∧ firstInRoot s.lookups l.key = some l

section Accounted

variable {names : List Bytes} {s s' : Session}

theorem firstInRoot_append {lookups made : List Lookup} {l : Lookup}
    (h : firstInRoot lookups key = some l) : firstInRoot (lookups ++ made) key = some l := by
  rw [firstInRoot] at h ⊢
  rw [List.find?_append, h, Option.some_or]

/-- Quiet lookups add nothing to account for. -/
theorem Accounted.quietly (h : Accounted names s) (hkey : key ∈ names)
    (hquiet : Quietly key s s') : Accounted names s' := by
  obtain ⟨made, hmade, hquiet⟩ := hquiet
  refine ⟨fun l hl hzero => ?_, fun l hl herror => ?_⟩ <;> rw [hmade, List.mem_append] at hl
  · rcases hl with hl | hl
    · exact h.inRoot l hl hzero
    · exact (hquiet l hl).2 hzero ▸ hkey
  · rcases hl with hl | hl
    · obtain ⟨hsection, hfirst⟩ := h.otherError l hl herror
      exact ⟨hsection, hmade ▸ firstInRoot_append hfirst⟩
    · exact absurd herror (hquiet l hl).1

/-- The first lookup of a section is accounted for, whatever it reports. -/
theorem Accounted.test (h : Accounted names s) (hsection : key ∈ optionalSections)
    (hnew : key ∉ names) {error : Option SimdError}
    (hmade : s'.lookups = s.lookups ++ [⟨0, key, error⟩]) : Accounted (key :: names) s' := by
  have hnone : firstInRoot s.lookups key = none := by
    rw [firstInRoot, List.find?_eq_none]
    intro l hl hfound
    simp only [Bool.and_eq_true, decide_eq_true_eq] at hfound
    exact hnew (hfound.2 ▸ h.inRoot l hl hfound.1)
  refine ⟨fun l hl hzero => ?_, fun l hl herror => ?_⟩ <;> rw [hmade, List.mem_append] at hl
  · rcases hl with hl | hl
    · exact List.mem_cons_of_mem _ (h.inRoot l hl hzero)
    · rw [List.mem_singleton.mp hl]
      exact List.mem_cons_self
  · rcases hl with hl | hl
    · obtain ⟨hold, hfirst⟩ := h.otherError l hl herror
      exact ⟨hold, hmade ▸ firstInRoot_append hfirst⟩
    · obtain rfl := List.mem_singleton.mp hl
      refine ⟨hsection, ?_⟩
      rw [firstInRoot] at hnone ⊢
      rw [hmade, List.find?_append, hnone]
      simp

theorem Accounted.orDefault {α : Type} (h : Accounted names s) (hsection : key ∈ optionalSections)
    (hnew : key ∉ names) {root : Object} (hroot : root.depth = 0) {base a : α}
    {parse : Read ConfigError α} (hparse : Quiet key parse)
    (hrun : (orDefault root key base parse).runFrom s = (.ok a, s')) :
    Accounted (key :: names) s' := by
  obtain ⟨r, t, hr, hrest⟩ := runFrom_bind_eq_ok.mp hrun
  have hlookups := field_lookups root key s
  rw [runFrom_observe_eq_ok.mp hr, hroot] at hlookups
  have htest := h.test hsection hnew hlookups
  cases r with
  | error e =>
      obtain ⟨-, rfl⟩ := Prod.mk.inj hrest
      exact htest
  | ok v => exact htest.quietly List.mem_cons_self (hparse t a s' hrest)

end Accounted

/-- In an accepted document, only the lookups of the sections have other errors. -/
theorem accounted_of_readConfig {doc : Document} {config : Config} {s : Session}
    (h : (readConfig doc).runFrom doc.session = (.ok config, s)) :
    Accounted [ascii "output", ascii "logging", ascii "ws", ascii "env", ascii "ws_url",
      ascii "subscription"] s := by
  simp only [readConfig, runFrom_bind_eq_ok, runFrom_observe_eq_ok, runFrom_mapError_eq_ok,
    runFrom_ofExcept, Prod.mk.injEq, bind_eq_ok] at h
  obtain ⟨root, s₀, h₀, _, s₁, h₁, _, s₂, h₂, _, s₃, h₃, ws, s₄, h₄, log, s₅, h₅, out, s₆, h₆,
    ⟨_, rfl, _, rfl, _, rfl, -⟩, rfl⟩ := h
  have hopened : (openObject 0 doc.root).runFrom doc.session = (.ok root, s₀) := h₀
  have hroot : root.depth = 0 := depth_openObject 0 doc.root doc.session root (by rw [hopened])
  have hstart : Accounted [ascii "env", ascii "ws_url", ascii "subscription"] doc.session :=
    ⟨by simp [Document.session], by simp [Document.session]⟩
  have hquiet : Quietly (ascii "env") doc.session s₀ := quiet_openObject _ _ _ _ _ hopened
  have hmandatory : Accounted [ascii "env", ascii "ws_url", ascii "subscription"] s₃ :=
    hstart.quietly (by simp) hquiet
      |>.quietly (by simp) (quiet_getString (fun _ => rfl) _ _ _ h₁)
      |>.quietly (by simp) (quiet_getString (fun _ => rfl) _ _ _ h₂)
      |>.quietly (by simp) (quiet_parseSubscription _ _ _ _ h₃)
  exact hmandatory
    |>.orDefault (by decide +kernel) (by decide +kernel) hroot (quiet_parseWs _ _) h₄
    |>.orDefault (by decide +kernel) (by decide +kernel) hroot (quiet_parseLogging _ _) h₅
    |>.orDefault (by decide +kernel) (by decide +kernel) hroot (quiet_parseOutput _) h₆

/-! ### Rejections -/

theorem fails_getString (obj : Object) (key : Bytes) : Fails .parseFailed (getString obj key) :=
  (fails_mapError _).bind fun _ => fails_mapError _

theorem fails_getOptional {α : Type} (getter : Value → Read SimdError α) (obj : Object)
    (key : Bytes) : Fails .parseFailed (getOptional getter obj key) := by
  apply fails_observe_bind
  intro r
  split
  · exact fails_pure _
  · exact fails_throw
  · exact (fails_mapError _).bind fun _ => fails_pure _

theorem fails_getStringArray (obj : Object) (key : Bytes) :
    Fails .parseFailed (getStringArray obj key) :=
  (fails_mapError _).bind fun _ => (fails_mapError _).bind fun items =>
    .mapM (fun _ => fails_mapError _) items

theorem fails_parseSubscription (root : Object) : Fails .parseFailed (parseSubscription root) := by
  apply (fails_mapError _).bind
  intro sub
  apply (fails_getStringArray sub _).bind
  intro channels
  split
  · exact fails_throw
  · exact (fails_getStringArray sub _).bind fun _ => fails_pure _

theorem fails_parseOutput (root : Object) : Fails .parseFailed (parseOutput root) := by
  apply (fails_mapError _).bind
  intro out
  apply (fails_getString out _).bind
  intro path
  split
  · exact fails_throw
  · exact fails_pure _

theorem only_checkWs (ws : WsConfig) : Only .parseFailed (checkWs ws) :=
  .ite (only_error _) (.ite (only_error _) (only_ok _))

theorem only_checked {α : Type} (val : Option α) (base : α) (ok : α → Bool) :
    Only .parseFailed (checked val base ok) := by
  cases val with
  | none => exact only_ok base
  | some a => exact .ite (only_ok a) (only_error _)

theorem fails_parseWs (root : Object) (base : WsConfig) :
    Fails .parseFailed (parseWs root base) := by
  apply (fails_mapError _).bind; intro ws
  apply (fails_getOptional _ ws _).observe_bind; intro _ h₁
  apply (fails_getOptional _ ws _).observe_bind; intro _ h₂
  apply (fails_getOptional _ ws _).observe_bind; intro _ h₃
  apply (fails_getOptional _ ws _).observe_bind; intro _ h₄
  apply (fails_getOptional _ ws _).observe_bind; intro _ h₅
  apply (fails_getOptional _ ws _).observe_bind; intro _ h₆
  apply fails_ofExcept
  exact h₁.bind fun _ => h₂.bind fun _ => h₃.bind fun _ => h₄.bind fun _ => h₅.bind fun _ =>
    h₆.bind fun _ => only_checkWs _

theorem fails_parseLogging (root : Object) (base : LoggingConfig) :
    Fails .parseFailed (parseLogging root base) := by
  apply (fails_mapError _).bind; intro log
  apply (fails_getOptional _ log _).observe_bind; intro _ h₁
  apply (fails_getOptional _ log _).observe_bind; intro _ h₂
  apply (fails_getOptional _ log _).observe_bind; intro _ h₃
  apply (fails_getOptional _ log _).observe_bind; intro _ h₄
  apply (fails_getOptional _ log _).observe_bind; intro _ h₅
  apply (fails_getOptional _ log _).observe_bind; intro _ h₆
  apply fails_ofExcept
  exact h₁.bind fun _ => h₂.bind fun _ => h₃.bind fun _ => h₄.bind fun _ => h₅.bind fun _ =>
    h₆.bind fun _ => (only_checked _ _ _).bind fun _ => (only_checked _ _ _).bind fun _ =>
      (only_checked _ _ _).bind fun _ => (only_checked _ _ _).bind fun _ => only_ok _

theorem fails_orDefault {α : Type} {root : Object} {key : Bytes} {base : α}
    {parse : Read ConfigError α} (hparse : Fails .parseFailed parse) :
    Fails .parseFailed (orDefault root key base parse) := by
  apply fails_observe_bind
  intro r
  cases r with
  | error e => exact fails_pure base
  | ok v => exact hparse

theorem fails_readConfig (doc : Document) : Fails .parseFailed (readConfig doc) := by
  apply (fails_mapError _).bind; intro root
  apply (fails_getString root _).observe_bind; intro _ h₁
  apply (fails_getString root _).observe_bind; intro _ h₂
  apply (fails_parseSubscription root).observe_bind; intro _ h₃
  apply (fails_orDefault (fails_parseWs root _)).bind; intro ws
  apply (fails_orDefault (fails_parseLogging root _)).bind; intro logging
  apply (fails_orDefault (fails_parseOutput root)).bind; intro output
  apply fails_ofExcept
  exact h₁.bind fun _ => h₂.bind fun _ => h₃.bind fun _ => only_ok _

/-! ### Unreadable documents -/

/-- A lookup has had another error than that a field is missing. -/
def Unreadable (doc : Document) : Prop := ∃ l ∈ lookupsOf doc, Lookup.report l = .otherError

/-- None of the lookups has by which it is seen whether a section is there. -/
structure SectionReports.Readable (reports : SectionReports) : Prop where
  ws : reports.ws ≠ .otherError
  logging : reports.logging ≠ .otherError
  output : reports.output ≠ .otherError

theorem SectionReports.Readable.report_ne {doc : Document} (h : (sectionReports doc).Readable)
    {key : Bytes} (hkey : key ∈ optionalSections) :
    sectionReport (lookupsOf doc) key ≠ .otherError := by
  simp only [optionalSections, List.mem_cons, List.not_mem_nil, or_false] at hkey
  rcases hkey with rfl | rfl | rfl
  · exact h.ws
  · exact h.logging
  · exact h.output

/-- A section that cannot be read is all that an accepted document can have had. -/
theorem not_unreadable_of_readConfig {doc : Document} {config : Config}
    (hreadable : (sectionReports doc).Readable)
    (h : ((readConfig doc).runFrom doc.session).1 = .ok config) : ¬ Unreadable doc := by
  rintro ⟨l, hl, herror⟩
  obtain ⟨hsection, hfirst⟩ :=
    (accounted_of_readConfig (Prod.ext h rfl)).otherError l hl herror
  refine hreadable.report_ne hsection ?_
  rw [sectionReport, lookupsOf, hfirst]
  exact herror

/-- The member of a section, if it is there. -/
def sectionMember (report : Report) (key : Bytes) (v : Json) : List (Bytes × Json) :=
  if report = .noSuchField then [] else [(key, v)]

/-- The errors of the text that come up in the lookup of a section, and in the `calls` that
read it if it is found. -/
def sectionFaults (calls : ℕ) : Report → List (Option SimdError)
  | .nothing => .replicate (calls + 1) none
  | .noSuchField => [none]
  | .otherError => [some .tapeError]

/-- An accepted document, with these reports for its sections. -/
def reporting (reports : SectionReports) : Document where
  root := .obj ([
      (ascii "env", .str (ascii "demo")),
      (ascii "ws_url", .str (ascii "wss://localhost")),
      (ascii "subscription", .obj [
        (ascii "channels", .arr [.str (ascii "trade")]),
        (ascii "market_tickers", .arr [])])] ++
    sectionMember reports.ws (ascii "ws") (.obj [(ascii "auto_reconnect", .bool false)]) ++
    sectionMember reports.logging (ascii "logging") (.obj []) ++
    sectionMember reports.output (ascii "output")
      (.obj [(ascii "raw_messages_path", .str (ascii "raw.json"))]))
  faults := .replicate 12 none ++ sectionFaults 9 reports.ws ++ sectionFaults 8 reports.logging ++
    sectionFaults 4 reports.output

theorem reporting_spec (reports : SectionReports) :
    ((readConfig (reporting reports)).runFrom (reporting reports).session).1.isOk = true ∧
      sectionReports (reporting reports) = reports := by
  obtain ⟨ws, logging, output⟩ := reports
  cases ws <;> cases logging <;> cases output <;> decide +kernel

theorem unreadable_of_sectionReport {doc : Document} {key : Bytes}
    (h : sectionReport (lookupsOf doc) key = .otherError) : Unreadable doc := by
  rw [sectionReport] at h
  cases hfirst : firstInRoot (lookupsOf doc) key with
  | none => simp [hfirst] at h
  | some l => exact ⟨l, List.mem_of_find?_eq_some hfirst, by simpa [hfirst] using h⟩

theorem unreadable_of_not_readable {doc : Document} (h : ¬ (sectionReports doc).Readable) :
    Unreadable doc := by
  by_contra hnone
  exact h ⟨fun hws => hnone (unreadable_of_sectionReport hws),
    fun hlogging => hnone (unreadable_of_sectionReport hlogging),
    fun houtput => hnone (unreadable_of_sectionReport houtput)⟩

/-- Whatever the lookups of the three sections report by which it is seen whether they are
there: every document in which they do, and in which any lookup has another error than that
a field is missing, is rejected, exactly if none of the three has such an error. -/
theorem unreadable_rejected_iff (reports : SectionReports) :
    (∀ (iterate : Bytes → Except SimdError Document) (content : Bytes) (doc : Document),
      iterate content = .ok doc → sectionReports doc = reports → Unreadable doc →
        loadConfig iterate (some content) = .error .parseFailed) ↔
    reports.Readable := by
  have hload (doc : Document) : loadConfig (fun _ => .ok doc) (some []) =
    ((readConfig doc).runFrom doc.session).1 := rfl
  constructor
  · intro hrejects
    by_contra hnot
    obtain ⟨haccepted, hreports⟩ := reporting_spec reports
    have hunreadable : Unreadable (reporting reports) := by
      apply unreadable_of_not_readable
      rw [hreports]
      exact hnot
    have hrejected := hrejects (fun _ => .ok (reporting reports)) [] _ rfl hreports hunreadable
    rw [hload] at hrejected
    rw [hrejected] at haccepted
    cases haccepted
  · rintro hreadable iterate content doc hdoc rfl hunreadable
    have hload' : loadConfig iterate (some content) = ((readConfig doc).runFrom doc.session).1 := by
      simp [loadConfig, hdoc]
    rw [hload']
    cases hanswer : ((readConfig doc).runFrom doc.session).1 with
    | error e => rw [fails_readConfig doc doc.session e hanswer]
    | ok config => exact absurd hunreadable (not_unreadable_of_readConfig hreadable hanswer)

/-- All three sections are there, and the lookup of `env` has an error. -/
def envUnreadable : Document :=
  { reporting ⟨.nothing, .nothing, .nothing⟩ with faults := [none, some .tapeError] }

theorem envUnreadable_rejected :
    loadConfig (fun _ => .ok envUnreadable) (some []) = .error .parseFailed := by
  have hreports : sectionReports envUnreadable = ⟨.nothing, .nothing, .nothing⟩ := by
    decide +kernel
  have hlookup : ⟨0, ascii "env", some .tapeError⟩ ∈ lookupsOf envUnreadable := by decide +kernel
  exact (unreadable_rejected_iff ⟨.nothing, .nothing, .nothing⟩).mpr ⟨nofun, nofun, nofun⟩
    (fun _ => .ok envUnreadable) [] envUnreadable rfl hreports ⟨_, hlookup, rfl⟩

/-- A configuration without retries, and the errors of its text. -/
def retriesOff (faults : List (Option SimdError)) : Document where
  root := .obj [
    (ascii "env", .str (ascii "demo")),
    (ascii "ws_url", .str (ascii "wss://localhost")),
    (ascii "subscription", .obj [
      (ascii "channels", .arr [.str (ascii "trade")]),
      (ascii "market_tickers", .arr [])]),
    (ascii "ws", .obj [(ascii "auto_reconnect", .bool false)])]
  faults := faults

/-- The comma before `ws` is missing: the lookup of the section reports it, and the
document is accepted with retries on. -/
theorem retriesOff_unreadable :
    ((readConfig (retriesOff [])).runFrom (retriesOff []).session).1.map
        (fun config => config.ws.autoReconnect) = .ok false ∧
    (lookupsOf (retriesOff (.replicate 12 none ++ [some .tapeError]))).filterMap Lookup.error =
      [.tapeError, .noSuchField, .noSuchField] ∧
    (loadConfig (fun _ => .ok (retriesOff (.replicate 12 none ++ [some .tapeError])))
        (some [])).map (fun config => config.ws) = .ok defaultWsConfig := by
  exact ⟨by decide +kernel, by decide +kernel, by decide +kernel⟩

end KalshiAutotrader.Core
