import KalshiAutotrader.Md.FieldReads

/-!
What the error of a rejected message says.

A field that is not there is `MissingField`, and a field with the wrong value is
`InvalidField`. The getters keep the two apart, but for one: a `msg` that is there
and is no object counts as missing.
-/

namespace KalshiAutotrader.Md

open Kit Simdjson Reading

/-! ### The three parsers -/

/-- The types of messages that have a parser. -/
inductive Route | orderbookSnapshot | orderbookDelta | trade

namespace Route

def type : Route → Bytes
  | .orderbookSnapshot => Md.orderbookSnapshot
  | .orderbookDelta => Md.orderbookDelta
  | .trade => Md.trade

/-- The parser, and the call its result is handed to. -/
def parse (route : Route) (iterate : Bytes → Except SimdError Document) (json : Bytes) :
    Except ParseError SinkCall :=
  match route with
  | .orderbookSnapshot => .onSnapshot <$> parseOrderbookSnapshot iterate json
  | .orderbookDelta => .onDelta <$> parseOrderbookDelta iterate json
  | .trade => .onTrade <$> parseTradeEvent iterate json

/-- The messages about the book have a sequence number. -/
def sequenced : Route → Bool
  | .orderbookSnapshot | .orderbookDelta => true
  | .trade => false

/-- The members that `msg` has to have. -/
def required : Route → List Bytes
  | .orderbookSnapshot => snapshotNames
  | .orderbookDelta => deltaRequired
  | .trade => tradeRequired

/-- The dispatcher answers a message of a routed type as its parser does. -/
theorem onMessage_eq {iterate : ℕ → Bytes → Except SimdError Document} {json : Bytes}
    {route : Route} (h : parseMessageType (iterate 0) json = .ok route.type) :
    onMessage iterate json = match route.parse (iterate 1) json with
      | .ok call => (.ok (), [call])
      | .error e => (.error e, []) := by
  unfold onMessage
  rw [h]
  cases route with
  | orderbookSnapshot =>
      simp only [type, parse, if_true]
      cases parseOrderbookSnapshot (iterate 1) json <;> rfl
  | orderbookDelta =>
      have hne : Md.orderbookDelta ≠ Md.orderbookSnapshot := by decide
      simp only [type, parse, if_true, if_neg hne]
      cases parseOrderbookDelta (iterate 1) json <;> rfl
  | trade =>
      have hne : Md.trade ≠ Md.orderbookSnapshot ∧ Md.trade ≠ Md.orderbookDelta := by decide
      simp only [type, parse, if_true, if_neg hne.1, if_neg hne.2]
      cases parseTradeEvent (iterate 1) json <;> rfl

end Route

/-! ### Errors -/

/-- A required field of the message is not there: its sequence number, its `msg`, or a
member of that. -/
def FieldAbsent (route : Route) (members : Members) : Prop :=
  route.sequenced = true ∧ Lacks members fieldSeq ∨ Lacks members fieldMsg ∨
    ∃ msg, Has members fieldMsg (· = .obj msg) ∧ ∃ name ∈ route.required, Lacks msg name

/-- The error tells fields that are absent from fields that are wrong. -/
structure Faithful (route : Route) (members : Members) (e : ParseError) : Prop where
  missing : e = .missingField → FieldAbsent route members
  invalid : ¬ FieldAbsent route members → e = .invalidField

/-- A sequence number is there, if the message has to have one, and is read. -/
def SequenceRead (route : Route) (members : Members) : Prop :=
  route.sequenced = true → ∃ seq, Has members fieldSeq (IsSequence · seq)

/-- The member of this name is there and is no object. -/
def NotObject (members : Members) (key : Bytes) : Prop := Has members key fun v => ∀ ms, v ≠ .obj ms

/-- Why a message is rejected. -/
inductive Rejected (route : Route) (members : Members) : ParseError → Prop
  | noSequence (hsequenced : route.sequenced = true) (hlacks : Lacks members fieldSeq) :
      Rejected route members .missingField
  | badSequence (hsequenced : route.sequenced = true) (hhas : ¬ Lacks members fieldSeq)
      (hbad : ¬ ∃ seq, Has members fieldSeq (IsSequence · seq)) :
      Rejected route members .invalidField
  | noMessage (hread : SequenceRead route members) (hlacks : Lacks members fieldMsg) :
      Rejected route members .missingField
  | badMessage (hread : SequenceRead route members) (hbad : NotObject members fieldMsg) :
      Rejected route members .missingField
  | noField {msg : Members} {name : Bytes} (hmsg : Has members fieldMsg (· = .obj msg))
      (hname : name ∈ route.required) (hlacks : Lacks msg name) :
      Rejected route members .missingField
  | badField {msg : Members} (hmsg : Has members fieldMsg (· = .obj msg)) :
      Rejected route members .invalidField

variable {members : Members} {route : Route} {e : ParseError}

theorem not_lacks_of_has {key : Bytes} {P : Json → Prop} (h : Has members key P) :
    ¬ Lacks members key := by
  obtain ⟨v, hv, -⟩ := h
  rw [lacks_iff, hv]
  exact fun h => by cases h

theorem not_notObject {msg : Members} (h : Has members fieldMsg (· = .obj msg)) :
    ¬ NotObject members fieldMsg := by
  obtain ⟨_, hv, rfl⟩ := h
  rw [NotObject, has_iff_of_lookup hv]
  exact fun hbad => hbad msg rfl

/-- Every reason but one is what its error says. -/
theorem faithful_iff (h : Rejected route members e) :
    Faithful route members e ↔ ¬ (SequenceRead route members ∧ NotObject members fieldMsg) := by
  have habsent (e : ParseError) (ha : FieldAbsent route members) : Faithful route members e :=
    ⟨fun _ => ha, fun hno => absurd ha hno⟩
  have hinvalid : Faithful route members .invalidField := ⟨fun h => (by cases h), fun _ => rfl⟩
  cases h with
  | noSequence hsequenced hlacks =>
      refine iff_of_true (habsent _ (.inl ⟨hsequenced, hlacks⟩)) fun ⟨hread, _⟩ => ?_
      obtain ⟨seq, hseq⟩ := hread hsequenced
      exact not_lacks_of_has hseq hlacks
  | badSequence hsequenced _ hbad =>
      exact iff_of_true hinvalid fun ⟨hread, _⟩ => hbad (hread hsequenced)
  | noMessage hread hlacks =>
      exact iff_of_true (habsent _ (.inr (.inl hlacks))) fun ⟨_, hmsg⟩ =>
        not_lacks_of_has hmsg hlacks
  | badMessage hread hbad =>
      refine iff_of_false (fun hfaithful => ?_) fun hno => hno ⟨hread, hbad⟩
      rcases hfaithful.missing rfl with ⟨hsequenced, hlacks⟩ | hlacks | ⟨msg, hmsg, -⟩
      · obtain ⟨seq, hseq⟩ := hread hsequenced
        exact not_lacks_of_has hseq hlacks
      · exact not_lacks_of_has hbad hlacks
      · exact not_notObject hmsg hbad
  | noField hmsg hname hlacks =>
      exact iff_of_true (habsent _ (.inr (.inr ⟨_, hmsg, _, hname, hlacks⟩))) fun ⟨_, hbad⟩ =>
        not_notObject hmsg hbad
  | badField hmsg => exact iff_of_true hinvalid fun ⟨_, hbad⟩ => not_notObject hmsg hbad

/-! ### The parsers reject for these reasons -/

/-- A failure has one of the reasons. -/
def Explained (route : Route) (members : Members) {α : Type} (r : Except ParseError α) : Prop :=
  ∀ e, r = .error e → Rejected route members e

theorem explained_ok {α : Type} (a : α) : Explained route members (.ok a) := fun _ h => by cases h

theorem explained_error {α : Type} (h : Rejected route members e) :
    Explained route members (.error e : Except ParseError α) :=
  fun _ he => Except.error.inj he ▸ h

theorem explained_message {α β : Type} (honce : Json.Once members fieldMsg)
    (hread : SequenceRead route members) {parse : Object → Read ParseError α}
    (hparse : ∀ obj, Yields Session.Sound (parse obj) (Blames obj.members route.required))
    (build : α → β) :
    Yields Session.Sound
      (do let msg ← getMessageObject ⟨.obj members, []⟩
          let fields ← parse msg
          pure (build fields)) (Explained route members) := by
  refine ((answers_getMessageObject honce).yields
    (P := (· = Object.mk 1 <$> readMessage members)) rfl).bind ?_ ?_
  · intro obj hobj
    obtain ⟨msg, hmsg, rfl⟩ := map_eq_ok.mp hobj.symm
    have hmsg := readMessage_eq_ok.mp hmsg
    refine (hparse ⟨1, msg⟩).bind (fun _ _ => (answers_pure _).yields (explained_ok _)) ?_
    intro e he
    rcases he e rfl with ⟨rfl, name, hname, hlacks⟩ | rfl
    · exact explained_error (.noField hmsg hname hlacks)
    · exact explained_error (.badField hmsg)
  · intro e he
    unfold readMessage at he
    split at he
    · cases he
    next hnot =>
      obtain rfl := Except.error.inj he
      cases hlookup : members.lookup fieldMsg with
      | none => exact explained_error (.noMessage hread (lacks_iff.mpr hlookup))
      | some v =>
          refine explained_error (.badMessage hread ⟨v, hlookup, fun ms hv => ?_⟩)
          exact hnot ms (hv ▸ hlookup)

/-- A required member fails as missing or as invalid. -/
theorem readField_eq_error {α : Type} {get : Json → Except SimdError α} {key : Bytes}
    (h : readField get members key = .error e) :
    e = .missingField ∧ Lacks members key ∨ e = .invalidField ∧ ¬ Lacks members key := by
  unfold readField required at h
  rw [lacks_iff]
  cases hlookup : members.lookup key with
  | none =>
      rw [hlookup] at h
      exact .inl ⟨(Except.error.inj h).symm, rfl⟩
  | some v =>
      simp only [hlookup] at h
      cases hget : get v with
      | ok a =>
          rw [hget] at h
          cases h
      | error _ =>
          rw [hget] at h
          exact .inr ⟨(Except.error.inj h).symm, fun h => by cases h⟩

/-- The sequence number comes before everything else. -/
theorem explained_sequence {α : Type} (honce : Json.Once members fieldSeq)
    (hsequenced : route.sequenced = true) {f : Sequence → Read ParseError α}
    (hf : SequenceRead route members → ∀ seq,
      Yields Session.Sound (f seq) (Explained route members)) :
    Yields Session.Sound (getSequence ⟨.obj members, []⟩ >>= f) (Explained route members) := by
  have hvalid : ∀ seq, readField asUint64 members fieldSeq = .ok seq ↔
      Has members fieldSeq (IsSequence · seq) := by
    intro seq
    simp only [readField, required_eq_ok, asUint64_eq_ok, IsSequence]
  refine ((answers_getSequence honce).yields
    (P := (· = readField asUint64 members fieldSeq)) rfl).bind ?_ ?_
  · intro seq hseq
    exact hf (fun _ => ⟨seq, (hvalid seq).mp hseq.symm⟩) seq
  · intro e he
    rcases readField_eq_error he.symm with ⟨rfl, hlacks⟩ | ⟨rfl, hhas⟩
    · exact explained_error (.noSequence hsequenced hlacks)
    · refine explained_error (.badSequence hsequenced hhas ?_)
      rintro ⟨seq, hseq⟩
      rw [(hvalid seq).mpr hseq] at he
      cases he

variable {iterate : ℕ → Bytes → Except SimdError Document} {pass : ℕ} {json : Bytes}

theorem of_rejected {α : Type} (hreads : Reads iterate)
    (htext : Json.IsText some json (.obj members)) {read : Document → Read ParseError α}
    (hrejected : parseDocument (iterate pass) json read = .error e)
    (h : Yields Session.Sound (read ⟨.obj members, []⟩) (Explained route members)) :
    Rejected route members e :=
  of_parseDocument hreads htext h pass e hrejected

/-- A rejected message has a reason. -/
theorem rejected_of_parse (hreads : Reads iterate)
    (htext : Json.IsText some json (.obj members)) (hmsg : Json.Once members fieldMsg)
    (hseq : route.sequenced = true → Json.Once members fieldSeq)
    (h : route.parse (iterate pass) json = .error e) : Rejected route members e := by
  cases route with
  | orderbookSnapshot =>
      refine of_rejected hreads htext (map_eq_error.mp h)
        (explained_sequence (hseq rfl) rfl fun hread seq => ?_)
      exact explained_message hmsg hread blames_parseSnapshotFields _
  | orderbookDelta =>
      refine of_rejected hreads htext (map_eq_error.mp h)
        (explained_sequence (hseq rfl) rfl fun hread seq => ?_)
      exact explained_message hmsg hread blames_parseDeltaFields _
  | trade =>
      have hread : SequenceRead .trade members := fun h => by cases h
      exact of_rejected hreads htext (map_eq_error.mp h)
        (explained_message hmsg hread blames_parseTradeFields _)

/-- The error of a rejected message is faithful unless its `msg` is there and is no
object, and nothing is wrong with what is read before it. It is also what the dispatcher
answers without a call, and the dispatcher answers a message of the type with no other. -/
theorem error_faithful_iff (iterate : ℕ → Bytes → Except SimdError Document)
    (hreads : Reads iterate) (json : Bytes) (members : Members)
    (htext : Json.IsText some json (.obj members)) (route : Route)
    (hmsg : Json.Once members fieldMsg)
    (hseq : route.sequenced = true → Json.Once members fieldSeq) :
    (∀ pass e, route.parse (iterate pass) json = .error e →
      (Faithful route members e ↔
        ¬ (SequenceRead route members ∧ NotObject members fieldMsg))) ∧
    (parseMessageType (iterate 0) json = .ok route.type → ∀ e,
      onMessage iterate json = (.error e, []) ↔ route.parse (iterate 1) json = .error e) := by
  refine ⟨fun pass e hrejected => ?_, fun htype e => ?_⟩
  · exact faithful_iff (rejected_of_parse hreads htext hmsg hseq hrejected)
  · rw [Route.onMessage_eq htype]
    cases route.parse (iterate 1) json <;> simp

/-- A trade with this value for its `msg`. -/
def tradeWith (msg : Json) : Members :=
  [(ascii "type", .str (ascii "trade")), (ascii "msg", msg)]

theorem isText_tradeWith {msg : Json} (hreadable : Json.Readable some msg)
    (hutf8 : ValidUtf8 (Json.render (.obj (tradeWith msg)))) :
    Json.IsText some (Json.render (.obj (tradeWith msg))) (.obj (tradeWith msg)) := by
  refine ⟨hutf8, Json.parse_render (.obj _ ?_ ?_)⟩
  · simp only [tradeWith, List.forall_mem_cons]
    decide
  · simp only [tradeWith, List.forall_mem_cons, List.not_mem_nil, false_implies, implies_true,
      and_true]
    exact ⟨.str _, hreadable⟩

/-- A trade without any field is missing one. -/
theorem error_faithful_empty :
    onMessage eager (Json.render (.obj (tradeWith (.obj [])))) = (.error .missingField, []) ∧
    Faithful .trade (tradeWith (.obj [])) .missingField := by
  have hrejected : Route.trade.parse (eager 1) (Json.render (.obj (tradeWith (.obj [])))) =
      .error .missingField := by decide +kernel
  have htext : Json.IsText some (Json.render (.obj (tradeWith (.obj [])))) (.obj _) :=
    isText_tradeWith (.obj _ (by decide) fun _ h => by cases h)
      (validUtf8_of_ascii (by decide +kernel))
  obtain ⟨hfaithful, hanswer⟩ := error_faithful_iff eager reads_eager _ (tradeWith (.obj []))
    htext .trade (by decide +kernel) (fun h => by cases h)
  refine ⟨(hanswer (by decide +kernel) _).mpr hrejected, (hfaithful 1 _ hrejected).mpr ?_⟩
  rintro ⟨-, v, hv, hbad⟩
  obtain rfl : Json.obj [] = v := Option.some.inj hv
  exact hbad [] rfl

/-- A trade whose `msg` is a number is answered as one that has no `msg`. -/
theorem numberMsg_is_missing :
    onMessage eager (Json.render (.obj (tradeWith (.int false 5)))) = (.error .missingField, []) ∧
    Route.trade.parse (eager 1) (Json.render (.obj (tradeWith (.int false 5)))) =
      .error .missingField ∧
    ¬ Faithful .trade (tradeWith (.int false 5)) .missingField := by
  refine ⟨by decide +kernel, by decide +kernel, fun hfaithful => ?_⟩
  rcases hfaithful.missing rfl with ⟨hsequenced, -⟩ | hlacks | ⟨msg, ⟨v, hv, hobj⟩, -⟩
  · cases hsequenced
  · exact absurd hlacks (by decide +kernel)
  · obtain rfl : Json.int false 5 = v := Option.some.inj hv
    cases hobj

end KalshiAutotrader.Md
