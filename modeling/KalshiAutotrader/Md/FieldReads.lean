import KalshiAutotrader.Md.MessageSchema

/-!
The parsers of messages in which names are repeated.

`Md.WireFormat` computes the parsers where no name they ask for is there twice. Here
only the names that a statement is about have to be unambiguous: of any other name a
getter may read any member, and what is said holds whichever it reads.
-/

namespace KalshiAutotrader.Md

open Kit Simdjson Reading

variable {α : Type} {members : Members} {names : List Bytes}

/-- A member of this name is not there. -/
def Lacks (members : Members) (name : Bytes) : Prop := name ∉ members.map Prod.fst

instance (members : Members) (name : Bytes) : Decidable (Lacks members name) :=
  inferInstanceAs (Decidable (_ ∉ _))

theorem lacks_iff {name : Bytes} : Lacks members name ↔ members.lookup name = none := by
  simp only [Lacks, List.lookup_eq_none_iff, List.mem_map, not_exists, not_and, bne_iff_ne]
  exact forall₂_congr fun m _ => ⟨fun h heq => h heq.symm, fun h heq => h heq.symm⟩

theorem has_iff_of_lookup {key : Bytes} {v : Json} (h : members.lookup key = some v)
    {P : Json → Prop} : Has members key P ↔ P v := by
  simp [Has, h]

theorem object_unique {key : Bytes} {fields msg : Members}
    (h : members.lookup key = some (.obj fields)) (hmsg : Has members key (· = .obj msg)) :
    fields = msg :=
  Json.obj.inj ((has_iff_of_lookup h (P := (· = .obj msg))).mp hmsg)

/-- A failure is one of two: one of these names has no member, or a member is not as
it should be. -/
def Blames (members : Members) (names : List Bytes) (r : Except ParseError α) : Prop :=
  ∀ e, r = .error e →
    e = .missingField ∧ (∃ name ∈ names, Lacks members name) ∨ e = .invalidField

theorem blames_ok (a : α) : Blames members names (.ok a) := fun _ h => by cases h

theorem blames_invalid : Blames members names (.error .invalidField : Except ParseError α) :=
  fun _ h => .inr (Except.error.inj h).symm

theorem blames_of_only {r : Except ParseError α} (h : Only .invalidField r) :
    Blames members names r :=
  fun e he => .inr (h e he)

/-- What fails first is blamed. -/
theorem blames_bind {β : Type} {p : Read ParseError α} {f : α → Read ParseError β}
    (hp : Yields Session.Sound p (Blames members names))
    (hf : ∀ a, Yields Session.Sound (f a) (Blames members names)) :
    Yields Session.Sound (p >>= f) (Blames members names) := by
  refine hp.bind (fun a _ => hf a) fun e he e' h => ?_
  obtain rfl := Except.error.inj h
  exact he e rfl

/-! ### Getters -/

theorem blames_lookup {find : Read SimdError Value} {key : Bytes} (hkey : key ∈ names)
    (hfind : Yields Session.Sound find (Found members key)) :
    Yields Session.Sound (find.mapError fun _ => ParseError.missingField)
      (Blames members names) := by
  refine hfind.mapError _ fun r hr => ?_
  cases r with
  | ok v => exact blames_ok v
  | error e => exact fun e' h => .inl ⟨(Except.error.inj h).symm, key, hkey, hr⟩

theorem blames_get {getter : Read SimdError α} {r : Except SimdError α}
    (hgetter : Answers Session.Sound getter r) :
    Yields Session.Sound (getter.mapError fun _ => ParseError.invalidField)
      (Blames members names) := by
  apply (hgetter.mapError _).yields
  cases r with
  | ok a => exact blames_ok a
  | error e => exact blames_invalid

variable {obj : Object} {key : Bytes}

theorem blames_getString (hkey : key ∈ names) :
    Yields Session.Sound (getString obj key) (Blames obj.members names) :=
  blames_bind (blames_lookup hkey (yields_field obj key)) fun v =>
    blames_get (answers_call (asString v.json))

theorem blames_getInt (hkey : key ∈ names) :
    Yields Session.Sound (getInt obj key) (Blames obj.members names) :=
  blames_bind (blames_lookup hkey (yields_field obj key)) fun v =>
    blames_get (answers_call (asInt64 v.json))

theorem blames_side (side : Bytes) :
    Yields Session.Sound (ofExcept (parseSide side)) (Blames members names) := by
  apply (answers_ofExcept _).yields
  unfold parseSide
  split
  · exact blames_ok _
  · split
    · exact blames_ok _
    · exact blames_invalid

/-- An entry can only be invalid. -/
theorem only_readLevel (v : Json) : Only .invalidField (readLevel v) := by
  unfold readLevel
  split
  · split
    · exact (only_error _).ite ((only_error _).ite (only_ok _))
    · exact only_error _
  · exact only_error _

theorem blames_parseLevels (hkey : key ∈ names) :
    Yields Session.Sound (parseLevels obj key) (Blames obj.members names) := by
  apply blames_bind (blames_lookup hkey (yields_field obj key))
  intro v
  apply blames_bind (blames_get ((answers_call (asArray v.json)).map _))
  intro entries
  exact (Answers.mapM answers_parseLevel entries).yields
    (blames_of_only (.mapM (fun entry => only_readLevel entry.json) entries))

/-- An optional member fails nothing. -/
theorem blames_getOptional {getter : Value → Read SimdError α} {get : Json → Except SimdError α}
    (hgetter : ∀ v, Answers Session.Sound (getter v) (get v.json)) :
    Yields Session.Sound (getOptional getter obj key) (Blames members names) := by
  apply blames_bind ((yields_field obj key).observe fun r _ => blames_ok r)
  rintro (e | v)
  · exact (answers_pure none).yields (blames_ok none)
  · apply blames_bind ((hgetter v).observe.yields (blames_ok _))
    rintro (e | a)
    · exact (answers_pure none).yields (blames_ok none)
    · exact (answers_pure (some a)).yields (blames_ok (some a))

theorem blames_parseOptionalTimestamp :
    Yields Session.Sound (parseOptionalTimestamp obj) (Blames members names) := by
  apply blames_bind (blames_getOptional fun v => answers_call (asInt64 v.json)); intro seconds
  cases seconds <;> exact (answers_pure _).yields (blames_ok _)

/-! ### The fields of a message -/

/-- The members that a snapshot, a delta or a trade has to have. -/
def deltaRequired : List Bytes := [fieldMarketTicker, fieldPrice, fieldDelta, fieldSide]

def tradeRequired : List Bytes :=
  [fieldMarketTicker, fieldYesPrice, fieldNoPrice, fieldCount, fieldTakerSide]

theorem blames_invalidField :
    Yields Session.Sound (throw .invalidField : Read ParseError α) (Blames members names) :=
  (answers_throw _).yields blames_invalid

theorem blames_pure (a : α) :
    Yields Session.Sound (pure a : Read ParseError α) (Blames members names) :=
  (answers_pure a).yields (blames_ok a)

theorem blames_parseSnapshotFields (obj : Object) :
    Yields Session.Sound (parseSnapshotFields obj) (Blames obj.members snapshotNames) := by
  apply blames_bind (blames_getString (by decide)); intro market
  apply blames_bind (blames_parseLevels (by decide)); intro yes
  apply blames_bind (blames_parseLevels (by decide)); intro no
  exact blames_pure _

theorem blames_parseDeltaFields (obj : Object) :
    Yields Session.Sound (parseDeltaFields obj) (Blames obj.members deltaRequired) := by
  apply blames_bind (blames_getString (by decide)); intro market
  apply blames_bind (blames_getInt (by decide)); intro price
  apply blames_bind (blames_getInt (by decide)); intro delta
  apply blames_bind (blames_getString (by decide)); intro sideStr
  apply blames_bind (blames_side sideStr); intro side
  refine .ite (fun _ => blames_invalidField) fun _ => ?_
  refine .ite (fun _ => blames_invalidField) fun _ => ?_
  apply blames_bind (blames_getOptional fun v => answers_call (asString v.json)); intro client
  exact blames_pure _

theorem blames_parseTradeFields (obj : Object) :
    Yields Session.Sound (parseTradeFields obj) (Blames obj.members tradeRequired) := by
  apply blames_bind (blames_getString (by decide)); intro market
  apply blames_bind (blames_getInt (by decide)); intro yesPrice
  apply blames_bind (blames_getInt (by decide)); intro noPrice
  apply blames_bind (blames_getInt (by decide)); intro count
  apply blames_bind (blames_getString (by decide)); intro sideStr
  apply blames_bind (blames_side sideStr); intro side
  refine .ite (fun _ => blames_invalidField) fun _ => ?_
  refine .ite (fun _ => blames_invalidField) fun _ => ?_
  apply blames_bind blames_parseOptionalTimestamp; intro ts
  exact blames_pure _

/-! ### The message -/

variable {iterate : ℕ → Bytes → Except SimdError Document} {json : Bytes}

/-- What is read of a well-formed text. -/
theorem of_parseDocument (hreads : Reads iterate) (htext : Json.IsText some json (.obj members))
    {read : Document → Read ParseError α} {P : Except ParseError α → Prop}
    (h : Yields Session.Sound (read ⟨.obj members, []⟩) P) (pass : ℕ) :
    P (parseDocument (iterate pass) json read) := by
  rw [parseDocument, hreads pass json _ htext]
  exact (h (Document.session ⟨.obj members, []⟩) rfl).1

/-- What holds of an answer that is a value. -/
def Accepted (R : α → Prop) (r : Except ParseError α) : Prop := ∀ a, r = .ok a → R a

theorem accepted_error {R : α → Prop} (e : ParseError) : Accepted R (.error e) :=
  fun _ h => by cases h

theorem accepted_pure {R : α → Prop} {a : α} (h : R a) :
    Yields Session.Sound (pure a : Read ParseError α) (Accepted R) :=
  (answers_pure a).yields fun _ hb => Except.ok.inj hb ▸ h

theorem accepted_throw {R : α → Prop} (e : ParseError) :
    Yields Session.Sound (throw e : Read ParseError α) (Accepted R) :=
  (answers_throw e).yields (accepted_error e)

/-- What is read first makes sure of `S`, and what is read then of `R`. -/
theorem accepted_bind {β : Type} {S : α → Prop} {R : β → Prop} {p : Read ParseError α}
    {f : α → Read ParseError β} (hp : Yields Session.Sound p (Accepted S))
    (hf : ∀ a, S a → Yields Session.Sound (f a) (Accepted R)) :
    Yields Session.Sound (p >>= f) (Accepted R) :=
  hp.bind (fun a ha => hf a (ha a rfl)) fun e _ => accepted_error e

theorem accepted_of_answers {p : Read ParseError α} {r : Except ParseError α}
    (h : Answers Session.Sound p r) : Yields Session.Sound p (Accepted (r = .ok ·)) :=
  h.yields fun _ ha => ha

/-- Whatever is read. -/
theorem accepted_of_blames {p : Read ParseError α}
    (h : Yields Session.Sound p (Blames members names)) :
    Yields Session.Sound p (Accepted fun _ => True) :=
  h.mono fun _ _ _ _ => trivial

theorem accepted_getString (obj : Object) (key : Bytes) :
    Yields Session.Sound (getString obj key) (Accepted fun _ => True) :=
  accepted_of_blames (blames_getString (List.mem_singleton_self key))

theorem accepted_getInt (obj : Object) (key : Bytes) :
    Yields Session.Sound (getInt obj key) (Accepted fun _ => True) :=
  accepted_of_blames (blames_getInt (List.mem_singleton_self key))

theorem of_accepted (hreads : Reads iterate) (htext : Json.IsText some json (.obj members))
    {pass : ℕ} {read : Document → Read ParseError α} {a : α} {R : α → Prop}
    (haccepted : parseDocument (iterate pass) json read = .ok a)
    (h : Yields Session.Sound (read ⟨.obj members, []⟩) (Accepted R)) : R a :=
  of_parseDocument hreads htext h pass a haccepted

/-- What an accepted message has: an object as its `msg`, and of its members what the
parser of the fields makes sure of. -/
theorem accepted_message {β : Type} {R : Members → β → Prop} (honce : Json.Once members fieldMsg)
    {parse : Object → Read ParseError β}
    (hparse : ∀ obj, Yields Session.Sound (parse obj) (Accepted (R obj.members)))
    (build : β → α) :
    Yields Session.Sound
      (do let msg ← getMessageObject ⟨.obj members, []⟩
          let fields ← parse msg
          pure (build fields))
      (Accepted fun a => ∃ msg fields, Has members fieldMsg (· = .obj msg) ∧ R msg fields ∧
        a = build fields) := by
  apply accepted_bind (accepted_of_answers (answers_getMessageObject honce))
  intro obj hobj
  obtain ⟨msg, hmsg, rfl⟩ := map_eq_ok.mp hobj
  apply accepted_bind (hparse ⟨1, msg⟩)
  intro fields hfields
  exact accepted_pure ⟨msg, fields, readMessage_eq_ok.mp hmsg, hfields, rfl⟩

end KalshiAutotrader.Md
