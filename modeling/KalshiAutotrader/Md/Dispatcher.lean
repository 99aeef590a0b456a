import KalshiAutotrader.Kit.JsonOrder
import KalshiAutotrader.Md.WireFormat

/-!
The dispatcher: the type of a message decides its parser, and a message that its
parser accepts is handed to the sink.

A message is opened twice, once for its type and once for its fields.
-/

namespace KalshiAutotrader.Md

open Kit Simdjson Reading

def orderbookSnapshot : Bytes := ascii "orderbook_snapshot"
def orderbookDelta : Bytes := ascii "orderbook_delta"
def trade : Bytes := ascii "trade"

/-- `Dispatcher::on_message`: what it returns, and the calls it makes. -/
def onMessage (iterate : ℕ → Bytes → Except SimdError Document) (json : Bytes) :
    Except ParseError Unit × List SinkCall :=
  match parseMessageType (iterate 0) json with
  | .error e => (.error e, [])
  | .ok type =>
      if type = orderbookSnapshot then
        match parseOrderbookSnapshot (iterate 1) json with
        | .error e => (.error e, [])
        | .ok snapshot => (.ok (), [.onSnapshot snapshot])
      else if type = orderbookDelta then
        match parseOrderbookDelta (iterate 1) json with
        | .error e => (.error e, [])
        | .ok delta => (.ok (), [.onDelta delta])
      else if type = trade then
        match parseTradeEvent (iterate 1) json with
        | .error e => (.error e, [])
        | .ok event => (.ok (), [.onTrade event])
      else (.error .unsupportedType, [])

/-- A message is answered by one call or by an error, and never by both. -/
theorem onMessage_cases (iterate : ℕ → Bytes → Except SimdError Document) (json : Bytes) :
    (∃ call, onMessage iterate json = (.ok (), [call])) ∨
      ∃ e, onMessage iterate json = (.error e, []) := by
  unfold onMessage
  split
  · exact .inr ⟨_, rfl⟩
  · split
    · split
      · exact .inr ⟨_, rfl⟩
      · exact .inl ⟨_, rfl⟩
    · split
      · split
        · exact .inr ⟨_, rfl⟩
        · exact .inl ⟨_, rfl⟩
      · split
        · split
          · exact .inr ⟨_, rfl⟩
          · exact .inl ⟨_, rfl⟩
        · exact .inr ⟨_, rfl⟩

/-! ### The dispatcher as a function of the members it reads -/

def readType (members : Members) : Except ParseError Bytes :=
  required .missingType .missingType asString members fieldType

def readMessage (members : Members) : Except ParseError Members :=
  match members.lookup fieldMsg with
  | some (.obj msg) => .ok msg
  | _ => .error .missingField

def readSnapshot (members : Members) : Except ParseError OrderbookSnapshot := do
  let seq ← readField asUint64 members fieldSeq
  let msg ← readMessage members
  let fields ← readSnapshotFields msg
  pure { marketTicker := fields.market, sequence := seq, yes := fields.yes, no := fields.no,
         ts := 0 }

def readDelta (members : Members) : Except ParseError OrderbookDelta := do
  let seq ← readField asUint64 members fieldSeq
  let msg ← readMessage members
  let fields ← readDeltaFields msg
  pure { marketTicker := fields.market, sequence := seq, price := fields.price,
         delta := fields.delta, side := fields.side, clientOrderId := fields.clientOrderId,
         ts := 0 }

def readTrade (members : Members) : Except ParseError TradeEvent := do
  let msg ← readMessage members
  let fields ← readTradeFields msg
  pure { marketTicker := fields.market, yesPrice := fields.yesPrice, noPrice := fields.noPrice,
         count := fields.count, takerSide := fields.takerSide, ts := fields.ts }

/-- The call a message is answered by. -/
def readCall (members : Members) : Except ParseError SinkCall := do
  let type ← readType members
  if type = orderbookSnapshot then .onSnapshot <$> readSnapshot members
  else if type = orderbookDelta then .onDelta <$> readDelta members
  else if type = trade then .onTrade <$> readTrade members
  else throw .unsupportedType

/-! ### The code computes it -/

/-- The names looked up in a message of this type. -/
def messageLayout (type : Bytes) : Json.Layout :=
  if type = orderbookSnapshot then
    .object [(fieldType, .whole), (fieldSeq, .whole), (fieldMsg, .flat snapshotNames)]
  else if type = orderbookDelta then
    .object [(fieldType, .whole), (fieldSeq, .whole), (fieldMsg, .flat deltaNames)]
  else if type = trade then .object [(fieldType, .whole), (fieldMsg, .flat tradeNames)]
  else .object [(fieldType, .whole)]

/-- The names looked up in these members. -/
def layoutOf (members : Members) : Json.Layout :=
  match readType members with
  | .ok type => messageLayout type
  | .error _ => .object [(fieldType, .whole)]

/-- A message the library reads as an object, without repetitions where the code
looks. -/
structure ClearMessage (iterate : ℕ → Bytes → Except SimdError Document) (json : Bytes)
    (members : Members) : Prop where
  nonempty : json ≠ []
  opened : ∀ pass, iterate pass json = .ok ⟨.obj members, []⟩
  clear : Json.Clear (layoutOf members) (.obj members)

theorem clearMessage_of_isText {iterate : ℕ → Bytes → Except SimdError Document}
    (hreads : Reads iterate) {json : Bytes} {members : Members}
    (htext : Json.IsText some json (.obj members))
    (hclear : Json.Clear (layoutOf members) (.obj members)) :
    ClearMessage iterate json members where
  nonempty := by
    rintro rfl
    cases htext.2
  opened := fun pass => hreads pass json _ htext
  clear := hclear

variable {iterate : ℕ → Bytes → Except SimdError Document} {json : Bytes} {members : Members}

/-- Whatever its type, the type of a message is looked up. -/
theorem messageLayout_type (type : Bytes) :
    ∃ names, messageLayout type = .object names ∧ names.lookup fieldType = some .whole := by
  unfold messageLayout
  split
  · exact ⟨_, rfl, rfl⟩
  · split
    · exact ⟨_, rfl, rfl⟩
    · split
      · exact ⟨_, rfl, rfl⟩
      · exact ⟨_, rfl, rfl⟩

theorem layoutOf_type (members : Members) :
    ∃ names, layoutOf members = .object names ∧ names.lookup fieldType = some .whole := by
  unfold layoutOf
  split
  · exact messageLayout_type _
  · exact ⟨_, rfl, rfl⟩

theorem ClearMessage.type_once (h : ClearMessage iterate json members) :
    Json.Once members fieldType := by
  obtain ⟨names, hlayout, hname⟩ := layoutOf_type members
  exact (hlayout ▸ h.clear).once hname

theorem ClearMessage.of_type (h : ClearMessage iterate json members) {type : Bytes}
    (htype : readType members = .ok type) : Json.Clear (messageLayout type) (.obj members) := by
  have hclear := h.clear
  rwa [layoutOf, htype] at hclear

theorem parseDocument_eq (h : ClearMessage iterate json members) (pass : ℕ) {α : Type}
    {read : Document → Read ParseError α} {r : Except ParseError α}
    (hread : Answers Session.Sound (read ⟨.obj members, []⟩) r) :
    parseDocument (iterate pass) json read = r := by
  rw [parseDocument, h.opened pass]
  exact (hread (Document.session ⟨.obj members, []⟩) rfl).1

theorem answers_documentRequired {key : Bytes} (honce : Json.Once members key) {α : Type}
    {getter : Value → Read SimdError α} {get : Json → Except SimdError α}
    (hgetter : ∀ v, Answers Session.Sound (getter v) (get v.json)) (missing invalid : ParseError) :
    Answers Session.Sound
      (do let field ← (Document.mk (.obj members) []).field key |>.mapError fun _ => missing
          (getter field).mapError fun _ => invalid)
      (required missing invalid get members key) :=
  answers_required (answers_documentField rfl honce) hgetter missing invalid

theorem answers_getSequence (honce : Json.Once members fieldSeq) :
    Answers Session.Sound (getSequence ⟨.obj members, []⟩)
      (readField asUint64 members fieldSeq) :=
  answers_documentRequired honce (fun v => answers_call (asUint64 v.json)) _ _

/-- The object the fields of a message are in. -/
theorem answers_getMessageObject (honce : Json.Once members fieldMsg) :
    Answers Session.Sound (getMessageObject ⟨.obj members, []⟩)
      (Object.mk 1 <$> readMessage members) := by
  have hfield : Answers Session.Sound ((Document.mk (.obj members) []).field fieldMsg) _ :=
    answers_documentField rfl honce
  have hobject := (hfield.bind fun v _ =>
    answers_openObject (v.depth + 1) v.json).mapError fun _ => ParseError.missingField
  unfold readMessage
  unfold lookup at hobject
  cases hmsg : members.lookup fieldMsg with
  | none =>
      rw [hmsg] at hobject
      exact hobject
  | some v =>
      rw [hmsg] at hobject
      cases v <;> exact hobject

theorem lookup_of_readMessage {msg : Members} (h : readMessage members = .ok msg) :
    members.lookup fieldMsg = some (.obj msg) := by
  unfold readMessage at h
  split at h
  · next heq =>
    obtain rfl := Except.ok.inj h
    exact heq
  · cases h

theorem parseMessageType_eq (h : ClearMessage iterate json members) :
    parseMessageType (iterate 0) json = readType members := by
  rw [parseMessageType, if_neg h.nonempty]
  exact parseDocument_eq h 0
    (answers_documentRequired h.type_once (fun v => answers_call (asString v.json)) _ _)

/-- A parser that reads its fields from the message object. -/
theorem answers_message {layout : List (Bytes × Json.Layout)} {names : List Bytes}
    (hclear : Json.Clear (.object layout) (.obj members))
    (hmsg : layout.lookup fieldMsg = some (.flat names)) {α β : Type}
    {parse : Object → Read ParseError α} {read : Members → Except ParseError α}
    (hparse : ∀ {obj : Object}, (∀ key ∈ names, Json.Once obj.members key) →
      Answers Session.Sound (parse obj) (read obj.members)) (build : α → β) :
    Answers Session.Sound
      (do let msg ← getMessageObject ⟨.obj members, []⟩
          let fields ← parse msg
          pure (build fields))
      (do let msg ← readMessage members
          let fields ← read msg
          pure (build fields)) := by
  have hobject := answers_getMessageObject (hclear.once hmsg)
  cases hread : readMessage members with
  | error e =>
      rw [hread] at hobject
      exact hobject.bind (g := fun _ => Except.error e) fun _ h => by cases h
  | ok msg =>
      rw [hread] at hobject
      have hinside : Json.Clear (.flat names) (.obj msg) :=
        hclear.inside hmsg (lookup_of_readMessage hread)
      have hfields : Answers Session.Sound (parse ⟨1, msg⟩) (read msg) :=
        hparse fun key hkey => hinside.once_flat hkey
      exact hobject.bind_ok (hfields.bind fun _ _ => answers_pure _)

theorem parseOrderbookSnapshot_eq (h : ClearMessage iterate json members)
    (htype : readType members = .ok orderbookSnapshot) :
    parseOrderbookSnapshot (iterate 1) json = readSnapshot members := by
  have hclear := h.of_type htype
  rw [messageLayout, if_pos rfl] at hclear
  exact parseDocument_eq h 1 <| (answers_getSequence (hclear.once rfl)).bind
    fun _ _ => answers_message hclear rfl answers_parseSnapshotFields _

theorem parseOrderbookDelta_eq (h : ClearMessage iterate json members)
    (htype : readType members = .ok orderbookDelta) :
    parseOrderbookDelta (iterate 1) json = readDelta members := by
  have hclear := h.of_type htype
  rw [messageLayout, if_neg (by decide), if_pos rfl] at hclear
  exact parseDocument_eq h 1 <| (answers_getSequence (hclear.once rfl)).bind
    fun _ _ => answers_message hclear rfl answers_parseDeltaFields _

theorem parseTradeEvent_eq (h : ClearMessage iterate json members)
    (htype : readType members = .ok trade) :
    parseTradeEvent (iterate 1) json = readTrade members := by
  have hclear := h.of_type htype
  rw [messageLayout, if_neg (by decide), if_neg (by decide), if_pos rfl] at hclear
  exact parseDocument_eq h 1 (answers_message hclear rfl answers_parseTradeFields _)

/-- The dispatcher computes `readCall`. -/
theorem onMessage_eq (h : ClearMessage iterate json members) :
    onMessage iterate json = match readCall members with
      | .ok call => (.ok (), [call])
      | .error e => (.error e, []) := by
  unfold onMessage readCall
  rw [parseMessageType_eq h]
  cases htype : readType members with
  | error e => rfl
  | ok type =>
      simp only [Except.bind, bind]
      split
      · next heq =>
        rw [parseOrderbookSnapshot_eq h (heq ▸ htype)]
        cases readSnapshot members <;> rfl
      · split
        · next heq =>
          rw [parseOrderbookDelta_eq h (heq ▸ htype)]
          cases readDelta members <;> rfl
        · split
          · next heq =>
            rw [parseTradeEvent_eq h (heq ▸ htype)]
            cases readTrade members <;> rfl
          · rfl

end KalshiAutotrader.Md
