import KalshiAutotrader.Md.FieldReads

/-!
The time of a trade.

`ts` is in seconds and the event is in nanoseconds. Every other number of a message
is checked before it is narrowed, and this one is multiplied as it is. It comes out
right as long as the product fits: 292 years of seconds on either side of the epoch,
and no more than four months of milliseconds.
-/

namespace KalshiAutotrader.Md

open Kit Simdjson Reading

/-- The message object has an integer of 64 bits in its `ts`. -/
def HasSeconds (msg : Members) (s : ℤ) : Prop :=
  Has msg fieldTimestamp (IsInt · s) ∧ -2 ^ 63 ≤ s ∧ s < 2 ^ 63

/-- The time is the one in the message, over the integers. -/
structure ExactTime (msg : Members) (ts : Timestamp) : Prop where
  seconds : ∀ s, HasSeconds msg s → ts.toInt = s * 1000000000
  absent : (¬ ∃ s, HasSeconds msg s) → ts = 0

theorem isInt_unique {v : Json} {s z : ℤ} (hs : IsInt v s) (hz : IsInt v z) : s = z := by
  cases v with
  | int negative magnitude => exact hs.trans hz.symm
  | _ => exact hs.elim

theorem hasSeconds_unique {msg : Members} {s z : ℤ} (hs : HasSeconds msg s)
    (hz : HasSeconds msg z) : s = z := by
  obtain ⟨⟨v, hv, hs⟩, -⟩ := hs
  obtain ⟨⟨w, hw, hz⟩, -⟩ := hz
  obtain rfl := Option.some.inj (hv.symm.trans hw)
  exact isInt_unique hs hz

/-- The product that is computed is the one that is meant when that one fits. -/
theorem toInt_nanos_iff {s : ℤ} :
    (Int64.ofInt (s * 1000000000)).toInt = s * 1000000000 ↔ -9223372036 ≤ s ∧ s ≤ 9223372036 := by
  constructor
  · intro heq
    have hlow := (Int64.ofInt (s * 1000000000)).le_toInt
    have hhigh := (Int64.ofInt (s * 1000000000)).toInt_lt
    omega
  · rintro ⟨hlow, hhigh⟩
    exact Int64.toInt_ofInt_of_le (by omega) (by omega)

theorem exactTime_iff {msg : Members} :
    ExactTime msg (readTimestamp msg) ↔
      ∀ s, HasSeconds msg s → -9223372036 ≤ s ∧ s ≤ 9223372036 := by
  rcases isTime_iff.mpr (rfl : readTimestamp msg = readTimestamp msg) with
    ⟨z, hz, hlow, hhigh, hts⟩ | ⟨hnone, hts⟩
  · have hseconds : HasSeconds msg z := ⟨hz, hlow, hhigh⟩
    rw [hts]
    constructor
    · intro hexact s hs
      obtain rfl := hasSeconds_unique hs hseconds
      exact toInt_nanos_iff.mp (hexact.seconds s hs)
    · intro hrange
      refine ⟨fun s hs => ?_, fun hno => absurd ⟨z, hseconds⟩ hno⟩
      obtain rfl := hasSeconds_unique hs hseconds
      exact toInt_nanos_iff.mpr (hrange s hs)
  · have hnone : ∀ s, ¬ HasSeconds msg s := fun s hs => hnone ⟨s, hs⟩
    exact iff_of_true ⟨fun s hs => absurd hs (hnone s), fun _ => hts⟩ fun s hs =>
      absurd hs (hnone s)

/-- The fields have the time that is computed from `ts`. -/
def TimeRead (msg : Members) (fields : TradeFields) : Prop :=
  Json.Once msg fieldTimestamp → fields.ts = readTimestamp msg

theorem accepted_parseTradeFields (obj : Object) :
    Yields Session.Sound (parseTradeFields obj) (Accepted (TimeRead obj.members)) := by
  apply accepted_bind (accepted_getString obj fieldMarketTicker); intro market _
  apply accepted_bind (accepted_getInt obj fieldYesPrice); intro yesPrice _
  apply accepted_bind (accepted_getInt obj fieldNoPrice); intro noPrice _
  apply accepted_bind (accepted_getInt obj fieldCount); intro count _
  apply accepted_bind (accepted_getString obj fieldTakerSide); intro sideStr _
  apply accepted_bind (accepted_of_answers (answers_ofExcept _)); intro side _
  refine .ite (fun _ => accepted_throw _) fun _ => ?_
  refine .ite (fun _ => accepted_throw _) fun _ => ?_
  by_cases honce : Json.Once obj.members fieldTimestamp
  · apply accepted_bind (accepted_of_answers (answers_parseOptionalTimestamp honce))
    intro ts hts
    exact accepted_pure fun _ => (Except.ok.inj hts).symm
  · have hany : Yields Session.Sound (parseOptionalTimestamp obj) (Blames obj.members []) :=
      blames_parseOptionalTimestamp
    apply accepted_bind (accepted_of_blames hany)
    intro ts _
    exact accepted_pure fun h => absurd h honce

/-- The time of an accepted trade is the one in its message exactly when the seconds
in it, if there are any, are no more than fit as nanoseconds. -/
theorem trade_time_exact_iff (iterate : ℕ → Bytes → Except SimdError Document)
    (hreads : Reads iterate) (pass : ℕ) (json : Bytes) (members : Members)
    (htext : Json.IsText some json (.obj members)) (hmsg : Json.Once members fieldMsg)
    (event : TradeEvent) (haccepted : parseTradeEvent (iterate pass) json = .ok event) :
    ∃ msg, Has members fieldMsg (· = .obj msg) ∧
      (Json.Once msg fieldTimestamp → (ExactTime msg event.ts ↔
        ∀ s, HasSeconds msg s → -9223372036 ≤ s ∧ s ≤ 9223372036)) := by
  obtain ⟨msg, fields, hobj, hts, rfl⟩ := of_accepted hreads htext haccepted
    (accepted_message hmsg accepted_parseTradeFields _)
  refine ⟨msg, hobj, fun honce => ?_⟩
  rw [← exactTime_iff, ← hts honce]

theorem trade_time_exact_small : ∃ event msg,
    parseTradeEvent (eager 1) (Json.render (.obj tradeMessage)) = .ok event ∧
      Has tradeMessage fieldMsg (· = .obj msg) ∧ ExactTime msg event.ts := by
  have haccepted : parseTradeEvent (eager 1) (Json.render (.obj tradeMessage)) =
      .ok ⟨ascii "KX", 40, 60, 7, .no, 3000000000⟩ := by decide +kernel
  obtain ⟨msg, hmsg, hexact⟩ := trade_time_exact_iff eager reads_eager 1 _ tradeMessage
    isText_tradeMessage (by decide +kernel) _ haccepted
  have hfields : tradeMessage.lookup fieldMsg = some (.obj tradeFields) := rfl
  obtain rfl := object_unique hfields hmsg
  have hthree : HasSeconds tradeFields 3 := ⟨⟨_, rfl, rfl⟩, by decide, by decide⟩
  refine ⟨_, tradeFields, haccepted, hmsg, (hexact (by decide +kernel)).mpr ?_⟩
  intro s hs
  obtain rfl := hasSeconds_unique hs hthree
  decide

/-- The trade at another time. -/
def tradeFieldsAt (ts : ℕ) : Members :=
  [(ascii "market_ticker", .str (ascii "KX")), (ascii "yes_price", .int false 40),
    (ascii "no_price", .int false 60), (ascii "count", .int false 7),
    (ascii "taker_side", .str (ascii "no")), (ascii "ts", .int false ts)]

/-- A time in milliseconds is accepted and overflows. -/
theorem trade_time_overflows :
    parseTradeEvent (eager 1) (Json.render (.obj [(ascii "type", .str (ascii "trade")),
        (ascii "msg", .obj (tradeFieldsAt 1700000000000))])) =
      .ok ⟨ascii "KX", 40, 60, 7, .no, 2899545218721251328⟩ ∧
    ¬ ExactTime (tradeFieldsAt 1700000000000) 2899545218721251328 := by
  refine ⟨by decide +kernel, fun hexact => ?_⟩
  have hseconds : HasSeconds (tradeFieldsAt 1700000000000) 1700000000000 :=
    ⟨⟨_, rfl, rfl⟩, by decide, by decide⟩
  exact absurd (hexact.seconds _ hseconds) (by decide)

end KalshiAutotrader.Md
