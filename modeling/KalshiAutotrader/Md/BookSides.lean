import KalshiAutotrader.Md.FieldReads

/-!
The sides of a book, on the wire and decoded.

An entry is read up to its second element. What a third one says is lost, and so is
the sign of a zero. Sides that have neither are the arrays of pairs of their levels.
-/

namespace KalshiAutotrader.Md

open Kit Simdjson Reading

/-! ### Wire arrays -/

def renderLevel (level : PriceLevel) : Json :=
  .arr [.int false level.price.toNat, .int false level.size.toNat]

/-- The levels of a side as an array of pairs. -/
def renderSide (levels : List PriceLevel) : Json := .arr (levels.map renderLevel)

/-- An entry has no third element, and no element that is written `-0`. -/
def Tidy (entry : Json) : Prop :=
  ∀ elements, entry = .arr elements → elements.length ≤ 2 ∧ .int true 0 ∉ elements

def TidySide (side : Json) : Prop := ∀ entries, side = .arr entries → ∀ entry ∈ entries, Tidy entry

/-- A number that is not negative has two spellings if it is zero, and else one. -/
theorem eq_int_of_isInt {v : Json} {n : ℕ} (h : IsInt v n) (hne : v ≠ .int true 0) :
    v = .int false n := by
  cases v with
  | int negative magnitude =>
      cases negative with
      | false =>
          have heq : (n : ℤ) = magnitude := h
          rw [Int.ofNat_inj.mp heq]
      | true =>
          have heq : (n : ℤ) = -(magnitude : ℤ) := h
          obtain rfl : magnitude = 0 := by omega
          exact absurd rfl hne
  | _ => exact h.elim

theorem isLevel_exact_iff {v : Json} {level : PriceLevel} (h : IsLevel v level) :
    v = renderLevel level ↔ Tidy v := by
  obtain ⟨price, size, rest, rfl, ⟨hprice, -⟩, hsize⟩ := h
  constructor
  · intro heq
    obtain ⟨rfl, rfl, rfl⟩ : price = .int false level.price.toNat ∧
        size = .int false level.size.toNat ∧ rest = [] := by
      simpa [renderLevel] using heq
    rintro elements helements
    obtain rfl := Json.arr.inj helements
    simp
  · intro htidy
    obtain ⟨hlen, hzero⟩ := htidy _ rfl
    obtain rfl : rest = [] := by
      rw [← List.length_eq_zero_iff]
      simp only [List.length_cons] at hlen
      omega
    simp only [List.mem_cons, not_or, List.not_mem_nil, not_false_eq_true, and_true] at hzero
    rw [eq_int_of_isInt hprice (Ne.symm hzero.1), eq_int_of_isInt hsize (Ne.symm hzero.2)]
    rfl

theorem isLevels_exact_iff {v : Json} {levels : List PriceLevel} (h : IsLevels v levels) :
    v = renderSide levels ↔ TidySide v := by
  obtain ⟨entries, rfl, hlevels⟩ := h
  have hside : TidySide (.arr entries) ↔ ∀ entry ∈ entries, Tidy entry :=
    ⟨fun h => h entries rfl, fun h _ heq => Json.arr.inj heq ▸ h⟩
  rw [hside, renderSide, Json.arr.injEq]
  induction hlevels with
  | nil => simp
  | @cons entry level entries levels hlevel _ ih =>
      rw [List.map_cons, List.cons.injEq, List.forall_mem_cons, isLevel_exact_iff hlevel]
      refine and_congr_right fun _ => ih ⟨fun h => h entries rfl, fun h items heq => ?_⟩
      exact Json.arr.inj heq ▸ h

/-- Different tidy arrays are different sides. -/
theorem isLevels_injective {v w : Json} {levels : List PriceLevel} (hv : IsLevels v levels)
    (hw : IsLevels w levels) (htidy : TidySide v) (htidy' : TidySide w) : v = w :=
  ((isLevels_exact_iff hv).mpr htidy).trans ((isLevels_exact_iff hw).mpr htidy').symm

/-! ### Accepted snapshots -/

/-- The fields have the sides that are computed from `yes` and `no`. -/
structure SidesRead (msg : Members) (fields : SnapshotFields) : Prop where
  yes : Json.Once msg fieldYes → Has msg fieldYes (IsLevels · fields.yes)
  no : Json.Once msg fieldNo → Has msg fieldNo (IsLevels · fields.no)

theorem accepted_parseLevels (obj : Object) (key : Bytes) :
    Yields Session.Sound (parseLevels obj key) (Accepted fun levels =>
      Json.Once obj.members key → Has obj.members key (IsLevels · levels)) := by
  by_cases honce : Json.Once obj.members key
  · exact (answers_parseLevels honce).yields fun levels h _ => hasLevels_iff.mpr h
  · exact (blames_parseLevels (List.mem_singleton_self key)).mono
      fun _ _ _ _ h => absurd h honce

theorem accepted_parseSnapshotFields (obj : Object) :
    Yields Session.Sound (parseSnapshotFields obj) (Accepted (SidesRead obj.members)) := by
  apply accepted_bind (accepted_getString obj fieldMarketTicker); intro market _
  apply accepted_bind (accepted_parseLevels obj fieldYes); intro yes hyes
  apply accepted_bind (accepted_parseLevels obj fieldNo); intro no hno
  exact accepted_pure ⟨hyes, hno⟩

theorem accepted_getSequence (members : Members) :
    Yields Session.Sound (getSequence ⟨.obj members, []⟩) (Accepted fun _ => True) :=
  accepted_of_blames <| blames_bind
    (blames_lookup (List.mem_singleton_self fieldSeq) (yields_documentField rfl fieldSeq))
    fun v => blames_get (answers_call (asUint64 v.json))

theorem accepted_snapshot {members : Members} (hmsg : Json.Once members fieldMsg) :
    Yields Session.Sound
      (do let seq ← getSequence ⟨.obj members, []⟩
          let msg ← getMessageObject ⟨.obj members, []⟩
          let fields ← parseSnapshotFields msg
          pure { marketTicker := fields.market, sequence := seq, yes := fields.yes,
                 no := fields.no, ts := 0 })
      (Accepted fun s : OrderbookSnapshot => ∃ msg, Has members fieldMsg (· = .obj msg) ∧
        SidesRead msg ⟨s.marketTicker, s.yes, s.no⟩) := by
  apply accepted_bind (accepted_getSequence members); intro seq _
  refine (accepted_message hmsg accepted_parseSnapshotFields _).mono fun r hr s hs => ?_
  obtain ⟨msg, fields, hobj, hsides, rfl⟩ := hr s hs
  exact ⟨msg, hobj, hsides⟩

/-- Decoding the sides of an accepted snapshot discards nothing exactly when no entry
has a third element or a zero with a sign; and then no other such arrays are decoded to
the same levels. -/
theorem snapshot_sides_exact_iff (iterate : ℕ → Bytes → Except SimdError Document)
    (hreads : Reads iterate) (pass : ℕ) (json : Bytes) (members : Members)
    (htext : Json.IsText some json (.obj members)) (hmsg : Json.Once members fieldMsg)
    (snapshot : OrderbookSnapshot)
    (haccepted : parseOrderbookSnapshot (iterate pass) json = .ok snapshot) :
    ∃ msg, Has members fieldMsg (· = .obj msg) ∧
      (Json.Once msg fieldYes → Json.Once msg fieldNo →
        (Has msg fieldYes (· = renderSide snapshot.yes) ∧
          Has msg fieldNo (· = renderSide snapshot.no) ↔
        Has msg fieldYes TidySide ∧ Has msg fieldNo TidySide) ∧
        (Has msg fieldYes TidySide ∧ Has msg fieldNo TidySide → ∀ yes no,
          IsLevels yes snapshot.yes → IsLevels no snapshot.no → TidySide yes → TidySide no →
          Has msg fieldYes (· = yes) ∧ Has msg fieldNo (· = no))) := by
  obtain ⟨msg, hobj, hsides⟩ := of_accepted hreads htext haccepted (accepted_snapshot hmsg)
  refine ⟨msg, hobj, fun hyes hno => ?_⟩
  obtain ⟨v, hv, hyes⟩ := hsides.yes hyes
  obtain ⟨w, hw, hno⟩ := hsides.no hno
  simp only [has_iff_of_lookup hv, has_iff_of_lookup hw, isLevels_exact_iff hyes,
    isLevels_exact_iff hno, true_and]
  intro ⟨htidy, htidy'⟩ yes no hyes' hno' htidyYes htidyNo
  exact ⟨isLevels_injective hyes hyes' htidy htidyYes, isLevels_injective hno hno' htidy' htidyNo⟩

/-- The fields of a snapshot with this side. -/
def snapshotFields (yes : Json) : Members :=
  [(ascii "market_ticker", .str (ascii "KX")), (ascii "yes", yes), (ascii "no", .arr [])]

def snapshotWith (yes : Json) : Members :=
  [(ascii "type", .str (ascii "orderbook_snapshot")), (ascii "seq", .int false 1),
    (ascii "msg", .obj (snapshotFields yes))]

theorem readable_snapshotWith {yes : Json} (h : Json.Readable some yes) :
    Json.Readable some (.obj (snapshotWith yes)) := by
  have hfields : Json.Readable some (.obj (snapshotFields yes)) := by
    refine .obj _ ?_ ?_
    · simp only [snapshotFields, List.forall_mem_cons]
      decide
    · simp only [snapshotFields, List.forall_mem_cons, List.not_mem_nil, false_implies,
        implies_true, and_true]
      exact ⟨.str _, h, .arr _ fun v hv => by cases hv⟩
  refine .obj _ ?_ ?_
  · simp only [snapshotWith, List.forall_mem_cons]
    decide
  · simp only [snapshotWith, List.forall_mem_cons, List.not_mem_nil, false_implies, implies_true,
      and_true]
    exact ⟨.str _, .int _ _, hfields⟩

/-- A side of one level. -/
def onePair : Json := .arr [.arr [.int false 40, .int false 5]]

theorem readable_onePair : Json.Readable some onePair := by
  refine .arr _ fun v hv => ?_
  obtain rfl := List.mem_singleton.mp hv
  refine .arr _ fun w hw => ?_
  simp only [List.mem_cons, List.not_mem_nil, or_false] at hw
  rcases hw with rfl | rfl <;> exact .int _ _

theorem tidySide_onePair : TidySide onePair := by
  rintro entries hentries entry hentry elements rfl
  obtain rfl := Json.arr.inj hentries
  obtain rfl := Json.arr.inj (List.mem_singleton.mp hentry)
  simp

theorem tidySide_nil : TidySide (.arr []) := by
  rintro entries hentries entry hentry
  obtain rfl := Json.arr.inj hentries
  cases hentry

theorem snapshot_sides_exact_pair : ∃ snapshot msg,
    parseOrderbookSnapshot (eager 1) (Json.render (.obj (snapshotWith onePair))) = .ok snapshot ∧
      Has (snapshotWith onePair) fieldMsg (· = .obj msg) ∧
      Has msg fieldYes (· = renderSide snapshot.yes) ∧
      Has msg fieldNo (· = renderSide snapshot.no) := by
  have haccepted : parseOrderbookSnapshot (eager 1)
      (Json.render (.obj (snapshotWith onePair))) = .ok ⟨ascii "KX", 1, [⟨40, 5⟩], [], 0⟩ := by
    decide +kernel
  have htext : Json.IsText some (Json.render (.obj (snapshotWith onePair)))
      (.obj (snapshotWith onePair)) :=
    ⟨validUtf8_of_ascii (by decide +kernel),
      Json.parse_render (readable_snapshotWith readable_onePair)⟩
  have hfields : (snapshotWith onePair).lookup fieldMsg =
      some (.obj (snapshotFields onePair)) := rfl
  obtain ⟨msg, hmsg, hexact⟩ := snapshot_sides_exact_iff eager reads_eager 1 _ _ htext
    (by decide +kernel) _ haccepted
  obtain rfl := object_unique hfields hmsg
  refine ⟨_, _, haccepted, hmsg, (hexact (by decide +kernel) (by decide +kernel)).1.mpr ?_⟩
  exact ⟨⟨onePair, rfl, tidySide_onePair⟩, .arr [], rfl, tidySide_nil⟩

/-- What stands in an entry after its size is lost: two sides, the same levels. -/
theorem third_element_lost :
    parseOrderbookSnapshot (eager 1) (Json.render (.obj (snapshotWith
        (.arr [.arr [.int false 40, .int false 5, .int false 99]])))) =
      .ok ⟨ascii "KX", 1, [⟨40, 5⟩], [], 0⟩ ∧
    parseOrderbookSnapshot (eager 1) (Json.render (.obj (snapshotWith onePair))) =
      .ok ⟨ascii "KX", 1, [⟨40, 5⟩], [], 0⟩ ∧
    ¬ Has (snapshotFields (.arr [.arr [.int false 40, .int false 5, .int false 99]])) fieldYes
      (· = renderSide [⟨40, 5⟩]) := by
  refine ⟨by decide +kernel, by decide +kernel, ?_⟩
  rintro ⟨v, hv, rfl⟩
  cases hv

end KalshiAutotrader.Md
