import KalshiAutotrader.Core.ConfigSchema
import KalshiAutotrader.Md.MessageSchema

/-!
The order of the fields, and fields that nobody asks for.

Messages and configurations are functions of what is found under the names that are
looked up. To move members, or to add members of other names, changes none of that.
-/

namespace KalshiAutotrader.App

open Kit Simdjson Json

/-! ### Messages -/

section Messages

open KalshiAutotrader.Md

variable {members members' : Md.Members} {layout : List (Bytes × Layout)}

theorem required_congr {α : Type} {missing invalid : ParseError} {get : Json → Except SimdError α}
    {key : Bytes} (h : members.lookup key = members'.lookup key) :
    required missing invalid get members key = required missing invalid get members' key := by
  rw [required, required, h]

theorem readSnapshotFields_congr (h : Agree snapshotNames members members') :
    readSnapshotFields members = readSnapshotFields members' := by
  simp only [Agree, snapshotNames, List.forall_mem_cons] at h
  obtain ⟨hmarket, hyes, hno, -⟩ := h
  simp only [readSnapshotFields, readLevels, readField, required, hmarket, hyes, hno]

theorem readDeltaFields_congr (h : Agree deltaNames members members') :
    readDeltaFields members = readDeltaFields members' := by
  simp only [Agree, deltaNames, List.forall_mem_cons] at h
  obtain ⟨hmarket, hprice, hdelta, hside, hclient, -⟩ := h
  simp only [readDeltaFields, readField, required, Md.optional, hmarket, hprice, hdelta, hside,
    hclient]

theorem readTradeFields_congr (h : Agree tradeNames members members') :
    readTradeFields members = readTradeFields members' := by
  simp only [Agree, tradeNames, List.forall_mem_cons] at h
  obtain ⟨hmarket, hyes, hno, hcount, hside, hts, -⟩ := h
  simp only [readTradeFields, readField, readTimestamp, required, Md.optional, hmarket, hyes, hno,
    hcount, hside, hts]

/-- What is read from the message object is the same. -/
theorem readMessage_congr {names : List Bytes} {α : Type} {read : Md.Members → Except ParseError α}
    (h : Rearranged (.object layout) (.obj members) (.obj members'))
    (hclear : Clear (.object layout) (.obj members))
    (hmsg : layout.lookup fieldMsg = some (.flat names))
    (hread : ∀ {msg msg'}, Agree names msg msg' → read msg = read msg') :
    (readMessage members >>= read) = (readMessage members' >>= read) := by
  unfold readMessage
  rcases h.inside_lookup hclear hmsg with heq | ⟨msg, msg', hsub, hsub', hagree⟩
  · rw [heq]
  · rw [hsub, hsub']
    exact hread hagree

theorem readSeq_congr (h : Rearranged (.object layout) (.obj members) (.obj members'))
    (hclear : Clear (.object layout) (.obj members))
    (hseq : layout.lookup fieldSeq = some .whole) :
    readField asUint64 members fieldSeq = readField asUint64 members' fieldSeq :=
  required_congr (h.lookup_whole hseq (hclear.once hseq))

theorem readType_congr (h : Rearranged (layoutOf members) (.obj members) (.obj members'))
    (hclear : Clear (layoutOf members) (.obj members)) : readType members = readType members' := by
  obtain ⟨names, hlayout, htype⟩ := layoutOf_type members
  rw [hlayout] at h hclear
  exact required_congr (h.lookup_whole htype (hclear.once htype))

section Types

variable (h : Rearranged (.object layout) (.obj members) (.obj members'))
  (hclear : Clear (.object layout) (.obj members))
include h hclear

theorem readSnapshot_congr (hseq : layout.lookup fieldSeq = some .whole)
    (hmsg : layout.lookup fieldMsg = some (.flat snapshotNames)) :
    readSnapshot members = readSnapshot members' := by
  unfold readSnapshot
  rw [readSeq_congr h hclear hseq]
  apply bind_congr
  intro seq
  exact readMessage_congr h hclear hmsg fun hagree => by rw [readSnapshotFields_congr hagree]

theorem readDelta_congr (hseq : layout.lookup fieldSeq = some .whole)
    (hmsg : layout.lookup fieldMsg = some (.flat deltaNames)) :
    readDelta members = readDelta members' := by
  unfold readDelta
  rw [readSeq_congr h hclear hseq]
  apply bind_congr
  intro seq
  exact readMessage_congr h hclear hmsg fun hagree => by rw [readDeltaFields_congr hagree]

theorem readTrade_congr (hmsg : layout.lookup fieldMsg = some (.flat tradeNames)) :
    readTrade members = readTrade members' :=
  readMessage_congr h hclear hmsg fun hagree => by rw [readTradeFields_congr hagree]

end Types

theorem readCall_congr (h : Rearranged (layoutOf members) (.obj members) (.obj members'))
    (hclear : Clear (layoutOf members) (.obj members)) : readCall members = readCall members' := by
  have htypes := readType_congr h hclear
  unfold readCall
  rw [← htypes]
  cases htype : readType members with
  | error e => rfl
  | ok type =>
      rw [layoutOf, htype] at h hclear
      simp only [messageLayout] at h hclear
      simp only [bind, Except.bind]
      split
      · next heq =>
        rw [if_pos heq] at h hclear
        rw [readSnapshot_congr h hclear rfl rfl]
      · next hsnapshot =>
        rw [if_neg hsnapshot] at h hclear
        split
        · next heq =>
          rw [if_pos heq] at h hclear
          rw [readDelta_congr h hclear rfl rfl]
        · next hdelta =>
          rw [if_neg hdelta] at h hclear
          split
          · next heq =>
            rw [if_pos heq] at h hclear
            rw [readTrade_congr h hclear rfl]
          · rfl

/-- The new members have the layout of the old ones. -/
theorem layoutOf_congr (h : Rearranged (layoutOf members) (.obj members) (.obj members'))
    (hclear : Clear (layoutOf members) (.obj members)) : layoutOf members' = layoutOf members := by
  rw [layoutOf, ← readType_congr h hclear, ← layoutOf]

/-- A message is dispatched by the documents that are opened on it. -/
theorem onMessage_congr {iterate : ℕ → Bytes → Except SimdError Document} {text text' : Bytes}
    (hnonempty : text ≠ []) (hnonempty' : text' ≠ [])
    (hopened : ∀ pass, iterate pass text = iterate pass text') :
    onMessage iterate text = onMessage iterate text' := by
  simp only [onMessage, parseMessageType, parseOrderbookSnapshot, parseOrderbookDelta,
    parseTradeEvent, parseDocument, if_neg hnonempty, if_neg hnonempty', hopened]

end Messages

/-! ### Configurations -/

section Configurations

open KalshiAutotrader.Core

variable {members members' : Core.Members} {layout : List (Bytes × Layout)} {key : Bytes} {α : Type}

theorem readRequired_congr {get : Json → Except SimdError α}
    (h : members.lookup key = members'.lookup key) :
    readRequired get members key = readRequired get members' key := by
  rw [readRequired, readRequired, h]

theorem readSubscription_congr (h : Agree subscriptionNames members members') :
    readSubscription members = readSubscription members' := by
  simp only [Agree, subscriptionNames, List.forall_mem_cons] at h
  obtain ⟨hchannels, htickers, -⟩ := h
  simp only [readSubscription, readStrings, readRequired, hchannels, htickers]

theorem readWs_congr (base : WsConfig) (h : Agree wsNames members members') :
    readWs base members = readWs base members' := by
  simp only [Agree, wsNames, List.forall_mem_cons] at h
  obtain ⟨hhandshake, hidle, hpings, hauto, hinitial, hmax, -⟩ := h
  simp only [readWs, readOptional, hhandshake, hidle, hpings, hauto, hinitial, hmax]

theorem readLogging_congr (base : LoggingConfig) (h : Agree loggingNames members members') :
    readLogging base members = readLogging base members' := by
  simp only [Agree, loggingNames, List.forall_mem_cons] at h
  obtain ⟨hlevel, hsize, hpolicy, hraw, hlog, hpath, -⟩ := h
  simp only [readLogging, readOptional, hlevel, hsize, hpolicy, hraw, hlog, hpath]

theorem readOutput_congr (h : Agree outputNames members members') :
    readOutput members = readOutput members' := by
  simp only [Agree, outputNames, List.forall_mem_cons] at h
  rw [readOutput, readOutput, readRequired_congr h.1]

section Sections

variable {names : List Bytes} (h : Rearranged (.object layout) (.obj members) (.obj members'))
  (hclear : Clear (.object layout) (.obj members)) (hkey : layout.lookup key = some (.flat names))
include h hclear hkey

theorem readSection_congr {read : Core.Members → Except ConfigError α}
    (hread : ∀ {ms ms'}, Agree names ms ms' → read ms = read ms') :
    readSection members key read = readSection members' key read := by
  unfold readSection readRequired
  rcases h.inside_lookup hclear hkey with heq | ⟨sub, sub', hsub, hsub', hagree⟩
  · rw [heq]
  · rw [hsub, hsub']
    exact hread hagree

theorem readOrDefault_congr {base : α} {read : α → Core.Members → Except ConfigError α}
    (hread : ∀ {ms ms'}, Agree names ms ms' → read base ms = read base ms') :
    readOrDefault members key base read = readOrDefault members' key base read := by
  have hsection := readSection_congr h hclear hkey hread
  unfold readOrDefault
  rcases h.inside_lookup hclear hkey with heq | ⟨sub, sub', hsub, hsub', -⟩
  · rw [heq, hsection]
  · rw [hsub, hsub']
    exact hsection

end Sections

theorem configOf_congr (h : Rearranged configLayout (.obj members) (.obj members'))
    (hclear : Clear configLayout (.obj members)) : configOf members = configOf members' := by
  have hws : readOrDefault members (ascii "ws") defaultWsConfig readWs = _ :=
    readOrDefault_congr h hclear rfl (readWs_congr _)
  have hlogging : readOrDefault members (ascii "logging") defaultLoggingConfig readLogging = _ :=
    readOrDefault_congr h hclear rfl (readLogging_congr _)
  have houtput : readOrDefault members (ascii "output") defaultOutputConfig
      (fun _ => readOutput) = _ :=
    readOrDefault_congr h hclear rfl readOutput_congr
  have henv : members.lookup (ascii "env") = members'.lookup (ascii "env") :=
    h.lookup_whole rfl (hclear.once rfl)
  have hurl : members.lookup (ascii "ws_url") = members'.lookup (ascii "ws_url") :=
    h.lookup_whole rfl (hclear.once rfl)
  have hsubscription : readSection members (ascii "subscription") readSubscription = _ :=
    readSection_congr h hclear rfl readSubscription_congr
  simp only [configOf, hws, hlogging, houtput, readRequired_congr henv, readRequired_congr hurl,
    hsubscription]

end Configurations

/-! ### Texts -/

/-- The names that are looked up in a message, if it is an object. -/
def messageLayoutOf : Json → Layout
  | .obj members => Md.layoutOf members
  | _ => .whole

section Texts

variable {iterate : ℕ → Bytes → Except SimdError Document} (hreads : Reads iterate)
  {text text' : Bytes} {v v' : Json} (htext : IsText some text v) (htext' : IsText some text' v')
  (hdistinct : v.distinct = true)
include hreads htext htext' hdistinct

theorem onMessage_rearranged (h : Rearranged (messageLayoutOf v) v v') :
    Md.onMessage iterate text = Md.onMessage iterate text' := by
  rcases h.eq_or_obj with rfl | ⟨members, members', rfl, rfl⟩
  · apply onMessage_congr
    · rintro rfl
      cases htext.2
    · rintro rfl
      cases htext'.2
    · intro pass
      rw [hreads pass text _ htext, hreads pass text' _ htext']
  · have hclear : Clear (Md.layoutOf members) (.obj members) := clear_of_distinct _ _ hdistinct
    have hclear' : Clear (Md.layoutOf members') (.obj members') :=
      layoutOf_congr h hclear ▸ h.clear hclear
    rw [Md.onMessage_eq (Md.clearMessage_of_isText hreads htext hclear),
      Md.onMessage_eq (Md.clearMessage_of_isText hreads htext' hclear'), readCall_congr h hclear]

theorem loadConfig_rearranged (pass : ℕ) (h : Rearranged Core.configLayout v v') :
    Core.loadConfig (iterate pass) (some text) = Core.loadConfig (iterate pass) (some text') := by
  have hopened := hreads pass text v htext
  have hopened' := hreads pass text' v' htext'
  rcases h.eq_or_obj with rfl | ⟨members, members', rfl, rfl⟩
  · simp only [Core.loadConfig, hopened, hopened']
  · have hclear : Clear Core.configLayout (.obj members) := clear_of_distinct _ _ hdistinct
    rw [Core.loadConfig_eq hopened hclear, Core.loadConfig_eq hopened' (h.clear hclear),
      configOf_congr h hclear]

end Texts

/-- Two texts, the second with members moved and others added in the objects the code
looks into: they are dispatched alike, and loaded alike. -/
theorem order_irrelevant (iterate : ℕ → Bytes → Except SimdError Document)
    (hreads : Reads iterate) (text text' : Bytes) (v v' : Json) (htext : IsText some text v)
    (htext' : IsText some text' v') (hdistinct : v.distinct = true) :
    (Rearranged (messageLayoutOf v) v v' →
      Md.onMessage iterate text = Md.onMessage iterate text') ∧
    (Rearranged Core.configLayout v v' → ∀ pass,
      Core.loadConfig (iterate pass) (some text) = Core.loadConfig (iterate pass) (some text')) :=
  ⟨onMessage_rearranged hreads htext htext' hdistinct,
    fun h pass => loadConfig_rearranged hreads htext htext' hdistinct pass h⟩

/-- A trade the other way round, with a member more in each object. -/
def movedTrade : Md.Members :=
  [(ascii "id", .null), (ascii "msg", .obj ((ascii "x", .bool true) :: Md.tradeFields.reverse)),
    (ascii "type", .str (ascii "trade")), (ascii "sid", .int false 1)]

theorem rearranged_movedTrade :
    Rearranged (messageLayoutOf (.obj Md.tradeMessage)) (.obj Md.tradeMessage)
      (.obj movedTrade) := by
  rw [show messageLayoutOf (.obj Md.tradeMessage) =
    .object [(Md.fieldType, .whole), (Md.fieldMsg, .flat Md.tradeNames)] from rfl]
  have hmsg : Rearranged (.flat Md.tradeNames) (.obj Md.tradeFields)
      (.obj ((ascii "x", .bool true) :: Md.tradeFields.reverse)) :=
    (Rearranged.move (List.reverse_perm _).symm).trans (.add rfl)
  have hinside := @Rearranged.inside [(Md.fieldType, .whole), (Md.fieldMsg, .flat Md.tradeNames)]
    [(ascii "sid", .int false 1), (ascii "type", .str (ascii "trade"))] [] (ascii "msg") _ _ _ rfl
    hmsg
  exact hinside.trans ((Rearranged.move (List.reverse_perm _).symm).trans (.add rfl))

theorem isText_movedTrade :
    IsText some (render (.obj movedTrade)) (.obj movedTrade) := by
  refine ⟨validUtf8_of_ascii (by decide +kernel), parse_render (.obj _ (by decide) ?_)⟩
  simp only [movedTrade, List.forall_mem_cons, List.not_mem_nil, false_implies, implies_true,
    and_true]
  refine ⟨.null, .obj _ (by decide) ?_, .str _, .int _ _⟩
  rw [List.forall_mem_cons]
  exact ⟨.bool _, fun m hm => Md.readable_tradeFields m (List.mem_reverse.mp hm)⟩

def movedConfig : Core.Members := (ascii "seq", .int false 1) :: Core.configMembers.reverse

theorem isText_movedConfig :
    IsText some (render (.obj movedConfig)) (.obj movedConfig) := by
  refine ⟨validUtf8_of_ascii (by decide +kernel), parse_render (.obj _ (by decide) ?_)⟩
  rw [movedConfig, List.forall_mem_cons]
  exact ⟨.int _ _, fun m hm => Core.readable_configMembers m (List.mem_reverse.mp hm)⟩

theorem order_irrelevant_moved :
    Md.onMessage eager (render (.obj Md.tradeMessage)) =
        Md.onMessage eager (render (.obj movedTrade)) ∧
      Core.loadConfig (eager 0) (some (render (.obj Core.configMembers))) =
        Core.loadConfig (eager 0) (some (render (.obj movedConfig))) :=
  ⟨(order_irrelevant eager reads_eager _ _ _ _ Md.isText_tradeMessage isText_movedTrade
      (by decide)).1 rearranged_movedTrade,
    (order_irrelevant eager reads_eager _ _ _ _ Core.isText_configMembers isText_movedConfig
      (by decide)).2 ((Rearranged.move (List.reverse_perm _).symm).trans (.add rfl)) 0⟩

end KalshiAutotrader.App
