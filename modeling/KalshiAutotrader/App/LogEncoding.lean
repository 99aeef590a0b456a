import KalshiAutotrader.Kit.JsonEncoding
import KalshiAutotrader.Logging.LogLine
import KalshiAutotrader.Md.MessageFlow

/-!
The encoding of the log file.

JSON is exchanged in UTF-8. The escaper looks at control bytes, quotes and
backslashes and copies every other byte, so a line is UTF-8 when the strings of
its event are. The payload of a message that does not parse is one of them, and
may be any bytes.
-/

namespace KalshiAutotrader.Logging

open Kit KalshiAutotrader.Core Simdjson Md

/-- The strings in a value. -/
def LogFieldValue.strings : LogFieldValue → List Bytes
  | .string val => [val]
  | .stringList vals => vals
  | _ => []

/-- The strings of an event that its line holds. -/
def LogEvent.strings (event : LogEvent) : List Bytes :=
  event.component :: event.message ::
    (event.fields.flatMap (fun field => field.key :: field.value.strings) ++
      if event.includeRaw then [event.raw] else [])

/-! ### A line is as well encoded as its strings -/

theorem toNat_lt_of_mem_toStringDouble {bits : UInt64} {b : UInt8}
    (hb : b ∈ toStringDouble bits) : b.toNat < 128 := by
  have hdecimal : ∀ n, b ∈ decimal n → b.toNat < 128 := fun n hn =>
    toNat_lt_of_mem_decimalInt (z := .ofNat n) hn
  have hsign : ∀ p : Prop, [Decidable p] → b ∈ (if p then [45] else ([] : Bytes)) →
      b.toNat < 128 := by
    intro p _ hmem
    split at hmem
    · obtain rfl := List.mem_singleton.mp hmem
      decide
    · cases hmem
  have hword : b ∈ ascii "inf" ∨ b ∈ ascii "nan" → b.toNat < 128 := by
    have hall : (∀ c ∈ ascii "inf", c.toNat < 128) ∧ ∀ c ∈ ascii "nan", c.toNat < 128 := by
      decide +kernel
    rintro (h | h)
    · exact hall.1 b h
    · exact hall.2 b h
  unfold toStringDouble at hb
  simp only at hb
  split at hb
  · rcases List.mem_append.mp hb with hb | hb
    · exact hsign _ hb
    · split at hb
      · exact hword (.inl hb)
      · exact hword (.inr hb)
  · simp only [List.mem_append, List.mem_cons, List.mem_replicate] at hb
    rcases hb with (hb | hb) | rfl | ⟨-, rfl⟩ | hb
    · exact hsign _ hb
    · exact hdecimal _ hb
    · decide
    · decide
    · exact hdecimal _ hb

theorem validUtf8_value {value : LogFieldValue} :
    ValidUtf8 (Json.render value.toJson) ↔ ∀ s ∈ value.strings, ValidUtf8 s := by
  cases value with
  | string val =>
      rw [LogFieldValue.toJson, Json.validUtf8_render_str]
      simp [LogFieldValue.strings]
  | int64 val => simp [LogFieldValue.toJson, LogFieldValue.strings, Json.validUtf8_render_ofInt]
  | uint64 val =>
      have hval : Json.int false val.toNat = Json.ofInt val.toNat := rfl
      rw [LogFieldValue.toJson, hval]
      simp [LogFieldValue.strings, Json.validUtf8_render_ofInt]
  | double bits =>
      have hascii : ValidUtf8 (Json.render (.float (toStringDouble bits))) :=
        validUtf8_of_ascii fun _ => toNat_lt_of_mem_toStringDouble
      exact iff_of_true hascii (by simp [LogFieldValue.strings])
  | bool val =>
      have hascii : ValidUtf8 (Json.render (.bool val)) :=
        validUtf8_of_ascii (by cases val <;> decide +kernel)
      exact iff_of_true hascii (by simp [LogFieldValue.strings])
  | stringList vals =>
      rw [LogFieldValue.toJson, Json.validUtf8_render_arr, List.forall_mem_map]
      simp only [Json.validUtf8_render_str, LogFieldValue.strings]

theorem validUtf8_fields {fields : LogFields} :
    ValidUtf8 (Json.render (.obj (fields.map LogField.toMember))) ↔
      ∀ s ∈ fields.flatMap (fun field => field.key :: field.value.strings), ValidUtf8 s := by
  rw [Json.validUtf8_render_obj, List.forall_mem_map, List.forall_mem_flatMap]
  refine forall₂_congr fun field _ => ?_
  rw [List.forall_mem_cons, ← validUtf8_value]
  rfl

/-- The members that every line has. -/
theorem validUtf8_head (event : LogEvent) :
    (∀ m ∈ [(ascii "ts_ms", Json.int false event.tsMs.toNat),
        (ascii "level", .str event.level.toString), (ascii "component", .str event.component),
        (ascii "msg", .str event.message)], ValidUtf8 m.1 ∧ ValidUtf8 (Json.render m.2)) ↔
      ValidUtf8 event.component ∧ ValidUtf8 event.message := by
  have hascii : ∀ name ∈ [ascii "ts_ms", ascii "level", ascii "component", ascii "msg"],
      ∀ b ∈ name, b.toNat < 128 := by decide +kernel
  simp only [List.forall_mem_cons] at hascii
  obtain ⟨hts, hlevel, hcomponent, hmsg, -⟩ := hascii
  have hmoment : ValidUtf8 (Json.render (.int false event.tsMs.toNat)) :=
    Json.validUtf8_render_ofInt event.tsMs.toNat
  have hname : ValidUtf8 event.level.toString :=
    validUtf8_of_ascii (by cases event.level <;> decide +kernel)
  simp [validUtf8_of_ascii hts, validUtf8_of_ascii hlevel, validUtf8_of_ascii hcomponent,
    validUtf8_of_ascii hmsg, hmoment, Json.validUtf8_render_str, hname]

/-- A line is UTF-8 exactly when the strings of its event are. -/
theorem validUtf8_writeEvent (event : LogEvent) :
    ValidUtf8 (writeEvent event) ↔ ∀ s ∈ event.strings, ValidUtf8 s := by
  have hfields : ValidUtf8 (ascii "fields") := validUtf8_of_ascii (by decide +kernel)
  have hraw : ValidUtf8 (ascii "raw") := validUtf8_of_ascii (by decide +kernel)
  have hempty : event.fields = [] → ∀ s ∈ event.fields.flatMap
      (fun field => field.key :: field.value.strings), ValidUtf8 s := by
    intro hnone
    simp [hnone]
  rw [writeEvent_eq, validUtf8_append_cons (by decide), and_iff_left validUtf8_nil,
    LogEvent.toJson, Json.validUtf8_render_obj, List.forall_mem_append, List.forall_mem_append,
    validUtf8_head, LogEvent.strings, List.forall_mem_cons, List.forall_mem_cons,
    List.forall_mem_append, and_assoc, and_assoc]
  refine and_congr_right fun _ => and_congr_right fun _ => and_congr ?_ ?_
  · split
    next hnone => exact iff_of_true (by simp) (hempty hnone)
    next =>
      rw [List.forall_mem_singleton, validUtf8_fields]
      exact and_iff_right hfields
  · split
    · rw [List.forall_mem_singleton, List.forall_mem_singleton, Json.validUtf8_render_str]
      exact and_iff_right hraw
    · simp

/-- The line of an event is UTF-8 exactly when the strings of the event are, and then,
without doubles, it is the JSON text of what the event says. -/
theorem log_line_utf8 (event : LogEvent) :
    (ValidUtf8 (writeEvent event) ↔ ∀ s ∈ event.strings, ValidUtf8 s) ∧
    (event.Exact → (Json.IsText Json.unescape (writeEvent event) event.toJson ↔
      ∀ s ∈ event.strings, ValidUtf8 s)) := by
  refine ⟨validUtf8_writeEvent event, fun hexact => ?_⟩
  have hparse : Json.parse Json.unescape (writeEvent event) = some event.toJson := by
    rw [writeEvent_eq]
    exact Json.parse_render_append (readable_toJson hexact)
      (Json.endsNumber_space (by decide) []) (by decide)
  rw [Json.IsText, and_iff_left hparse, validUtf8_writeEvent]

/-- A message of one byte that starts no character. -/
def strayByte : List FeedAct := opening ++ [.read (.ok [0xFF])]

/-- The message does not parse, and the line that reports it is not UTF-8. -/
theorem strayByte_line :
    ∃ s, (feed eager localOptions).exec (feed eager localOptions).start strayByte = some s ∧
      .log (FeedHandler.parseErrorEvent .invalidJson [0xFF] true) ∈ s.trace ∧
      ¬ ValidUtf8 (writeEvent (FeedHandler.parseErrorEvent .invalidJson [0xFF] true)) := by
  have hrun : ((feed eager localOptions).exec (feed eager localOptions).start strayByte).map
      (fun s => decide (.log (FeedHandler.parseErrorEvent .invalidJson [0xFF] true) ∈ s.trace)) =
        some true := by
    decide +kernel
  obtain ⟨s, hs, htrace⟩ := Option.map_eq_some_iff.mp hrun
  refine ⟨s, hs, of_decide_eq_true htrace, fun hvalid => ?_⟩
  have hraw := (validUtf8_writeEvent _).mp hvalid [0xFF] (by decide +kernel)
  exact absurd (toNat_lt_of_mem_utf8 hraw (List.mem_singleton_self _)) (by decide)

end KalshiAutotrader.Logging
