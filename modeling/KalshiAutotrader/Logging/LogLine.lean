import KalshiAutotrader.Kit.JsonRender
import KalshiAutotrader.Kit.Lines
import KalshiAutotrader.Logging.Delivery

/-!
The log file: one line of JSON for each event.

`write_event` builds a line by appending to a string. What the line denotes is
`LogEvent.toJson`, and the line is the rendering of it; so a reader of the file
gets back the lines, and from each line the event, whatever bytes its strings
hold. The type of a number is not part of the line: a signed and an unsigned
field of one value are written alike.
-/

namespace KalshiAutotrader.Logging

open Kit

/-! ### Writing -/

/-- `std::hex << std::uppercase << std::setw(4) << std::setfill('0') << n`. -/
def hex4 (n : ℕ) : Bytes :=
  let digits := (Nat.toDigits 16 n).map fun c => UInt8.ofNat c.toUpper.toNat
  List.replicate (4 - digits.length) 48 ++ digits

/-- One round of the loop of `append_json_string`. -/
def appendJsonChar (c : UInt8) : Bytes :=
  if c = 92 then ascii "\\\\"
  else if c = 34 then ascii "\\\""
  else if c = 8 then ascii "\\b"
  else if c = 12 then ascii "\\f"
  else if c = 10 then ascii "\\n"
  else if c = 13 then ascii "\\r"
  else if c = 9 then ascii "\\t"
  else if c < 0x20 then ascii "\\u" ++ hex4 c.toNat
  else [c]

def appendJsonString (text : Bytes) : Bytes := text.flatMap appendJsonChar

/-- The quotient rounded to the nearest number, and to the even one of two. -/
def roundQuotient (n d : ℕ) : ℕ :=
  if 2 * (n % d) < d ∨ (2 * (n % d) = d ∧ n / d % 2 = 0) then n / d else n / d + 1

/-- `std::to_string` of a `double`, given by its 64 bits: six decimals. -/
def toStringDouble (bits : UInt64) : Bytes :=
  let sign := if bits.toNat / 2 ^ 63 = 1 then [45] else []
  let exponent := bits.toNat / 2 ^ 52 % 2 ^ 11
  let fraction := bits.toNat % 2 ^ 52
  if exponent = 2047 then sign ++ (if fraction = 0 then ascii "inf" else ascii "nan")
  else
    -- subnormal numbers have no leading one
    let mantissa := if exponent = 0 then fraction else fraction + 2 ^ 52
    let millionths := roundQuotient (mantissa * 2 ^ max exponent 1 * 10 ^ 6) (2 ^ 1075)
    let decimals := decimal (millionths % 10 ^ 6)
    sign ++ decimal (millionths / 10 ^ 6) ++ 46 :: (List.replicate (6 - decimals.length) 48 ++ decimals)

/-- The loop over a string list in `append_field_value`. -/
def appendStringList : List Bytes → Bytes
  | [] => []
  | [val] => ascii "\"" ++ appendJsonString val ++ ascii "\""
  | val :: next :: vals =>
      ascii "\"" ++ appendJsonString val ++ ascii "\"" ++ ascii "," ++
        appendStringList (next :: vals)

def appendFieldValue : LogFieldValue → Bytes
  | .string val => ascii "\"" ++ appendJsonString val ++ ascii "\""
  | .int64 val => decimalInt val.toInt
  | .uint64 val => decimal val.toNat
  | .double bits => toStringDouble bits
  | .bool val => if val then ascii "true" else ascii "false"
  | .stringList vals => ascii "[" ++ appendStringList vals ++ ascii "]"

/-- The loop over the fields in `write_event`. -/
def appendFields : LogFields → Bytes
  | [] => []
  | [field] => ascii "\"" ++ appendJsonString field.key ++ ascii "\":" ++ appendFieldValue field.value
  | field :: next :: fields =>
      ascii "\"" ++ appendJsonString field.key ++ ascii "\":" ++ appendFieldValue field.value ++
        ascii "," ++ appendFields (next :: fields)

/-- What `write_event` appends to the file. -/
def writeEvent (event : LogEvent) : Bytes :=
  ascii "\x7b\"ts_ms\":" ++ decimal event.tsMs.toNat ++
    ascii ",\"level\":\"" ++ appendJsonString event.level.toString ++
    ascii "\",\"component\":\"" ++ appendJsonString event.component ++
    ascii "\",\"msg\":\"" ++ appendJsonString event.message ++ ascii "\"" ++
    (if event.fields = [] then []
      else ascii ",\"fields\":\x7b" ++ appendFields event.fields ++ ascii "\x7d") ++
    (if event.includeRaw then ascii ",\"raw\":\"" ++ appendJsonString event.raw ++ ascii "\"" else []) ++
    ascii "\x7d\n"

def writeBatch (batch : List LogEvent) : Bytes := batch.flatMap writeEvent

/-! ### What a line denotes -/

def LogFieldValue.toJson : LogFieldValue → Json
  | .string val => .str val
  | .int64 val => Json.ofInt val.toInt
  | .uint64 val => .int false val.toNat
  | .double bits => .float (toStringDouble bits)
  | .bool val => .bool val
  | .stringList vals => .arr (vals.map .str)

def LogField.toMember (field : LogField) : Bytes × Json := (field.key, field.value.toJson)

/-- The members of the line of an event. -/
def LogEvent.toJson (event : LogEvent) : Json :=
  .obj ([(ascii "ts_ms", .int false event.tsMs.toNat), (ascii "level", .str event.level.toString),
      (ascii "component", .str event.component), (ascii "msg", .str event.message)] ++
    (if event.fields = [] then [] else [(ascii "fields", .obj (event.fields.map LogField.toMember))]) ++
    (if event.includeRaw then [(ascii "raw", .str event.raw)] else []))

/-- The value is not a `double`. -/
def LogFieldValue.Exact : LogFieldValue → Prop
  | .double _ => False
  | _ => True

instance : ∀ v : LogFieldValue, Decidable v.Exact
  | .double _ => isFalse id
  | .string _ | .int64 _ | .uint64 _ | .bool _ | .stringList _ => isTrue trivial

/-- No field of the event is a `double`. -/
def LogEvent.Exact (event : LogEvent) : Prop := ∀ field ∈ event.fields, field.value.Exact

instance (event : LogEvent) : Decidable event.Exact :=
  inferInstanceAs (Decidable (∀ field ∈ event.fields, _))

/-! ### The line is the rendering of what it denotes -/

theorem appendJsonChar_eq (c : UInt8) : appendJsonChar c = Json.escapeByte c := by
  have hall : ∀ n : Fin 256, appendJsonChar (UInt8.ofNat n) = Json.escapeByte (UInt8.ofNat n) := by
    decide +kernel
  simpa using hall ⟨c.toNat, c.toNat_lt⟩

theorem appendJsonString_eq (text : Bytes) : appendJsonString text = Json.escape text := by
  rw [appendJsonString, funext appendJsonChar_eq, Json.escape]

theorem quoted_eq (text : Bytes) :
    ascii "\"" ++ appendJsonString text ++ ascii "\"" = Json.quoted text := by
  rw [appendJsonString_eq]
  rfl

theorem appendStringList_eq (vals : List Bytes) :
    appendStringList vals = Json.renderItems (vals.map .str) := by
  induction vals with
  | nil => rfl
  | cons val vals ih =>
      cases vals with
      | nil => exact quoted_eq val
      | cons next vals =>
          rw [appendStringList, quoted_eq, ih, List.append_assoc]
          rfl

theorem appendFieldValue_eq (value : LogFieldValue) :
    appendFieldValue value = Json.render value.toJson := by
  cases value with
  | string val => exact quoted_eq val
  | int64 val => exact (Json.render_ofInt _).symm
  | uint64 val => rfl
  | double bits => rfl
  | bool val => rfl
  | stringList vals =>
      rw [appendFieldValue, appendStringList_eq]
      rfl

theorem appendFields_eq (fields : LogFields) :
    appendFields fields = Json.renderMembers (fields.map LogField.toMember) := by
  have hkey (key : Bytes) (rest : Bytes) :
      ascii "\"" ++ appendJsonString key ++ ascii "\":" ++ rest =
        Json.quoted key ++ Json.byte ':' :: rest := by
    rw [← quoted_eq]
    simp [ascii, Json.byte]
  induction fields with
  | nil => rfl
  | cons field fields ih =>
      cases fields with
      | nil =>
          rw [appendFields, hkey, appendFieldValue_eq]
          rfl
      | cons next fields =>
          rw [appendFields, hkey, appendFieldValue_eq, ih]
          simp only [List.append_assoc]
          rfl

/-- The line of an event, and the newline that ends it. -/
theorem writeEvent_eq (event : LogEvent) :
    writeEvent event = Json.render event.toJson ++ [newline] := by
  unfold writeEvent LogEvent.toJson
  simp only [appendJsonString_eq, appendFields_eq]
  by_cases hfields : event.fields = []
  · cases hraw : event.includeRaw <;>
      simp only [hfields, if_true, Bool.false_eq_true, if_false, Json.render, Json.renderMembers,
        Json.quoted, List.append_assoc, List.cons_append, List.nil_append] <;> rfl
  · cases hraw : event.includeRaw <;>
      simp only [hfields, if_true, Bool.false_eq_true, if_false, Json.render, Json.renderMembers,
        Json.quoted, List.append_assoc, List.cons_append, List.nil_append] <;> rfl

/-! ### Reading the file -/

theorem readable_toJson_value {value : LogFieldValue} (h : value.Exact) :
    Json.Readable Json.unescape value.toJson := by
  cases value with
  | string val => exact .str val
  | int64 val => exact Json.readable_ofInt _ _
  | uint64 val => exact .int _ _
  | double bits => cases h
  | bool val => exact .bool val
  | stringList vals => exact Json.readable_strings _ vals

theorem readable_toJson {event : LogEvent} (h : event.Exact) :
    Json.Readable Json.unescape event.toJson := by
  apply Json.Readable.obj _ fun m _ => Json.unescape_escape m.1
  intro m hm
  simp only [List.mem_append, List.mem_cons, List.not_mem_nil, or_false] at hm
  rcases hm with ((rfl | rfl | rfl | rfl) | hfields) | hraw
  · exact .int _ _
  · exact .str _
  · exact .str _
  · exact .str _
  · split at hfields
    · cases hfields
    · obtain rfl := List.mem_singleton.mp hfields
      apply Json.Readable.obj _ fun m _ => Json.unescape_escape m.1
      intro member hmember
      obtain ⟨field, hfield, rfl⟩ := List.mem_map.mp hmember
      exact readable_toJson_value (h field hfield)
  · split at hraw
    · obtain rfl := List.mem_singleton.mp hraw
      exact .str _
    · cases hraw

theorem newline_notMem_line {event : LogEvent} (h : event.Exact) :
    newline ∉ Json.render event.toJson :=
  fun hmem => Json.not_low_of_mem_render (readable_toJson h) hmem (by decide)

/-- Cut at its newlines, the file is the lines of the events, and nothing after the
last one. -/
theorem splitOn_writeBatch {events : List LogEvent} (h : ∀ event ∈ events, event.Exact) :
    (writeBatch events).splitOn newline =
      events.map (fun event => Json.render event.toJson) ++ [[]] := by
  have hlines : writeBatch events =
      (events.map fun event => Json.render event.toJson).flatMap (· ++ [newline]) := by
    rw [writeBatch, funext writeEvent_eq, List.flatMap_map]
  rw [hlines]
  apply splitOn_records
  intro line hline
  obtain ⟨event, hevent, rfl⟩ := List.mem_map.mp hline
  exact newline_notMem_line (h event hevent)

/-- The file loses nothing: it has one line for each event, in order, and each line
is JSON that says what its event says. -/
theorem log_lines (events : List LogEvent) (hexact : ∀ event ∈ events, event.Exact) :
    ∃ lines, (writeBatch events).splitOn newline = lines ++ [[]] ∧
      lines.map (Json.parse Json.unescape) = events.map fun event => some event.toJson := by
  refine ⟨_, splitOn_writeBatch hexact, ?_⟩
  rw [List.map_map]
  apply List.map_congr_left
  intro event hevent
  exact Json.parse_render (readable_toJson (hexact event hevent))

/-- A message that does not parse, with its payload, and an event whose strings hold
what a line has to escape. -/
def awkwardEvents : List LogEvent :=
  [logRawEvent .warn (ascii "md.dispatcher") (ascii "parse_error")
      (LogFields.addInt [] (ascii "parse_error") (-1)) [123, 10, 0, 255, 34],
    logEvent .error (ascii "core\\auth") [] [⟨ascii "\"", .stringList [[9], []]⟩, ⟨[], .bool true⟩]]

theorem log_lines_awkward : ∃ lines, (writeBatch awkwardEvents).splitOn newline = lines ++ [[]] ∧
    lines.map (Json.parse Json.unescape) = awkwardEvents.map fun event => some event.toJson :=
  log_lines awkwardEvents (by decide +kernel)

/-! ### The file of a run -/

/-- What the logger has written to its file. -/
def LoggerState.file (s : LoggerState) : Bytes := writeBatch (s.written.map Line.toEvent)

/-- A line for each event written and each summary, in order. -/
theorem splitOn_file {s : LoggerState} (h : ∀ event ∈ s.events, event.Exact) :
    s.file.splitOn newline =
      s.written.map (fun line => Json.render line.toEvent.toJson) ++ [[]] := by
  have hexact : ∀ event ∈ s.written.map Line.toEvent, event.Exact := by
    intro event hevent
    obtain ⟨line, hline, rfl⟩ := List.mem_map.mp hevent
    cases line with
    | event e => exact h e (List.mem_filterMap.mpr ⟨.event e, hline, rfl⟩)
    | dropped tsMs count =>
        intro field hfield
        obtain rfl := List.mem_singleton.mp hfield
        trivial
  rw [LoggerState.file, splitOn_writeBatch hexact, List.map_map]
  rfl

end KalshiAutotrader.Logging
