import KalshiAutotrader.Kit.Json

/-!
Writing JSON, and reading back what was written.

`render` is the compact form: no white space, one escape for each byte that
needs one. The reader of `Kit.Json` takes it back to the value it came from.
For strings the converse matters too: a string put between quotes as it is
reads back as itself only when it needed no escape.
-/

namespace KalshiAutotrader.Kit

namespace Json

/-! ### The writer -/

/-- An upper-case hexadecimal digit. -/
def hexUpper (d : ℕ) : UInt8 := UInt8.ofNat (if d < 10 then 48 + d else 55 + d)

/-- The letter of the one-letter escape of a byte. -/
def shortEscape (b : UInt8) : Option UInt8 :=
  if b = backslash then some backslash
  else if b = quote then some quote
  else if b = 8 then some (byte 'b')
  else if b = 12 then some (byte 'f')
  else if b = 10 then some (byte 'n')
  else if b = 13 then some (byte 'r')
  else if b = 9 then some (byte 't')
  else none

/-- A byte as it stands inside a string literal. -/
def escapeByte (b : UInt8) : Bytes :=
  match shortEscape b with
  | some e => [backslash, e]
  | none =>
      if b < 32 then
        [backslash, byte 'u', 48, 48, hexUpper (b.toNat / 16), hexUpper (b.toNat % 16)]
      else [b]

def escape (text : Bytes) : Bytes := text.flatMap escapeByte

/-- A string literal. -/
def quoted (text : Bytes) : Bytes := quote :: (escape text ++ [quote])

/-- The literal of an integer. -/
def ofInt : ℤ → Json
  | .ofNat n => .int false n
  | .negSucc n => .int true (n + 1)

mutual

def render : Json → Bytes
  | .null => ascii "null"
  | .bool val => if val then ascii "true" else ascii "false"
  | .int negative magnitude => (if negative then [byte '-'] else []) ++ decimal magnitude
  | .float spelling => spelling
  | .str text => quoted text
  | .unpaired => []
  | .arr vs => byte '[' :: (renderItems vs ++ [byte ']'])
  | .obj ms => byte '{' :: (renderMembers ms ++ [byte '}'])

def renderItems : List Json → Bytes
  | [] => []
  | [v] => render v
  | v :: w :: vs => render v ++ byte ',' :: renderItems (w :: vs)

def renderMembers : List (Bytes × Json) → Bytes
  | [] => []
  | [m] => quoted m.1 ++ byte ':' :: render m.2
  | m :: n :: ms => quoted m.1 ++ byte ':' :: (render m.2 ++ byte ',' :: renderMembers (n :: ms))

end

theorem render_str (text : Bytes) : render (.str text) = quoted text := rfl

theorem render_obj (ms : List (Bytes × Json)) :
    render (.obj ms) = byte '{' :: (renderMembers ms ++ [byte '}']) := rfl

/-- The values that are read back: every number is an integer, every string is
text, and `name` takes the names back. -/
inductive Readable (name : Bytes → Option Bytes) : Json → Prop
  | null : Readable name .null
  | bool (val : Bool) : Readable name (.bool val)
  | int (negative : Bool) (magnitude : ℕ) : Readable name (.int negative magnitude)
  | str (text : Bytes) : Readable name (.str text)
  | arr (vs : List Json) : (∀ v ∈ vs, Readable name v) → Readable name (.arr vs)
  | obj (ms : List (Bytes × Json)) :
      (∀ m ∈ ms, name (escape m.1) = some m.1) → (∀ m ∈ ms, Readable name m.2) →
      Readable name (.obj ms)

theorem readable_ofInt (name : Bytes → Option Bytes) (z : ℤ) : Readable name (ofInt z) := by
  cases z <;> exact .int _ _

theorem readable_strings (name : Bytes → Option Bytes) (texts : List Bytes) :
    Readable name (.arr (texts.map .str)) := by
  apply Readable.arr
  intro v hv
  obtain ⟨text, -, rfl⟩ := List.mem_map.mp hv
  exact .str text

theorem render_ofInt (z : ℤ) : render (ofInt z) = decimalInt z := by
  cases z <;> simp [ofInt, render, decimalInt, byte]

/-! ### Tokens -/

theorem skipSpace_cons {b : UInt8} {text : Bytes} (hb : isSpace b = false) :
    skipSpace (b :: text) = b :: text := by
  simp [skipSpace, hb]

theorem expect_cons_self {b : UInt8} {text : Bytes} (hb : isSpace b = false) :
    expect b (b :: text) = some text := by
  simp [expect, skipSpace_cons hb]

theorem expect_cons_ne {b c : UInt8} {text : Bytes} (hc : isSpace c = false) (hne : c ≠ b) :
    expect b (c :: text) = none := by
  simp [expect, skipSpace_cons hc, hne]

theorem keyword_cons_ne {c : UInt8} {text : Bytes} {word : String} {v : Json}
    (hc : isSpace c = false) (hne : (ascii word).head? ≠ some c)
    (hword : word.length = (ascii word).length) (hnil : ascii word ≠ []) :
    keyword word v (c :: text) = none := by
  rw [keyword, skipSpace_cons hc, if_neg]
  rw [hword]
  cases hw : ascii word with
  | nil => exact absurd hw hnil
  | cons b bs =>
      rw [hw] at hne
      intro heq
      rw [List.length_cons, List.take_succ_cons] at heq
      exact hne (by rw [(List.cons.inj heq).1]; rfl)

/-! ### Strings -/

theorem hexDigit_hexUpper {d : ℕ} (hd : d < 16) :
    hexDigit (hexUpper d) = some d ∧ hexUpper d ≠ quote ∧ hexUpper d ≠ backslash ∧
      ¬ hexUpper d < 32 := by
  have hall : ∀ d : Fin 16, hexDigit (hexUpper d) = some d.val ∧ hexUpper d ≠ quote ∧
      hexUpper d ≠ backslash ∧ ¬ hexUpper d < 32 := by decide
  exact hall ⟨d, hd⟩

theorem simpleEscape_shortEscape {b e : UInt8} (h : shortEscape b = some e) :
    simpleEscape e = some b := by
  unfold shortEscape at h
  repeat' split at h
  all_goals cases h
  all_goals subst_vars; decide

/-- The forms an escaped byte has. -/
theorem escapeByte_cases (b : UInt8) :
    (∃ e, escapeByte b = [backslash, e] ∧ simpleEscape e = some b) ∨
    (b.toNat < 32 ∧ escapeByte b =
      [backslash, byte 'u', 48, 48, hexUpper (b.toNat / 16), hexUpper (b.toNat % 16)]) ∨
    (b ≠ quote ∧ b ≠ backslash ∧ ¬ b < 32 ∧ escapeByte b = [b]) := by
  cases hshort : shortEscape b with
  | some e => exact .inl ⟨e, by simp [escapeByte, hshort], simpleEscape_shortEscape hshort⟩
  | none =>
      by_cases hlow : b < 32
      · refine .inr (.inl ⟨UInt8.lt_iff_toNat_lt.mp hlow, ?_⟩)
        simp [escapeByte, hshort, hlow]
      · refine .inr (.inr ⟨?_, ?_, hlow, by simp [escapeByte, hshort, hlow]⟩) <;>
          rintro rfl <;> cases hshort

theorem rawString_cons {b : UInt8} {text : Bytes} (hquote : b ≠ quote) (hslash : b ≠ backslash)
    (hlow : ¬ b < 32) :
    rawString (b :: text) = (rawString text).map fun (raw, rest) => (b :: raw, rest) := by
  cases text <;> simp [rawString, hquote, hslash, hlow]

theorem rawString_quote (text : Bytes) : rawString (quote :: text) = some ([], text) := by
  cases text <;> rfl

theorem rawString_backslash (e : UInt8) (text : Bytes) :
    rawString (backslash :: e :: text) =
      if (simpleEscape e).isSome || (e = byte 'u' && (hexQuad text).isSome) then
        (rawString text).map fun (raw, rest) => (backslash :: e :: raw, rest)
      else none := rfl

theorem hexQuad_escapeByte {b : UInt8} (hb : b.toNat < 32) (text : Bytes) :
    hexQuad (48 :: 48 :: hexUpper (b.toNat / 16) :: hexUpper (b.toNat % 16) :: text) =
      some b.toNat := by
  simp only [hexQuad, show hexDigit 48 = some 0 by decide,
    (hexDigit_hexUpper (show b.toNat / 16 < 16 by omega)).1,
    (hexDigit_hexUpper (show b.toNat % 16 < 16 by omega)).1]
  congr 1
  omega

/-- The spelling of an escaped byte is read over as a whole. -/
theorem rawString_escapeByte (b : UInt8) (text : Bytes) :
    rawString (escapeByte b ++ text) =
      (rawString text).map fun (raw, rest) => (escapeByte b ++ raw, rest) := by
  rcases escapeByte_cases b with ⟨e, heq, he⟩ | ⟨hb, heq⟩ | ⟨hquote, hslash, hlow, heq⟩ <;> rw [heq]
  · simp [rawString_backslash, he]
  · obtain ⟨-, hq, hs, hl⟩ := hexDigit_hexUpper (show b.toNat / 16 < 16 by omega)
    obtain ⟨-, hq', hs', hl'⟩ := hexDigit_hexUpper (show b.toNat % 16 < 16 by omega)
    simp only [List.cons_append, List.nil_append, rawString_backslash, hexQuad_escapeByte hb,
      Option.isSome_some, decide_true, Bool.and_self, Bool.or_true, if_true]
    rw [rawString_cons (by decide) (by decide) (by decide), rawString_cons (by decide) (by decide)
      (by decide), rawString_cons hq hs hl, rawString_cons hq' hs' hl']
    simp only [Option.map_map]
    rfl
  · exact rawString_cons hquote hslash hlow

theorem rawString_escape (text rest : Bytes) :
    rawString (escape text ++ quote :: rest) = some (escape text, rest) := by
  induction text with
  | nil => exact rawString_quote rest
  | cons b text ih =>
      rw [escape, List.flatMap_cons, ← escape, List.append_assoc, rawString_escapeByte, ih]
      rfl

theorem utf8EncodeChar_ofNat {n : ℕ} (hn : n < 128) :
    String.utf8EncodeChar (Char.ofNat n) = [UInt8.ofNat n] := by
  have hvalid : n.isValidChar := .inl (by omega)
  have hval : (Char.ofNat n).val.toNat = n := by
    rw [Char.ofNat, dif_pos hvalid]
    rfl
  simp [String.utf8EncodeChar, hval, show n ≤ 127 by omega]

/-- Unescaping takes an escaped byte back in one step. -/
theorem unescapeWithin_escapeByte (fuel : ℕ) (b : UInt8) (text : Bytes) :
    unescapeWithin (fuel + 1) (escapeByte b ++ text) =
      (unescapeWithin fuel text).map (b :: ·) := by
  rcases escapeByte_cases b with ⟨e, heq, he⟩ | ⟨hb, heq⟩ | ⟨-, hslash, -, heq⟩ <;> rw [heq]
  · simp [unescapeWithin, escapeSequence, he]
  · have hu : simpleEscape (byte 'u') = none := by decide
    simp [unescapeWithin, escapeSequence, hu, unicodeEscape, hexQuad_escapeByte hb,
      show b.toNat < 0xD800 by omega, utf8EncodeChar_ofNat (show b.toNat < 128 by omega)]
  · simp [unescapeWithin, hslash]

theorem unescapeWithin_escape (text : Bytes) {fuel : ℕ} (hfuel : text.length ≤ fuel) :
    unescapeWithin fuel (escape text) = some text := by
  induction text generalizing fuel with
  | nil => cases fuel <;> rfl
  | cons b text ih =>
      obtain ⟨n, rfl⟩ : ∃ n, fuel = n + 1 := ⟨fuel - 1, by simp at hfuel; omega⟩
      rw [escape, List.flatMap_cons, ← escape, unescapeWithin_escapeByte,
        ih (by simpa using hfuel)]
      rfl

theorem length_escape (text : Bytes) : text.length ≤ (escape text).length := by
  induction text with
  | nil => simp [escape]
  | cons b text ih =>
      have hpos : 1 ≤ (escapeByte b).length := by
        unfold escapeByte
        repeat' split
        all_goals simp
      rw [escape, List.flatMap_cons, ← escape, List.length_append, List.length_cons]
      omega

@[simp] theorem unescape_escape (text : Bytes) : unescape (escape text) = some text :=
  unescapeWithin_escape text (length_escape text)

/-! ### Numbers -/

/-- The text goes on with a byte that ends a number. -/
def EndsNumber (rest : Bytes) : Prop :=
  ∀ b ∈ rest.head?, isDigit b = false ∧ b ≠ byte '.' ∧ b ≠ byte 'e' ∧ b ≠ byte 'E'

theorem endsNumber_nil : EndsNumber [] := by simp [EndsNumber]

theorem endsNumber_comma (text : Bytes) : EndsNumber (byte ',' :: text) := by
  simp only [EndsNumber, List.head?_cons, Option.mem_some_iff, forall_eq']
  decide

theorem endsNumber_brace (text : Bytes) : EndsNumber (byte '}' :: text) := by
  simp only [EndsNumber, List.head?_cons, Option.mem_some_iff, forall_eq']
  decide

theorem endsNumber_bracket (text : Bytes) : EndsNumber (byte ']' :: text) := by
  simp only [EndsNumber, List.head?_cons, Option.mem_some_iff, forall_eq']
  decide

theorem endsNumber_space {b : UInt8} (hb : isSpace b = true) (text : Bytes) :
    EndsNumber (b :: text) := by
  simp only [EndsNumber, List.head?_cons, Option.mem_some_iff, forall_eq']
  simp only [isSpace, Bool.or_eq_true, decide_eq_true_eq] at hb
  rcases hb with ((rfl | rfl) | rfl) | rfl <;> decide

theorem magnitude_decimal (negative : Bool) (n : ℕ) {rest : Bytes} (hrest : EndsNumber rest) :
    magnitude negative (decimal n ++ rest) = some (.int negative n, rest) := by
  have htake : (decimal n ++ rest).takeWhile isDigit = decimal n := by
    rw [List.takeWhile_append_of_pos fun b hb => isDigit_of_mem_decimal hb]
    cases rest with
    | nil => simp
    | cons b rest => simp [(hrest b rfl).1]
  have hdrop : (decimal n ++ rest).dropWhile isDigit = rest := by
    rw [List.dropWhile_append_of_pos fun b hb => isDigit_of_mem_decimal hb]
    cases rest with
    | nil => rfl
    | cons b rest => simp [(hrest b rfl).1]
  have hzero : ¬ ((decimal n).head? = some 48 ∧ (decimal n).length ≠ 1) := by
    rintro ⟨hhead, hlen⟩
    obtain ⟨ds, hds⟩ := List.head?_eq_some_iff.mp hhead
    rw [hds, decimal_eq_of_head_zero hds] at hlen
    exact hlen rfl
  have hfraction : fraction rest = some ([], rest) := by
    cases rest with
    | nil => rfl
    | cons b rest => simp [fraction, (hrest b rfl).2.1]
  have hexponent : exponent rest = some ([], rest) := by
    cases rest with
    | nil => rfl
    | cons b rest => simp [exponent, (hrest b rfl).2.2.1, (hrest b rfl).2.2.2]
  simp only [magnitude, htake, hdrop, hfraction, hexponent, decimalValue_decimal]
  rw [if_neg (by simpa using hzero)]
  rfl

/-! ### Values -/

/-- A byte that starts neither white space nor one of the other kinds of value. -/
theorem isDigit_frame {b : UInt8} (hb : isDigit b = true) :
    isSpace b = false ∧ b ≠ byte '{' ∧ b ≠ byte '[' ∧ b ≠ quote ∧ b ≠ byte '-' ∧
      b ≠ byte 'n' ∧ b ≠ byte 't' ∧ b ≠ byte 'f' := by
  refine ⟨?_, ?_, ?_, ?_, ?_, ?_, ?_, ?_⟩
  · rw [Bool.eq_false_iff]
    intro hspace
    simp only [isSpace, Bool.or_eq_true, decide_eq_true_eq] at hspace
    rcases hspace with ((rfl | rfl) | rfl) | rfl <;> exact absurd hb (by decide)
  all_goals rintro rfl; exact absurd hb (by decide)

theorem value_scalar (name : Bytes → Option Bytes) {fuel : ℕ} {b : UInt8} {text : Bytes}
    (hspace : isSpace b = false) (hbrace : b ≠ byte '{') (hbracket : b ≠ byte '[') :
    value name (fuel + 1) (b :: text) = scalar (b :: text) := by
  simp [value, expect_cons_ne hspace hbrace, expect_cons_ne hspace hbracket]

/-- A text that starts like a number is read as one. -/
theorem scalar_number {b : UInt8} {text : Bytes} (hspace : isSpace b = false)
    (hquote : b ≠ quote) (hn : b ≠ byte 'n') (ht : b ≠ byte 't') (hf : b ≠ byte 'f') :
    scalar (b :: text) = number (b :: text) := by
  have hnull : (ascii "null").head? ≠ some b := fun h => hn (Option.some.inj h).symm
  have htrue : (ascii "true").head? ≠ some b := fun h => ht (Option.some.inj h).symm
  have hfalse : (ascii "false").head? ≠ some b := fun h => hf (Option.some.inj h).symm
  simp [scalar, expect_cons_ne hspace hquote, keyword_cons_ne hspace hnull (by decide) (by decide),
    keyword_cons_ne hspace htrue (by decide) (by decide),
    keyword_cons_ne hspace hfalse (by decide) (by decide)]

theorem value_int (name : Bytes → Option Bytes) (fuel : ℕ) (negative : Bool) (n : ℕ)
    {rest : Bytes} (hrest : EndsNumber rest) :
    value name (fuel + 1) (render (.int negative n) ++ rest) = some (.int negative n, rest) := by
  cases negative with
  | true =>
      simp only [render, if_true, List.cons_append, List.nil_append]
      rw [value_scalar name (by decide) (by decide) (by decide),
        scalar_number (by decide) (by decide) (by decide) (by decide) (by decide), number,
        expect_cons_self (by decide)]
      exact magnitude_decimal true n hrest
  | false =>
      simp only [render, Bool.false_eq_true, if_false, List.nil_append]
      cases hdigits : decimal n with
      | nil => exact absurd hdigits (decimal_ne_nil n)
      | cons b ds =>
          have hb : isDigit b = true := isDigit_of_mem_decimal (n := n) (by simp [hdigits])
          obtain ⟨hspace, hbrace, hbracket, hquote, hminus, hn, ht, hf⟩ := isDigit_frame hb
          rw [List.cons_append, value_scalar name hspace hbrace hbracket,
            scalar_number hspace hquote hn ht hf, number, expect_cons_ne hspace hminus,
            skipSpace_cons hspace]
          simpa [hdigits] using magnitude_decimal false n hrest

theorem value_quoted (name : Bytes → Option Bytes) (fuel : ℕ) (text rest : Bytes) :
    value name (fuel + 1) (quoted text ++ rest) = some (.str text, rest) := by
  rw [quoted, List.cons_append, value_scalar name (by decide) (by decide) (by decide), scalar,
    expect_cons_self (by decide)]
  simp [rawString_escape]

/-- What the reader does with a rendered value, in front of any text that ends
a number. -/
def ReadsBack (name : Bytes → Option Bytes) (v : Json) : Prop :=
  ∀ rest fuel, EndsNumber rest → 2 * (render v).length + 1 ≤ fuel →
    value name fuel (render v ++ rest) = some (v, rest)

theorem items_render (name : Bytes → Option Bytes) (v : Json) (vs : List Json)
    (hvs : ∀ w ∈ v :: vs, ReadsBack name w) (rest : Bytes) {fuel : ℕ}
    (hfuel : 2 * (renderItems (v :: vs)).length + 2 ≤ fuel) :
    items name fuel (renderItems (v :: vs) ++ byte ']' :: rest) = some (v :: vs, rest) := by
  induction vs generalizing v fuel with
  | nil =>
      obtain ⟨n, rfl⟩ : ∃ n, fuel = n + 1 := ⟨fuel - 1, by omega⟩
      have hv := hvs v (by simp) (byte ']' :: rest) n (endsNumber_bracket rest)
        (by simp only [renderItems] at hfuel; omega)
      simp only [renderItems, items, hv, Option.bind_eq_bind, Option.bind_some]
      rw [expect_cons_ne (by decide) (by decide), expect_cons_self (by decide)]
      rfl
  | cons w vs ih =>
      obtain ⟨n, rfl⟩ : ∃ n, fuel = n + 1 := ⟨fuel - 1, by omega⟩
      simp only [renderItems, List.length_append, List.length_cons] at hfuel
      have hv := hvs v (by simp) (byte ',' :: (renderItems (w :: vs) ++ byte ']' :: rest)) n
        (endsNumber_comma _) (by omega)
      have htail := ih w (fun u hu => hvs u (List.mem_cons_of_mem v hu))
        (show 2 * (renderItems (w :: vs)).length + 2 ≤ n by omega)
      simp only [renderItems, List.append_assoc, List.cons_append, items, hv,
        Option.bind_eq_bind, Option.bind_some]
      rw [expect_cons_self (by decide)]
      simp [htail]

theorem members_render (name : Bytes → Option Bytes) (m : Bytes × Json)
    (ms : List (Bytes × Json)) (hnames : ∀ k ∈ m :: ms, name (escape k.1) = some k.1)
    (hms : ∀ k ∈ m :: ms, ReadsBack name k.2) (rest : Bytes) {fuel : ℕ}
    (hfuel : 2 * (renderMembers (m :: ms)).length + 2 ≤ fuel) :
    members name fuel (renderMembers (m :: ms) ++ byte '}' :: rest) = some (m :: ms, rest) := by
  induction ms generalizing m fuel with
  | nil =>
      obtain ⟨n, rfl⟩ : ∃ n, fuel = n + 1 := ⟨fuel - 1, by omega⟩
      simp only [renderMembers, List.length_append, List.length_cons] at hfuel
      have hm := hms m (by simp) (byte '}' :: rest) n (endsNumber_brace rest) (by omega)
      simp only [renderMembers, quoted, List.append_assoc, List.cons_append, List.nil_append,
        members, expect_cons_self (show isSpace quote = false by decide), rawString_escape,
        hnames m (by simp), Option.bind_eq_bind, Option.bind_some,
        expect_cons_self (show isSpace (byte ':') = false by decide), hm]
      rw [expect_cons_ne (by decide) (by decide), expect_cons_self (by decide)]
      rfl
  | cons k ms ih =>
      obtain ⟨n, rfl⟩ : ∃ n, fuel = n + 1 := ⟨fuel - 1, by omega⟩
      simp only [renderMembers, List.length_append, List.length_cons] at hfuel
      have hm := hms m (by simp) (byte ',' :: (renderMembers (k :: ms) ++ byte '}' :: rest)) n
        (endsNumber_comma _) (by omega)
      have htail := ih k (fun l hl => hnames l (List.mem_cons_of_mem m hl))
        (fun l hl => hms l (List.mem_cons_of_mem m hl))
        (show 2 * (renderMembers (k :: ms)).length + 2 ≤ n by omega)
      simp only [renderMembers, quoted, List.append_assoc, List.cons_append, List.nil_append,
        members, expect_cons_self (show isSpace quote = false by decide), rawString_escape,
        hnames m (by simp), Option.bind_eq_bind, Option.bind_some,
        expect_cons_self (show isSpace (byte ':') = false by decide), hm]
      rw [expect_cons_self (by decide)]
      simp [htail]

/-- A rendered value starts with a byte that closes no bracket. -/
theorem render_head {name : Bytes → Option Bytes} {v : Json} (h : Readable name v) :
    ∃ b text, render v = b :: text ∧ isSpace b = false ∧ b ≠ byte ']' := by
  cases h with
  | null => exact ⟨_, _, rfl, by decide, by decide⟩
  | bool val => cases val <;> exact ⟨_, _, rfl, by decide, by decide⟩
  | int negative n =>
      cases negative with
      | true => exact ⟨byte '-', decimal n, rfl, by decide, by decide⟩
      | false =>
          cases hdigits : decimal n with
          | nil => exact absurd hdigits (decimal_ne_nil n)
          | cons b ds =>
              have hb : isDigit b = true := isDigit_of_mem_decimal (n := n) (by simp [hdigits])
              refine ⟨b, ds, by simp [render, hdigits], (isDigit_frame hb).1, ?_⟩
              rintro rfl
              exact absurd hb (by decide)
  | str text => exact ⟨quote, _, rfl, by decide, by decide⟩
  | arr vs _ => exact ⟨byte '[', _, rfl, by decide, by decide⟩
  | obj ms _ _ => exact ⟨byte '{', _, rfl, by decide, by decide⟩

theorem readsBack_of_readable {name : Bytes → Option Bytes} {v : Json} (h : Readable name v) :
    ReadsBack name v := by
  induction h with
  | null =>
      intro rest fuel _ hfuel
      obtain ⟨k, rfl⟩ : ∃ k, fuel = k + 1 := ⟨fuel - 1, by omega⟩
      rfl
  | bool val =>
      intro rest fuel _ hfuel
      obtain ⟨k, rfl⟩ : ∃ k, fuel = k + 1 := ⟨fuel - 1, by omega⟩
      cases val <;> rfl
  | int negative n =>
      intro rest fuel hrest hfuel
      obtain ⟨k, rfl⟩ : ∃ k, fuel = k + 1 := ⟨fuel - 1, by omega⟩
      exact value_int name k negative n hrest
  | str text =>
      intro rest fuel _ hfuel
      obtain ⟨k, rfl⟩ : ∃ k, fuel = k + 1 := ⟨fuel - 1, by omega⟩
      exact value_quoted name k text rest
  | arr vs hvs ih =>
      intro rest fuel _ hfuel
      obtain ⟨k, rfl⟩ : ∃ k, fuel = k + 1 := ⟨fuel - 1, by omega⟩
      simp only [render, List.length_cons, List.length_append, List.length_nil] at hfuel
      simp only [render, List.cons_append, List.append_assoc, List.nil_append, value]
      rw [expect_cons_ne (by decide) (by decide), expect_cons_self (by decide)]
      cases vs with
      | nil => simp [renderItems, expect_cons_self (show isSpace (byte ']') = false by decide)]
      | cons v vs =>
          obtain ⟨b, text, htext, hspace, hclose⟩ := render_head (hvs v (by simp))
          have hopen : expect (byte ']') (renderItems (v :: vs) ++ byte ']' :: rest) = none := by
            cases vs <;> simp [renderItems, htext, expect_cons_ne hspace hclose]
          simp [hopen, items_render name v vs ih rest (show _ ≤ k by omega)]
  | obj ms hnames _ ih =>
      intro rest fuel _ hfuel
      obtain ⟨k, rfl⟩ : ∃ k, fuel = k + 1 := ⟨fuel - 1, by omega⟩
      simp only [render, List.length_cons, List.length_append, List.length_nil] at hfuel
      simp only [render, List.cons_append, List.append_assoc, List.nil_append, value]
      rw [expect_cons_self (by decide)]
      cases ms with
      | nil => simp [renderMembers, expect_cons_self (show isSpace (byte '}') = false by decide)]
      | cons m ms =>
          have hopen : expect (byte '}') (renderMembers (m :: ms) ++ byte '}' :: rest) = none := by
            cases ms <;> simp [renderMembers, quoted, expect_cons_ne
              (show isSpace quote = false by decide) (show quote ≠ byte '}' by decide)]
          simp [hopen, members_render name m ms hnames ih rest (show _ ≤ k by omega)]

/-- What is rendered is read back, with white space after it. -/
theorem parse_render_append {name : Bytes → Option Bytes} {v : Json} (h : Readable name v)
    {rest : Bytes} (hrest : EndsNumber rest) (hspace : skipSpace rest = []) :
    parse name (render v ++ rest) = some v := by
  have hread := readsBack_of_readable h rest (2 * (render v ++ rest).length + 1) hrest
    (by rw [List.length_append]; omega)
  simp only [parse, hread, Option.bind_eq_bind, Option.bind_some, hspace, if_true]

theorem parse_render {name : Bytes → Option Bytes} {v : Json} (h : Readable name v) :
    parse name (render v) = some v := by
  simpa using parse_render_append h endsNumber_nil rfl

/-! ### Control bytes -/

theorem not_low_of_mem_escape {text : Bytes} {b : UInt8} (hb : b ∈ escape text) : ¬ b < 32 := by
  obtain ⟨c, -, hc⟩ := List.mem_flatMap.mp hb
  have hletter : ∀ e, simpleEscape e ≠ none → ¬ e < 32 := by
    intro e he hlow
    have hall : ∀ n : Fin 32, simpleEscape (UInt8.ofNat n) = none := by decide
    have hsmall : e.toNat < 32 := UInt8.lt_iff_toNat_lt.mp hlow
    exact he (by simpa using hall ⟨e.toNat, hsmall⟩)
  rcases escapeByte_cases c with ⟨e, heq, he⟩ | ⟨hlow, heq⟩ | ⟨-, -, hlow, heq⟩ <;> rw [heq] at hc
  · simp only [List.mem_cons, List.not_mem_nil, or_false] at hc
    rcases hc with rfl | rfl
    · decide
    · exact hletter b (by simp [he])
  · obtain ⟨-, -, -, hhigh⟩ := hexDigit_hexUpper (show c.toNat / 16 < 16 by omega)
    obtain ⟨-, -, -, hlow⟩ := hexDigit_hexUpper (show c.toNat % 16 < 16 by omega)
    simp only [List.mem_cons, List.not_mem_nil, or_false] at hc
    rcases hc with rfl | rfl | rfl | rfl | rfl | rfl
    · decide
    · decide
    · decide
    · decide
    · exact hhigh
    · exact hlow
  · obtain rfl := List.mem_singleton.mp hc
    exact hlow

theorem not_low_of_mem_quoted {text : Bytes} {b : UInt8} (hb : b ∈ quoted text) : ¬ b < 32 := by
  simp only [quoted, List.mem_cons, List.mem_append, List.not_mem_nil, or_false] at hb
  rcases hb with rfl | hb | rfl
  · decide
  · exact not_low_of_mem_escape hb
  · decide

theorem not_low_of_mem_decimal {n : ℕ} {b : UInt8} (hb : b ∈ decimal n) : ¬ b < 32 := by
  have hdigit := isDigit_of_mem_decimal hb
  simp only [isDigit, UInt8.le_iff_toNat_le, Bool.and_eq_true, decide_eq_true_eq] at hdigit
  rw [UInt8.lt_iff_toNat_lt]
  exact Nat.not_lt.mpr (Nat.le_trans (by decide) hdigit.1)

theorem mem_renderItems {vs : List Json} {b : UInt8} (hb : b ∈ renderItems vs) :
    b = byte ',' ∨ ∃ v ∈ vs, b ∈ render v := by
  induction vs with
  | nil => cases hb
  | cons v vs ih =>
      cases vs with
      | nil => exact .inr ⟨v, by simp, hb⟩
      | cons w vs =>
          rw [renderItems, List.mem_append, List.mem_cons] at hb
          rcases hb with hb | rfl | hb
          · exact .inr ⟨v, by simp, hb⟩
          · exact .inl rfl
          · rcases ih hb with hcomma | ⟨u, hu, hb⟩
            · exact .inl hcomma
            · exact .inr ⟨u, List.mem_cons_of_mem v hu, hb⟩

theorem mem_renderMembers {ms : List (Bytes × Json)} {b : UInt8} (hb : b ∈ renderMembers ms) :
    b = byte ',' ∨ b = byte ':' ∨ ∃ m ∈ ms, b ∈ quoted m.1 ∨ b ∈ render m.2 := by
  induction ms with
  | nil => cases hb
  | cons m ms ih =>
      cases ms with
      | nil =>
          rw [renderMembers, List.mem_append, List.mem_cons] at hb
          rcases hb with hb | rfl | hb
          · exact .inr (.inr ⟨m, by simp, .inl hb⟩)
          · exact .inr (.inl rfl)
          · exact .inr (.inr ⟨m, by simp, .inr hb⟩)
      | cons n ms =>
          rw [renderMembers, List.mem_append, List.mem_cons, List.mem_append, List.mem_cons] at hb
          rcases hb with hb | rfl | hb | rfl | hb
          · exact .inr (.inr ⟨m, by simp, .inl hb⟩)
          · exact .inr (.inl rfl)
          · exact .inr (.inr ⟨m, by simp, .inr hb⟩)
          · exact .inl rfl
          · rcases ih hb with hcomma | hcolon | ⟨k, hk, hb⟩
            · exact .inl hcomma
            · exact .inr (.inl hcolon)
            · exact .inr (.inr ⟨k, List.mem_cons_of_mem m hk, hb⟩)

/-- No line is broken: what is rendered has no control byte in it. -/
theorem not_low_of_mem_render {name : Bytes → Option Bytes} {v : Json} (h : Readable name v)
    {b : UInt8} (hb : b ∈ render v) : ¬ b < 32 := by
  induction h with
  | null =>
      have hall : ∀ b ∈ ascii "null", ¬ b < 32 := by decide +kernel
      exact hall b hb
  | bool val =>
      have hall : ∀ b ∈ render (.bool val), ¬ b < 32 := by cases val <;> decide +kernel
      exact hall b hb
  | int negative n =>
      rw [render, List.mem_append] at hb
      rcases hb with hb | hb
      · cases negative with
        | true =>
            obtain rfl := List.mem_singleton.mp hb
            decide
        | false => cases hb
      · exact not_low_of_mem_decimal hb
  | str text => exact not_low_of_mem_quoted hb
  | arr vs _ ih =>
      simp only [render, List.mem_cons, List.mem_append, List.not_mem_nil, or_false] at hb
      rcases hb with rfl | hb | rfl
      · decide
      · rcases mem_renderItems hb with rfl | ⟨v, hv, hb⟩
        · decide
        · exact ih v hv hb
      · decide
  | obj ms _ _ ih =>
      simp only [render, List.mem_cons, List.mem_append, List.not_mem_nil, or_false] at hb
      rcases hb with rfl | hb | rfl
      · decide
      · rcases mem_renderMembers hb with rfl | rfl | ⟨m, hm, hb | hb⟩
        · decide
        · decide
        · exact not_low_of_mem_quoted hb
        · exact ih m hm hb
      · decide

/-! ### Strings that are not escaped -/

/-- Text that needs no escape. -/
def Plain (text : Bytes) : Prop := ∀ b ∈ text, b ≠ quote ∧ b ≠ backslash ∧ ¬ b < 32

instance (text : Bytes) : Decidable (Plain text) :=
  inferInstanceAs (Decidable (∀ b ∈ text, _))

theorem escape_of_plain {text : Bytes} (h : Plain text) : escape text = text := by
  induction text with
  | nil => rfl
  | cons b text ih =>
      obtain ⟨hquote, hslash, hlow⟩ := h b (by simp)
      have hne : ∀ c : UInt8, c < 32 → b ≠ c := by
        rintro c hc rfl
        exact hlow hc
      have hb : escapeByte b = [b] := by
        simp [escapeByte, shortEscape, hquote, hslash, hlow, hne 8 (by decide), hne 12 (by decide),
          hne 10 (by decide), hne 13 (by decide), hne 9 (by decide)]
      rw [escape, List.flatMap_cons, ← escape, hb, ih fun c hc => h c (List.mem_cons_of_mem b hc)]
      rfl

theorem quoted_of_plain {text : Bytes} (h : Plain text) :
    quoted text = quote :: (text ++ [quote]) := by
  rw [quoted, escape_of_plain h]

/-- The spelling ends at the closing quote. -/
theorem rawString_eq_append {text raw rest : Bytes} (h : rawString text = some (raw, rest)) :
    text = raw ++ quote :: rest ∧ (backslash ∉ raw → Plain raw) := by
  induction text using rawString.induct generalizing raw with
  | case1 => cases h
  | case2 text =>
      rw [rawString_quote] at h
      cases h
      exact ⟨rfl, fun _ => by simp [Plain]⟩
  | case3 b text hquote hlow => cases text <;> simp [rawString, hquote, hlow] at h
  | case4 hquote hlow => cases h
  | case5 e text hescape _ _ ih =>
      rw [rawString_backslash, if_pos hescape] at h
      obtain ⟨⟨raw', rest'⟩, hraw, heq⟩ := Option.map_eq_some_iff.mp h
      cases heq
      exact ⟨by rw [(ih hraw).1]; rfl, fun hno => absurd (List.mem_cons_self) hno⟩
  | case6 e text hescape =>
      rw [rawString_backslash, if_neg hescape] at h
      cases h
  | case7 b text hquote hlow hslash ih =>
      rw [rawString_cons hquote hslash hlow] at h
      obtain ⟨⟨raw', rest'⟩, hraw, heq⟩ := Option.map_eq_some_iff.mp h
      cases heq
      obtain ⟨happend, hplain⟩ := ih hraw
      refine ⟨by rw [happend]; rfl, fun hno c hc => ?_⟩
      rcases List.mem_cons.mp hc with rfl | hc
      · exact ⟨hquote, hslash, hlow⟩
      · exact hplain (fun hmem => hno (List.mem_cons_of_mem b hmem)) c hc

theorem quote_ne_of_hexDigit {b : UInt8} {d : ℕ} (h : hexDigit b = some d) : b ≠ quote := by
  rintro rfl
  cases h

theorem hexQuad_eq_some {text : Bytes} {n : ℕ} (h : hexQuad text = some n) :
    (text.take 4).length = 4 ∧ (text.take 4).count quote = 0 := by
  unfold hexQuad at h
  split at h
  · next a b c d rest =>
    split at h
    · next ha hb hc hd =>
      simp [quote_ne_of_hexDigit ha, quote_ne_of_hexDigit hb,
        quote_ne_of_hexDigit hc, quote_ne_of_hexDigit hd]
    · cases h
  · cases h

theorem unicodeEscape_shape {text decoded rest : Bytes}
    (h : unicodeEscape text = some (decoded, rest)) :
    ∃ used, text = used ++ rest ∧ decoded.length ≤ used.length ∧ used.count quote = 0 := by
  have hsize : ∀ c : Char, (String.utf8EncodeChar c).length ≤ 4 := fun c => by
    rw [String.length_utf8EncodeChar]
    exact c.utf8Size_le_four
  unfold unicodeEscape at h
  split at h
  · cases h
  · next high hhigh =>
    obtain ⟨hlen, hcount⟩ := hexQuad_eq_some hhigh
    split at h
    · cases h
      exact ⟨text.take 4, (List.take_append_drop 4 text).symm, by rw [hlen]; exact hsize _, hcount⟩
    · split at h
      · next hpair =>
        split at h
        · cases h
        · next low hlow =>
          obtain ⟨hlen', hcount'⟩ := hexQuad_eq_some hlow
          split at h
          · obtain ⟨rfl, rfl⟩ := Prod.mk.inj (Option.some.inj h)
            have hu : (text.drop 4).take 2 = [backslash, byte 'u'] := by
              exact of_decide_eq_true (Bool.and_eq_true_iff.mp hpair).2
            have hused : text.take 10 =
                text.take 4 ++ ([backslash, byte 'u'] ++ (text.drop 6).take 4) := by
              rw [← hu, show 10 = 4 + (2 + 4) by rfl, List.take_add, List.take_add,
                List.drop_drop]
            refine ⟨text.take 10, (List.take_append_drop 10 text).symm, ?_, ?_⟩
            · rw [hused, List.length_append, hlen]
              exact Nat.le_trans (hsize _) (Nat.le_add_right 4 _)
            · rw [hused, List.count_append, List.count_append, hcount, hcount']
              decide
          · cases h
      · cases h

/-- An escape is longer than the text it stands for, and stands for every quote
in it. -/
theorem escapeSequence_shape {text decoded rest : Bytes}
    (h : escapeSequence text = some (decoded, rest)) :
    ∃ used, text = used ++ rest ∧ decoded.length ≤ used.length ∧
      used.count quote ≤ decoded.count quote := by
  cases text with
  | nil => cases h
  | cons e text =>
      simp only [escapeSequence] at h
      split at h
      · next b hb =>
        cases h
        refine ⟨[e], rfl, by simp, ?_⟩
        by_cases he : e = quote
        · subst he
          cases hb
          simp
        · simp [List.count_cons, he]
      · split at h
        · next hu =>
          obtain ⟨used, rfl, hlen, hcount⟩ := unicodeEscape_shape h
          refine ⟨e :: used, rfl, by simp; omega, ?_⟩
          rw [hu, List.count_cons, hcount]
          exact Nat.zero_le _
        · cases h

theorem unescapeWithin_shape {fuel : ℕ} {raw text : Bytes}
    (h : unescapeWithin fuel raw = some text) :
    text.length ≤ raw.length ∧ raw.count quote ≤ text.count quote ∧
      (text.length = raw.length → text = raw ∧ backslash ∉ raw) := by
  induction fuel, raw using unescapeWithin.induct generalizing text with
  | case1 fuel =>
      cases fuel <;> cases h <;> simp
  | case2 => cases h
  | case3 fuel rest hnone => simp [unescapeWithin, hnone] at h
  | case4 fuel rest decoded rest' hsome ih =>
      simp only [unescapeWithin, if_true, hsome] at h
      obtain ⟨tail, htail, rfl⟩ := Option.map_eq_some_iff.mp h
      obtain ⟨hlen, hcount, -⟩ := ih htail
      obtain ⟨used, rfl, hused, hquotes⟩ := escapeSequence_shape hsome
      simp only [List.length_append, List.length_cons, List.count_append, List.count_cons]
      refine ⟨by omega, ?_, fun heq => by omega⟩
      rw [show (backslash == quote) = false by decide]
      simp
      omega
  | case5 fuel b rest hslash ih =>
      simp only [unescapeWithin, if_neg hslash] at h
      obtain ⟨tail, htail, rfl⟩ := Option.map_eq_some_iff.mp h
      obtain ⟨hlen, hcount, hequal⟩ := ih htail
      simp only [List.length_cons, List.count_cons]
      refine ⟨by omega, by omega, fun heq => ?_⟩
      obtain ⟨rfl, hno⟩ := hequal (by omega)
      exact ⟨rfl, by simpa [eq_comm, hno] using hslash⟩

/-- A string put between quotes as it is reads back as itself only when it is
plain, and then up to the closing quote. -/
theorem plain_of_rawString {text rest raw rest' : Bytes}
    (hraw : rawString (text ++ quote :: rest) = some (raw, rest'))
    (htext : unescape raw = some text) : Plain text ∧ rest' = rest := by
  obtain ⟨happend, hplain⟩ := rawString_eq_append hraw
  obtain ⟨hlen, hcount, hequal⟩ := unescapeWithin_shape htext
  -- the spelling cannot reach beyond the first quote that was not escaped
  rcases List.append_eq_append_iff.mp happend with ⟨more, hmore, hrest⟩ | ⟨more, hmore, hrest⟩
  · cases more with
    | nil =>
        simp only [List.append_nil] at hmore
        subst hmore
        exact ⟨hplain (hequal rfl).2, (List.cons.inj hrest).2.symm⟩
    | cons b more =>
        obtain ⟨rfl, -⟩ := List.cons.inj hrest
        rw [hmore, List.count_append, List.count_cons_self] at hcount
        omega
  · cases more with
    | nil =>
        simp only [List.append_nil] at hmore
        subst hmore
        exact ⟨hplain (hequal rfl).2, (List.cons.inj hrest).2⟩
    | cons b more =>
        rw [hmore, List.length_append, List.length_cons] at hlen
        omega

theorem value_unescaped {name : Bytes → Option Bytes} {fuel : ℕ} {text rest rest' : Bytes}
    (h : value name (fuel + 1) (quote :: (text ++ quote :: rest)) = some (.str text, rest')) :
    Plain text ∧ rest' = rest := by
  rw [value_scalar name (by decide) (by decide) (by decide), scalar,
    expect_cons_self (by decide)] at h
  cases hraw : rawString (text ++ quote :: rest) with
  | none => simp [hraw] at h
  | some read =>
      obtain ⟨raw, after⟩ := read
      simp only [hraw, Option.some.injEq, Prod.mk.injEq] at h
      obtain ⟨htext, rfl⟩ := h
      cases hunescape : unescape raw with
      | none => simp [hunescape] at htext
      | some text' =>
          obtain rfl : text' = text := by simpa [hunescape] using htext
          exact plain_of_rawString hraw hunescape

/-! ### Text that is written by hand -/

theorem value_ofInt (name : Bytes → Option Bytes) (fuel : ℕ) (z : ℤ) {rest : Bytes}
    (hrest : EndsNumber rest) :
    value name (fuel + 1) (render (ofInt z) ++ rest) = some (ofInt z, rest) := by
  cases z <;> exact value_int name fuel _ _ hrest

/-- An object with a member. -/
theorem value_object (name : Bytes → Option Bytes) (fuel : ℕ) (text : Bytes) :
    value name (fuel + 1) (byte '{' :: quote :: text) =
      (members name fuel (quote :: text)).map fun (ms, rest) => (.obj ms, rest) := by
  simp only [value]
  rw [expect_cons_self (by decide)]
  simp only []
  rw [expect_cons_ne (by decide) (by decide)]

theorem members_of_value {name : Bytes → Option Bytes} {fuel : ℕ} {text rest : Bytes}
    {ms : List (Bytes × Json)}
    (h : value name (fuel + 1) (byte '{' :: quote :: text) = some (.obj ms, rest)) :
    members name fuel (quote :: text) = some (ms, rest) := by
  rw [value_object] at h
  obtain ⟨⟨ms', rest'⟩, hms, heq⟩ := Option.map_eq_some_iff.mp h
  obtain ⟨hobj, rfl⟩ := Prod.mk.inj heq
  obtain rfl := Json.obj.inj hobj
  exact hms

theorem value_of_parse {name : Bytes → Option Bytes} {text : Bytes} {v : Json}
    (h : parse name text = some v) :
    ∃ rest, value name (2 * text.length + 1) text = some (v, rest) := by
  obtain ⟨⟨v', rest⟩, hvalue, hrest⟩ := Option.bind_eq_some_iff.mp h
  simp only at hrest
  split at hrest
  · obtain rfl := Option.some.inj hrest
    exact ⟨rest, hvalue⟩
  · cases hrest

theorem unescape_of_plain {key : Bytes} (h : Plain key) : unescape key = some key := by
  have hescape := unescape_escape key
  rwa [escape_of_plain h] at hescape

/-- A member whose name is spelled as it is. -/
theorem members_plain {name : Bytes → Option Bytes} {key : Bytes} (hkey : Plain key)
    (hname : name key = some key) (fuel : ℕ) (text : Bytes) :
    members name (fuel + 1) (quote :: (key ++ quote :: byte ':' :: text)) =
      (value name fuel text).bind fun (v, rest) =>
        match expect (byte ',') rest with
        | some rest => (members name fuel rest).map fun (ms, rest) => ((key, v) :: ms, rest)
        | none => (expect (byte '}') rest).map fun rest => ([(key, v)], rest) := by
  have hraw : rawString (key ++ quote :: byte ':' :: text) = some (key, byte ':' :: text) := by
    have := rawString_escape key (byte ':' :: text)
    rwa [escape_of_plain hkey] at this
  have hquote (rest : Bytes) : expect quote (quote :: rest) = some rest :=
    expect_cons_self (by decide)
  have hcolon (rest : Bytes) : expect (byte ':') (byte ':' :: rest) = some rest :=
    expect_cons_self (by decide)
  cases hvalue : value name fuel text with
  | none =>
      simp only [members, hquote, hraw, hname, hcolon, hvalue, Option.bind_eq_bind,
        Option.bind_some, Option.bind_none]
  | some read =>
      cases hcomma : expect (byte ',') read.2 <;>
        simp only [members, hquote, hraw, hname, hcolon, hvalue, hcomma, Option.bind_eq_bind,
          Option.bind_some]

/-- The first member of an object that is read. -/
theorem members_head {name : Bytes → Option Bytes} {key : Bytes} (hkey : Plain key)
    (hname : name key = some key) {fuel : ℕ} {text rest : Bytes} {ms : List (Bytes × Json)}
    {v : Json}
    (h : members name (fuel + 1) (quote :: (key ++ quote :: byte ':' :: text)) =
      some ((key, v) :: ms, rest)) :
    ∃ after, value name fuel text = some (v, after) ∧
      ∀ more, expect (byte ',') after = some more → members name fuel more = some (ms, rest) := by
  rw [members_plain hkey hname, Option.bind_eq_some_iff] at h
  obtain ⟨⟨v', after⟩, hv, hrest⟩ := h
  simp only at hrest
  split at hrest
  · next more hmore =>
    obtain ⟨⟨ms', rest'⟩, hms, heq⟩ := Option.map_eq_some_iff.mp hrest
    simp only [Prod.mk.injEq, List.cons.injEq, true_and] at heq
    obtain ⟨⟨rfl, rfl⟩, rfl⟩ := heq
    refine ⟨after, hv, fun other hother => ?_⟩
    obtain rfl := Option.some.inj (hmore.symm.trans hother)
    exact hms
  · next hnone =>
    obtain ⟨rest', -, heq⟩ := Option.map_eq_some_iff.mp hrest
    simp only [Prod.mk.injEq, List.cons.injEq, true_and] at heq
    obtain ⟨⟨rfl, -⟩, -⟩ := heq
    refine ⟨after, hv, fun more hmore => ?_⟩
    rw [hnone] at hmore
    cases hmore

/-- The first item of an array that is read. -/
theorem items_head {name : Bytes → Option Bytes} {fuel : ℕ} {text rest : Bytes} {v : Json}
    {vs : List Json} (h : items name (fuel + 1) text = some (v :: vs, rest)) :
    ∃ after, value name fuel text = some (v, after) ∧
      ((∃ more, expect (byte ',') after = some more ∧ items name fuel more = some (vs, rest)) ∨
        expect (byte ',') after = none ∧ expect (byte ']') after = some rest) := by
  simp only [items, Option.bind_eq_bind, Option.bind_eq_some_iff] at h
  obtain ⟨⟨v', after⟩, hv, hafter⟩ := h
  simp only at hafter
  split at hafter
  · next more hmore =>
    obtain ⟨⟨vs', rest'⟩, hvs, heq⟩ := Option.map_eq_some_iff.mp hafter
    simp only [Prod.mk.injEq, List.cons.injEq] at heq
    obtain ⟨⟨rfl, rfl⟩, rfl⟩ := heq
    exact ⟨after, hv, .inl ⟨more, hmore, hvs⟩⟩
  · next hnone =>
    obtain ⟨rest', hclose, heq⟩ := Option.map_eq_some_iff.mp hafter
    simp only [Prod.mk.injEq, List.cons.injEq] at heq
    obtain ⟨⟨rfl, -⟩, rfl⟩ := heq
    exact ⟨after, hv, .inr ⟨hnone, hclose⟩⟩

end Json

end KalshiAutotrader.Kit
