import KalshiAutotrader.Kit.Bytes

/-!
JSON: values, and a reader for JSON text.

The reader works on bytes and checks the whole text. Numbers keep the
distinction that programs make: a literal without fraction and exponent is an
integer of any size with its sign, and every other literal is kept as spelled.

How the name of a member is read is a parameter. A decoder unescapes names; a
lookup that compares names as they are spelled reads them with `some`.
-/

namespace KalshiAutotrader.Kit

inductive Json
  | null
  | bool (val : Bool)
  /-- An integer literal: its sign, and the value of its digits. `-0` is not `0`. -/
  | int (negative : Bool) (magnitude : ℕ)
  /-- A literal with a fraction or an exponent, as spelled. -/
  | float (spelling : Bytes)
  | str (text : Bytes)
  /-- A string literal with an unpaired surrogate escape, which denotes no text. -/
  | unpaired
  | arr (items : List Json)
  | obj (members : List (Bytes × Json))

namespace Json

mutual

/-- No object inside has two members of one name. -/
def distinct : Json → Bool
  | .arr items => distinctItems items
  | .obj members => decide (members.map Prod.fst).Nodup && distinctMembers members
  | _ => true

def distinctItems : List Json → Bool
  | [] => true
  | v :: items => v.distinct && distinctItems items

def distinctMembers : List (Bytes × Json) → Bool
  | [] => true
  | m :: members => m.2.distinct && distinctMembers members

end

theorem distinctMembers_iff {members : List (Bytes × Json)} :
    distinctMembers members = true ↔ ∀ m ∈ members, m.2.distinct = true := by
  induction members with
  | nil => simp [distinctMembers]
  | cons m members ih => simp [distinctMembers, ih]

theorem distinct_obj {members : List (Bytes × Json)} :
    (obj members).distinct = true ↔
      (members.map Prod.fst).Nodup ∧ ∀ m ∈ members, m.2.distinct = true := by
  simp [distinct, distinctMembers_iff]

/-- No two members have this name. -/
def Once (members : List (Bytes × Json)) (name : Bytes) : Prop :=
  (members.map Prod.fst).count name ≤ 1

instance (members : List (Bytes × Json)) (name : Bytes) : Decidable (Once members name) :=
  inferInstanceAs (Decidable (_ ≤ 1))

theorem once_of_nodup {members : List (Bytes × Json)} (h : (members.map Prod.fst).Nodup)
    (name : Bytes) : Once members name :=
  List.nodup_iff_count.mp h name

/-- A member whose name is not repeated is the one found. -/
theorem lookup_eq_some_iff_of_once {members : List (Bytes × Json)} {name : Bytes}
    (honce : Once members name) {v : Json} :
    members.lookup name = some v ↔ (name, v) ∈ members := by
  induction members with
  | nil => simp
  | cons m members ih =>
      rw [Once, List.map_cons] at honce
      rw [List.lookup_cons, List.mem_cons]
      by_cases hname : name = m.1
      · subst hname
        rw [List.count_cons_self] at honce
        have hnew : m.1 ∉ members.map Prod.fst := List.count_eq_zero.mp (by omega)
        simp only [beq_self_eq_true, Option.some.injEq]
        constructor
        · rintro rfl
          exact .inl rfl
        · rintro (heq | hmem)
          · rw [← heq]
          · exact absurd (List.mem_map_of_mem (f := Prod.fst) hmem) hnew
      · rw [List.count_cons_of_ne (Ne.symm hname)] at honce
        rw [beq_false_of_ne hname, ih honce]
        refine (or_iff_right ?_).symm
        rintro rfl
        exact hname rfl

/-- Among members with distinct names, the one of a name is the one found. -/
theorem lookup_eq_some_iff {members : List (Bytes × Json)}
    (hdistinct : (members.map Prod.fst).Nodup) {name : Bytes} {v : Json} :
    members.lookup name = some v ↔ (name, v) ∈ members :=
  lookup_eq_some_iff_of_once (once_of_nodup hdistinct name)

/-! ### Tokens -/

def byte (c : Char) : UInt8 := UInt8.ofNat c.toNat

abbrev quote : UInt8 := 34

abbrev backslash : UInt8 := 92

def isSpace (b : UInt8) : Bool := b = 32 || b = 9 || b = 10 || b = 13

def skipSpace (text : Bytes) : Bytes := text.dropWhile isSpace

/-- After white space, the byte `b`: what follows it. -/
def expect (b : UInt8) (text : Bytes) : Option Bytes :=
  match skipSpace text with
  | [] => none
  | c :: rest => if c = b then some rest else none

def hexDigit (b : UInt8) : Option ℕ :=
  if isDigit b then some (b.toNat - 48)
  else if 65 ≤ b && b ≤ 70 then some (b.toNat - 55)
  else if 97 ≤ b && b ≤ 102 then some (b.toNat - 87)
  else none

/-- The value of the four hexadecimal digits the text starts with. -/
def hexQuad : Bytes → Option ℕ
  | a :: b :: c :: d :: _ =>
      match hexDigit a, hexDigit b, hexDigit c, hexDigit d with
      | some a, some b, some c, some d => some (4096 * a + 256 * b + 16 * c + d)
      | _, _, _, _ => none
  | _ => none

/-- What a one-letter escape stands for. -/
def simpleEscape (b : UInt8) : Option UInt8 :=
  if b = quote || b = backslash || b = byte '/' then some b
  else if b = byte 'b' then some 8
  else if b = byte 'f' then some 12
  else if b = byte 'n' then some 10
  else if b = byte 'r' then some 13
  else if b = byte 't' then some 9
  else none

/-- After the opening quote of a string literal: its spelling, and what follows
the closing quote. -/
def rawString : Bytes → Option (Bytes × Bytes)
  | [] => none
  | b :: rest =>
      if b = quote then some ([], rest)
      else if b < 32 then none
      else if b = backslash then
        match rest with
        | [] => none
        | e :: rest =>
            if (simpleEscape e).isSome || (e = byte 'u' && (hexQuad rest).isSome) then
              (rawString rest).map fun (raw, rest) => (b :: e :: raw, rest)
            else none
      else (rawString rest).map fun (raw, rest) => (b :: raw, rest)

/-- After `\u`: the text of the escape, and what follows it. A pair of surrogates
is two escapes and one character. -/
def unicodeEscape (text : Bytes) : Option (Bytes × Bytes) :=
  match hexQuad text with
  | none => none
  | some high =>
      if high < 0xD800 || 0xE000 ≤ high then
        some (String.utf8EncodeChar (Char.ofNat high), text.drop 4)
      else if high < 0xDC00 && (text.drop 4).take 2 = [backslash, byte 'u'] then
        match hexQuad (text.drop 6) with
        | none => none
        | some low =>
            if 0xDC00 ≤ low && low < 0xE000 then
              some (String.utf8EncodeChar
                (Char.ofNat (0x10000 + 1024 * (high - 0xD800) + (low - 0xDC00))), text.drop 10)
            else none
      else none

/-- After a backslash: the text of the escape, and what follows it. -/
def escapeSequence : Bytes → Option (Bytes × Bytes)
  | [] => none
  | e :: rest =>
      match simpleEscape e with
      | some b => some ([b], rest)
      | none => if e = byte 'u' then unicodeEscape rest else none

def unescapeWithin : ℕ → Bytes → Option Bytes
  | _, [] => some []
  | 0, _ :: _ => none
  | fuel + 1, b :: rest =>
      if b = backslash then
        match escapeSequence rest with
        | none => none
        | some (text, rest) => (unescapeWithin fuel rest).map (text ++ ·)
      else (unescapeWithin fuel rest).map (b :: ·)

/-- The text a string literal denotes. -/
def unescape (raw : Bytes) : Option Bytes := unescapeWithin raw.length raw

/-- The exponent of a number, which may be absent. -/
def exponent : Bytes → Option (Bytes × Bytes)
  | [] => some ([], [])
  | e :: rest =>
      if e = byte 'e' || e = byte 'E' then
        let sign := rest.take 1 |>.filter fun b => b = byte '+' || b = byte '-'
        let digits := (rest.drop sign.length).takeWhile isDigit
        if digits = [] then none
        else some (e :: sign ++ digits, (rest.drop sign.length).dropWhile isDigit)
      else some ([], e :: rest)

/-- The fraction of a number, which may be absent. -/
def fraction : Bytes → Option (Bytes × Bytes)
  | [] => some ([], [])
  | p :: rest =>
      if p = byte '.' then
        let digits := rest.takeWhile isDigit
        if digits = [] then none else some (p :: digits, rest.dropWhile isDigit)
      else some ([], p :: rest)

/-- A number without its sign. -/
def magnitude (negative : Bool) (text : Bytes) : Option (Json × Bytes) :=
  let digits := text.takeWhile isDigit
  if digits = [] || (digits.head? = some 48 && digits.length ≠ 1) then none
  else
    match fraction (text.dropWhile isDigit) with
    | none => none
    | some (frac, rest) =>
        match exponent rest with
        | none => none
        | some (exp, rest) =>
            if frac = [] && exp = [] then some (.int negative (decimalValue digits), rest)
            else
              let sign := if negative then [byte '-'] else []
              some (.float (sign ++ digits ++ frac ++ exp), rest)

def number (text : Bytes) : Option (Json × Bytes) :=
  match expect (byte '-') text with
  | some rest => magnitude true rest
  | none => magnitude false (skipSpace text)

/-- A literal name. -/
def keyword (word : String) (v : Json) (text : Bytes) : Option (Json × Bytes) :=
  if (skipSpace text).take word.length = ascii word then
    some (v, (skipSpace text).drop word.length)
  else none

/-- A value that is neither an object nor an array. -/
def scalar (text : Bytes) : Option (Json × Bytes) :=
  match expect quote text with
  | some rest =>
      match rawString rest with
      | none => none
      | some (raw, rest) => some (((unescape raw).map Json.str).getD .unpaired, rest)
  | none =>
      (keyword "null" .null text).or <| (keyword "true" (.bool true) text).or <|
        (keyword "false" (.bool false) text).or <| number text

/-! ### The reader -/

mutual

/-- A value, and what follows it. -/
def value (name : Bytes → Option Bytes) : ℕ → Bytes → Option (Json × Bytes)
  | 0, _ => none
  | fuel + 1, text =>
      match expect (byte '{') text with
      | some rest =>
          match expect (byte '}') rest with
          | some rest => some (.obj [], rest)
          | none => (members name fuel rest).map fun (ms, rest) => (.obj ms, rest)
      | none =>
          match expect (byte '[') text with
          | some rest =>
              match expect (byte ']') rest with
              | some rest => some (.arr [], rest)
              | none => (items name fuel rest).map fun (vs, rest) => (.arr vs, rest)
          | none => scalar text

/-- One member or more, and what follows the closing brace. -/
def members (name : Bytes → Option Bytes) :
    ℕ → Bytes → Option (List (Bytes × Json) × Bytes)
  | 0, _ => none
  | fuel + 1, text => do
      let (raw, rest) ← (← expect quote text) |> rawString
      let key ← name raw
      let (v, rest) ← (← expect (byte ':') rest) |> value name fuel
      match expect (byte ',') rest with
      | some rest => (members name fuel rest).map fun (ms, rest) => ((key, v) :: ms, rest)
      | none => (expect (byte '}') rest).map fun rest => ([(key, v)], rest)

/-- One item or more, and what follows the closing bracket. -/
def items (name : Bytes → Option Bytes) : ℕ → Bytes → Option (List Json × Bytes)
  | 0, _ => none
  | fuel + 1, text => do
      let (v, rest) ← value name fuel text
      match expect (byte ',') rest with
      | some rest => (items name fuel rest).map fun (vs, rest) => (v :: vs, rest)
      | none => (expect (byte ']') rest).map fun rest => ([v], rest)

end

/-- The value of a JSON text: one value, and white space around it. -/
def parse (name : Bytes → Option Bytes) (text : Bytes) : Option Json := do
  let (v, rest) ← value name (2 * text.length + 1) text
  if skipSpace rest = [] then some v else none

/-- The text is well-formed JSON, and this is its value. -/
def IsText (name : Bytes → Option Bytes) (text : Bytes) (v : Json) : Prop :=
  ValidUtf8 text ∧ parse name text = some v

end Json

end KalshiAutotrader.Kit
