import KalshiAutotrader.Kit.JsonEncoding
import Mathlib.Data.List.TakeWhile

/-!
JSON texts and the strings in them.

A text in UTF-8 has strings in UTF-8, whatever they are spelled with: outside of strings
the grammar only has bytes below 128, and an escape stands for a whole character. In the
other direction, a value with such strings, and with names that are different and need no
escape, is written as a text that is read as this value.
-/

namespace KalshiAutotrader.Kit

def isAscii (text : Bytes) : Bool := text.all fun b => b.toNat < 128

theorem toNat_lt_of_isAscii {text : Bytes} (h : isAscii text = true) :
    ∀ b ∈ text, b.toNat < 128 := by
  simpa only [isAscii, List.all_eq_true, decide_eq_true_eq] using h

theorem validUtf8_of_isAscii {text : Bytes} (h : isAscii text = true) : ValidUtf8 text :=
  validUtf8_of_ascii (toNat_lt_of_isAscii h)

namespace Json

/-- `P` holds of the strings in a value, names apart. -/
inductive Strings (P : Bytes → Prop) : Json → Prop
  | null : Strings P .null
  | bool (val : Bool) : Strings P (.bool val)
  | int (negative : Bool) (magnitude : ℕ) : Strings P (.int negative magnitude)
  | float (spelling : Bytes) : Strings P (.float spelling)
  | unpaired : Strings P .unpaired
  | str {text : Bytes} : P text → Strings P (.str text)
  | arr {vs : List Json} : (∀ v ∈ vs, Strings P v) → Strings P (.arr vs)
  | obj {ms : List (Bytes × Json)} : (∀ m ∈ ms, Strings P m.2) → Strings P (.obj ms)

variable {P : Bytes → Prop}

theorem Strings.of_str {text : Bytes} (h : Strings P (.str text)) : P text := by
  cases h
  assumption

theorem Strings.of_arr {vs : List Json} (h : Strings P (.arr vs)) : ∀ v ∈ vs, Strings P v := by
  cases h
  assumption

theorem Strings.of_obj {ms : List (Bytes × Json)} (h : Strings P (.obj ms)) :
    ∀ m ∈ ms, Strings P m.2 := by
  cases h
  assumption

theorem Strings.of_lookup {ms : List (Bytes × Json)} {key : Bytes} {v : Json}
    (h : Strings P (.obj ms)) (hv : ms.lookup key = some v) : Strings P v := by
  obtain ⟨pre, post, rfl, -⟩ := List.lookup_eq_some_iff.mp hv
  exact h.of_obj (key, v) (by simp)

/-! ### Tokens -/

theorem validUtf8_of_prefix {used text rest : Bytes} (hutf8 : ValidUtf8 text)
    (htext : text = used ++ rest) (hused : ∀ b ∈ used, b.toNat < 128) : ValidUtf8 rest :=
  (validUtf8_ascii_append hused).mp (htext ▸ hutf8)

theorem validUtf8_dropWhile {p : UInt8 → Bool} (hp : ∀ b, p b = true → b.toNat < 128)
    {text : Bytes} (hutf8 : ValidUtf8 text) : ValidUtf8 (text.dropWhile p) := by
  refine validUtf8_of_prefix hutf8 (List.takeWhile_append_dropWhile).symm fun b hb => hp b ?_
  exact List.mem_takeWhile_imp hb

theorem validUtf8_skipSpace {text : Bytes} (hutf8 : ValidUtf8 text) :
    ValidUtf8 (skipSpace text) := by
  refine validUtf8_dropWhile (fun b hb => ?_) hutf8
  simp only [isSpace, Bool.or_eq_true, decide_eq_true_eq] at hb
  rcases hb with ((rfl | rfl) | rfl) | rfl <;> decide

theorem validUtf8_expect {b : UInt8} (hb : b.toNat < 128) {text rest : Bytes}
    (hutf8 : ValidUtf8 text) (h : expect b text = some rest) : ValidUtf8 rest := by
  have hskip := validUtf8_skipSpace hutf8
  unfold expect at h
  split at h
  · cases h
  · next c rest' heq =>
    split at h
    · next hc =>
      obtain rfl := Option.some.inj h
      rw [heq, hc] at hskip
      exact (validUtf8_cons hb).mp hskip
    · cases h

theorem validUtf8_keyword {word : String} {w v : Json} {text rest : Bytes}
    (hword : isAscii (ascii word) = true) (hutf8 : ValidUtf8 text)
    (h : keyword word w text = some (v, rest)) : v = w ∧ ValidUtf8 rest := by
  unfold keyword at h
  split at h
  · next htake =>
    obtain ⟨rfl, rfl⟩ := Prod.mk.inj (Option.some.inj h)
    refine ⟨rfl, validUtf8_of_prefix (validUtf8_skipSpace hutf8)
      (List.take_append_drop word.length _).symm ?_⟩
    rw [htake]
    exact toNat_lt_of_isAscii hword
  · cases h

theorem toNat_lt_of_isDigit {b : UInt8} (hb : isDigit b = true) : b.toNat < 128 := by
  simp only [isDigit, Bool.and_eq_true, decide_eq_true_eq, UInt8.le_iff_toNat_le] at hb
  have hhigh : b.toNat ≤ 57 := hb.2
  omega

/-! ### Numbers -/

theorem validUtf8_fraction {text frac rest : Bytes} (hutf8 : ValidUtf8 text)
    (h : fraction text = some (frac, rest)) : ValidUtf8 rest := by
  unfold fraction at h
  split at h
  · cases h
    exact validUtf8_nil
  · next p text =>
    split at h
    · next hp =>
      simp only at h
      split at h
      · cases h
      · obtain ⟨-, rfl⟩ := Prod.mk.inj (Option.some.inj h)
        rw [hp] at hutf8
        exact validUtf8_dropWhile (fun _ => toNat_lt_of_isDigit)
          ((validUtf8_cons (by decide)).mp hutf8)
    · obtain ⟨-, rfl⟩ := Prod.mk.inj (Option.some.inj h)
      exact hutf8

theorem validUtf8_exponent {text exp rest : Bytes} (hutf8 : ValidUtf8 text)
    (h : exponent text = some (exp, rest)) : ValidUtf8 rest := by
  unfold exponent at h
  split at h
  · cases h
    exact validUtf8_nil
  · next e text =>
    split at h
    · next he =>
      simp only at h
      split at h
      · cases h
      · obtain ⟨-, rfl⟩ := Prod.mk.inj (Option.some.inj h)
        have hletter : e.toNat < 128 := by
          simp only [Bool.or_eq_true, decide_eq_true_eq] at he
          rcases he with rfl | rfl <;> decide
        have htext : ValidUtf8 text := (validUtf8_cons hletter).mp hutf8
        -- the sign is the first byte, or there is none
        refine validUtf8_dropWhile (fun _ => toNat_lt_of_isDigit) ?_
        cases text with
        | nil => exact validUtf8_nil
        | cons b text =>
            by_cases hb : b = byte '+' ∨ b = byte '-'
            · have hsign : b.toNat < 128 := by
                rcases hb with rfl | rfl <;> decide
              simpa [hb] using (validUtf8_cons hsign).mp htext
            · simpa [hb] using htext
    · obtain ⟨-, rfl⟩ := Prod.mk.inj (Option.some.inj h)
      exact hutf8

theorem strings_magnitude {negative : Bool} {text rest : Bytes} {v : Json}
    (hutf8 : ValidUtf8 text) (h : magnitude negative text = some (v, rest)) :
    Strings P v ∧ ValidUtf8 rest := by
  have hdigits : ValidUtf8 (text.dropWhile isDigit) :=
    validUtf8_dropWhile (fun _ => toNat_lt_of_isDigit) hutf8
  unfold magnitude at h
  simp only at h
  split at h
  · cases h
  · split at h
    · cases h
    · next frac afterFraction hfraction =>
      have hafter := validUtf8_fraction hdigits hfraction
      split at h
      · cases h
      · next exp afterExponent hexponent =>
        have hrest := validUtf8_exponent hafter hexponent
        split at h
        · obtain ⟨rfl, rfl⟩ := Prod.mk.inj (Option.some.inj h)
          exact ⟨.int _ _, hrest⟩
        · obtain ⟨rfl, rfl⟩ := Prod.mk.inj (Option.some.inj h)
          exact ⟨.float _, hrest⟩

theorem strings_number {text rest : Bytes} {v : Json} (hutf8 : ValidUtf8 text)
    (h : number text = some (v, rest)) : Strings P v ∧ ValidUtf8 rest := by
  unfold number at h
  split at h
  · next after hminus => exact strings_magnitude (validUtf8_expect (by decide) hutf8 hminus) h
  · exact strings_magnitude (validUtf8_skipSpace hutf8) h

/-! ### Strings -/

theorem toNat_lt_of_hexDigit {b : UInt8} {d : ℕ} (h : hexDigit b = some d) : b.toNat < 128 := by
  have hall : ∀ n : Fin 256, (hexDigit (UInt8.ofNat n)).isSome → n.val < 128 := by
    decide +kernel
  exact hall ⟨b.toNat, b.toNat_lt⟩ (by simp [h])

theorem toNat_lt_of_hexQuad {text : Bytes} {n : ℕ} (h : hexQuad text = some n) :
    ∀ b ∈ text.take 4, b.toNat < 128 := by
  unfold hexQuad at h
  split at h
  · split at h
    · next ha hb hc hd =>
      simp only [List.take_succ_cons, List.take_zero, List.forall_mem_cons, List.not_mem_nil,
        false_implies, implies_true, and_true]
      exact ⟨toNat_lt_of_hexDigit ha, toNat_lt_of_hexDigit hb, toNat_lt_of_hexDigit hc,
        toNat_lt_of_hexDigit hd⟩
    · cases h
  · cases h

theorem validUtf8_encodeChar (c : Char) : ValidUtf8 (String.utf8EncodeChar c) :=
  ⟨[c], by simp [utf8]⟩

theorem validUtf8_unicodeEscape {text decoded rest : Bytes} (hutf8 : ValidUtf8 text)
    (h : unicodeEscape text = some (decoded, rest)) : ValidUtf8 decoded ∧ ValidUtf8 rest := by
  unfold unicodeEscape at h
  split at h
  · cases h
  · next high hhigh =>
    have hdrop : ValidUtf8 (text.drop 4) :=
      validUtf8_of_prefix hutf8 (List.take_append_drop 4 text).symm (toNat_lt_of_hexQuad hhigh)
    split at h
    · obtain ⟨rfl, rfl⟩ := Prod.mk.inj (Option.some.inj h)
      exact ⟨validUtf8_encodeChar _, hdrop⟩
    · split at h
      · next hpair =>
        have hslash : (text.drop 4).take 2 = [backslash, byte 'u'] :=
          of_decide_eq_true (Bool.and_eq_true_iff.mp hpair).2
        have hdrop' : ValidUtf8 (text.drop 6) := by
          have hascii : isAscii [backslash, byte 'u'] = true := by decide
          refine validUtf8_of_prefix hdrop ?_ (toNat_lt_of_isAscii hascii)
          rw [← hslash, show text.drop 6 = (text.drop 4).drop 2 by rw [List.drop_drop],
            List.take_append_drop]
        split at h
        · cases h
        · next low hlow =>
          split at h
          · obtain ⟨rfl, rfl⟩ := Prod.mk.inj (Option.some.inj h)
            refine ⟨validUtf8_encodeChar _,
              validUtf8_of_prefix hdrop' ?_ (toNat_lt_of_hexQuad hlow)⟩
            rw [show text.drop 10 = (text.drop 6).drop 4 by rw [List.drop_drop],
              List.take_append_drop]
          · cases h
      · cases h

theorem validUtf8_escapeSequence {text decoded rest : Bytes} (hutf8 : ValidUtf8 text)
    (h : escapeSequence text = some (decoded, rest)) : ValidUtf8 decoded ∧ ValidUtf8 rest := by
  have hsimple : ∀ n : Fin 256, (simpleEscape (UInt8.ofNat n)).all
      (fun b => b.toNat < 128 && n.val < 128) = true := by
    decide +kernel
  unfold escapeSequence at h
  split at h
  · cases h
  · next e text =>
    split at h
    · next b hb =>
      obtain ⟨rfl, rfl⟩ := Prod.mk.inj (Option.some.inj h)
      have hboth := hsimple ⟨e.toNat, e.toNat_lt⟩
      rw [UInt8.ofNat_toNat, hb, Option.all_some, Bool.and_eq_true, decide_eq_true_eq,
        decide_eq_true_eq] at hboth
      obtain ⟨hlow, he⟩ := hboth
      exact ⟨validUtf8_singleton hlow, (validUtf8_cons he).mp hutf8⟩
    · split at h
      · next he =>
        rw [he] at hutf8
        exact validUtf8_unicodeEscape ((validUtf8_cons (by decide)).mp hutf8) h
      · cases h

/-- In front of the spelling stands what may be the first half of a character. -/
theorem validUtf8_unescapeWithin {fuel : ℕ} {raw text : Bytes} (head : Bytes)
    (hutf8 : ValidUtf8 (head ++ raw)) (h : unescapeWithin fuel raw = some text) :
    ValidUtf8 (head ++ text) := by
  induction fuel, raw using unescapeWithin.induct generalizing head text with
  | case1 fuel =>
      cases fuel <;> cases h <;> exact hutf8
  | case2 => cases h
  | case3 fuel rest hnone => simp [unescapeWithin, hnone] at h
  | case4 fuel rest decoded rest' hsome ih =>
      simp only [unescapeWithin, if_true, hsome] at h
      obtain ⟨tail, htail, rfl⟩ := Option.map_eq_some_iff.mp h
      obtain ⟨hhead, hrest⟩ := validUtf8_of_append_ascii (by decide) hutf8
      obtain ⟨hdecoded, hrest'⟩ := validUtf8_escapeSequence hrest hsome
      exact hhead.append (hdecoded.append (ih [] hrest' htail))
  | case5 fuel b rest hslash ih =>
      simp only [unescapeWithin, if_neg hslash] at h
      obtain ⟨tail, htail, rfl⟩ := Option.map_eq_some_iff.mp h
      have hnext : ValidUtf8 ((head ++ [b]) ++ tail) :=
        ih (head ++ [b]) (by simpa using hutf8) htail
      simpa using hnext

theorem strings_scalar {text rest : Bytes} {v : Json} (hutf8 : ValidUtf8 text)
    (h : scalar text = some (v, rest)) : Strings ValidUtf8 v ∧ ValidUtf8 rest := by
  unfold scalar at h
  split at h
  · next after hquote =>
    have hafter := validUtf8_expect (by decide) hutf8 hquote
    split at h
    · cases h
    · next raw rest' hraw =>
      obtain ⟨rfl, rfl⟩ := Prod.mk.inj (Option.some.inj h)
      rw [(rawString_eq_append hraw).1] at hafter
      obtain ⟨hspelling, hrest⟩ := validUtf8_of_append_ascii (by decide) hafter
      refine ⟨?_, hrest⟩
      cases htext : unescape raw with
      | none => exact .unpaired
      | some text' => exact .str (validUtf8_unescapeWithin [] hspelling htext)
  · rcases Option.or_eq_some_iff.mp h with h | ⟨-, h⟩
    · obtain ⟨rfl, hrest⟩ := validUtf8_keyword (by decide) hutf8 h
      exact ⟨.null, hrest⟩
    · rcases Option.or_eq_some_iff.mp h with h | ⟨-, h⟩
      · obtain ⟨rfl, hrest⟩ := validUtf8_keyword (by decide) hutf8 h
        exact ⟨.bool true, hrest⟩
      · rcases Option.or_eq_some_iff.mp h with h | ⟨-, h⟩
        · obtain ⟨rfl, hrest⟩ := validUtf8_keyword (by decide) hutf8 h
          exact ⟨.bool false, hrest⟩
        · exact strings_number hutf8 h

/-! ### Values -/

/-- What is read within this much fuel. -/
structure ReadsStrings (name : Bytes → Option Bytes) (fuel : ℕ) : Prop where
  value {text rest : Bytes} {v : Json} : ValidUtf8 text → value name fuel text = some (v, rest) →
    Strings ValidUtf8 v ∧ ValidUtf8 rest
  members {text rest : Bytes} {ms : List (Bytes × Json)} : ValidUtf8 text →
    members name fuel text = some (ms, rest) →
    (∀ m ∈ ms, Strings ValidUtf8 m.2) ∧ ValidUtf8 rest
  items {text rest : Bytes} {vs : List Json} : ValidUtf8 text →
    items name fuel text = some (vs, rest) → (∀ v ∈ vs, Strings ValidUtf8 v) ∧ ValidUtf8 rest

variable {name : Bytes → Option Bytes} {fuel : ℕ} {text rest : Bytes}

theorem ReadsStrings.value_succ (ih : ReadsStrings name fuel) {v : Json} (hutf8 : ValidUtf8 text)
    (h : Json.value name (fuel + 1) text = some (v, rest)) :
    Strings ValidUtf8 v ∧ ValidUtf8 rest := by
  rw [Json.value] at h
  split at h
  · next after hbrace =>
    have hafter := validUtf8_expect (by decide) hutf8 hbrace
    split at h
    · next hclose =>
      obtain ⟨rfl, rfl⟩ := Prod.mk.inj (Option.some.inj h)
      exact ⟨.obj (by simp), validUtf8_expect (by decide) hafter hclose⟩
    · obtain ⟨⟨ms, rest'⟩, hms, heq⟩ := Option.map_eq_some_iff.mp h
      obtain ⟨rfl, rfl⟩ := Prod.mk.inj heq
      obtain ⟨hstrings, hrest⟩ := ih.members hafter hms
      exact ⟨.obj hstrings, hrest⟩
  · split at h
    · next after hbracket =>
      have hafter := validUtf8_expect (by decide) hutf8 hbracket
      split at h
      · next hclose =>
        obtain ⟨rfl, rfl⟩ := Prod.mk.inj (Option.some.inj h)
        exact ⟨.arr (by simp), validUtf8_expect (by decide) hafter hclose⟩
      · obtain ⟨⟨vs, rest'⟩, hvs, heq⟩ := Option.map_eq_some_iff.mp h
        obtain ⟨rfl, rfl⟩ := Prod.mk.inj heq
        obtain ⟨hstrings, hrest⟩ := ih.items hafter hvs
        exact ⟨.arr hstrings, hrest⟩
    · exact strings_scalar hutf8 h

theorem ReadsStrings.members_succ (ih : ReadsStrings name fuel) {ms : List (Bytes × Json)}
    (hutf8 : ValidUtf8 text) (h : Json.members name (fuel + 1) text = some (ms, rest)) :
    (∀ m ∈ ms, Strings ValidUtf8 m.2) ∧ ValidUtf8 rest := by
  simp only [Json.members, Option.bind_eq_bind, Option.bind_eq_some_iff] at h
  obtain ⟨afterQuote, hquote, ⟨raw, afterName⟩, hraw, key, -, afterColon, hcolon, ⟨v, after⟩, hv,
    hrest⟩ := h
  have hopened := validUtf8_expect (by decide) hutf8 hquote
  rw [(rawString_eq_append hraw).1] at hopened
  have hnamed := (validUtf8_of_append_ascii (by decide) hopened).2
  obtain ⟨hstrings, hafter⟩ := ih.value (validUtf8_expect (by decide) hnamed hcolon) hv
  simp only at hrest
  split at hrest
  · next more hcomma =>
    obtain ⟨⟨ms', rest'⟩, hms, heq⟩ := Option.map_eq_some_iff.mp hrest
    obtain ⟨rfl, rfl⟩ := Prod.mk.inj heq
    obtain ⟨hall, hrest'⟩ := ih.members (validUtf8_expect (by decide) hafter hcomma) hms
    exact ⟨List.forall_mem_cons.mpr ⟨hstrings, hall⟩, hrest'⟩
  · obtain ⟨rest', hclose, heq⟩ := Option.map_eq_some_iff.mp hrest
    obtain ⟨rfl, rfl⟩ := Prod.mk.inj heq
    exact ⟨List.forall_mem_singleton.mpr hstrings, validUtf8_expect (by decide) hafter hclose⟩

theorem ReadsStrings.items_succ (ih : ReadsStrings name fuel) {vs : List Json}
    (hutf8 : ValidUtf8 text) (h : Json.items name (fuel + 1) text = some (vs, rest)) :
    (∀ v ∈ vs, Strings ValidUtf8 v) ∧ ValidUtf8 rest := by
  simp only [Json.items, Option.bind_eq_bind, Option.bind_eq_some_iff] at h
  obtain ⟨⟨v, after⟩, hv, hrest⟩ := h
  obtain ⟨hstrings, hafter⟩ := ih.value hutf8 hv
  simp only at hrest
  split at hrest
  · next more hcomma =>
    obtain ⟨⟨vs', rest'⟩, hvs, heq⟩ := Option.map_eq_some_iff.mp hrest
    obtain ⟨rfl, rfl⟩ := Prod.mk.inj heq
    obtain ⟨hall, hrest'⟩ := ih.items (validUtf8_expect (by decide) hafter hcomma) hvs
    exact ⟨List.forall_mem_cons.mpr ⟨hstrings, hall⟩, hrest'⟩
  · obtain ⟨rest', hclose, heq⟩ := Option.map_eq_some_iff.mp hrest
    obtain ⟨rfl, rfl⟩ := Prod.mk.inj heq
    exact ⟨List.forall_mem_singleton.mpr hstrings, validUtf8_expect (by decide) hafter hclose⟩

theorem readsStrings (name : Bytes → Option Bytes) (fuel : ℕ) : ReadsStrings name fuel := by
  induction fuel with
  | zero =>
      exact ⟨fun _ h => by simp [Json.value] at h, fun _ h => by simp [Json.members] at h,
        fun _ h => by simp [Json.items] at h⟩
  | succ fuel ih => exact ⟨ih.value_succ, ih.members_succ, ih.items_succ⟩

/-- The strings of a JSON text are in UTF-8. -/
theorem strings_of_isText {v : Json} (h : IsText name text v) : Strings ValidUtf8 v := by
  obtain ⟨rest, hvalue⟩ := value_of_parse h.2
  exact ((readsStrings name _).value h.1 hvalue).1

/-! ### Texts that are written -/

/-- A name that is written as it is. -/
def PlainName (name : Bytes) : Prop := escape name = name ∧ isAscii name = true

instance (name : Bytes) : Decidable (PlainName name) := inferInstanceAs (Decidable (_ ∧ _))

/-- Values that are written as a text of their own. -/
inductive Written : Json → Prop
  | bool (val : Bool) : Written (.bool val)
  | int (negative : Bool) (magnitude : ℕ) : Written (.int negative magnitude)
  | str {text : Bytes} : ValidUtf8 text → Written (.str text)
  | arr {vs : List Json} : (∀ v ∈ vs, Written v) → Written (.arr vs)
  | obj {ms : List (Bytes × Json)} (names : List Bytes) : ms.map Prod.fst = names →
      names.Nodup → (∀ n ∈ names, PlainName n) → (∀ m ∈ ms, Written m.2) → Written (.obj ms)

theorem written_ofInt (z : ℤ) : Written (ofInt z) := by
  cases z <;> exact .int _ _

theorem written_strings {texts : List Bytes} (h : ∀ text ∈ texts, ValidUtf8 text) :
    Written (.arr (texts.map .str)) :=
  .arr <| List.forall_mem_map.mpr fun text htext => .str (h text htext)

theorem Written.readable {v : Json} (h : Written v) : Readable some v := by
  induction h with
  | bool val => exact .bool val
  | int negative magnitude => exact .int negative magnitude
  | str => exact .str _
  | arr _ ih => exact .arr _ ih
  | obj names hnames _ hplain _ ih =>
      refine .obj _ (fun m hm => ?_) ih
      rw [(hplain m.1 (hnames ▸ List.mem_map_of_mem hm)).1]

theorem Written.validUtf8 {v : Json} (h : Written v) : ValidUtf8 (render v) := by
  induction h with
  | bool val => cases val <;> exact validUtf8_of_isAscii (by decide)
  | int negative magnitude =>
      refine ValidUtf8.append ?_ ?_
      · cases negative <;> exact validUtf8_of_isAscii (by decide)
      · exact validUtf8_of_ascii fun _ hb => toNat_lt_of_isDigit (isDigit_of_mem_decimal hb)
  | str htext => exact validUtf8_render_str.mpr htext
  | arr _ ih => exact validUtf8_render_arr.mpr ih
  | obj names hnames _ hplain _ ih =>
      refine validUtf8_render_obj.mpr fun m hm => ⟨?_, ih m hm⟩
      exact validUtf8_of_isAscii (hplain m.1 (hnames ▸ List.mem_map_of_mem hm)).2

theorem distinctItems_iff {vs : List Json} :
    distinctItems vs = true ↔ ∀ v ∈ vs, v.distinct = true := by
  induction vs with
  | nil => simp [distinctItems]
  | cons v vs ih => simp [distinctItems, ih]

theorem Written.distinct {v : Json} (h : Written v) : v.distinct = true := by
  induction h with
  | arr _ ih => exact distinctItems_iff.mpr ih
  | obj names hnames hnodup _ _ ih => exact distinct_obj.mpr ⟨hnames ▸ hnodup, ih⟩
  | _ => rfl

theorem Written.isText {v : Json} (h : Written v) : IsText some (render v) v :=
  ⟨h.validUtf8, parse_render h.readable⟩

end Json

end KalshiAutotrader.Kit
