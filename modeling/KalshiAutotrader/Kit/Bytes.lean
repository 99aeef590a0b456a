import Mathlib.Data.Int.Notation
import Mathlib.Data.List.Basic
import Mathlib.Data.Nat.Init

/-!
Byte strings: literals, decimal numbers and UTF-8.

A `std::string` is a list of bytes and nothing more. Text that a program writes
out in its source is ASCII, and `ascii` turns such a literal into its bytes.
-/

namespace KalshiAutotrader.Kit

abbrev Bytes := List UInt8

/-- The bytes of an ASCII literal. -/
def ascii (s : String) : Bytes := s.toList.map fun c => UInt8.ofNat c.toNat

def newline : UInt8 := 10
def slash : UInt8 := 47
def colon : UInt8 := 58

/-! ### Decimal numbers -/

/-- A decimal digit. -/
def isDigit (b : UInt8) : Bool := 48 ≤ b && b ≤ 57

/-- A number as `std::to_string` prints it. -/
def decimal (n : ℕ) : Bytes := (Nat.toDigits 10 n).map fun c => UInt8.ofNat c.toNat

/-- A signed number as `std::to_string` prints it. -/
def decimalInt : ℤ → Bytes
  | .ofNat n => decimal n
  | .negSucc n => 45 :: decimal (n + 1)

/-- The number a run of digits denotes. -/
def decimalValue (ds : Bytes) : ℕ := ds.foldl (fun n d => 10 * n + (d.toNat - 48)) 0

private theorem toNat_byte_of_isDigit {c : Char} (hc : c.isDigit) :
    (UInt8.ofNat c.toNat).toNat = c.toNat ∧ 48 ≤ c.toNat ∧ c.toNat ≤ 57 := by
  have hbounds : 48 ≤ c.toNat ∧ c.toNat ≤ 57 := by
    simpa [Char.isDigit, UInt32.le_iff_toNat_le] using hc
  refine ⟨?_, hbounds⟩
  rw [UInt8.toNat_ofNat']
  omega

theorem isDigit_of_mem_decimal {n : ℕ} {b : UInt8} (hb : b ∈ decimal n) : isDigit b := by
  obtain ⟨c, hc, rfl⟩ := List.mem_map.mp hb
  obtain ⟨hval, hlow, hhigh⟩ := toNat_byte_of_isDigit
    (Nat.isDigit_of_mem_toDigits (by decide) (by decide) hc)
  simp only [isDigit, UInt8.le_iff_toNat_le, hval, Bool.and_eq_true, decide_eq_true_eq]
  exact ⟨hlow, hhigh⟩

theorem toNat_lt_of_mem_decimalInt {z : ℤ} {b : UInt8} (hb : b ∈ decimalInt z) :
    b.toNat < 128 := by
  have hdigit : ∀ n, b ∈ decimal n → b.toNat < 128 := by
    intro n hmem
    have := isDigit_of_mem_decimal hmem
    simp only [isDigit, UInt8.le_iff_toNat_le, Bool.and_eq_true, decide_eq_true_eq] at this
    exact Nat.lt_of_le_of_lt this.2 (by decide)
  cases z with
  | ofNat n => exact hdigit n hb
  | negSucc n =>
      rcases List.mem_cons.mp hb with rfl | hb
      · decide
      · exact hdigit (n + 1) hb

@[simp] theorem decimal_ne_nil (n : ℕ) : decimal n ≠ [] := by
  simp [decimal]

private theorem foldl_decimal_eq (cs : List Char) (hcs : ∀ c ∈ cs, c.isDigit) (init : ℕ) :
    (cs.map fun c => UInt8.ofNat c.toNat).foldl (fun n d => 10 * n + (d.toNat - 48)) init =
      Nat.ofDigitChars 10 cs init := by
  induction cs generalizing init with
  | nil => simp
  | cons c cs ih =>
      have hc := (toNat_byte_of_isDigit (hcs c (by simp))).1
      rw [List.map_cons, List.foldl_cons, hc, Nat.ofDigitChars_cons,
        ih (fun d hd => hcs d (by simp [hd]))]
      rfl

@[simp] theorem decimalValue_decimal (n : ℕ) : decimalValue (decimal n) = n := by
  rw [decimalValue, decimal, foldl_decimal_eq _
    (fun c hc => Nat.isDigit_of_mem_toDigits (by decide) (by decide) hc)]
  exact Nat.ofDigitChars_ten_toDigits

/-- A printed number has no leading zero: the one that starts with `0` is zero. -/
theorem decimal_eq_of_head_zero {n : ℕ} {ds : Bytes} (h : decimal n = 48 :: ds) : ds = [] := by
  induction n using Nat.strong_induction_on generalizing ds with
  | _ n ih =>
      rw [decimal, Nat.toDigits_eq_if (by decide)] at h
      split at h
      · simpa using (List.cons.inj h).2.symm
      · next hn =>
        rw [List.map_append] at h
        cases hq : decimal (n / 10) with
        | nil => exact absurd hq (decimal_ne_nil _)
        | cons b bs =>
            rw [decimal] at hq
            rw [hq, List.cons_append] at h
            obtain ⟨rfl, -⟩ := List.cons.inj h
            have hbs : bs = [] := ih (n / 10) (by omega) hq
            have hzero : n / 10 = 0 := by
              rw [← decimalValue_decimal (n / 10), decimal, hq, hbs]
              rfl
            omega

/-! ### UTF-8 -/

/-- The UTF-8 encoding of a list of code points. -/
def utf8 (cs : List Char) : Bytes := cs.flatMap String.utf8EncodeChar

/-- Well-formed UTF-8. -/
def ValidUtf8 (bs : Bytes) : Prop := ∃ cs, bs = utf8 cs

@[simp] theorem validUtf8_nil : ValidUtf8 [] := ⟨[], rfl⟩

theorem ValidUtf8.append {as bs : Bytes} (ha : ValidUtf8 as) (hb : ValidUtf8 bs) :
    ValidUtf8 (as ++ bs) := by
  obtain ⟨cs, rfl⟩ := ha
  obtain ⟨ds, rfl⟩ := hb
  exact ⟨cs ++ ds, by simp [utf8]⟩

theorem validUtf8_singleton {b : UInt8} (hb : b.toNat < 128) : ValidUtf8 [b] := by
  have hvalid : b.toUInt32.isValidChar := by
    left
    simp only [UInt8.toNat_toUInt32]
    omega
  refine ⟨[⟨b.toUInt32, hvalid⟩], ?_⟩
  have hle : b.toNat ≤ 127 := by omega
  simp [utf8, String.utf8EncodeChar, hle]

/-- Bytes below 128 are UTF-8 on their own. -/
theorem validUtf8_of_ascii {bs : Bytes} (h : ∀ b ∈ bs, b.toNat < 128) : ValidUtf8 bs := by
  induction bs with
  | nil => exact validUtf8_nil
  | cons b bs ih =>
      exact (validUtf8_singleton (h b (by simp))).append (ih fun c hc => h c (by simp [hc]))

/-- A character is one byte, or all its bytes are above 127. -/
theorem utf8EncodeChar_cases (c : Char) :
    (∃ b, String.utf8EncodeChar c = [b]) ∨ ∀ b ∈ String.utf8EncodeChar c, 128 ≤ b.toNat := by
  unfold String.utf8EncodeChar
  simp only []
  split
  · exact .inl ⟨_, rfl⟩
  · right
    repeat' split
    all_goals
      simp only [List.forall_mem_cons, List.not_mem_nil, false_implies, implies_true, and_true,
        UInt8.toNat_ofNat']
      omega

/-- The bytes from 248 on are in no character. -/
theorem toNat_lt_of_mem_utf8 {bs : Bytes} {b : UInt8} (h : ValidUtf8 bs) (hb : b ∈ bs) :
    b.toNat < 248 := by
  obtain ⟨cs, rfl⟩ := h
  obtain ⟨c, -, hc⟩ := List.mem_flatMap.mp hb
  have hall : ∀ d ∈ String.utf8EncodeChar c, d.toNat < 248 := by
    unfold String.utf8EncodeChar
    simp only []
    repeat' split
    all_goals
      simp only [List.forall_mem_cons, List.not_mem_nil, false_implies, implies_true, and_true,
        UInt8.toNat_ofNat']
      omega
  exact hall b hc

/-- A byte below 128 is a character of its own: both sides of it are UTF-8. -/
theorem validUtf8_of_append_ascii {xs ys : Bytes} {b : UInt8} (hb : b.toNat < 128)
    (h : ValidUtf8 (xs ++ b :: ys)) : ValidUtf8 xs ∧ ValidUtf8 ys := by
  obtain ⟨cs, hcs⟩ := h
  induction cs generalizing xs with
  | nil => simp [utf8] at hcs
  | cons c cs ih =>
      rw [utf8, List.flatMap_cons, ← utf8] at hcs
      have hc : ValidUtf8 (String.utf8EncodeChar c) := ⟨[c], by simp [utf8]⟩
      rcases List.append_eq_append_iff.mp hcs with ⟨as, hchar, hrest⟩ | ⟨as, hxs, hrest⟩
      · cases as with
        | nil =>
            rw [List.append_nil] at hchar
            exact ⟨hchar ▸ hc, (ih (show [] ++ b :: ys = utf8 cs from hrest)).2⟩
        | cons a as =>
            obtain ⟨rfl, htail⟩ := List.cons.inj hrest
            rcases utf8EncodeChar_cases c with ⟨d, hd⟩ | hhigh
            · rw [hd] at hchar
              cases xs with
              | nil =>
                  obtain ⟨-, has⟩ := List.cons.inj hchar
                  exact ⟨validUtf8_nil, cs, by rw [htail, ← has]; rfl⟩
              | cons x xs => simp at hchar
            · have := hhigh b (by simp [hchar])
              omega
      · obtain ⟨hleft, hright⟩ := ih hrest.symm
        exact ⟨hxs ▸ hc.append hleft, hright⟩

theorem validUtf8_append_cons {xs ys : Bytes} {b : UInt8} (hb : b.toNat < 128) :
    ValidUtf8 (xs ++ b :: ys) ↔ ValidUtf8 xs ∧ ValidUtf8 ys :=
  ⟨validUtf8_of_append_ascii hb, fun ⟨hx, hy⟩ => hx.append ((validUtf8_singleton hb).append hy)⟩

theorem validUtf8_cons {ys : Bytes} {b : UInt8} (hb : b.toNat < 128) :
    ValidUtf8 (b :: ys) ↔ ValidUtf8 ys := by
  have h : ValidUtf8 ([] ++ b :: ys) ↔ _ := validUtf8_append_cons hb
  simpa using h

theorem validUtf8_ascii_append {as xs : Bytes} (h : ∀ b ∈ as, b.toNat < 128) :
    ValidUtf8 (as ++ xs) ↔ ValidUtf8 xs := by
  induction as with
  | nil => rfl
  | cons b as ih =>
      rw [List.cons_append, validUtf8_cons (h b (by simp))]
      exact ih fun c hc => h c (List.mem_cons_of_mem b hc)

/-- Text of which the bytes below 128 are rewritten, each to bytes below 128, keeps its
encoding. -/
theorem validUtf8_flatMap {f : UInt8 → Bytes} {text : Bytes}
    (hlow : ∀ b, b.toNat < 128 → f b ≠ [] ∧ ∀ c ∈ f b, c.toNat < 128)
    (hhigh : ∀ b, 128 ≤ b.toNat → f b = [b]) :
    ValidUtf8 (text.flatMap f) ↔ ValidUtf8 text := by
  -- in front of the text stands what may be the first half of a character
  have hrest : ∀ head, ValidUtf8 (head ++ text.flatMap f) ↔ ValidUtf8 (head ++ text) := by
    induction text with
    | nil => exact fun _ => Iff.rfl
    | cons b text ih =>
        intro head
        rw [List.flatMap_cons]
        by_cases hb : b.toNat < 128
        · obtain ⟨hne, hascii⟩ := hlow b hb
          cases hfb : f b with
          | nil => exact absurd hfb hne
          | cons c cs =>
              rw [hfb] at hascii
              obtain ⟨hc, hcs⟩ := List.forall_mem_cons.mp hascii
              rw [List.cons_append, validUtf8_append_cons hc, validUtf8_ascii_append hcs,
                validUtf8_append_cons hb]
              exact and_congr_right fun _ => ih []
        · have htail := ih (head ++ [b])
          simpa [hhigh b (by omega)] using htail
  exact hrest []

end KalshiAutotrader.Kit
