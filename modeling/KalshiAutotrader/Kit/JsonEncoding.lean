import KalshiAutotrader.Kit.JsonRender

/-!
The encoding of written JSON.

The writer copies the bytes of a string that need no escape, so what it writes is
UTF-8 when the strings in it are, names included, and not otherwise.
-/

namespace KalshiAutotrader.Kit

namespace Json

/-- Escaping neither breaks nor mends the encoding of a text. -/
theorem validUtf8_escape {text : Bytes} : ValidUtf8 (escape text) ↔ ValidUtf8 text := by
  have hall : ∀ n : Fin 256, if n.val < 128 then
      escapeByte (UInt8.ofNat n) ≠ [] ∧ ∀ c ∈ escapeByte (UInt8.ofNat n), c.toNat < 128
      else escapeByte (UInt8.ofNat n) = [UInt8.ofNat n] := by
    decide +kernel
  apply validUtf8_flatMap
  · intro b hb
    simpa [hb] using hall ⟨b.toNat, b.toNat_lt⟩
  · intro b hb
    simpa [Nat.not_lt.mpr hb] using hall ⟨b.toNat, b.toNat_lt⟩

theorem validUtf8_quoted {text rest : Bytes} :
    ValidUtf8 (quoted text ++ rest) ↔ ValidUtf8 text ∧ ValidUtf8 rest := by
  rw [quoted, List.cons_append, List.append_assoc, List.singleton_append,
    validUtf8_cons (by decide), validUtf8_append_cons (by decide), validUtf8_escape]

theorem validUtf8_render_str {text : Bytes} : ValidUtf8 (render (.str text)) ↔ ValidUtf8 text := by
  have h : ValidUtf8 (quoted text ++ []) ↔ _ := validUtf8_quoted
  rwa [List.append_nil, and_iff_left validUtf8_nil] at h

theorem validUtf8_render_ofInt (z : ℤ) : ValidUtf8 (render (ofInt z)) := by
  rw [render_ofInt]
  exact validUtf8_of_ascii fun _ => toNat_lt_of_mem_decimalInt

theorem validUtf8_renderItems {vs : List Json} :
    ValidUtf8 (renderItems vs) ↔ ∀ v ∈ vs, ValidUtf8 (render v) := by
  induction vs with
  | nil => simp [renderItems]
  | cons v vs ih =>
      cases vs with
      | nil => simp [renderItems]
      | cons w vs => rw [renderItems, validUtf8_append_cons (by decide), ih,
            List.forall_mem_cons (a := v)]

theorem validUtf8_render_arr {vs : List Json} :
    ValidUtf8 (render (.arr vs)) ↔ ∀ v ∈ vs, ValidUtf8 (render v) := by
  rw [render, validUtf8_cons (by decide), validUtf8_append_cons (by decide), validUtf8_renderItems]
  exact and_iff_left validUtf8_nil

theorem validUtf8_renderMembers {ms : List (Bytes × Json)} :
    ValidUtf8 (renderMembers ms) ↔ ∀ m ∈ ms, ValidUtf8 m.1 ∧ ValidUtf8 (render m.2) := by
  induction ms with
  | nil => simp [renderMembers]
  | cons m ms ih =>
      cases ms with
      | nil =>
          have hcolon : (byte ':').toNat < 128 := by decide
          simp [renderMembers, validUtf8_quoted, validUtf8_cons hcolon]
      | cons k ms =>
          rw [renderMembers, validUtf8_quoted, validUtf8_cons (by decide),
            validUtf8_append_cons (by decide), ih, List.forall_mem_cons (a := m), and_assoc]

theorem validUtf8_render_obj {ms : List (Bytes × Json)} :
    ValidUtf8 (render (.obj ms)) ↔ ∀ m ∈ ms, ValidUtf8 m.1 ∧ ValidUtf8 (render m.2) := by
  rw [render, validUtf8_cons (by decide), validUtf8_append_cons (by decide),
    validUtf8_renderMembers]
  exact and_iff_left validUtf8_nil

end Json

end KalshiAutotrader.Kit
