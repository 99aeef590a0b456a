import Mathlib.Data.List.Basic

/-!
Records in a file, each ended by a separator.

Cut at the separators, the file gives the records back, and an empty piece after
the last one, as long as no record holds a separator. A record that does is cut
where it does, so nothing else has that property.
-/

namespace KalshiAutotrader.Kit

variable {α : Type*} [BEq α] [LawfulBEq α] {sep : α}

/-- The pieces between separators hold none. -/
theorem notMem_of_mem_splitOn {xs piece : List α} (h : piece ∈ xs.splitOn sep) : sep ∉ piece := by
  induction xs generalizing piece with
  | nil =>
      obtain rfl : piece = [] := by simpa using h
      exact List.not_mem_nil
  | cons x xs ih =>
      rw [List.splitOn_cons_eq_if_modifyHead] at h
      split at h
      · rcases List.mem_cons.mp h with rfl | h
        · exact List.not_mem_nil
        · exact ih h
      next hx =>
        have hne : x ≠ sep := by simpa using hx
        cases hsplit : xs.splitOn sep with
        | nil => exact absurd hsplit (List.splitOn_ne_nil sep xs)
        | cons head pieces =>
            rw [hsplit, List.modifyHead_cons] at h
            rw [hsplit] at ih
            rcases List.mem_cons.mp h with rfl | h
            · rintro hmem
              rcases List.mem_cons.mp hmem with rfl | hmem
              · exact hne rfl
              · exact ih List.mem_cons_self hmem
            · exact ih (List.mem_cons_of_mem head h)

theorem splitOn_records {records : List (List α)} (h : ∀ r ∈ records, sep ∉ r) :
    (records.flatMap (· ++ [sep])).splitOn sep = records ++ [[]] := by
  induction records with
  | nil => exact List.splitOn_nil sep
  | cons r records ih =>
      obtain ⟨hr, hrest⟩ := List.forall_mem_cons.mp h
      rw [List.flatMap_cons, List.append_assoc, List.singleton_append,
        List.splitOn_append_cons_self_of_not_mem hr, ih hrest, List.cons_append]

/-- The records are read back exactly when none of them holds a separator. -/
theorem splitOn_records_iff {records : List (List α)} :
    (records.flatMap (· ++ [sep])).splitOn sep = records ++ [[]] ↔ ∀ r ∈ records, sep ∉ r := by
  refine ⟨fun h r hr => ?_, splitOn_records⟩
  have hpiece : r ∈ (records.flatMap (· ++ [sep])).splitOn sep := by
    rw [h]
    exact List.mem_append_left _ hr
  exact notMem_of_mem_splitOn hpiece

end KalshiAutotrader.Kit
