namespace Bindery.Text

/-! Texts cut at a character. -/

theorem not_mem_of_mem_splitOn {c : Char} {text line : List Char} (hline : line ∈ text.splitOn c) :
    c ∉ line := by
  induction text generalizing line with
  | nil => simp_all
  | cons d text ih =>
      rw [List.splitOn_cons_eq_if_modifyHead] at hline
      split at hline
      · rcases List.mem_cons.1 hline with rfl | hline
        · exact List.not_mem_nil
        · exact ih hline
      · rename_i hd
        cases hsplit : text.splitOn c with
        | nil => exact absurd hsplit (List.splitOn_ne_nil c text)
        | cons first rest =>
            rw [hsplit, List.modifyHead_cons] at hline
            rw [hsplit] at ih
            rcases List.mem_cons.1 hline with rfl | hline
            · have hfirst : c ∉ first := ih List.mem_cons_self
              have hne : c ≠ d := by
                rintro rfl
                simp at hd
              exact List.not_mem_cons_of_ne_of_not_mem hne hfirst
            · exact ih (List.mem_cons_of_mem _ hline)

theorem subset_intercalate {separator part : List α} {parts : List (List α)}
    (hpart : part ∈ parts) : part ⊆ separator.intercalate parts := by
  induction parts with
  | nil => contradiction
  | cons first parts ih =>
      cases parts with
      | nil =>
          rw [List.mem_singleton.1 hpart, List.intercalate_singleton]
          exact List.Subset.refl first
      | cons next parts =>
          rw [List.intercalate_cons_cons]
          rcases List.mem_cons.1 hpart with rfl | hpart
          · rw [List.append_assoc]
            exact List.subset_append_left _ _
          · exact List.Subset.trans (ih hpart) (List.subset_append_right _ _)

theorem mem_of_mem_intercalate {a : α} {separator : List α} {parts : List (List α)}
    (ha : a ∈ separator.intercalate parts) : a ∈ separator ∨ ∃ part ∈ parts, a ∈ part := by
  induction parts with
  | nil => contradiction
  | cons first parts ih =>
      cases parts with
      | nil =>
          rw [List.intercalate_singleton] at ha
          exact .inr ⟨first, List.mem_cons_self, ha⟩
      | cons next parts =>
          rw [List.intercalate_cons_cons, List.mem_append, List.mem_append] at ha
          rcases ha with (hfirst | hseparator) | hrest
          · exact .inr ⟨first, List.mem_cons_self, hfirst⟩
          · exact .inl hseparator
          · exact (ih hrest).imp_right fun ⟨part, hpart, hmem⟩ =>
              ⟨part, List.mem_cons_of_mem _ hpart, hmem⟩

theorem subset_of_mem_splitOn {c : Char} {text line : List Char} (hline : line ∈ text.splitOn c) :
    line ⊆ text := by
  have hwithin : line ⊆ [c].intercalate (text.splitOn c) := subset_intercalate hline
  rwa [List.intercalate_splitOn] at hwithin

end Bindery.Text
