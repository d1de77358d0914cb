import Bindery.Proofs.Markdown.Comments
import Bindery.Proofs.Markdown.OneLine

namespace Bindery.Markdown

open Text

/-! Line ends in two spellings. A text whose line feeds are partly written with a carriage return in
front is converted like the text without any. -/

/-- The text again, with a carriage return put in front of some of its line feeds. -/
inductive AddsReturns : List Char → List Char → Prop
  | nil : AddsReturns [] []
  | same (c : Char) {text later : List Char} (hrest : AddsReturns text later) :
      AddsReturns (c :: text) (c :: later)
  | feed {text later : List Char} (hrest : AddsReturns text later) :
      AddsReturns ('\n' :: text) ('\r' :: '\n' :: later)

theorem AddsReturns.refl (text : List Char) : AddsReturns text text := by
  induction text with
  | nil => exact .nil
  | cons c text ih => exact .same c ih

theorem AddsReturns.unifyLineEnds {text later : List Char} (hadds : AddsReturns text later)
    (htext : '\r' ∉ text) : unifyLineEnds later = text := by
  induction hadds with
  | nil => rfl
  | same c _ ih =>
      obtain ⟨hc, hrest⟩ := List.ne_and_not_mem_of_not_mem_cons htext
      have hkept := unifyLineEnds_marks (mt List.mem_singleton.1 hc)
      exact (hkept _).trans (congrArg (c :: ·) (ih hrest))
  | feed _ ih =>
      rw [Markdown.unifyLineEnds, ih fun hmem => htext (List.mem_cons_of_mem _ hmem)]

/-- Taking comments out adds nothing. -/
theorem stripComments_subset (text : List Char) : stripComments text ⊆ text := by
  induction text using Pattern.induction commentPattern with
  | nil => simp
  | found c text found rest hfound ih =>
      obtain ⟨body, htext, hend⟩ := findComment?_iff.1 hfound
      obtain ⟨inner, rfl, -⟩ := afterCommentEnd?_sound hend
      have hrest : rest <:+ c :: text :=
        htext ▸ ⟨commentStart ++ (inner ++ commentEnd), by simp only [List.append_assoc]⟩
      rw [stripComments_found hfound]
      exact List.Subset.trans ih hrest.subset
  | kept c text hnone ih =>
      rw [stripComments_kept hnone]
      exact List.cons_subset_cons c ih

theorem return_not_mem_fragmentLatex (mode : HeadingMode) {markdown : List Char}
    (hunified : '\r' ∉ unifyLineEnds markdown) : '\r' ∉ fragmentLatex mode markdown := by
  intro hmem
  obtain hfeed | ⟨written, hwritten, hmem⟩ := mem_of_mem_intercalate hmem
  · exact absurd hfeed (by decide)
  · obtain ⟨line, hline, hmem⟩ := isBlank_mem_itemize (by decide) (by decide) hwritten hmem
    exact hunified (stripComments_subset _ (subset_of_mem_splitOn hline hmem))

/-- How the line feeds of a text are spelled does not show in its LaTeX, which has no carriage
return. -/
theorem fragmentLatex_addsReturns (mode : HeadingMode) {text later : List Char}
    (htext : '\r' ∉ text) (hlater : AddsReturns text later) :
    fragmentLatex mode later = fragmentLatex mode text ∧ '\r' ∉ fragmentLatex mode later := by
  have hunified := hlater.unifyLineEnds htext
  have hlines : sourceLines later = sourceLines text := by
    rw [sourceLines, sourceLines, hunified, (AddsReturns.refl text).unifyLineEnds htext]
  constructor
  · rw [fragmentLatex, fragmentLatex, fragmentLines, fragmentLines, hlines]
  · exact return_not_mem_fragmentLatex mode (hunified.symm ▸ htext)

/-- In a comment, at both ends of a fenced block and behind a rule, but not in the code. -/
theorem fragmentLatex_addsReturns_mixed :
    let text := "<!--\n-->\n```\na\n b\n```\n---\n- c\n".toList
    let later := "<!--\r\n-->\n```\r\na\n b\n```\r\n---\r\n- c\n".toList
    '\r' ∉ text ∧ AddsReturns text later ∧
      fragmentLatex .numbered later = fragmentLatex .numbered text ∧
        '\r' ∉ fragmentLatex .numbered later := by
  intro text later
  have htext : '\r' ∉ text := by decide
  have hlater : AddsReturns text later := by repeat constructor
  exact ⟨htext, hlater, fragmentLatex_addsReturns .numbered htext hlater⟩

end Bindery.Markdown
