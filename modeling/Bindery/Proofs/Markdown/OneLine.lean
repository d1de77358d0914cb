import Bindery.Proofs.Latex.CodeEscape
import Bindery.Proofs.Markdown.Fences
import Bindery.Proofs.Text.Split

namespace Bindery.Markdown

open Latex Text

/-! Every line written for a block stays on one line, so the lines can be told apart in the text:
but for the space behind an item command, white space gets into a line only from its source. -/

def IsOneLine (text : List Char) : Prop :=
  '\n' ∉ text

theorem HeadingLevel.any_isBlank_command (mode : HeadingMode) (level : HeadingLevel) :
    (level.command mode).toList.any isBlank = false := by
  cases level <;> cases mode <;> decide

section Blank

variable {c : Char} (hc : isBlank c = true)

include hc

theorem isBlank_mem_escapeCode {code : List Char} (hmem : c ∈ escapeCode code) : c ∈ code := by
  refine mem_of_mem_escapeCode (fun hwritten => ?_) hmem
  have hvisible : (codeReserved.flatMap escapeCodeChar).any isBlank = false := by decide
  exact List.any_eq_false.1 hvisible c hwritten hc

theorem not_mem_of_any_isBlank {text : List Char} (htext : text.any isBlank = false) : c ∉ text :=
  fun hmem => List.any_eq_false.1 htext c hmem hc

theorem isBlank_mem_listingBegin {tag : List Char} (hmem : c ∈ listingBegin tag) : c ∈ tag := by
  have hlanguage : c ∈ if tag.isEmpty then defaultLanguage else tag := by
    have hopening : c ∉ listingOpening := not_mem_of_any_isBlank hc (by decide)
    have hclosing : c ∉ [']'] := not_mem_of_any_isBlank hc (by decide)
    rcases List.mem_append.1 hmem with hmem | hmem
    · exact (List.mem_append.1 hmem).resolve_left hopening
    · exact absurd hmem hclosing
  split at hlanguage
  · exact absurd hlanguage (not_mem_of_any_isBlank hc (by decide))
  · exact hlanguage

theorem isBlank_mem_listing {mode : HeadingMode} {tag : List Char} {code : List (List Char)}
    {written : Line} (hwritten : written ∈ (Block.listing tag code).lines mode)
    (hmem : c ∈ written.content) : c ∈ tag ∨ ∃ line ∈ code, c ∈ line := by
  simp only [Block.lines, List.mem_append, List.mem_cons, List.mem_map, List.not_mem_nil, or_false]
    at hwritten
  rcases hwritten with ((rfl | rfl) | ⟨line, hline, rfl⟩) | rfl | rfl
  · contradiction
  · exact .inl (isBlank_mem_listingBegin hc hmem)
  · exact .inr ⟨line, hline, isBlank_mem_escapeCode hc hmem⟩
  · exact absurd hmem (not_mem_of_any_isBlank hc (by decide))
  · contradiction

variable (hspace : c ≠ ' ')

include hspace

theorem isBlank_mem_ofLine {mode : HeadingMode} {line : List Char} {written : Line}
    (hwritten : written ∈ (Block.ofLine line).lines mode) (hmem : c ∈ written.content) :
    c ∈ line := by
  unfold Block.ofLine at hwritten
  cases hheading : heading? line with
  | some heading =>
      rw [hheading] at hwritten
      obtain rfl := List.mem_singleton.1 hwritten
      have hname := HeadingLevel.any_isBlank_command mode heading.1
      have htitle := isBlank_mem_inlineLatex hc (isBlank_mem_command hc hname hmem)
      exact (heading?_some hheading).subset htitle
  | none =>
      rw [hheading] at hwritten
      cases hrule : isRule line with
      | true =>
          simp only [hrule, if_true, Block.lines, List.mem_cons, List.not_mem_nil, or_false]
            at hwritten
          rcases hwritten with rfl | rfl
          · exact absurd hmem (not_mem_of_any_isBlank hc (by decide))
          · contradiction
      | false =>
          simp only [hrule, Bool.false_eq_true, if_false] at hwritten
          cases hitem : item? line with
          | some item =>
              rw [hitem] at hwritten
              obtain rfl := List.mem_singleton.1 hwritten
              obtain ⟨-, hindent, htext⟩ := item?_some hitem
              have hcommand : c ∉ "\\item".toList := not_mem_of_any_isBlank hc (by decide)
              have hname : c ∉ "\\item ".toList := by simpa [hspace] using hcommand
              rcases List.mem_append.1 hmem with hmem | hmem
              · exact hindent.subset ((List.mem_append.1 hmem).resolve_right hname)
              · exact htext.subset (isBlank_mem_inlineLatex hc hmem)
          | none =>
              rw [hitem] at hwritten
              obtain rfl := List.mem_singleton.1 hwritten
              exact isBlank_mem_inlineLatex hc hmem

theorem isBlank_mem_ofLines {mode : HeadingMode} {lines : List (List Char)} {written : Line}
    (hwritten : written ∈ (Block.ofLines lines).flatMap (Block.lines mode))
    (hmem : c ∈ written.content) : ∃ line ∈ lines, c ∈ line := by
  unfold Block.ofLines at hwritten
  induction lines using Pattern.induction listingPattern with
  | nil => simp at hwritten
  | found line lines block rest hfound ih =>
      obtain ⟨tag, code⟩ := block
      obtain ⟨hopening, -, closing, -, rfl⟩ := listingPattern_some hfound
      rw [Pattern.replace_cons_some hfound, List.flatMap_cons] at hwritten
      rcases List.mem_append.1 hwritten with hwritten | hwritten
      · obtain hmem | ⟨later, hlater, hmem⟩ := isBlank_mem_listing hc hwritten hmem
        · exact ⟨line, List.mem_cons_self, hopening.tag.2 hmem⟩
        · exact ⟨later, by simp [hlater], hmem⟩
      · obtain ⟨later, hlater, hmem⟩ := ih hwritten
        exact ⟨later, by simp [hlater], hmem⟩
  | kept line lines hnone ih =>
      rw [Pattern.replace_cons_none hnone, List.flatMap_cons] at hwritten
      rcases List.mem_append.1 hwritten with hwritten | hwritten
      · exact ⟨line, List.mem_cons_self, isBlank_mem_ofLine hc hspace hwritten hmem⟩
      · obtain ⟨later, hlater, hmem⟩ := ih hwritten
        exact ⟨later, List.mem_cons_of_mem _ hlater, hmem⟩

omit hspace in
theorem isBlank_mem_itemizeFrom {lines : List Line} {inside : Bool} {written : List Char}
    (hwritten : written ∈ itemizeFrom inside lines) (hmem : c ∈ written) :
    ∃ line ∈ lines, c ∈ line.content := by
  have hbegin : c ∉ listBegin := not_mem_of_any_isBlank hc (by decide)
  have hend : c ∉ listEnd := not_mem_of_any_isBlank hc (by decide)
  have hmarks : written ≠ listBegin ∧ written ≠ listEnd :=
    ⟨fun hsame => hbegin (hsame ▸ hmem), fun hsame => hend (hsame ▸ hmem)⟩
  induction lines generalizing inside with
  | nil => cases inside <;> simp_all [itemizeFrom]
  | cons line lines ih =>
      have hline : written = line.content ∨ ∃ later, written ∈ itemizeFrom later lines := by
        cases line <;> cases inside <;>
          simp only [itemizeFrom, List.mem_cons, hmarks.1, hmarks.2, false_or] at hwritten <;>
          exact hwritten.imp_right fun hrest => ⟨_, hrest⟩
      rcases hline with rfl | ⟨later, hrest⟩
      · exact ⟨line, List.mem_cons_self, hmem⟩
      · obtain ⟨later, hlater, hmem⟩ := ih hrest
        exact ⟨later, List.mem_cons_of_mem _ hlater, hmem⟩

/-- White space other than the space comes into the lines from the text without comments. -/
theorem isBlank_mem_itemize {mode : HeadingMode} {markdown written : List Char}
    (hwritten : written ∈ itemize (fragmentLines mode markdown)) (hmem : c ∈ written) :
    ∃ line ∈ sourceLines markdown, c ∈ line := by
  obtain ⟨line, hline, hmem⟩ := isBlank_mem_itemizeFrom hc hwritten hmem
  exact isBlank_mem_ofLines hc hspace hline hmem

end Blank

/-! The text of a fragment, cut at its line feeds, has the outline of its fenced blocks. -/

theorem Block.lines_ne_nil (mode : HeadingMode) (block : Block) : block.lines mode ≠ [] := by
  cases block <;> simp [Block.lines]

theorem fragmentLines_ne_nil (mode : HeadingMode) (markdown : List Char) :
    fragmentLines mode markdown ≠ [] := by
  unfold fragmentLines Block.ofLines
  cases hlines : sourceLines markdown with
  | nil => exact absurd hlines (List.splitOn_ne_nil _ _)
  | cons line lines =>
      cases hfound : listingPattern.find? (line :: lines) with
      | none =>
          rw [Pattern.replace_cons_none hfound, List.flatMap_cons]
          exact List.append_ne_nil_of_left_ne_nil (Block.lines_ne_nil mode _) _
      | some found =>
          rw [Pattern.replace_cons_some hfound, List.flatMap_cons]
          exact List.append_ne_nil_of_left_ne_nil (Block.lines_ne_nil mode _) _

theorem itemize_ne_nil {lines : List Line} (hlines : lines ≠ []) : itemize lines ≠ [] := by
  cases lines with
  | nil => contradiction
  | cons line lines => cases line <;> simp [itemize, itemizeFrom]

theorem isOneLine_itemize (mode : HeadingMode) (markdown : List Char) :
    ∀ written ∈ itemize (fragmentLines mode markdown), IsOneLine written := by
  intro written hwritten hmem
  obtain ⟨line, hline, hmem⟩ := isBlank_mem_itemize (by decide) (by decide) hwritten hmem
  exact not_mem_of_mem_splitOn hline hmem

theorem splitOn_fragmentLatex (mode : HeadingMode) (markdown : List Char) :
    (fragmentLatex mode markdown).splitOn '\n' = itemize (fragmentLines mode markdown) :=
  List.splitOn_intercalate '\n' (isOneLine_itemize mode markdown)
    (itemize_ne_nil (fragmentLines_ne_nil mode markdown))

theorem outline_fragmentLatex (mode : HeadingMode) (markdown : List Char) :
    ∃ listings, FencedBlocks (sourceLines markdown) listings ∧
      Outline ((fragmentLatex mode markdown).splitOn '\n') listings := by
  obtain ⟨listings, hfenced, hsequence⟩ := sequence_ofLines mode (sourceLines markdown)
  rw [splitOn_fragmentLatex]
  exact ⟨listings, hfenced, (outline_itemizeFrom hsequence).1⟩

end Bindery.Markdown
