import Bindery.Proofs.Markdown.SourceTree
import Bindery.Text.Classes

namespace Bindery.Markdown

open Latex Text

/-! What printed text can begin with and which blanks it can hold. Escaping and the commands for
code, links and emphasis begin with a few letters only and write no white space of their own. -/

/-- Behind white space the line begins with a command of this first letter. -/
def Opens (c : Char) (line : List Char) : Prop :=
  ∃ rest, trimStart line = '\\' :: c :: rest

theorem opens_cons_of_isBlank {b c : Char} {line : List Char} (hblank : isBlank b = true) :
    Opens c (b :: line) ↔ Opens c line := by
  simp [Opens, trimStart, hblank]

theorem not_opens_cons {b c : Char} {line : List Char} (hblank : isBlank b = false)
    (hb : b ≠ '\\') : ¬ Opens c (b :: line) := by
  rintro ⟨rest, htrim⟩
  simp only [trimStart, List.dropWhile_cons, hblank] at htrim
  exact hb (List.cons.inj htrim).1

theorem opens_backslash {c d : Char} {line : List Char} (hopens : Opens c ('\\' :: d :: line)) :
    c = d := by
  obtain ⟨rest, htrim⟩ := hopens
  have hblank : isBlank '\\' = false := by decide
  simp only [trimStart, List.dropWhile_cons, hblank] at htrim
  exact (List.cons.inj (List.cons.inj htrim).2).1.symm

theorem not_opens_nil (c : Char) : ¬ Opens c [] := by
  rintro ⟨rest, htrim⟩
  contradiction

/-- What stands behind the backslash in an escape sequence or in a command of running text. -/
def textInitials : List Char :=
  ['t', 'h', '&', '%', '$', '#', '_', '\x7b', '\x7d']

theorem escapeChar_cases (c : Char) :
    (escapeChar c = [c] ∧ c ≠ '\\') ∨
      ∃ d rest, escapeChar c = '\\' :: d :: rest ∧ d ∈ textInitials ∧
        (escapeChar c).any isBlank = false := by
  cases hreserved : isReserved c with
  | true =>
      simp only [isReserved, List.mem_cons, List.not_mem_nil, or_false, decide_eq_true_eq]
        at hreserved
      right
      rcases hreserved with rfl | rfl | rfl | rfl | rfl | rfl | rfl | rfl | rfl | rfl <;>
        exact ⟨_, _, rfl, by decide, by decide⟩
  | false =>
      refine .inl ⟨escapeChar_of_not_isReserved hreserved, ?_⟩
      rintro rfl
      contradiction

theorem isBlank_mem_escape {c : Char} (hc : isBlank c = true) {text : List Char} :
    c ∈ escape text → c ∈ text := by
  intro hmem
  obtain ⟨d, hd, hdc⟩ := List.mem_flatMap.1 hmem
  rcases escapeChar_cases d with ⟨hsame, _⟩ | ⟨_, _, _, _, hblank⟩
  · rw [hsame, List.mem_singleton] at hdc
    rwa [hdc]
  · exact absurd hc (List.any_eq_false.1 hblank c hdc)

theorem isBlank_mem_command {c : Char} (hc : isBlank c = true) {name : String} {body : List Char}
    (hname : name.toList.any isBlank = false) : c ∈ command name body → c ∈ body := by
  intro hmem
  simp only [command, group, List.cons_append, List.mem_cons, List.mem_append, List.not_mem_nil,
    or_false] at hmem
  rcases hmem with rfl | hmem | rfl | hmem | rfl
  · exact absurd hc (by decide)
  · exact absurd hc (List.any_eq_false.1 hname c hmem)
  · exact absurd hc (by decide)
  · exact hmem
  · exact absurd hc (by decide)

theorem isBlank_mem_codeLatex {c : Char} (hc : isBlank c = true) {body : List Char}
    (hmem : c ∈ codeLatex body) : c ∈ body :=
  isBlank_mem_escape hc (isBlank_mem_command hc (by decide) hmem)

theorem Piece.isBlank_mem_urlLatex {c : Char} (hc : isBlank c = true) {piece : Piece}
    (hmem : c ∈ piece.urlLatex) : c ∈ piece.markdown := by
  cases piece with
  | char d => exact hmem
  | code body => simp [Piece.markdown, isBlank_mem_codeLatex hc hmem]

theorem Style.isBlank_mem_latex {c : Char} (hc : isBlank c = true) {style : Style}
    {body : List Char} (hmem : c ∈ style.latex body) : c ∈ body := by
  cases style with
  | boldItalic =>
      exact isBlank_mem_command hc (by decide) (isBlank_mem_command hc (by decide) hmem)
  | bold | star | underscore => exact isBlank_mem_command hc (by decide) hmem

mutual
theorem Span.isBlank_mem_latex {c : Char} (hc : isBlank c = true) :
    ∀ span : Span, c ∈ span.latex → c ∈ span.markdown
  | .char d, hmem => by
      have hone : c ∈ escape [d] := by simpa [Span.latex] using hmem
      simpa [Span.markdown] using isBlank_mem_escape hc hone
  | .code body, hmem => by
      rw [Span.latex] at hmem
      simp [Span.markdown, isBlank_mem_codeLatex hc hmem]
  | .link label url, hmem => by
      rw [Span.latex, List.mem_append] at hmem
      rw [Span.markdown]
      rcases hmem with hurl | hlabel
      · obtain ⟨piece, hpiece, hchar⟩ :=
          List.mem_flatMap.1 (isBlank_mem_command hc (by decide) hurl)
        have hwritten : c ∈ url.flatMap Piece.markdown :=
          List.mem_flatMap.2 ⟨piece, hpiece, Piece.isBlank_mem_urlLatex hc hchar⟩
        simp [hwritten]
      · have hinner : c ∈ Span.allLatex label := by
          simp only [group, List.cons_append, List.mem_cons, List.mem_append, List.not_mem_nil,
            or_false] at hlabel
          rcases hlabel with rfl | hlabel | rfl
          · exact absurd hc (by decide)
          · exact hlabel
          · exact absurd hc (by decide)
        simp [Span.isBlank_mem_allLatex hc label hinner]
  | .styled style body, hmem => by
      rw [Span.latex] at hmem
      simp [Span.markdown, Span.isBlank_mem_allLatex hc body (Style.isBlank_mem_latex hc hmem)]

theorem Span.isBlank_mem_allLatex {c : Char} (hc : isBlank c = true) :
    ∀ spans : List Span, c ∈ Span.allLatex spans → c ∈ Span.allMarkdown spans
  | [], hmem => by simp at hmem
  | span :: spans, hmem => by
      rw [Span.allLatex_cons, List.mem_append] at hmem
      rw [Span.allMarkdown, List.mem_append]
      exact hmem.imp (Span.isBlank_mem_latex hc span) (Span.isBlank_mem_allLatex hc spans)
end

/-- Running text prints no white space that does not stand in it. -/
theorem isBlank_mem_inlineLatex {c : Char} (hc : isBlank c = true) {text : List Char}
    (hmem : c ∈ inlineLatex text) : c ∈ text := by
  rw [inlineLatex_eq] at hmem
  rw [← Span.allMarkdown_ofText text]
  exact Span.isBlank_mem_allLatex hc _ hmem

theorem Span.opens_allLatex {c : Char} {spans : List Span}
    (hopens : Opens c (Span.allLatex spans)) : c ∈ textInitials := by
  induction spans with
  | nil => exact absurd hopens (not_opens_nil c)
  | cons span spans ih =>
      rw [Span.allLatex_cons] at hopens
      cases span with
      | char d =>
          rw [Span.latex_char] at hopens
          rcases escapeChar_cases d with ⟨hsame, hd⟩ | ⟨e, rest, hescaped, he, _⟩
          · rw [hsame] at hopens
            cases hblank : isBlank d with
            | true => exact ih ((opens_cons_of_isBlank hblank).1 hopens)
            | false => exact absurd hopens (not_opens_cons hblank hd)
          · rw [hescaped] at hopens
            rwa [opens_backslash hopens]
      | code body =>
          obtain rfl := opens_backslash hopens
          decide
      | link label url =>
          rw [Span.latex] at hopens
          obtain rfl := opens_backslash hopens
          decide
      | styled style body =>
          rw [Span.latex] at hopens
          cases style <;> obtain rfl := opens_backslash hopens <;> decide

theorem opens_inlineLatex {c : Char} {text : List Char} (hopens : Opens c (inlineLatex text)) :
    c ∈ textInitials := by
  rw [inlineLatex_eq] at hopens
  exact Span.opens_allLatex hopens

end Bindery.Markdown
