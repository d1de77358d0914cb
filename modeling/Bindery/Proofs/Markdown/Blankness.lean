import Bindery.Proofs.Latex.Composition
import Bindery.Proofs.Markdown.Fences
import Bindery.Proofs.Markdown.LineEnds
import Bindery.Proofs.Markdown.Runs

namespace Bindery.Markdown

open Latex Text

/-! Fragments that show nothing. What is converted is white space exactly when nothing but white
space is left of the fragment without its comments. -/

def IsBlankText (text : List Char) : Prop :=
  ∀ c ∈ text, isBlank c = true

instance (text : List Char) : Decidable (IsBlankText text) :=
  List.decidableBAll (isBlank · = true) text

theorem isBlankText_singleton {c : Char} : IsBlankText [c] ↔ isBlank c = true :=
  List.forall_mem_singleton

theorem isBlankText_append {front behind : List Char} :
    IsBlankText (front ++ behind) ↔ IsBlankText front ∧ IsBlankText behind :=
  List.forall_mem_append

theorem isBlankText_flatMap {α : Type} {write : α → List Char} {pieces : List α} :
    IsBlankText (pieces.flatMap write) ↔ ∀ piece ∈ pieces, IsBlankText (write piece) := by
  simp only [IsBlankText, List.mem_flatMap]
  exact ⟨fun hall piece hpiece c hc => hall c ⟨piece, hpiece, hc⟩,
    fun hall c ⟨piece, hpiece, hc⟩ => hall piece hpiece c hc⟩

theorem not_isBlankText {c : Char} {text : List Char} (hmem : c ∈ text)
    (hc : isBlank c = false) : ¬ IsBlankText text := by
  intro hblank
  rw [hblank c hmem] at hc
  contradiction

theorem not_isBlankText_cons {c : Char} (hc : isBlank c = false) (text : List Char) :
    ¬ IsBlankText (c :: text) :=
  not_isBlankText List.mem_cons_self hc

theorem not_isBlankText_command (name : String) (argument : List Char) :
    ¬ IsBlankText (command name argument) :=
  not_isBlankText_cons (by decide) _

/-! Running text. -/

theorem isBlankText_escapeChar {c : Char} : IsBlankText (escapeChar c) ↔ isBlank c = true := by
  cases hreserved : isReserved c with
  | true =>
      rw [isReserved_eq_true] at hreserved
      have hvisible : reservedChars.any isBlank = false := by decide
      have hwritten : reservedChars.any (fun c => (escapeChar c).all isBlank) = false := by decide
      refine iff_of_false (fun hblank => ?_) (List.any_eq_false.1 hvisible c hreserved)
      exact List.any_eq_false.1 hwritten c hreserved (List.all_eq_true.2 hblank)
  | false =>
      rw [escapeChar_of_not_isReserved hreserved]
      exact isBlankText_singleton

theorem Span.isBlankText_latex (span : Span) :
    IsBlankText span.latex ↔ IsBlankText span.markdown := by
  cases span with
  | char c =>
      rw [latex_char, isBlankText_escapeChar, Span.markdown, isBlankText_singleton]
  | code body =>
      exact iff_of_false (not_isBlankText_command _ _) (not_isBlankText_cons (by decide) _)
  | link label url =>
      rw [Span.latex]
      exact iff_of_false (not_isBlankText_cons (by decide) _) (not_isBlankText_cons (by decide) _)
  | styled style body =>
      rw [Span.latex, Span.markdown]
      cases style <;>
        exact iff_of_false (not_isBlankText_command _ _) (not_isBlankText_cons (by decide) _)

theorem isBlankText_inlineLatex (text : List Char) :
    IsBlankText (inlineLatex text) ↔ IsBlankText text := by
  have hlatex : IsBlankText (inlineLatex text) ↔
      IsBlankText (Span.allMarkdown (Span.ofText text)) := by
    rw [inlineLatex_eq, Span.allLatex_eq_flatMap, Span.allMarkdown_eq_flatMap,
      isBlankText_flatMap, isBlankText_flatMap]
    simp only [Span.isBlankText_latex]
  rwa [Span.allMarkdown_ofText] at hlatex

/-! The lines of a block. -/

def Line.IsBlank (line : Line) : Prop :=
  line.isItem = false ∧ IsBlankText line.content

theorem not_isBlank_of_mem {lines : List Line} {line : Line} (hline : line ∈ lines)
    (hcontent : ¬ IsBlankText line.content) : ¬ ∀ written ∈ lines, written.IsBlank :=
  fun hblank => hcontent (hblank line hline).2

theorem Block.isBlank_ofLine (mode : HeadingMode) (line : List Char) :
    (∀ written ∈ (Block.ofLine line).lines mode, written.IsBlank) ↔ IsBlankText line := by
  unfold Block.ofLine
  cases hheading : heading? line with
  | some heading =>
      obtain ⟨depth, -, hshape⟩ := heading?_eq_some.1 hheading
      have hmark : '#' ∈ line := List.mem_of_head? hshape.head?
      exact iff_of_false (not_isBlank_of_mem List.mem_cons_self (not_isBlankText_command _ _))
        (not_isBlankText hmark (by decide))
  | none =>
      cases hrule : isRule line with
      | true =>
          obtain ⟨count, hcount, rfl⟩ := isRule_eq_true.1 hrule
          have hmark : '-' ∈ List.replicate count '-' :=
            List.mem_replicate.2 ⟨by omega, rfl⟩
          exact iff_of_false
            (not_isBlank_of_mem List.mem_cons_self (not_isBlankText_cons (by decide) _))
            (not_isBlankText hmark (by decide))
      | false =>
          cases hitem : item? line with
          | some item =>
              obtain ⟨-, -, marker, hmarker, rfl⟩ := item?_eq_some.1 hitem
              have hmarkers : ['-', '*'].any isBlank = false := by decide
              have hvisible : isBlank marker = false :=
                Bool.eq_false_iff.2 (List.any_eq_false.1 hmarkers marker hmarker)
              refine iff_of_false (fun hblank => ?_) (not_isBlankText (by simp) hvisible)
              exact Bool.noConfusion (hblank _ List.mem_cons_self).1
          | none =>
              rw [← isBlankText_inlineLatex line]
              exact List.forall_mem_singleton.trans (and_iff_right rfl)

theorem Block.not_isBlank_listing (mode : HeadingMode) (tag : List Char)
    (code : List (List Char)) :
    ¬ ∀ written ∈ (Block.listing tag code).lines mode, written.IsBlank := by
  have hbegin : .text (listingBegin tag) ∈ (Block.listing tag code).lines mode := by
    simp [Block.lines]
  exact not_isBlank_of_mem hbegin (not_isBlankText_cons (by decide) _)

theorem IsOpening.not_isBlankText {line tag : List Char} (hopening : IsOpening tag line) :
    ¬ IsBlankText line := by
  obtain ⟨before, after, rfl, -⟩ := hopening
  exact Markdown.not_isBlankText (c := '\x60') (by simp [fence]) (by decide)

theorem Block.isBlank_ofLines (mode : HeadingMode) (lines : List (List Char)) :
    (∀ written ∈ (Block.ofLines lines).flatMap (Block.lines mode), written.IsBlank) ↔
      ∀ line ∈ lines, IsBlankText line := by
  unfold Block.ofLines
  induction lines using Pattern.induction listingPattern with
  | nil =>
      rw [Pattern.replace_nil]
      exact iff_of_true (List.forall_mem_nil _) (List.forall_mem_nil _)
  | found line lines block rest hfound ih =>
      obtain ⟨hopening, -⟩ := listingPattern_some hfound
      rw [Pattern.replace_cons_some hfound, List.flatMap_cons, List.forall_mem_append,
        List.forall_mem_cons]
      exact iff_of_false (fun hblank => Block.not_isBlank_listing _ _ _ hblank.1)
        fun hblank => hopening.not_isBlankText hblank.1
  | kept line lines hnone ih =>
      rw [Pattern.replace_cons_none hnone, List.flatMap_cons, List.forall_mem_append,
        List.forall_mem_cons, Block.isBlank_ofLine, ih]

/-! The text of a fragment. -/

/-- A list shows by its border, even one of blank items. -/
theorem isBlank_itemizeFrom (lines : List Line) :
    (∀ written ∈ itemizeFrom false lines, IsBlankText written) ↔
      ∀ line ∈ lines, line.IsBlank := by
  induction lines with
  | nil => exact iff_of_true (List.forall_mem_nil _) (List.forall_mem_nil _)
  | cons line lines ih =>
      rw [itemizeFrom_cons, List.forall_mem_cons, Line.IsBlank]
      cases hitem : line.isItem with
      | true =>
          have hbegin : ¬ IsBlankText listBegin := not_isBlankText_cons (by decide) _
          refine iff_of_false (fun hblank => ?_) fun hblank => Bool.noConfusion hblank.1.1
          exact hbegin (hblank _ List.mem_cons_self)
      | false =>
          rw [listBorder_self, List.nil_append, List.forall_mem_cons, ih, and_iff_right rfl]

theorem isBlankText_intercalate {separator : List Char} (hseparator : IsBlankText separator)
    {parts : List (List Char)} :
    IsBlankText (separator.intercalate parts) ↔ ∀ part ∈ parts, IsBlankText part := by
  constructor
  · exact fun hblank part hpart c hc => hblank c (subset_intercalate hpart hc)
  · intro hparts c hc
    obtain hc | ⟨part, hpart, hc⟩ := mem_of_mem_intercalate hc
    · exact hseparator c hc
    · exact hparts part hpart c hc

/-- A fragment is converted to white space exactly when nothing else stands between its comments. -/
theorem isBlankText_fragmentLatex (mode : HeadingMode) (markdown : List Char) :
    IsBlankText (fragmentLatex mode markdown) ↔
      IsBlankText (stripComments (unifyLineEnds markdown)) := by
  have hfeed : IsBlankText ['\n'] := by decide
  rw [fragmentLatex, isBlankText_intercalate hfeed, itemize, isBlank_itemizeFrom, fragmentLines,
    Block.isBlank_ofLines, ← isBlankText_intercalate hfeed, sourceLines, List.intercalate_splitOn]

end Bindery.Markdown
