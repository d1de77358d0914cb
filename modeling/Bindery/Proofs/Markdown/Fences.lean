import Bindery.Proofs.Markdown.Outline
import Bindery.Proofs.Markdown.Stretches

namespace Bindery.Markdown

open Latex Text

/-! The closed fenced blocks of a source, and the lines that its blocks are written as. -/

/-- The listing of a fence with this tag. Code without a tag is in the language `text`. -/
def Listing.ofFence (tag : List Char) (code : List (List Char)) : Listing :=
  ⟨if tag = [] then "text".toList else tag, code⟩

/-- The listings that source lines stand for. A line opens one only if some later line closes it,
and the first such line does. -/
inductive FencedBlocks : List (List Char) → List Listing → Prop
  | nil : FencedBlocks [] []
  | fenced {opening closing tag : List Char} {code lines : List (List Char)}
      {listings : List Listing} (hopening : IsOpening tag opening)
      (hcode : ∀ line ∈ code, ¬ IsClosing line) (hclosing : IsClosing closing)
      (htail : FencedBlocks lines listings) :
      FencedBlocks (opening :: (code ++ closing :: lines)) (.ofFence tag code :: listings)
  | line {line : List Char} {lines : List (List Char)} {listings : List Listing}
      (hline : ∀ tag, IsOpening tag line → ∀ later ∈ lines, ¬ IsClosing later)
      (htail : FencedBlocks lines listings) : FencedBlocks (line :: lines) listings

def Stretch.listing? : Stretch → Option Listing
  | .fenced opening code _ => (fenceLanguage? opening).map (Listing.ofFence · code)
  | .single _ => none

theorem FencedBlocks.exists_isCut {lines : List (List Char)} {listings : List Listing}
    (hfenced : FencedBlocks lines listings) :
    ∃ stretches, IsCut lines stretches ∧ stretches.filterMap Stretch.listing? = listings := by
  induction hfenced with
  | nil => exact ⟨[], .nil, rfl⟩
  | fenced hopening hcode hclosing _ ih =>
      obtain ⟨stretches, hcut, rfl⟩ := ih
      refine ⟨_, .fenced hopening hcode hclosing hcut, ?_⟩
      simp [Stretch.listing?, fenceLanguage?_eq_some.2 hopening]
  | line hline _ ih =>
      obtain ⟨stretches, hcut, rfl⟩ := ih
      exact ⟨_, .single hline hcut, rfl⟩

theorem FencedBlocks.unique {lines : List (List Char)} {first second : List Listing}
    (hfirst : FencedBlocks lines first) (hsecond : FencedBlocks lines second) :
    first = second := by
  obtain ⟨stretches, hcut, rfl⟩ := hfirst.exists_isCut
  obtain ⟨others, hother, rfl⟩ := hsecond.exists_isCut
  rw [hcut.unique hother]

/-! The lines of each block. -/

theorem isPlain_inlineLatex (text : List Char) : IsPlain (inlineLatex text) := by
  intro c hopens hc
  have htext := opens_inlineLatex hopens
  simp only [List.mem_cons, List.not_mem_nil, or_false] at hc
  rcases hc with rfl | rfl | rfl <;> exact absurd htext (by decide)

theorem isPlain_heading (mode : HeadingMode) (level : HeadingLevel) (title : List Char) :
    IsPlain (command (level.command mode) title) := by
  intro c hopens hc
  cases level <;> cases mode <;> obtain rfl := opens_backslash hopens <;>
    exact absurd hc (by decide)

theorem isPlain_rule : IsPlain "\\hrulefill".toList := by
  intro c hopens hc
  obtain rfl := opens_backslash hopens
  exact absurd hc (by decide)

theorem isItemLine_append {indent : List Char} (hindent : ∀ c ∈ indent, isBlank c = true)
    (text : List Char) : isItemLine (indent ++ "\\item ".toList ++ text) = true := by
  have htrim : trimStart (indent ++ "\\item ".toList ++ text) = "\\item ".toList ++ text := by
    rw [List.append_assoc, trimStart, List.dropWhile_append_of_pos hindent]
    rfl
  rw [isItemLine, htrim]
  rfl

theorem heading?_some {line title : List Char} {level : HeadingLevel}
    (hheading : heading? line = some (level, title)) : title <:+ line := by
  obtain ⟨depth, -, -, -, -, rfl⟩ := heading?_eq_some.1 hheading
  exact (List.suffix_cons ' ' title).trans (List.suffix_append _ _)

theorem item?_some {line indent text : List Char} (hitem : item? line = some (indent, text)) :
    (∀ c ∈ indent, isBlank c = true) ∧ indent <+: line ∧ text <:+ line := by
  obtain ⟨hindent, -, marker, -, rfl⟩ := item?_eq_some.1 hitem
  have htext : text <:+ marker :: ' ' :: text := List.suffix_append [marker, ' '] text
  exact ⟨hindent, List.prefix_append _ _, htext.trans (List.suffix_append _ _)⟩

theorem sequence_ofLine (mode : HeadingMode) (line : List Char) {lines : List Line}
    {listings : List Listing} (hlines : Sequence lines listings) :
    Sequence ((Block.ofLine line).lines mode ++ lines) listings := by
  unfold Block.ofLine
  cases heading? line with
  | some heading => exact .text (isPlain_heading mode heading.1 _) hlines
  | none =>
      cases isRule line with
      | true => exact .text isPlain_rule (.text isPlain_nil hlines)
      | false =>
          cases hitem : item? line with
          | some item =>
              obtain ⟨hindent, _⟩ := item?_some hitem
              exact .item (isItemLine_append hindent _) hlines
          | none => exact .text (isPlain_inlineLatex line) hlines

/-! The listings of a block sequence. -/

theorem IsOpening.tag {tag line : List Char} (hopening : IsOpening tag line) :
    (∀ c ∈ tag, isWord c = true) ∧ tag ⊆ line := by
  obtain ⟨before, after, rfl, -, hword, -⟩ := hopening
  exact ⟨hword, fun c hc => by simp [hc]⟩

theorem isLanguage_text : IsLanguage "text".toList :=
  ⟨by decide, List.all_eq_true.1 (by decide)⟩

theorem isLanguage_ofFence {tag : List Char} (htag : ∀ c ∈ tag, isWord c = true)
    (code : List (List Char)) : IsLanguage (Listing.ofFence tag code).language := by
  unfold Listing.ofFence
  split
  · exact isLanguage_text
  · rename_i hsome
    exact ⟨hsome, htag⟩

theorem listingBegin_ofFence (tag : List Char) (code : List (List Char)) :
    listingBegin (Listing.ofFence tag code).language = listingBegin tag := by
  cases tag <;> rfl

theorem Block.lines_listing (mode : HeadingMode) (tag : List Char) (code : List (List Char)) :
    (Block.listing tag code).lines mode =
      .text [] :: ((Listing.ofFence tag code).lines.map .text ++ [.text []]) := by
  simp only [Block.lines, Listing.lines, listingBegin_ofFence]
  simp [Listing.ofFence, listingEnd, Function.comp_def]

theorem sequence_ofLines (mode : HeadingMode) (lines : List (List Char)) :
    ∃ listings, FencedBlocks lines listings ∧
      Sequence ((Block.ofLines lines).flatMap (Block.lines mode)) listings := by
  unfold Block.ofLines
  induction lines using Pattern.induction listingPattern with
  | nil =>
      rw [Pattern.replace_nil]
      exact ⟨[], .nil, .nil⟩
  | found line lines block rest hfound ih =>
      obtain ⟨tag, code⟩ := block
      obtain ⟨listings, hfenced, hsequence⟩ := ih
      obtain ⟨hopening, hcode, closing, hclosing, rfl⟩ := listingPattern_some hfound
      refine ⟨_, .fenced hopening hcode hclosing hfenced, ?_⟩
      rw [Pattern.replace_cons_some hfound, List.flatMap_cons, Block.lines_listing]
      have hlanguage := isLanguage_ofFence hopening.tag.1 code
      have hbehind := Sequence.listing hlanguage (.text isPlain_nil hsequence)
      simpa using Sequence.text isPlain_nil hbehind
  | kept line lines hnone ih =>
      obtain ⟨listings, hfenced, hsequence⟩ := ih
      refine ⟨listings, .line (listingPattern_none hnone) hfenced, ?_⟩
      rw [Pattern.replace_cons_none hnone, List.flatMap_cons]
      exact sequence_ofLine mode line hsequence

end Bindery.Markdown
