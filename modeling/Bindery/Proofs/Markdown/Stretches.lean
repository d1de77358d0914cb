import Bindery.Proofs.Markdown.Shapes
import Mathlib.Data.List.Forall2

namespace Bindery.Markdown

open Latex Text

/-! The lines of a source cut into stretches, each of them a fenced block or a line of its own.
There is one way to cut them, and what is written for the source is what is written for each
stretch. -/

inductive Stretch
  | fenced (opening : List Char) (code : List (List Char)) (closing : List Char)
  | single (line : List Char)

def Stretch.source : Stretch → List (List Char)
  | .fenced opening code closing => opening :: (code ++ [closing])
  | .single line => [line]

/-- A fenced block ends at the first line that closes it, and a line that could open one is single
only where no later line closes it. -/
inductive IsCut : List (List Char) → List Stretch → Prop
  | nil : IsCut [] []
  | fenced {opening closing tag : List Char} {code lines : List (List Char)}
      {stretches : List Stretch} (hopening : IsOpening tag opening)
      (hcode : ∀ line ∈ code, ¬ IsClosing line) (hclosing : IsClosing closing)
      (htail : IsCut lines stretches) :
      IsCut (opening :: (code ++ closing :: lines)) (.fenced opening code closing :: stretches)
  | single {line : List Char} {lines : List (List Char)} {stretches : List Stretch}
      (hline : ∀ tag, IsOpening tag line → ∀ later ∈ lines, ¬ IsClosing later)
      (htail : IsCut lines stretches) : IsCut (line :: lines) (.single line :: stretches)

theorem IsCut.flatMap_source {lines : List (List Char)} {stretches : List Stretch}
    (hcut : IsCut lines stretches) : stretches.flatMap Stretch.source = lines := by
  induction hcut with
  | nil => rfl
  | fenced _ _ _ _ ih => simp [Stretch.source, ih]
  | single _ _ ih => simp [Stretch.source, ih]

theorem cutAt?_closing {code : List (List Char)} {closing : List Char}
    (hcode : ∀ line ∈ code, ¬ IsClosing line) (hclosing : IsClosing closing)
    (lines : List (List Char)) :
    cutAt? isFenceEnd (code ++ closing :: lines) = some (code, lines) :=
  cutAt?_complete lines (fun line hline => isFenceEnd_eq_false.2 (hcode line hline))
    (isFenceEnd_eq_true.2 hclosing)

/-- The first line that closes is the same, however the lines are split there. -/
theorem closing_unique {code code' lines lines' : List (List Char)} {closing closing' : List Char}
    (hsame : code ++ closing :: lines = code' ++ closing' :: lines')
    (hcode : ∀ line ∈ code, ¬ IsClosing line) (hclosing : IsClosing closing)
    (hcode' : ∀ line ∈ code', ¬ IsClosing line) (hclosing' : IsClosing closing') :
    code = code' ∧ closing = closing' ∧ lines = lines' := by
  have hcut := cutAt?_closing hcode hclosing lines
  rw [hsame, cutAt?_closing hcode' hclosing'] at hcut
  obtain ⟨rfl, rfl⟩ := Prod.mk.inj (Option.some.inj hcut)
  exact ⟨rfl, (List.cons.inj (List.append_cancel_left hsame)).1, rfl⟩

theorem IsCut.unique {lines : List (List Char)} {first second : List Stretch}
    (hfirst : IsCut lines first) (hsecond : IsCut lines second) : first = second := by
  induction hfirst generalizing second with
  | nil =>
      cases hsecond
      rfl
  | @fenced opening closing tag code lines stretches hopening hcode hclosing _ ih =>
      generalize hall : code ++ closing :: lines = all at hsecond
      cases hsecond with
      | fenced _ hcode' hclosing' htail' =>
          obtain ⟨rfl, rfl, rfl⟩ := closing_unique hall hcode hclosing hcode' hclosing'
          rw [ih htail']
      | single hline _ => exact absurd hclosing (hline tag hopening closing (by simp [← hall]))
  | @single line lines stretches hline _ ih =>
      cases hsecond with
      | fenced hopening _ hclosing _ => exact absurd hclosing (hline _ hopening _ (by simp))
      | single _ htail => rw [ih htail]

/-! The blocks of a source are those of its stretches. -/

theorem listingPattern_some {line tag : List Char} {lines code rest : List (List Char)}
    (hfound : listingPattern.find? (line :: lines) = some ((tag, code), rest)) :
    IsOpening tag line ∧ (∀ later ∈ code, ¬ IsClosing later) ∧
      ∃ closing, IsClosing closing ∧ lines = code ++ closing :: rest := by
  obtain ⟨tag', htag, hrest⟩ := Option.bind_eq_some_iff.1 hfound
  obtain ⟨⟨code', rest'⟩, hcut, hpair⟩ := Option.map_eq_some_iff.1 hrest
  cases hpair
  obtain ⟨hcode, closing, hclosing, rfl⟩ := cutAt?_sound hcut
  exact ⟨fenceLanguage?_eq_some.1 htag,
    fun later hlater => isFenceEnd_eq_false.1 (hcode later hlater),
    closing, isFenceEnd_eq_true.1 hclosing, rfl⟩

theorem listingPattern_none {line : List Char} {lines : List (List Char)}
    (hfound : listingPattern.find? (line :: lines) = none) :
    ∀ tag, IsOpening tag line → ∀ later ∈ lines, ¬ IsClosing later := by
  intro tag hopening later hlater
  have hcut := Option.bind_eq_none_iff.1 hfound tag (fenceLanguage?_eq_some.2 hopening)
  exact isFenceEnd_eq_false.1 (cutAt?_none (Option.map_eq_none_iff.1 hcut) later hlater)

theorem exists_isCut (lines : List (List Char)) : ∃ stretches, IsCut lines stretches := by
  induction lines using Pattern.induction listingPattern with
  | nil => exact ⟨[], .nil⟩
  | found line lines block rest hfound ih =>
      obtain ⟨tag, code⟩ := block
      obtain ⟨stretches, hrest⟩ := ih
      obtain ⟨hopening, hcode, closing, hclosing, rfl⟩ := listingPattern_some hfound
      exact ⟨_, .fenced hopening hcode hclosing hrest⟩
  | kept line lines hnone ih =>
      obtain ⟨stretches, hrest⟩ := ih
      exact ⟨_, .single (listingPattern_none hnone) hrest⟩

def Stretch.block : Stretch → Block
  | .fenced opening code _ => .listing ((fenceLanguage? opening).getD []) code
  | .single line => .ofLine line

theorem IsCut.ofLines {lines : List (List Char)} {stretches : List Stretch}
    (hcut : IsCut lines stretches) : Block.ofLines lines = stretches.map Stretch.block := by
  unfold Block.ofLines
  induction hcut with
  | nil => exact Pattern.replace_nil
  | @fenced opening closing tag code lines stretches hopening hcode hclosing _ ih =>
      have htag := fenceLanguage?_eq_some.2 hopening
      have hbody := cutAt?_closing hcode hclosing lines
      have hfound : listingPattern.find? (opening :: (code ++ closing :: lines)) =
          some ((tag, code), lines) := by
        simp [listingPattern, findListing?, htag, hbody]
      rw [Pattern.replace_cons_some hfound, ih, List.map_cons, Stretch.block, htag]
      rfl
  | @single line lines stretches hline _ ih =>
      have hnone : listingPattern.find? (line :: lines) = none := by
        rw [Option.eq_none_iff_forall_ne_some]
        rintro ⟨⟨tag, code⟩, rest⟩ hfound
        obtain ⟨hopening, -, closing, hclosing, rfl⟩ := listingPattern_some hfound
        exact hline tag hopening closing (by simp) hclosing
      rw [Pattern.replace_cons_none hnone, ih, List.map_cons, Stretch.block]

/-! What is written for a stretch follows from its shape. -/

/-- The commands of headings by their depth. -/
def headingNames : HeadingMode → List String
  | .numbered => ["chapter", "section", "subsection", "subsubsection"]
  | .unnumbered => ["chapter*", "section", "subsection", "subsubsection"]

inductive Stretch.Prints (mode : HeadingMode) : Stretch → List Line → Prop
  | fenced {opening closing tag : List Char} {code : List (List Char)}
      (hopening : IsOpening tag opening) :
      Prints mode (.fenced opening code closing)
        ([.text [], .text (beginEnvironment "lstlisting" ++ "[language=".toList ++
              (if tag = [] then "text".toList else tag) ++ [']'])] ++
          code.map (.text <| escapeCode ·) ++
            [.text (endEnvironment "lstlisting"), .text []])
  | heading {depth : Nat} {name : String} {title line : List Char}
      (hline : IsHeading depth title line) (hname : (headingNames mode)[depth - 1]? = some name) :
      Prints mode (.single line) [.text (command name (inlineLatex title))]
  | rule {line : List Char} (hline : IsRule line) :
      Prints mode (.single line) [.text "\\hrulefill".toList, .text []]
  | item {indent text line : List Char} (hline : IsItem indent text line) :
      Prints mode (.single line) [.item (indent ++ "\\item ".toList ++ inlineLatex text)]
  | paragraph {line : List Char} (hheading : ∀ depth title, ¬ IsHeading depth title line)
      (hrule : ¬ IsRule line) (hitem : ∀ indent text, ¬ IsItem indent text line) :
      Prints mode (.single line) [.text (inlineLatex line)]

theorem getElem?_headingNames (mode : HeadingMode) {depth : Nat} (hdepth : 1 ≤ depth) :
    (headingNames mode)[depth - 1]? =
      (HeadingLevel.ofDepth? depth).map (HeadingLevel.command mode) := by
  match depth, hdepth with
  | 1, _ | 2, _ | 3, _ | 4, _ => cases mode <;> rfl
  | _ + 5, _ => cases mode <;> rfl

theorem Stretch.Prints.eq_lines {mode : HeadingMode} {stretch : Stretch} {written : List Line}
    (hprints : stretch.Prints mode written) : written = stretch.block.lines mode := by
  cases hprints with
  | fenced hopening =>
      rw [Stretch.block, fenceLanguage?_eq_some.2 hopening, Option.getD_some, Block.lines,
        listingBegin]
      simp only [List.isEmpty_iff, defaultLanguage]
  | heading hline hname =>
      rw [getElem?_headingNames mode hline.1] at hname
      obtain ⟨level, hlevel, rfl⟩ := Option.map_eq_some_iff.1 hname
      rw [Stretch.block, hline.ofLine hlevel, Block.lines]
  | rule hline => rw [Stretch.block, hline.ofLine, Block.lines]
  | item hline => rw [Stretch.block, hline.ofLine, Block.lines]
  | paragraph hheading hrule hitem =>
      rw [Stretch.block, Block.ofLine_paragraph hheading hrule hitem, Block.lines]

theorem Stretch.prints_single (mode : HeadingMode) (line : List Char) :
    (Stretch.single line).Prints mode ((Block.ofLine line).lines mode) := by
  unfold Block.ofLine
  cases hheading : heading? line with
  | some heading =>
      obtain ⟨depth, hlevel, hline⟩ := heading?_eq_some.1 hheading
      refine .heading hline ?_
      rw [getElem?_headingNames mode hline.1, hlevel]
      rfl
  | none =>
      cases hrule : isRule line with
      | true => exact .rule (isRule_eq_true.1 hrule)
      | false =>
          cases hitem : item? line with
          | some item => exact .item (item?_eq_some.1 hitem)
          | none =>
              refine .paragraph (fun depth title hline => ?_) (isRule_eq_false.1 hrule)
                fun indent text hline => ?_
              · obtain ⟨level, hlevel⟩ := HeadingLevel.exists_ofDepth?.2 ⟨hline.1, hline.2.1⟩
                rw [heading?_eq_some.2 ⟨depth, hlevel, hline⟩] at hheading
                contradiction
              · rw [item?_eq_some.2 hline] at hitem
                contradiction

theorem Stretch.prints_fenced (mode : HeadingMode) {tag opening : List Char}
    (hopening : IsOpening tag opening) (code : List (List Char)) (closing : List Char) :
    (Stretch.fenced opening code closing).Prints mode
      ((Stretch.fenced opening code closing).block.lines mode) := by
  have hprints : (Stretch.fenced opening code closing).Prints mode _ := .fenced hopening
  rwa [hprints.eq_lines] at hprints

theorem Stretch.map_lines_of_prints {mode : HeadingMode} {stretches : List Stretch}
    {written : List (List Line)} (hprints : List.Forall₂ (Stretch.Prints mode) stretches written) :
    written = stretches.map (·.block.lines mode) := by
  induction hprints with
  | nil => rfl
  | cons hfirst _ ih => rw [List.map_cons, ← ih, ← hfirst.eq_lines]

theorem IsCut.prints_iff (mode : HeadingMode) {lines : List (List Char)}
    {stretches : List Stretch} (hcut : IsCut lines stretches) {written : List (List Line)} :
    List.Forall₂ (Stretch.Prints mode) stretches written ↔
      written = stretches.map (·.block.lines mode) := by
  constructor
  · exact Stretch.map_lines_of_prints
  · rintro rfl
    induction hcut with
    | nil => exact .nil
    | fenced hopening _ _ _ ih => exact .cons (Stretch.prints_fenced mode hopening _ _) ih
    | single _ _ ih => exact .cons (Stretch.prints_single mode _) ih

/-- The lines of a source have exactly one cut, which takes every line once, and what is written for
the source is what the shapes of the stretches call for, one stretch after the other. -/
theorem fragmentLines_accounted (mode : HeadingMode) (markdown : List Char) :
    ∃ stretches written, (∀ other, IsCut (sourceLines markdown) other ↔ other = stretches) ∧
      stretches.flatMap Stretch.source = sourceLines markdown ∧
        (∀ other, List.Forall₂ (Stretch.Prints mode) stretches other ↔ other = written) ∧
          fragmentLines mode markdown = written.flatten := by
  obtain ⟨stretches, hcut⟩ := exists_isCut (sourceLines markdown)
  refine ⟨stretches, _, fun other => ⟨fun hother => hother.unique hcut, ?_⟩, hcut.flatMap_source,
    fun other => hcut.prints_iff mode, ?_⟩
  · rintro rfl
    exact hcut
  · rw [fragmentLines, hcut.ofLines, List.flatMap_map, List.flatMap_def]

end Bindery.Markdown
