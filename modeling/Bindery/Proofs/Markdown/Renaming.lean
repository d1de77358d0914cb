import Bindery.Markdown.Itemize
import Bindery.Proofs.Markdown.RenamedText

namespace Bindery.Markdown

open Latex Text

/-! A fragment under other names for its characters outside ASCII is converted as it was before. -/

def Line.rename (r : Char → Char) : Line → Line
  | .item content => .item (content.map r)
  | .text content => .text (content.map r)

def Block.rename (r : Char → Char) : Block → Block
  | .listing language code => .listing (language.map r) (code.map (List.map r))
  | .heading level title => .heading level (title.map r)
  | .rule => .rule
  | .item indent text => .item (indent.map r) (text.map r)
  | .paragraph text => .paragraph (text.map r)

section Renaming

variable {r : Char → Char} (hr : IsRenaming r)

include hr

/-! The source lines. -/

theorem unifyLineEnds_map (text : List Char) :
    unifyLineEnds (text.map r) = (unifyLineEnds text).map r := by
  fun_induction unifyLineEnds text with
  | case1 => rfl
  | case2 text ih =>
      have hbreak := hr.map_front ['\r', '\n'] (by decide) text
      have hwritten := hr.map_front ['\n'] (by decide) (unifyLineEnds text)
      simp only [List.cons_append, List.nil_append] at hbreak hwritten
      rw [hbreak, unifyLineEnds, ih, hwritten]
  | case3 c text hother ih =>
      rw [List.map_cons, unifyLineEnds, ih, List.map_cons]
      intro rest hc hrest
      obtain ⟨tail, htail, _⟩ := (hr.map_eq_append ['\n'] (by decide)).1 hrest
      exact hother tail ((hr.eq_iff (by decide) c).1 hc) htail

theorem afterCommentEnd?_map (text : List Char) :
    afterCommentEnd? (text.map r) = (afterCommentEnd? text).map (List.map r) := by
  fun_induction afterCommentEnd? text with
  | case1 => rfl
  | case2 text =>
      have hend := hr.map_front ['-', '-', '>'] (by decide) text
      simp only [List.cons_append, List.nil_append] at hend
      rw [hend, afterCommentEnd?, Option.map_some]
  | case3 c text hother ih =>
      rw [List.map_cons, afterCommentEnd?, ih]
      intro rest hc hrest
      obtain ⟨tail, htail, _⟩ := (hr.map_eq_append ['-', '>'] (by decide)).1 hrest
      exact hother tail ((hr.eq_iff (by decide) c).1 hc) htail

theorem commentPattern_map (text : List Char) :
    commentPattern.find? (text.map r) =
      (commentPattern.find? text).map (Prod.map id (List.map r)) := by
  change findComment? (text.map r) = (findComment? text).map _
  fun_cases findComment? text with
  | case1 body =>
      have hopening := hr.map_front ['<', '!', '-', '-'] (by decide) body
      simp only [List.cons_append, List.nil_append] at hopening
      rw [hopening, findComment?, afterCommentEnd?_map hr]
      cases afterCommentEnd? body <;> rfl
  | case2 _ hother =>
      rw [findComment?]
      · rfl
      · intro rest hrest
        obtain ⟨body, hbody, _⟩ := (hr.map_eq_append ['<', '!', '-', '-'] (by decide)).1 hrest
        exact hother body hbody

theorem stripComments_map (text : List Char) :
    stripComments (text.map r) = (stripComments text).map r := by
  have hkept : commentPattern.replace (fun _ => []) ([·]) (text.map r) =
      (commentPattern.replace (fun _ => []) ([·]) text).map (List.map r) := by
    apply Pattern.replace_map (commentPattern_map hr)
    · intro found
      rfl
    · intro c
      rfl
  rw [stripComments, hkept, ← List.map_flatten, stripComments]

theorem splitOn_map {c : Char} (hc : isAscii c = true) (text : List Char) :
    (text.map r).splitOn c = (text.splitOn c).map (List.map r) := by
  induction text with
  | nil => simp
  | cons d text ih =>
      rw [List.map_cons, List.splitOn_cons_eq_if_modifyHead, List.splitOn_cons_eq_if_modifyHead,
        hr.beq hc, ih]
      split
      · rfl
      · cases text.splitOn c <;> rfl

theorem sourceLines_map (markdown : List Char) :
    sourceLines (markdown.map r) = (sourceLines markdown).map (List.map r) := by
  rw [sourceLines, unifyLineEnds_map hr, stripComments_map hr, splitOn_map hr (by decide),
    sourceLines]

/-! The blocks. -/

theorem fenceLanguage?_map (line : List Char) :
    fenceLanguage? (line.map r) = (fenceLanguage? line).map (List.map r) := by
  unfold fenceLanguage?
  rw [hr.trimStart_map]
  -- A line begins with backticks under other names just when it does so under its own.
  split
  · rename_i tag htag
    obtain ⟨rest, hrest, rfl⟩ := (hr.map_eq_append ['\x60', '\x60', '\x60'] (by decide)).1 htag
    simp only [List.cons_append, List.nil_append] at hrest
    simp only [hrest, List.dropWhile_map, List.all_map, List.takeWhile_map, hr.word_comp,
      hr.blank_comp]
    split <;> rfl
  · rename_i hother
    split
    · rename_i tag htag
      rw [htag] at hother
      exact absurd (hr.map_front ['\x60', '\x60', '\x60'] (by decide) tag) (hother _)
    · rfl

theorem isFenceEnd_map (line : List Char) : isFenceEnd (line.map r) = isFenceEnd line := by
  rw [Bool.eq_iff_iff, isFenceEnd, isFenceEnd, beq_iff_eq, beq_iff_eq, hr.trim_map,
    hr.map_eq_ascii (by decide)]

theorem listingPattern_map (lines : List (List Char)) :
    listingPattern.find? (lines.map (List.map r)) = (listingPattern.find? lines).map
      (Prod.map (Prod.map (List.map r) (List.map (List.map r))) (List.map (List.map r))) := by
  cases lines with
  | nil => rfl
  | cons line lines =>
      simp only [listingPattern, List.map_cons, findListing?, fenceLanguage?_map hr,
        cutAt?_map (isFenceEnd_map hr)]
      cases fenceLanguage? line with
      | none => rfl
      | some tag => cases cutAt? isFenceEnd lines <;> rfl

theorem heading?_map (line : List Char) :
    heading? (line.map r) = (heading? line).map (Prod.map id (List.map r)) := by
  unfold heading?
  rw [List.takeWhile_map, List.dropWhile_map, hr.beq_comp (by decide), List.length_map]
  split
  · rename_i hlevel hbehind
    obtain ⟨rest, hrest, hshown⟩ := (hr.map_eq_append [' '] (by decide)).1 hbehind
    obtain ⟨c, title, rfl, rfl, rfl⟩ := List.map_eq_cons_iff.1 hshown
    simp [hlevel, hrest]
  · rename_i hother
    split
    · rename_i hlevel hbehind
      rw [hbehind] at hother
      exact absurd (hr.map_front [' '] (by decide) _) (hother _ _ _ hlevel)
    · rfl

theorem isRule_map (line : List Char) : isRule (line.map r) = isRule line := by
  rw [isRule, List.length_map, List.all_map, hr.beq_comp (by decide), isRule]

theorem item?_map (line : List Char) :
    item? (line.map r) = (item? line).map (Prod.map (List.map r) (List.map r)) := by
  unfold item?
  rw [hr.trimStart_map, List.takeWhile_map, hr.blank_comp]
  split
  · rename_i hshown
    obtain ⟨rest, hrest, hshown⟩ := (hr.map_eq_append ['-', ' '] (by decide)).1 hshown
    obtain ⟨c, text, rfl, rfl, rfl⟩ := List.map_eq_cons_iff.1 hshown
    simp [hrest]
  · rename_i hshown
    obtain ⟨rest, hrest, hshown⟩ := (hr.map_eq_append ['*', ' '] (by decide)).1 hshown
    obtain ⟨c, text, rfl, rfl, rfl⟩ := List.map_eq_cons_iff.1 hshown
    simp [hrest]
  · rename_i hdash hstar
    split
    · rename_i hrest
      rw [hrest] at hdash
      exact absurd (hr.map_front ['-', ' '] (by decide) _) (hdash _ _)
    · rename_i hrest
      rw [hrest] at hstar
      exact absurd (hr.map_front ['*', ' '] (by decide) _) (hstar _ _)
    · rfl

theorem Block.ofLine_map (line : List Char) :
    Block.ofLine (line.map r) = (Block.ofLine line).rename r := by
  rw [Block.ofLine, Block.ofLine, heading?_map hr, isRule_map hr, item?_map hr]
  cases heading? line with
  | some heading => rfl
  | none =>
      cases isRule line with
      | true => rfl
      | false => cases item? line <;> rfl

theorem Block.ofLines_map (lines : List (List Char)) :
    Block.ofLines (lines.map (List.map r)) = (Block.ofLines lines).map (Block.rename r) := by
  apply Pattern.replace_map (listingPattern_map hr)
  · intro listing
    rfl
  · exact Block.ofLine_map hr

/-! The lines that are written. -/

theorem listingBegin_map (tag : List Char) :
    listingBegin (tag.map r) = (listingBegin tag).map r := by
  have hdefault : defaultLanguage.map r = defaultLanguage := hr.map_ascii (by decide)
  have hlanguage : (if (tag.map r).isEmpty then defaultLanguage else tag.map r) =
      (if tag.isEmpty then defaultLanguage else tag).map r := by
    cases tag with
    | nil => exact hdefault.symm
    | cons c tag => rfl
  have hfront := hr.map_front (beginEnvironment "lstlisting" ++ "[language=".toList) (by decide)
  have hclose : [']'].map r = [']'] := hr.map_ascii (by decide)
  simp only [listingBegin, hlanguage, List.map_append, hclose, ← hfront]

theorem Block.lines_rename (mode : HeadingMode) (block : Block) :
    (block.rename r).lines mode = (block.lines mode).map (Line.rename r) := by
  cases block with
  | listing tag code =>
      have hend : (endEnvironment "lstlisting").map r = endEnvironment "lstlisting" :=
        hr.map_ascii (by decide)
      simp only [Block.rename, Block.lines, listingBegin_map hr, List.map_append, List.map_cons,
        List.map_nil, List.map_map, Function.comp_def, hr.escapeCode_map, Line.rename, hend]
  | heading level title =>
      have hname : (level.command mode).toList.all isAscii = true := by
        cases level <;> cases mode <;> decide
      simp only [Block.rename, Block.lines, inlineLatex_map hr, hr.command_map hname]
      rfl
  | rule =>
      have hrule : "\\hrulefill".toList.map r = "\\hrulefill".toList := hr.map_ascii (by decide)
      simp only [Block.rename, Block.lines, List.map_cons, List.map_nil, Line.rename, hrule]
  | item indent text =>
      have hname : "\\item ".toList.map r = "\\item ".toList := hr.map_ascii (by decide)
      simp only [Block.rename, Block.lines, inlineLatex_map hr, List.map_cons, List.map_nil,
        Line.rename, List.map_append, hname]
  | paragraph text =>
      simp only [Block.rename, Block.lines, inlineLatex_map hr]
      rfl

theorem itemizeFrom_map (inside : Bool) (lines : List Line) :
    itemizeFrom inside (lines.map (Line.rename r)) =
      (itemizeFrom inside lines).map (List.map r) := by
  have hbegin : listBegin.map r = listBegin := hr.map_ascii (by decide)
  have hend : listEnd.map r = listEnd := hr.map_ascii (by decide)
  induction lines generalizing inside with
  | nil => cases inside <;> simp [itemizeFrom, hend]
  | cons line lines ih =>
      cases line <;> cases inside <;> simp [Line.rename, itemizeFrom, hbegin, hend, ih]

omit hr in
theorem intercalate_map (separator : List Char) (lines : List (List Char)) :
    (separator.map r).intercalate (lines.map (List.map r)) =
      (separator.intercalate lines).map r := by
  induction lines with
  | nil => rfl
  | cons line lines ih =>
      cases lines with
      | nil => simp
      | cons next lines =>
          simp only [List.map_cons, List.intercalate_cons_cons, List.map_append] at ih ⊢
          rw [ih]

theorem fragmentLatex_map (mode : HeadingMode) (markdown : List Char) :
    fragmentLatex mode (markdown.map r) = (fragmentLatex mode markdown).map r := by
  have hlines : fragmentLines mode (markdown.map r) =
      (fragmentLines mode markdown).map (Line.rename r) := by
    simp only [fragmentLines, sourceLines_map hr, Block.ofLines_map hr, List.flatMap_map,
      List.map_flatMap, Block.lines_rename hr]
  have hbreak : ['\n'].map r = ['\n'] := hr.map_ascii (by decide)
  have hjoined := intercalate_map (r := r) ['\n'] (itemize (fragmentLines mode markdown))
  rw [hbreak] at hjoined
  rw [fragmentLatex, hlines, itemize, itemizeFrom_map hr, fragmentLatex, ← hjoined, itemize]

end Renaming

/-- No character outside ASCII means anything to the conversion, the slot marks included: under
other names for such characters, the same LaTeX is written under these names. -/
theorem conversion_renamed (r : Char → Char) (hr : IsRenaming r) :
    (∀ (mode : HeadingMode) (markdown : List Char),
        fragmentLatex mode (markdown.map r) = (fragmentLatex mode markdown).map r) ∧
      ∀ text : List Char, inlineLatex (text.map r) = (inlineLatex text).map r :=
  ⟨fragmentLatex_map hr, inlineLatex_map hr⟩

/-- The slot marks stand for each other. -/
def swapSlotMarks (c : Char) : Char :=
  if c = slotOpen then slotClose else if c = slotClose then slotOpen else c

theorem isRenaming_swapSlotMarks : IsRenaming swapSlotMarks := by
  have hopen : IsMute slotOpen := ⟨by decide, by decide, by decide +kernel⟩
  have hclose : IsMute slotClose := ⟨by decide, by decide, by decide +kernel⟩
  refine isRenaming_of_isMute fun c => ?_
  unfold swapSlotMarks
  split
  · rename_i hc
    exact .inr ⟨hc ▸ hopen, hclose⟩
  · split
    · rename_i hc
      exact .inr ⟨hc ▸ hclose, hopen⟩
    · exact .inl rfl

theorem conversion_renamed_slotMarks :
    let imitation := "# A \ue0000\ue001\n- *b\ue001* `\ue0001` [c](\ue0000\ue001)\n".toList
    IsRenaming swapSlotMarks ∧ imitation.map swapSlotMarks ≠ imitation ∧
      fragmentLatex .numbered (imitation.map swapSlotMarks) =
        (fragmentLatex .numbered imitation).map swapSlotMarks ∧
      inlineLatex (imitation.map swapSlotMarks) = (inlineLatex imitation).map swapSlotMarks := by
  intro imitation
  have hrenamed := conversion_renamed swapSlotMarks isRenaming_swapSlotMarks
  exact ⟨isRenaming_swapSlotMarks, by decide +kernel, hrenamed.1 .numbered imitation,
    hrenamed.2 imitation⟩

end Bindery.Markdown
