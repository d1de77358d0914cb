import Mathlib.Data.List.TakeWhile
import Bindery.Markdown.Block

namespace Bindery.Markdown

open Text

/-! The shapes of lines, each said of the whole line, and that the readers of lines take them. -/

/-- Behind the fence stands the tag of its language, which may be empty. -/
def IsOpening (tag line : List Char) : Prop :=
  ∃ before after, line = before ++ fence ++ tag ++ after ∧ (∀ c ∈ before, isBlank c = true) ∧
    (∀ c ∈ tag, isWord c = true) ∧ ∀ c ∈ after, isBlank c = true

def IsClosing (line : List Char) : Prop :=
  trim line = fence

def IsHeading (depth : Nat) (title line : List Char) : Prop :=
  1 ≤ depth ∧ depth ≤ 4 ∧ title ≠ [] ∧ line = List.replicate depth '#' ++ ' ' :: title

def IsRule (line : List Char) : Prop :=
  ∃ count, 3 ≤ count ∧ line = List.replicate count '-'

def IsItem (indent text line : List Char) : Prop :=
  (∀ c ∈ indent, isBlank c = true) ∧ text ≠ [] ∧
    ∃ marker ∈ ['-', '*'], line = indent ++ marker :: ' ' :: text

theorem span_append {p : α → Bool} {front back : List α} (hfront : ∀ a ∈ front, p a = true)
    (hback : ∀ a ∈ back.head?, p a = false) :
    (front ++ back).takeWhile p = front ∧ (front ++ back).dropWhile p = back := by
  rw [List.takeWhile_append_of_pos hfront, List.dropWhile_append_of_pos hfront]
  cases back with
  | nil => simp
  | cons b back => simp [hback b rfl]

theorem fenceLanguage?_eq_some {tag line : List Char} :
    fenceLanguage? line = some tag ↔ IsOpening tag line := by
  constructor
  · intro htag
    unfold fenceLanguage? at htag
    split at htag
    · rename_i rest hrest
      obtain ⟨hafter, htag⟩ := Option.ite_none_right_eq_some.1 htag
      obtain rfl := Option.some.inj htag
      refine ⟨line.takeWhile isBlank, rest.dropWhile isWord, ?_, fun _ => List.mem_takeWhile_imp,
        fun _ => List.mem_takeWhile_imp, List.all_eq_true.1 hafter⟩
      have hline : line = line.takeWhile isBlank ++ trimStart line :=
        List.takeWhile_append_dropWhile.symm
      have hword : rest = rest.takeWhile isWord ++ rest.dropWhile isWord :=
        List.takeWhile_append_dropWhile.symm
      rw [hrest, hword] at hline
      simpa [fence] using hline
    · contradiction
  · rintro ⟨before, after, rfl, hbefore, htag, hafter⟩
    have hstop : ∀ c ∈ after.head?, isWord c = false := fun c hc =>
      isWord_of_isBlank (hafter c (List.mem_of_head? hc))
    have htick : ∀ c ∈ (fence ++ (tag ++ after)).head?, isBlank c = false := by
      rintro c ⟨⟩
      decide
    have htrim : trimStart (before ++ fence ++ tag ++ after) = fence ++ (tag ++ after) := by
      rw [List.append_assoc, List.append_assoc]
      exact (span_append hbefore htick).2
    obtain ⟨htake, hdrop⟩ := span_append htag hstop
    rw [fenceLanguage?, htrim]
    simp only [fence, List.cons_append, List.nil_append, htake, hdrop]
    exact if_pos (List.all_eq_true.2 hafter)

theorem isFenceEnd_eq_true {line : List Char} : isFenceEnd line = true ↔ IsClosing line :=
  beq_iff_eq

theorem isFenceEnd_eq_false {line : List Char} : isFenceEnd line = false ↔ ¬ IsClosing line := by
  rw [← isFenceEnd_eq_true, Bool.not_eq_true]

theorem HeadingLevel.exists_ofDepth? {depth : Nat} :
    (∃ level, ofDepth? depth = some level) ↔ 1 ≤ depth ∧ depth ≤ 4 := by
  match depth with
  | 0 | 1 | 2 | 3 | 4 | _ + 5 => simp [ofDepth?]

theorem heading?_eq_some {level : HeadingLevel} {title line : List Char} :
    heading? line = some (level, title) ↔
      ∃ depth, HeadingLevel.ofDepth? depth = some level ∧ IsHeading depth title line := by
  constructor
  · intro hheading
    unfold heading? at hheading
    split at hheading
    · rename_i depth level' c rest hlevel hrest
      cases hheading
      have hmarks : line.takeWhile (· == '#') =
          List.replicate (line.takeWhile (· == '#')).length '#' :=
        List.eq_replicate_of_mem fun c hc => by simpa using List.mem_takeWhile_imp hc
      have hline : line = line.takeWhile (· == '#') ++ line.dropWhile (· == '#') :=
        List.takeWhile_append_dropWhile.symm
      rw [hrest, hmarks] at hline
      obtain ⟨hpositive, hfour⟩ := HeadingLevel.exists_ofDepth?.1 ⟨_, hlevel⟩
      exact ⟨_, hlevel, hpositive, hfour, List.cons_ne_nil _ _, hline⟩
    · contradiction
  · rintro ⟨depth, hlevel, -, -, hsome, rfl⟩
    have hmarks : ∀ c ∈ List.replicate depth '#', (c == '#') = true := fun c hc =>
      beq_iff_eq.2 (List.eq_of_mem_replicate hc)
    have hspace : ∀ c ∈ (' ' :: title).head?, (c == '#') = false := by
      rintro c ⟨⟩
      decide
    obtain ⟨htake, hdrop⟩ := span_append hmarks hspace
    obtain ⟨c, rest, rfl⟩ := List.exists_cons_of_ne_nil hsome
    rw [heading?, htake, hdrop, List.length_replicate, hlevel]
    rfl

theorem isRule_eq_true {line : List Char} : isRule line = true ↔ IsRule line := by
  have hall : line.all (· == '-') = true ↔ line = List.replicate line.length '-' := by
    rw [List.all_eq_true, List.eq_replicate_iff]
    simp
  rw [isRule, Bool.and_eq_true, decide_eq_true_eq, hall]
  constructor
  · rintro ⟨hlength, hline⟩
    exact ⟨line.length, hlength, hline⟩
  · rintro ⟨count, hcount, rfl⟩
    simpa using hcount

theorem item?_eq_some {indent text line : List Char} :
    item? line = some (indent, text) ↔ IsItem indent text line := by
  constructor
  · intro hitem
    have hline : line = line.takeWhile isBlank ++ trimStart line :=
      List.takeWhile_append_dropWhile.symm
    unfold item? at hitem
    split at hitem
    · rename_i c rest hrest
      cases hitem
      exact ⟨fun _ => List.mem_takeWhile_imp, List.cons_ne_nil c rest, '-', by simp, hrest ▸ hline⟩
    · rename_i c rest hrest
      cases hitem
      exact ⟨fun _ => List.mem_takeWhile_imp, List.cons_ne_nil c rest, '*', by simp, hrest ▸ hline⟩
    · contradiction
  · rintro ⟨hindent, hsome, marker, hmarker, rfl⟩
    simp only [List.mem_cons, List.not_mem_nil, or_false] at hmarker
    have hstop : ∀ c ∈ (marker :: ' ' :: text).head?, isBlank c = false := by
      rintro c ⟨⟩
      rcases hmarker with rfl | rfl <;> decide
    obtain ⟨htake, hdrop⟩ := span_append hindent hstop
    obtain ⟨c, rest, rfl⟩ := List.exists_cons_of_ne_nil hsome
    rw [item?, trimStart, htake, hdrop]
    rcases hmarker with rfl | rfl <;> rfl

/-! No line has two of the shapes of a heading, a rule and an item, so each is taken for the block
of its shape. -/

theorem IsHeading.head? {depth : Nat} {title line : List Char}
    (hline : IsHeading depth title line) : line.head? = some '#' := by
  obtain ⟨hdepth, -, -, rfl⟩ := hline
  obtain ⟨count, rfl⟩ := Nat.exists_eq_add_of_le' hdepth
  rfl

theorem IsRule.not_isHeading {line : List Char} (hline : IsRule line) (depth : Nat)
    (title : List Char) : ¬ IsHeading depth title line := by
  intro hheading
  have hhead := hheading.head?
  obtain ⟨count, hcount, rfl⟩ := hline
  obtain ⟨more, rfl⟩ := Nat.exists_eq_add_of_le' hcount
  exact absurd (Option.some.inj hhead) (by decide)

theorem IsItem.not_isHeading {indent text line : List Char} (hline : IsItem indent text line)
    (depth : Nat) (title : List Char) : ¬ IsHeading depth title line := by
  intro hheading
  have hhead := hheading.head?
  obtain ⟨hindent, -, marker, hmarker, rfl⟩ := hline
  cases indent with
  | nil =>
      obtain rfl := Option.some.inj hhead
      exact absurd hmarker (by decide)
  | cons c indent =>
      obtain rfl := Option.some.inj hhead
      exact absurd (hindent '#' List.mem_cons_self) (by decide)

theorem IsItem.not_isRule {indent text line : List Char} (hline : IsItem indent text line) :
    ¬ IsRule line := by
  obtain ⟨-, -, marker, -, rfl⟩ := hline
  rintro ⟨count, -, hrule⟩
  have hspace : ' ' ∈ List.replicate count '-' := hrule ▸ by simp
  exact absurd (List.eq_of_mem_replicate hspace) (by decide)

theorem heading?_eq_none {line : List Char} (hline : ∀ depth title, ¬ IsHeading depth title line) :
    heading? line = none := by
  rw [Option.eq_none_iff_forall_ne_some]
  rintro ⟨level, title⟩ hheading
  obtain ⟨depth, -, hshape⟩ := heading?_eq_some.1 hheading
  exact hline depth title hshape

theorem isRule_eq_false {line : List Char} : isRule line = false ↔ ¬ IsRule line := by
  rw [← isRule_eq_true, Bool.not_eq_true]

theorem IsHeading.ofLine {depth : Nat} {level : HeadingLevel} {title line : List Char}
    (hline : IsHeading depth title line) (hlevel : HeadingLevel.ofDepth? depth = some level) :
    Block.ofLine line = .heading level title := by
  rw [Block.ofLine, heading?_eq_some.2 ⟨depth, hlevel, hline⟩]

theorem IsRule.ofLine {line : List Char} (hline : IsRule line) : Block.ofLine line = .rule := by
  rw [Block.ofLine, heading?_eq_none hline.not_isHeading, isRule_eq_true.2 hline]
  rfl

theorem IsItem.ofLine {indent text line : List Char} (hline : IsItem indent text line) :
    Block.ofLine line = .item indent text := by
  rw [Block.ofLine, heading?_eq_none hline.not_isHeading, isRule_eq_false.2 hline.not_isRule,
    item?_eq_some.2 hline]
  rfl

theorem Block.ofLine_paragraph {line : List Char}
    (hheading : ∀ depth title, ¬ IsHeading depth title line) (hrule : ¬ IsRule line)
    (hitem : ∀ indent text, ¬ IsItem indent text line) : Block.ofLine line = .paragraph line := by
  have hnone : item? line = none := by
    rw [Option.eq_none_iff_forall_ne_some]
    rintro ⟨indent, text⟩ hsome
    exact hitem indent text (item?_eq_some.1 hsome)
  rw [Block.ofLine, heading?_eq_none hheading, isRule_eq_false.2 hrule, hnone]
  rfl

end Bindery.Markdown
