import Bindery.Proofs.Book.Composition
import Bindery.Proofs.Book.PartMap
import Mathlib.Algebra.Order.BigOperators.Group.List
import Mathlib.Algebra.Order.Group.Nat
import Mathlib.Data.List.Nodup

namespace Bindery

open Latex

/-! The headers of the parts, by the places of the parts in the manifest. A document tells parts
apart by their numbers alone, so every part that owns a chapter has its header where it is due
exactly when no two of them have one number. -/

/-- The place of the part that the chapter at a place belongs to. -/
def Manifest.ownerAt? (manifest : Manifest) (index : Nat) : Option Nat :=
  (manifest.chapters[index]?).bind (manifest.owner? ·.number)

/-- The place of the first chapter that belongs to the part at a place. -/
def Manifest.firstChapter? (manifest : Manifest) (part : Nat) : Option Nat :=
  manifest.chapters.findIdx? (manifest.owner? ·.number == some part)

/-- What the main matter is made of: the header of a part and what a chapter brings in. -/
inductive MainPiece
  | header (part : Nat)
  | chapter (index : Nat)
  deriving DecidableEq, Repr

def MainPiece.chapter? : MainPiece → Option Nat
  | .header _ => none
  | .chapter index => some index

/-- The chapters stand in their order. A part that owns chapters has one header, immediately in
front of the first of them, and no other part has any. -/
structure Manifest.LaidOut (manifest : Manifest) (pieces : List MainPiece) : Prop where
  chapters : pieces.filterMap MainPiece.chapter? = List.range manifest.chapters.length
  header : ∀ part index, manifest.firstChapter? part = some index →
    ∃ front back, pieces = front ++ .header part :: .chapter index :: back ∧
      .header part ∉ front ∧ .header part ∉ back
  noHeader : ∀ part, manifest.firstChapter? part = none → .header part ∉ pieces

/-- The part that the chapter at a place is the first one of. -/
def Manifest.duePart? (manifest : Manifest) (index : Nat) : Option Nat :=
  (manifest.ownerAt? index).filter (manifest.firstChapter? · = some index)

def Manifest.piecesAt (manifest : Manifest) (index : Nat) : List MainPiece :=
  ((manifest.duePart? index).map .header).toList ++ [.chapter index]

def Manifest.mainPieces (manifest : Manifest) : List MainPiece :=
  manifest.chapters.zipIdx.flatMap (manifest.piecesAt ·.2)

def Manifest.pieceText (manifest : Manifest) (source : FragmentSource) : MainPiece → String
  | .header part =>
      (manifest.parts[part]?).elim "" fun declared =>
        "\\part\x7b" ++ escapeText declared.title ++ "\x7d\n\n"
  | .chapter index =>
      (manifest.chapters[index]?).elim "" fun chapter => (source.chapterPortion chapter).text

/-- The text of the document with every header where it is due. -/
def Manifest.dueText (manifest : Manifest) (settings : PageSettings) (source : FragmentSource) :
    String :=
  settings.preamble manifest ++
    ("\\frontmatter\n\\maketitle\n\\tableofcontents\n\n" ++ (manifest.frontPortion source).text) ++
    ("\\mainmatter\n\n" ++ String.join (manifest.mainPieces.map (manifest.pieceText source))) ++
    ("\\backmatter\n\n\\appendix\n\n" ++ (manifest.backPortion source).text) ++
    "\n\\end\x7bdocument\x7d\n"

/-- Parts that own chapters have different numbers. -/
def Manifest.OwnersDiffer (manifest : Manifest) : Prop :=
  ∀ first second (part other : Part), manifest.parts[first]? = some part →
    manifest.parts[second]? = some other → (manifest.firstChapter? first).isSome →
    (manifest.firstChapter? second).isSome → part.number = other.number → first = second

section Manifest

variable (manifest : Manifest)

/-! Owners and first chapters. -/

theorem Manifest.ownerAt?_of_getElem {index : Nat} (hindex : index < manifest.chapters.length) :
    manifest.ownerAt? index = manifest.owner? manifest.chapters[index].number := by
  rw [ownerAt?, List.getElem?_eq_getElem hindex, Option.bind_some]

theorem Manifest.lt_of_ownerAt? {part index : Nat}
    (howner : manifest.ownerAt? index = some part) : index < manifest.chapters.length := by
  obtain ⟨chapter, hchapter, _⟩ := Option.bind_eq_some_iff.1 howner
  exact (List.getElem?_eq_some_iff.1 hchapter).1

theorem Manifest.firstChapter?_eq_some {part index : Nat} :
    manifest.firstChapter? part = some index ↔
      manifest.ownerAt? index = some part ∧
        ∀ earlier < index, manifest.ownerAt? earlier ≠ some part := by
  rw [firstChapter?, List.findIdx?_eq_some_iff_getElem]
  constructor
  · rintro ⟨hindex, howner, hearlier⟩
    refine ⟨?_, fun earlier hbefore => ?_⟩
    · rw [manifest.ownerAt?_of_getElem hindex]
      exact beq_iff_eq.1 howner
    · rw [manifest.ownerAt?_of_getElem (Nat.lt_trans hbefore hindex)]
      exact fun hsame => hearlier earlier hbefore (beq_iff_eq.2 hsame)
  · rintro ⟨howner, hearlier⟩
    have hindex := manifest.lt_of_ownerAt? howner
    rw [manifest.ownerAt?_of_getElem hindex] at howner
    refine ⟨hindex, beq_iff_eq.2 howner, fun earlier hbefore hsame => ?_⟩
    apply hearlier earlier hbefore
    rw [manifest.ownerAt?_of_getElem (Nat.lt_trans hbefore hindex)]
    exact beq_iff_eq.1 hsame

theorem Manifest.exists_firstChapter {part index : Nat}
    (howner : manifest.ownerAt? index = some part) :
    ∃ first ≤ index, manifest.firstChapter? part = some first := by
  cases hfirst : manifest.firstChapter? part with
  | none =>
      have hindex := manifest.lt_of_ownerAt? howner
      have hnone := List.findIdx?_eq_none_iff.1 hfirst _ (List.getElem_mem hindex)
      rw [manifest.ownerAt?_of_getElem hindex] at howner
      exact absurd howner (beq_eq_false_iff_ne.1 hnone)
  | some first =>
      refine ⟨first, Nat.not_lt.1 fun hbefore => ?_, rfl⟩
      exact (manifest.firstChapter?_eq_some.1 hfirst).2 index hbefore howner

theorem Manifest.ownerAt?_part {part index : Nat} (howner : manifest.ownerAt? index = some part) :
    ∃ declared, manifest.parts[part]? = some declared := by
  obtain ⟨chapter, _, hpart⟩ := Option.bind_eq_some_iff.1 howner
  obtain ⟨hlength, _⟩ := List.findIdx?_eq_some_iff_getElem.1 hpart
  exact ⟨manifest.parts[part], List.getElem?_eq_getElem hlength⟩

theorem Manifest.any_opens {index : Nat} {number : UInt32} :
    (manifest.chapters.take index).any (manifest.partMap.opens number) = true ↔
      ∃ earlier < index, ∃ part declared, manifest.ownerAt? earlier = some part ∧
        manifest.parts[part]? = some declared ∧ declared.number = number := by
  simp only [List.any_eq_true, List.mem_take_iff_getElem, PartMap.opens, manifest.lookup_partMap,
    Option.any_eq_true, Option.bind_eq_some_iff, beq_iff_eq]
  constructor
  · rintro ⟨_, ⟨earlier, hearlier, rfl⟩, declared, ⟨part, howner, hdeclared⟩, hnumber⟩
    have hlength : earlier < manifest.chapters.length := by omega
    rw [← manifest.ownerAt?_of_getElem hlength] at howner
    exact ⟨earlier, by omega, part, declared, howner, hdeclared, hnumber⟩
  · rintro ⟨earlier, hbefore, part, declared, howner, hdeclared, hnumber⟩
    have hlength := manifest.lt_of_ownerAt? howner
    rw [manifest.ownerAt?_of_getElem hlength] at howner
    exact ⟨_, ⟨earlier, by omega, rfl⟩, declared, ⟨part, howner, hdeclared⟩, hnumber⟩

theorem Manifest.duePart?_eq_some {part index : Nat} :
    manifest.duePart? index = some part ↔ manifest.firstChapter? part = some index := by
  rw [duePart?, Option.filter_eq_some_iff, decide_eq_true_iff]
  exact ⟨And.right, fun hfirst => ⟨(manifest.firstChapter?_eq_some.1 hfirst).1, hfirst⟩⟩

/-! The layout. -/

theorem Manifest.header_mem_piecesAt {part index : Nat} :
    .header part ∈ manifest.piecesAt index ↔ manifest.firstChapter? part = some index := by
  rw [← manifest.duePart?_eq_some]
  cases h : manifest.duePart? index <;> simp [piecesAt, h, eq_comm]

theorem Manifest.header_not_mem {part index : Nat}
    (hfirst : manifest.firstChapter? part = some index) {entries : List (Chapter × Nat)}
    (hentries : index ∉ entries.map Prod.snd) :
    .header part ∉ entries.flatMap (manifest.piecesAt ·.2) := by
  intro hheader
  obtain ⟨entry, hentry, hpiece⟩ := List.mem_flatMap.1 hheader
  rw [manifest.header_mem_piecesAt, hfirst, Option.some.injEq] at hpiece
  exact hentries (List.mem_map.2 ⟨entry, hentry, hpiece.symm⟩)

theorem Manifest.zipIdx_split {index : Nat} (hindex : index < manifest.chapters.length) :
    ∃ before behind, manifest.chapters.zipIdx =
        before ++ (manifest.chapters[index], index) :: behind ∧
      index ∉ before.map Prod.snd ∧ index ∉ behind.map Prod.snd := by
  have hmem : (manifest.chapters[index], index) ∈ manifest.chapters.zipIdx :=
    List.mk_mem_zipIdx_iff_getElem?.2 (List.getElem?_eq_getElem hindex)
  obtain ⟨before, behind, hsplit⟩ := List.append_of_mem hmem
  have hnodup : (manifest.chapters.zipIdx.map Prod.snd).Nodup := by
    rw [List.zipIdx_map_snd, ← List.range_eq_range']
    exact List.nodup_range
  rw [hsplit, List.map_append, List.map_cons, List.nodup_middle, List.nodup_cons, List.mem_append,
    not_or] at hnodup
  exact ⟨before, behind, hsplit, hnodup.1⟩

theorem Manifest.mainPieces_laidOut : manifest.LaidOut manifest.mainPieces where
  chapters := by
    have hone (index : Nat) :
        (manifest.piecesAt index).filterMap MainPiece.chapter? = [index] := by
      unfold piecesAt
      cases manifest.duePart? index <;> rfl
    rw [mainPieces, List.filterMap_flatMap]
    simp only [hone]
    rw [← List.map_eq_flatMap, List.zipIdx_map_snd, List.range_eq_range']
  header part index hfirst := by
    have hindex := manifest.lt_of_ownerAt? (manifest.firstChapter?_eq_some.1 hfirst).1
    obtain ⟨before, behind, hsplit, hbefore, hbehind⟩ := manifest.zipIdx_split hindex
    have hpieces : manifest.piecesAt index = [.header part, .chapter index] := by
      rw [piecesAt, manifest.duePart?_eq_some.2 hfirst]
      rfl
    have hfront := manifest.header_not_mem hfirst hbefore
    have hback := manifest.header_not_mem hfirst hbehind
    refine ⟨_, _, ?_, hfront, hback⟩
    rw [mainPieces, hsplit, List.flatMap_append, List.flatMap_cons, hpieces]
    rfl
  noHeader part hnone hmem := by
    obtain ⟨⟨chapter, index⟩, _, hheader⟩ := List.mem_flatMap.1 hmem
    rw [manifest.header_mem_piecesAt, hnone] at hheader
    contradiction

/-! The headers that are due and those that are printed. -/

def Manifest.dueHeading (index : Nat) : String :=
  (manifest.duePart? index).elim "" fun part => (manifest.parts[part]?).elim "" partHeader

theorem Manifest.dueHeading_of_first {part index : Nat} {declared : Part}
    (hfirst : manifest.firstChapter? part = some index)
    (hdeclared : manifest.parts[part]? = some declared) :
    manifest.dueHeading index = partHeader declared := by
  rw [dueHeading, manifest.duePart?_eq_some.2 hfirst, Option.elim_some, hdeclared,
    Option.elim_some]

theorem Manifest.dueHeading_of_unowned {index : Nat}
    (howner : manifest.ownerAt? index = none) : manifest.dueHeading index = "" := by
  rw [dueHeading, duePart?, howner, Option.filter_none, Option.elim_none]

theorem Manifest.dueHeading_of_later {part index first : Nat}
    (howner : manifest.ownerAt? index = some part)
    (hfirst : manifest.firstChapter? part = some first) (hlater : first ≠ index) :
    manifest.dueHeading index = "" := by
  have hnone : manifest.duePart? index = none := by
    refine Option.eq_none_iff_forall_ne_some.2 fun other hdue => hlater ?_
    have hother := manifest.duePart?_eq_some.1 hdue
    rw [(manifest.firstChapter?_eq_some.1 hother).1, Option.some.injEq] at howner
    rw [← howner, hother, Option.some.injEq] at hfirst
    exact hfirst.symm
  rw [dueHeading, hnone, Option.elim_none]

theorem Manifest.firstChapter?_of_unopened {part index : Nat} {declared : Part}
    (howner : manifest.ownerAt? index = some part)
    (hdeclared : manifest.parts[part]? = some declared)
    (hopened : ¬ (manifest.chapters.take index).any
      (manifest.partMap.opens declared.number) = true) :
    manifest.firstChapter? part = some index := by
  refine manifest.firstChapter?_eq_some.2 ⟨howner, fun earlier hbefore hsame => hopened ?_⟩
  exact manifest.any_opens.2 ⟨earlier, hbefore, part, declared, hsame, hdeclared, rfl⟩

section Heading

variable {index : Nat} {chapter : Chapter} (hchapter : manifest.chapters[index]? = some chapter)

include hchapter

theorem Manifest.ownerAt?_of_chapter :
    manifest.ownerAt? index = manifest.owner? chapter.number := by
  rw [ownerAt?, hchapter, Option.bind_some]

theorem Manifest.heading_of_unowned (howner : manifest.ownerAt? index = none) :
    manifest.partMap.heading (manifest.chapters.take index) chapter = "" := by
  rw [manifest.ownerAt?_of_chapter hchapter] at howner
  refine PartMap.heading_of_none ?_ _
  rw [manifest.lookup_partMap, howner, Option.bind_none]

theorem Manifest.heading_of_owned {part : Nat} {declared : Part}
    (howner : manifest.ownerAt? index = some part)
    (hdeclared : manifest.parts[part]? = some declared) :
    manifest.partMap.heading (manifest.chapters.take index) chapter =
      if (manifest.chapters.take index).any (manifest.partMap.opens declared.number) then ""
      else partHeader declared := by
  rw [manifest.ownerAt?_of_chapter hchapter] at howner
  refine PartMap.heading_of_some ?_ _
  rw [manifest.lookup_partMap, howner, Option.bind_some, hdeclared]

/-- A header may be lost, and nothing else can go wrong with it. -/
theorem Manifest.heading_cases :
    manifest.partMap.heading (manifest.chapters.take index) chapter = manifest.dueHeading index ∨
      manifest.partMap.heading (manifest.chapters.take index) chapter = "" := by
  cases howner : manifest.ownerAt? index with
  | none => exact .inr (manifest.heading_of_unowned hchapter howner)
  | some part =>
      obtain ⟨declared, hdeclared⟩ := manifest.ownerAt?_part howner
      rw [manifest.heading_of_owned hchapter howner hdeclared]
      split
      · exact .inr rfl
      · rename_i hopened
        have hfirst := manifest.firstChapter?_of_unopened howner hdeclared hopened
        exact .inl (manifest.dueHeading_of_first hfirst hdeclared).symm

theorem Manifest.heading_of_ownersDiffer (hdiffer : manifest.OwnersDiffer) :
    manifest.partMap.heading (manifest.chapters.take index) chapter =
      manifest.dueHeading index := by
  cases howner : manifest.ownerAt? index with
  | none => rw [manifest.heading_of_unowned hchapter howner, manifest.dueHeading_of_unowned howner]
  | some part =>
      obtain ⟨declared, hdeclared⟩ := manifest.ownerAt?_part howner
      rw [manifest.heading_of_owned hchapter howner hdeclared]
      split
      · rename_i hopened
        -- The part that opened the number owns this chapter too, so the chapter is not its first.
        obtain ⟨earlier, hbefore, other, same, hother, hsame, hnumber⟩ :=
          manifest.any_opens.1 hopened
        obtain ⟨first, hfirst, hfound⟩ := manifest.exists_firstChapter hother
        obtain ⟨own, _, hown⟩ := manifest.exists_firstChapter howner
        have hboth := hdiffer other part same declared hsame hdeclared
          (Option.isSome_of_eq_some hfound) (Option.isSome_of_eq_some hown) hnumber
        subst hboth
        exact (manifest.dueHeading_of_later howner hfound (by omega)).symm
      · rename_i hopened
        have hfirst := manifest.firstChapter?_of_unopened howner hdeclared hopened
        exact (manifest.dueHeading_of_first hfirst hdeclared).symm

end Heading

theorem partHeader_ne_empty (part : Part) : partHeader part ≠ "" := by
  intro hempty
  have hlength := congrArg String.length hempty
  simp [partHeader, command] at hlength

/-- Of two parts with one number, the later one to own a chapter loses its header. -/
theorem Manifest.heading_lost {first second index earlier : Nat} {part other : Part}
    (hpart : manifest.parts[first]? = some part) (hother : manifest.parts[second]? = some other)
    (hindex : manifest.firstChapter? first = some index)
    (hearlier : manifest.firstChapter? second = some earlier)
    (hnumber : other.number = part.number) (hbefore : earlier < index) :
    ∃ entry ∈ manifest.chapters.zipIdx,
      manifest.partMap.heading (manifest.chapters.take entry.2) entry.1 ≠
        manifest.dueHeading entry.2 := by
  have howner := (manifest.firstChapter?_eq_some.1 hindex).1
  have hchapter := List.getElem?_eq_getElem (manifest.lt_of_ownerAt? howner)
  have hopened := manifest.any_opens.2 ⟨earlier, hbefore, second, other,
    (manifest.firstChapter?_eq_some.1 hearlier).1, hother, hnumber⟩
  refine ⟨(_, index), List.mk_mem_zipIdx_iff_getElem?.2 hchapter, ?_⟩
  rw [manifest.heading_of_owned hchapter howner hpart, if_pos hopened,
    manifest.dueHeading_of_first hindex hpart]
  exact (partHeader_ne_empty part).symm

theorem Manifest.headings_due_iff :
    (∀ entry ∈ manifest.chapters.zipIdx,
        manifest.partMap.heading (manifest.chapters.take entry.2) entry.1 =
          manifest.dueHeading entry.2) ↔ manifest.OwnersDiffer := by
  constructor
  · intro hall first second part other hpart hother hfirst hsecond hnumber
    obtain ⟨index, hindex⟩ := Option.isSome_iff_exists.1 hfirst
    obtain ⟨earlier, hearlier⟩ := Option.isSome_iff_exists.1 hsecond
    rcases Nat.lt_trichotomy earlier index with hbefore | hsame | hbehind
    · obtain ⟨entry, hentry, hlost⟩ :=
        manifest.heading_lost hpart hother hindex hearlier hnumber.symm hbefore
      exact absurd (hall entry hentry) hlost
    · have howner := (manifest.firstChapter?_eq_some.1 hindex).1
      have hboth := (manifest.firstChapter?_eq_some.1 hearlier).1
      rw [hsame, howner, Option.some.injEq] at hboth
      exact hboth
    · obtain ⟨entry, hentry, hlost⟩ :=
        manifest.heading_lost hother hpart hearlier hindex hnumber hbehind
      exact absurd (hall entry hentry) hlost
  · intro hdiffer entry hentry
    exact manifest.heading_of_ownersDiffer (List.mem_zipIdx_iff_getElem?.1 hentry) hdiffer

end Manifest

/-! The text of the main matter. -/

/-- Texts that differ from others only by being empty are as long together only if none differs. -/
theorem join_eq_iff {α : Type} {printed due behind : α → String} {entries : List α}
    (hcases : ∀ entry ∈ entries, printed entry = due entry ∨ printed entry = "") :
    String.join (entries.map fun entry => printed entry ++ behind entry) =
        String.join (entries.map fun entry => due entry ++ behind entry) ↔
      ∀ entry ∈ entries, printed entry = due entry := by
  constructor
  · intro hjoined entry hentry
    -- Otherwise the printed texts are shorter in all.
    by_contra hne
    have hempty := (hcases entry hentry).resolve_left hne
    have hlonger : ∀ other ∈ entries, (printed other ++ behind other).length ≤
        (due other ++ behind other).length := by
      intro other hother
      rcases hcases other hother with hsame | hnone
      · rw [hsame]
      · simp [hnone]
    have hlost : (printed entry ++ behind entry).length < (due entry ++ behind entry).length := by
      have hdue : 0 < (due entry).length := by
        refine Nat.pos_of_ne_zero fun hzero => hne ?_
        rw [hempty, String.length_eq_zero_iff.1 hzero]
      simp [hempty, hdue]
    have hshorter := List.sum_lt_sum (fun other => (printed other ++ behind other).length)
      (fun other => (due other ++ behind other).length) hlonger ⟨entry, hentry, hlost⟩
    have hlength := congrArg String.length hjoined
    rw [String.length_join, String.length_join, List.map_map, List.map_map] at hlength
    exact absurd hlength (Nat.ne_of_lt hshorter)
  · intro hall
    congr 1
    exact List.map_congr_left fun entry hentry => by rw [hall entry hentry]

theorem join_flatMap {α : Type} (texts : α → List String) (entries : List α) :
    String.join (entries.flatMap texts) =
      String.join (entries.map fun entry => String.join (texts entry)) := by
  induction entries with
  | nil => rfl
  | cons entry entries ih =>
      rw [List.flatMap_cons, String.join_append, ih, List.map_cons, String.join_cons]

theorem Manifest.mainPortion_text (manifest : Manifest) (source : FragmentSource) :
    (manifest.mainPortion source).text =
      String.join (manifest.chapters.zipIdx.map fun entry =>
        manifest.partMap.heading (manifest.chapters.take entry.2) entry.1 ++
          (source.chapterPortion entry.1).text) := by
  rw [mainPortion, Portion.total, chapterPortions, List.map_map]
  rfl

theorem Manifest.join_mainPieces (manifest : Manifest) (source : FragmentSource) :
    String.join (manifest.mainPieces.map (manifest.pieceText source)) =
      String.join (manifest.chapters.zipIdx.map fun entry =>
        manifest.dueHeading entry.2 ++ (source.chapterPortion entry.1).text) := by
  have hpieces {entry : Chapter × Nat} (hentry : entry ∈ manifest.chapters.zipIdx) :
      String.join ((manifest.piecesAt entry.2).map (manifest.pieceText source)) =
        manifest.dueHeading entry.2 ++ (source.chapterPortion entry.1).text := by
    have hchapter := List.mem_zipIdx_iff_getElem?.1 hentry
    unfold piecesAt dueHeading
    cases manifest.duePart? entry.2 <;>
      simp [pieceText, hchapter, funext partHeader_eq, String.join_cons]
  rw [mainPieces, List.map_flatMap, join_flatMap]
  congr 1
  exact List.map_congr_left fun entry hentry => hpieces hentry

theorem Manifest.text_eq_dueText_iff (settings : PageSettings) (manifest : Manifest)
    (source : FragmentSource) :
    (assemble settings manifest source).text = manifest.dueText settings source ↔
      manifest.OwnersDiffer := by
  rw [text_assemble, dueText, ← manifest.headings_due_iff, manifest.mainPortion_text,
    manifest.join_mainPieces]
  simp only [String.append_left_inj, String.append_right_inj]
  exact join_eq_iff fun entry hentry =>
    manifest.heading_cases (List.mem_zipIdx_iff_getElem?.1 hentry)

/-- The document has the header of every part that owns a chapter where it is due, each of them
once, and no other header, exactly when the parts that own chapters have different numbers. -/
theorem partHeaders_iff_ownersDiffer (settings : PageSettings) (manifest : Manifest)
    (source : FragmentSource) :
    manifest.LaidOut manifest.mainPieces ∧
      ((assemble settings manifest source).text = manifest.dueText settings source ↔
        manifest.OwnersDiffer) :=
  ⟨manifest.mainPieces_laidOut, manifest.text_eq_dueText_iff settings source⟩

/-- Two parts of one number own a chapter each, and the header of the second one is lost. -/
theorem partHeader_lost :
    let manifest : Manifest :=
      { title := "T", author := "", version := "", frontMatter := []
        parts := [⟨1, "A", [1]⟩, ⟨1, "B", [2]⟩]
        chapters := [⟨1, "a.md", none⟩, ⟨2, "b.md", none⟩], backMatter := [] }
    let source : FragmentSource :=
      ⟨fun _ file => .ok (some (if file = "a.md" then "# First" else "# Second"))⟩
    manifest.mainPieces = [.header 0, .chapter 0, .header 1, .chapter 1] ∧
      (assemble {} manifest source).text ≠ manifest.dueText {} source := by
  intro manifest source
  have hpieces : manifest.mainPieces = [.header 0, .chapter 0, .header 1, .chapter 1] := by
    decide +kernel
  have hfirst : manifest.firstChapter? 0 = some 0 := by decide
  have hsecond : manifest.firstChapter? 1 = some 1 := by decide
  refine ⟨hpieces, fun hdue => ?_⟩
  have hdiffer := (manifest.text_eq_dueText_iff {} source).1 hdue
  have hsame := hdiffer 0 1 _ _ rfl rfl (Option.isSome_of_eq_some hfirst)
    (Option.isSome_of_eq_some hsecond) rfl
  contradiction

end Bindery
