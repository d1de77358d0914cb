import Bindery.Proofs.Book.Description

namespace Bindery

/-! Books from two sources. Only the fragments that are read can be told apart in them: a file that
is not there and one that cannot be read leave the same gap. -/

theorem Fragment.ofFetched_of_none {fetched : Fetched}
    (hnone : ∀ text, fetched ≠ .ok (some text)) (place : Section) (file : String) :
    Fragment.ofFetched place file fetched = ⟨place, file, "", false⟩ := by
  unfold ofFetched
  split
  · rename_i text
    exact absurd rfl (hnone text)
  · rfl

/-- Sources that give the same texts read the same fragment. -/
theorem FragmentSource.read_congr {source other : FragmentSource} {place : Section} {file : String}
    (hfetch : ∀ text, source.fetch place file = .ok (some text) ↔
      other.fetch place file = .ok (some text)) :
    source.read place file = other.read place file := by
  rw [read, read]
  by_cases hsome : ∃ text, source.fetch place file = .ok (some text)
  · obtain ⟨text, htext⟩ := hsome
    rw [htext, (hfetch text).1 htext]
  · have hnone := not_exists.1 hsome
    have hother : ∀ text, other.fetch place file ≠ .ok (some text) :=
      fun text htext => hnone text ((hfetch text).2 htext)
    rw [Fragment.ofFetched_of_none hnone, Fragment.ofFetched_of_none hother]

theorem FragmentSource.holds_eq_found (source : FragmentSource) (place : Section) (file : String) :
    source.holds place file = (source.read place file).found := by
  rw [holds, read]
  cases source.fetch place file with
  | error fault => rfl
  | ok found => cases found <;> rfl

/-- Two sources read the same fragment for every file that the manifest has printed. -/
structure Manifest.ReadsAlike (manifest : Manifest) (source other : FragmentSource) : Prop where
  frontMatter : ∀ item ∈ manifest.printedFrontMatter,
    source.read .frontMatter item.file = other.read .frontMatter item.file
  chapters : ∀ chapter ∈ manifest.chapters,
    source.read .chapters chapter.file = other.read .chapters chapter.file
  backMatter : ∀ item ∈ manifest.backMatter,
    source.read .backMatter item.file = other.read .backMatter item.file

section Portions

variable {source other : FragmentSource}

theorem FragmentSource.textOf?_congr {place : Section} {file : String}
    (hread : source.read place file = other.read place file) :
    source.textOf? place file = other.textOf? place file := by
  cases hempty : (source.read place file).text.isEmpty with
  | true => rw [textOf?_of_isEmpty hempty, textOf?_of_isEmpty (hread ▸ hempty)]
  | false => rw [textOf?_of_not_isEmpty hempty, textOf?_of_not_isEmpty (hread ▸ hempty), hread]

theorem FragmentSource.portion_congr {place : Section} {file : String}
    (hread : source.read place file = other.read place file) (latex? : Option (List Char)) :
    source.portion place file latex? = other.portion place file latex? := by
  rw [portion, portion, holds_eq_found, holds_eq_found, hread]

theorem FragmentSource.matterPortion_congr {place : Section} {item : MatterItem}
    (hread : source.read place item.file = other.read place item.file) :
    source.matterPortion place item = other.matterPortion place item := by
  rw [matterPortion, matterPortion, textOf?_congr hread, portion_congr hread]

theorem FragmentSource.chapterPortion_congr {chapter : Chapter}
    (hread : source.read .chapters chapter.file = other.read .chapters chapter.file) :
    source.chapterPortion chapter = other.chapterPortion chapter := by
  rw [chapterPortion, chapterPortion, textOf?_congr hread, portion_congr hread]

theorem Manifest.ReadsAlike.portion {manifest : Manifest}
    (halike : manifest.ReadsAlike source other) :
    manifest.portion source = manifest.portion other := by
  have hfront : manifest.frontPortion source = manifest.frontPortion other :=
    congrArg Portion.total <| List.map_congr_left fun item hitem =>
      FragmentSource.matterPortion_congr (halike.frontMatter item hitem)
  have hmain : manifest.mainPortion source = manifest.mainPortion other := by
    refine congrArg Portion.total <| List.map_congr_left fun (chapter, index) hchapter => ?_
    have hmem : chapter ∈ manifest.chapters := List.fst_mem_of_mem_zipIdx hchapter
    exact congrArg (Portion.under · _)
      (FragmentSource.chapterPortion_congr (halike.chapters chapter hmem))
  have hback : manifest.backPortion source = manifest.backPortion other :=
    congrArg Portion.total <| List.map_congr_left fun item hitem =>
      FragmentSource.matterPortion_congr (halike.backMatter item hitem)
  rw [Manifest.portion, Manifest.portion, hfront, hmain, hback]

/-- The same fragments make the same book. -/
theorem Manifest.ReadsAlike.assemble {manifest : Manifest}
    (halike : manifest.ReadsAlike source other) (settings : PageSettings) :
    let document := Bindery.assemble settings manifest source
    let otherDocument := Bindery.assemble settings manifest other
    document.text = otherDocument.text ∧ document.fragments = otherDocument.fragments ∧
      document.missing = otherDocument.missing := by
  have hfirst := assemble_gains settings manifest source
  have hsecond := assemble_gains settings manifest other
  rw [← halike.portion] at hsecond
  exact ⟨hfirst.text.trans hsecond.text.symm, hfirst.fragments.trans hsecond.fragments.symm,
    hfirst.missing.trans hsecond.missing.symm⟩

end Portions

end Bindery
