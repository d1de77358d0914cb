import Bindery.Book.Shelf
import Bindery.Proofs.Book.Agreement
import Bindery.Proofs.Book.Confinement
import Bindery.Proofs.Files.Making

namespace Bindery

/-! A shelf of fragments that stands in the section directories of a disk. The same book is made
from either, whatever is in the way of a name that leads to no file. -/

/-- Every segment names an entry of a folder, so that none is dropped or refused on the way. -/
def IsCanonical (file : String) : Prop :=
  ∀ segment ∈ pathSegments file, IsEntryName segment

instance (file : String) : Decidable (IsCanonical file) :=
  inferInstanceAs (Decidable (∀ segment ∈ pathSegments file, IsEntryName segment))

structure Manifest.IsCanonical (manifest : Manifest) : Prop where
  frontMatter : ∀ item ∈ manifest.frontMatter, Bindery.IsCanonical item.file
  chapters : ∀ chapter ∈ manifest.chapters, Bindery.IsCanonical chapter.file
  backMatter : ∀ item ∈ manifest.backMatter, Bindery.IsCanonical item.file

/-- The section directories hold the files of the shelf and no others. One that cannot be found
holds none, and folders may stand anywhere. -/
structure Shelf.StandsIn (shelf : Shelf) (layout : Layout) (disk : Disk) : Prop where
  file {place : Section} {home : Place} {file : String} (content : ByteArray) :
    disk.locate (layout.sectionPath place) = .ok home → IsCanonical file →
      (disk.view (home ++ pathSegments file) = some (.file content) ↔
        (shelf.get? place file).map String.toUTF8 = some content)
  directory {place : Section} {file text : String} :
    IsCanonical file → shelf.get? place file = some text →
      ∃ home, disk.locate (layout.sectionPath place) = .ok home

section Canonical

variable {file : String} (hfile : IsCanonical file)

include hfile

theorem IsCanonical.leadsOutside : leadsOutside file = false := by
  rw [Bool.eq_false_iff, ne_eq, leadsOutside_iff]
  rintro (hroot | hup)
  · have hne : file ≠ "" := by
      rintro rfl
      contradiction
    have habsolute : isAbsolute file = true := by rw [isAbsolute, hroot]; rfl
    have hfirst := List.mem_of_head? ((isAbsolute_iff_head? hne).1 habsolute)
    exact (hfile "" hfirst).ne_empty rfl
  · exact (hfile ".." hup).ne_up rfl

theorem IsCanonical.pathNames : pathNames file = pathSegments file :=
  List.filter_eq_self.2 fun segment hsegment => (hfile segment hsegment).isName

theorem IsCanonical.innerSegments : innerSegments file = pathSegments file := by
  have hne : pathSegments file ≠ [] := by
    rw [pathSegments, ne_eq, List.map_eq_nil_iff]
    exact List.splitOn_ne_nil _ _
  rw [Bindery.innerSegments, hfile.pathNames, if_neg hne]

theorem IsCanonical.nulFree : hasNul (pathSegments file) = false := by
  rw [hasNul, List.any_eq_false]
  intro segment hsegment
  simpa using (hfile segment hsegment).no_nul

variable {disk : Disk} (hlimit : disk.pathLimit? = none) {layout : Layout} {place : Section}
  {home : Place}

include hlimit

/-- A canonical name fetches what is seen at its segments below the section directory. -/
theorem IsCanonical.fetchFragment {text : String}
    (hhome : disk.locate (layout.sectionPath place) = .ok home)
    (hview : disk.view (home ++ pathSegments file) = some (.file text.toUTF8)) :
    fetchFragment disk layout place file = .ok (some text) := by
  have hfollow : disk.view.follow home (pathSegments file) = .ok (home ++ pathSegments file) :=
    Folder.follow_names hfile (Option.isSome_of_eq_some hview)
  have hsection := Disk.nulFree_of_locate hhome
  have hinner : hasNul (pathSegments (layout.innerPath place file)) = false := by
    rw [layout.pathSegments_innerPath, hfile.innerSegments, hasNul_append, hsection, hfile.nulFree]
    rfl
  rw [fetchFragment_inside hfile.leadsOutside, disk.read_eq, layout.locate_innerPath,
    Disk.accept_of_hasNul hlimit hinner, ok_bind, hhome, ok_bind, hfile.innerSegments, hfollow,
    ok_bind, View.read_of_file hview]
  rfl

end Canonical

section StandsIn

variable {shelf : Shelf} {layout : Layout} {disk : Disk} (hstands : shelf.StandsIn layout disk)
  (hlimit : disk.pathLimit? = none)

include hstands hlimit

theorem Shelf.StandsIn.fetch_iff {file : String} (hfile : IsCanonical file) (place : Section)
    (text : String) :
    (layout.source disk).fetch place file = .ok (some text) ↔
      shelf.source.fetch place file = .ok (some text) := by
  change fetchFragment disk layout place file = _ ↔ Except.ok (shelf.get? place file) = _
  constructor
  · intro hfetch
    obtain ⟨home, content, hhome, hview, hdecoded⟩ :=
      file_of_fetchFragment hfile.leadsOutside hfetch
    rw [hfile.pathNames] at hview
    obtain ⟨found, hfound, rfl⟩ := Option.map_eq_some_iff.1 ((hstands.file _ hhome hfile).1 hview)
    rw [hfound, ← hdecoded, fromUTF8?_toUTF8]
  · intro hget
    have hget := Except.ok.inj hget
    obtain ⟨home, hhome⟩ := hstands.directory hfile hget
    have hview := (hstands.file text.toUTF8 hhome hfile).2 (by rw [hget]; rfl)
    exact hfile.fetchFragment hlimit hhome hview

theorem Shelf.StandsIn.read_eq {file : String} (hfile : IsCanonical file) (place : Section) :
    (layout.source disk).read place file = shelf.source.read place file :=
  FragmentSource.read_congr (hstands.fetch_iff hlimit hfile place)

end StandsIn

/-- A manifest of canonical names makes the same book from a disk as from a shelf whose files its
section directories hold. -/
theorem assemble_disk_eq_shelf (settings : PageSettings) {manifest : Manifest}
    (hmanifest : manifest.IsCanonical) {layout : Layout} {disk : Disk}
    (hlimit : disk.pathLimit? = none) {shelf : Shelf} (hstands : shelf.StandsIn layout disk) :
    let fromDisk := assemble settings manifest (layout.source disk)
    let fromShelf := assemble settings manifest shelf.source
    fromDisk.text = fromShelf.text ∧ fromDisk.fragments = fromShelf.fragments ∧
      fromDisk.missing = fromShelf.missing := by
  have halike : manifest.ReadsAlike (layout.source disk) shelf.source := by
    refine ⟨fun item hitem => ?_, fun chapter hchapter => ?_, fun item hitem => ?_⟩
    · exact hstands.read_eq hlimit
        (hmanifest.frontMatter item (List.mem_filter.1 hitem).1) .frontMatter
    · exact hstands.read_eq hlimit (hmanifest.chapters chapter hchapter) .chapters
    · exact hstands.read_eq hlimit (hmanifest.backMatter item hitem) .backMatter
  exact halike.assemble settings

/-! One chapter in a folder of its own, an empty section directory, and one that is not there. -/

def nestedChapter : Shelf :=
  ({} : Shelf).insert .chapters "i/a.md" "# A"

def nestedChapterTree : Folder :=
  [("i", .folder [("a.md", .file "# A".toUTF8)])]

def nestedChapterDisk : Disk where
  tree :=
    [("book", .folder [("front-matter", .folder []), ("chapters", .folder nestedChapterTree)])]
  pathLimit? := none

theorem Folder.view_singleton (first : String) (node : Node) (name : String) (place : Place) :
    Folder.view [(first, node)] (name :: place) =
      if name = first then node.view place else none := by
  rw [view, at?_cons]
  by_cases hname : name = first
  · subst hname
    simp [Node.view]
  · simp [List.lookup_cons, hname, beq_false_of_ne hname]

theorem view_nestedChapterTree (names : Place) (content : ByteArray) :
    nestedChapterTree.view names = some (.file content) ↔
      names = ["i", "a.md"] ∧ "# A".toUTF8 = content := by
  cases names with
  | nil => simp [Folder.view, Node.sight]
  | cons outer names =>
      have hinner : Node.view (.folder [("a.md", .file "# A".toUTF8)]) names =
          Folder.view [("a.md", .file "# A".toUTF8)] names := rfl
      rw [nestedChapterTree, Folder.view_singleton, hinner]
      cases names with
      | nil => simp [Folder.view, Node.sight]
      | cons inner names =>
          rw [Folder.view_singleton]
          cases names <;> simp [Node.view, Node.at?, Node.sight, and_assoc]

theorem nestedChapter_standsIn : nestedChapter.StandsIn {} nestedChapterDisk := by
  have hget (file : String) :
      nestedChapter.get? .chapters file = if file = "i/a.md" then some "# A" else none := by
    split_ifs with hfile
    · rw [hfile]
      rfl
    · exact Shelf.get?_insert_of_ne {} "# A" (by simpa using hfile)
  have hnone {place : Section} (hplace : place ≠ .chapters) (file : String) :
      nestedChapter.get? place file = none :=
    Shelf.get?_insert_of_ne {} "# A" (by simp [hplace])
  refine ⟨@fun place home file content hhome hfile => ?_, @fun place file text hfile htext => ?_⟩
  · cases place with
    | frontMatter =>
        obtain rfl : ["book", "front-matter"] = home := Except.ok.inj hhome
        have hempty : nestedChapterDisk.tree.at? ["book", "front-matter"] = some (.folder []) := rfl
        rw [Disk.view, Folder.view_append_of_at? hempty, hnone (by simp)]
        cases pathSegments file <;> simp [Node.view, Node.at?, Folder.at?_cons, Node.sight]
    | chapters =>
        obtain rfl : ["book", "chapters"] = home := Except.ok.inj hhome
        have htree : nestedChapterDisk.tree.at? ["book", "chapters"] =
            some (.folder nestedChapterTree) := rfl
        have hsegments : pathSegments file = ["i", "a.md"] ↔ file = "i/a.md" :=
          @pathSegments_inj file "i/a.md"
        rw [Disk.view, Folder.view_append_of_at? htree, hget]
        refine (view_nestedChapterTree (pathSegments file) content).trans ?_
        rw [hsegments]
        split_ifs with hfile <;> simp [hfile]
    | backMatter => cases hhome
  · cases place with
    | frontMatter => exact ⟨["book", "front-matter"], rfl⟩
    | chapters => exact ⟨["book", "chapters"], rfl⟩
    | backMatter => simp [hnone] at htext

theorem assemble_disk_eq_shelf_nested :
    let manifest : Manifest :=
      { title := "T", author := "", version := "", parts := []
        frontMatter := [⟨"title.md"⟩, ⟨"a.md"⟩]
        chapters := [⟨1, "i/a.md", none⟩, ⟨2, "i", some "B"⟩, ⟨3, "i/a.md/b", none⟩]
        backMatter := [⟨"i/a.md"⟩] }
    let fromDisk := assemble {} manifest (Layout.source {} nestedChapterDisk)
    let fromShelf := assemble {} manifest nestedChapter.source
    manifest.IsCanonical ∧ nestedChapterDisk.pathLimit? = none ∧
      nestedChapter.StandsIn {} nestedChapterDisk ∧ fromDisk.text = fromShelf.text ∧
      fromDisk.fragments = fromShelf.fragments ∧ fromDisk.missing = fromShelf.missing := by
  intro manifest fromDisk fromShelf
  have hmanifest : manifest.IsCanonical := ⟨by decide, by decide, by decide⟩
  exact ⟨hmanifest, rfl, nestedChapter_standsIn,
    assemble_disk_eq_shelf {} hmanifest rfl nestedChapter_standsIn⟩

end Bindery
