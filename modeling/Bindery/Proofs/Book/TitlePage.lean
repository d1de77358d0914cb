import Bindery.Proofs.Book.Agreement
import Bindery.Proofs.Book.Confinement
import Bindery.Proofs.Book.Publication
import Bindery.Proofs.Book.Recording

namespace Bindery

/-! The file that the title page replaces. It stays out of a book as long as the manifest names it
in no other spelling than the one that is left out. -/

/-- Nothing is different on two disks but whether the title page file of a book stands on them, and
what it holds. -/
structure Layout.DifferAtTitlePage (layout : Layout) (disk other : Disk) : Prop where
  pathLimit? : disk.pathLimit? = other.pathLimit?
  workingPlace : disk.workingPlace = other.workingPlace
  view {place : Place} : disk.view place ≠ other.view place →
    disk.view place ≠ some .folder ∧ other.view place ≠ some .folder ∧
      ∃ home, disk.locate (layout.sectionPath .frontMatter) = .ok home ∧
        place = home ++ ["title.md"]

section Differ

variable {layout : Layout} {disk other : Disk} (hdiffer : layout.DifferAtTitlePage disk other)

include hdiffer

theorem Layout.DifferAtTitlePage.folder_iff (place : Place) :
    disk.view place = some .folder ↔ other.view place = some .folder := by
  by_cases hsame : disk.view place = other.view place
  · rw [hsame]
  · obtain ⟨hdisk, hother, -⟩ := hdiffer.view hsame
    exact iff_of_false hdisk hother

/-- A path leads to the same place on both disks, if something stands there. -/
theorem Layout.DifferAtTitlePage.locate {path : String} {place : Place}
    (hplace : disk.locate path = .ok place) (hsome : (other.view place).isSome = true) :
    other.locate path = .ok place := by
  have hpath : path ≠ "" := by
    rintro rfl
    contradiction
  have haccept : other.accept (pathSegments path) = disk.accept (pathSegments path) := by
    rw [Disk.accept, Disk.accept, hdiffer.pathLimit?]
  have hstart : other.start (pathSegments path) = disk.start (pathSegments path) := by
    rw [Disk.start, Disk.start, hdiffer.workingPlace]
  rw [disk.locate_eq hpath] at hplace
  obtain ⟨_, haccepted, hfollow⟩ := bind_eq_ok.1 hplace
  rw [other.locate_eq hpath, haccept, haccepted, ok_bind, hstart]
  exact View.follow_of_folders (fun place => (hdiffer.folder_iff place).1) hfollow hsome

theorem Layout.DifferAtTitlePage.symm : layout.DifferAtTitlePage other disk where
  pathLimit? := hdiffer.pathLimit?.symm
  workingPlace := hdiffer.workingPlace.symm
  view {place} hne := by
    obtain ⟨hdisk, hother, home, hhome, rfl⟩ := hdiffer.view (Ne.symm hne)
    -- One of the disks has the file, so its folder stands on both.
    refine ⟨hother, hdisk, home, hdiffer.locate hhome ?_, rfl⟩
    by_cases hfolder : other.view home = some .folder
    · rw [hfolder]
      rfl
    · have hbefore := Folder.view_append_cons (mt (hdiffer.folder_iff home).1 hfolder) "title.md" []
      have hafter := Folder.view_append_cons hfolder "title.md" []
      exact absurd (hafter.trans hbefore.symm) hne

/-- What is read anywhere but at the title page is read alike. -/
theorem Layout.DifferAtTitlePage.read {path text : String} (hread : disk.read path = .ok text)
    (helsewhere : ∀ place home, disk.locate path = .ok place →
      disk.locate (layout.sectionPath .frontMatter) = .ok home → place ≠ home ++ ["title.md"]) :
    other.read path = .ok text := by
  rw [disk.read_eq] at hread
  obtain ⟨place, hplace, hread⟩ := bind_eq_ok.1 hread
  have hsame : disk.view place = other.view place := by
    by_contra hne
    obtain ⟨-, -, home, hhome, htitle⟩ := hdiffer.view hne
    exact helsewhere place home hplace hhome htitle
  obtain ⟨content, hcontent, -⟩ := View.file_of_read hread
  have hother : other.locate path = .ok place :=
    hdiffer.locate hplace (by rw [← hsame, hcontent]; rfl)
  rw [other.read_eq, hother, ok_bind, ← hread, View.read, View.read, hsame]

theorem Layout.DifferAtTitlePage.load {manifest : Manifest}
    (hload : Manifest.load disk layout.manifestPath = .ok manifest) :
    Manifest.load other layout.manifestPath = .ok manifest := by
  obtain ⟨text, hread⟩ := Manifest.read_of_load hload
  have hother : other.read layout.manifestPath = .ok text := by
    refine hdiffer.read hread fun place home hplace _ htitle => ?_
    obtain ⟨parent, -, rfl⟩ := Disk.parent_of_locate isEntryName_manifest
      (pathSegments_joinPath_name layout.root isEntryName_manifest) hplace
    exact absurd (List.append_inj' htitle rfl).2 (by decide)
  rw [Manifest.load, hread] at hload
  rw [Manifest.load, hother]
  exact hload

/-- A fragment is read at the title page only by a front matter name that leads to it. -/
theorem Layout.DifferAtTitlePage.fetch {place : Section} {file text : String}
    (helsewhere : place = .frontMatter → leadsOutside file = false →
      pathNames file ≠ ["title.md"])
    (hfetch : fetchFragment disk layout place file = .ok (some text)) :
    fetchFragment other layout place file = .ok (some text) := by
  cases hfile : leadsOutside file with
  | true => rw [fetchFragment_outside hfile] at hfetch; contradiction
  | false =>
      rw [fetchFragment_inside hfile, Fetched.ofRead_eq_some] at hfetch ⊢
      refine hdiffer.read hfetch fun found home hfound hhome htitle => ?_
      obtain ⟨there, hthere, rfl⟩ := Layout.place_of_locate_innerPath hfile hfound
      obtain ⟨root, rfl, rfl⟩ := Layout.section_of_locate hthere hhome
      rw [List.append_assoc, List.append_assoc, List.append_cancel_left_eq] at htitle
      obtain ⟨hdirectory, hnames⟩ := List.cons.inj htitle
      refine helsewhere ?_ hfile hnames
      cases place with
      | frontMatter => rfl
      | chapters | backMatter => exact absurd hdirectory (by decide)

end Differ

/-- No front matter name leads to the title page file but the one that is left out. -/
def Manifest.SpellsTitlePage (manifest : Manifest) : Prop :=
  ∀ item ∈ manifest.frontMatter, leadsOutside item.file = false →
    pathNames item.file = ["title.md"] → item.file = "title.md"

theorem Layout.DifferAtTitlePage.readsAlike {layout : Layout} {disk other : Disk}
    (hdiffer : layout.DifferAtTitlePage disk other) {manifest : Manifest}
    (hspelled : manifest.SpellsTitlePage) :
    manifest.ReadsAlike (layout.source disk) (layout.source other) := by
  have hread {place : Section} {file : String}
      (helsewhere : place = .frontMatter → leadsOutside file = false →
        pathNames file ≠ ["title.md"]) :
      (layout.source disk).read place file = (layout.source other).read place file :=
    FragmentSource.read_congr fun _ => ⟨hdiffer.fetch helsewhere, hdiffer.symm.fetch helsewhere⟩
  refine ⟨fun item hitem => hread fun _ hinside hnames => ?_, fun chapter _ => hread (by simp),
    fun item _ => hread (by simp)⟩
  obtain ⟨hmem, hprinted⟩ := List.mem_filter.1 hitem
  simp [MatterItem.isTitlePage, hspelled item hmem hinside hnames] at hprinted

/-- A disk on which the title page file was put, where no folder stands in its place. -/
theorem Layout.differAtTitlePage_put {layout : Layout} {disk : Disk} {home : Place}
    (hhome : disk.locate (layout.sectionPath .frontMatter) = .ok home)
    (hfolder : disk.view home = some .folder)
    (hplace : disk.view (home ++ ["title.md"]) ≠ some .folder) (content : ByteArray) :
    layout.DifferAtTitlePage disk (disk.put (.file content) (home ++ ["title.md"])) where
  pathLimit? := rfl
  workingPlace := rfl
  view {place} hne := by
    have hview : (disk.put (.file content) (home ++ ["title.md"])).view =
        Function.update disk.view (home ++ ["title.md"]) (some (.file content)) :=
      Folder.view_put hfolder hplace fun _ _ => rfl
    rw [hview] at hne ⊢
    obtain rfl : place = home ++ ["title.md"] := by
      by_contra hother
      exact hne (Function.update_of_ne hother _ _).symm
    rw [Function.update_self]
    exact ⟨hplace, by simp, home, hhome, rfl⟩

/-! A book of which the front matter is there, if nothing else but the manifest. -/

def Manifest.withFront (manifest : Manifest) (entries : Folder) : Disk :=
  manifest.shelved [("front-matter", .folder entries)]

def titlePage : Folder :=
  [("title.md", .file "# T".toUTF8)]

section WithFront

variable (manifest : Manifest)

theorem Manifest.differAtTitlePage :
    Layout.DifferAtTitlePage {} (manifest.withFront []) (manifest.withFront titlePage) := by
  have hhome : (manifest.withFront []).locate (Layout.sectionPath {} .frontMatter) =
      .ok ["book", "front-matter"] := rfl
  have hnone : (manifest.withFront []).view (["book", "front-matter"] ++ ["title.md"]) = none := rfl
  exact Layout.differAtTitlePage_put hhome rfl (by rw [hnone]; simp) "# T".toUTF8

theorem Manifest.build_withFront (entries : Folder) :
    (build {} (manifest.withFront entries)).result =
      .ok (BuildOptions.report {} (manifest.withFront entries) manifest) :=
  build_shelved_of_lookup manifest rfl

variable {manifest} {item : MatterItem} (hitem : item ∈ manifest.printedFrontMatter)
  (hinside : leadsOutside item.file = false) (hnames : pathNames item.file = ["title.md"])

include hitem hinside hnames

/-- Another spelling of the title page tells whether the file is there. -/
theorem Manifest.mem_missing_withFront (entries : Folder) :
    Section.frontMatter.label item.file ∈
        (BuildOptions.report {} (manifest.withFront entries) manifest).missing ↔
      (Layout.source {} (manifest.withFront entries)).holds .frontMatter "title.md" = false := by
  let source := Layout.source {} (manifest.withFront entries)
  have htitle : leadsOutside "title.md" = false := by decide
  have hsame : pathNames item.file = pathNames "title.md" := hnames.trans (by decide)
  have hfetch : source.fetch .frontMatter item.file = source.fetch .frontMatter "title.md" :=
    fetchFragment_congr hinside htitle hsame (manifest.withFront entries)
  have hholds : source.holds .frontMatter item.file = source.holds .frontMatter "title.md" := by
    rw [FragmentSource.holds, FragmentSource.holds, hfetch]
  have hmissing := (assemble_records {} manifest source).missing
  rw [List.nil_append] at hmissing
  change _ ∈ (assemble {} manifest source).missing ↔ source.holds .frontMatter "title.md" = false
  rw [hmissing, FragmentSource.mem_missing, hholds]
  refine and_iff_right (List.mem_append_left _ (List.mem_append_left _ ?_))
  exact List.mem_map_of_mem hitem

end WithFront

/-- The title page file stays out of every book of a manifest exactly when the front matter names it
in the one spelling that is left out. Any other spelling that leads to it prints or misses it. -/
theorem titlePage_hidden_iff (manifest : Manifest) :
    (∀ (options : BuildOptions) (disk other : Disk) (report otherReport : BuildReport),
        options.layout.DifferAtTitlePage disk other →
        Manifest.load disk options.layout.manifestPath = .ok manifest →
        (build options disk).result = .ok report →
        (build options other).result = .ok otherReport →
        report.fragments = otherReport.fragments ∧ report.missing = otherReport.missing ∧
          ∃ text, (build options disk).disk.read options.layout.outputPath = .ok text ∧
            (build options other).disk.read options.layout.outputPath = .ok text) ↔
      manifest.SpellsTitlePage := by
  constructor
  · intro hhidden item hitem hinside hnames
    by_contra hspelling
    have hprinted : item ∈ manifest.printedFrontMatter :=
      List.mem_filter.2 ⟨hitem, by simp [MatterItem.isTitlePage, hspelling]⟩
    obtain ⟨-, hmissing, -⟩ := hhidden {} _ _ _ _ manifest.differAtTitlePage
      (manifest.load_shelved _) (manifest.build_withFront []) (manifest.build_withFront titlePage)
    have hlost := (Manifest.mem_missing_withFront hprinted hinside hnames []).2 rfl
    rw [hmissing] at hlost
    have hheld := (Manifest.mem_missing_withFront hprinted hinside hnames titlePage).1 hlost
    cases hheld
  · intro hspelled options disk other report otherReport hdiffer hload hbuild hother
    have hotherLoad := hdiffer.load hload
    obtain ⟨loaded, hloaded, rfl⟩ := report_of_build hbuild
    obtain rfl := Except.ok.inj (hloaded.symm.trans hload)
    obtain ⟨otherLoaded, hotherLoaded, rfl⟩ := report_of_build hother
    obtain rfl := Except.ok.inj (hotherLoaded.symm.trans hotherLoad)
    have hread := read_output_of_build hload hbuild
    have hotherRead := read_output_of_build hotherLoad hother
    obtain ⟨htext, hfragments, hmissing⟩ :=
      (hdiffer.readsAlike hspelled).assemble options.settings
    refine ⟨hfragments, hmissing, _, hread, ?_⟩
    rw [hotherRead, BuildOptions.assemble, BuildOptions.assemble, htext]

/-- A dot in front of the name, and the title page is printed where it stands. -/
theorem titlePage_printed :
    let manifest : Manifest :=
      { title := "T", author := "", version := "v", frontMatter := [⟨"./title.md"⟩], parts := []
        chapters := [], backMatter := [] }
    let disk := manifest.withFront []
    let other := manifest.withFront titlePage
    Layout.DifferAtTitlePage {} disk other ∧ Manifest.load disk "book/book.json" = .ok manifest ∧
      ∃ report otherReport, (build {} disk).result = .ok report ∧
        (build {} other).result = .ok otherReport ∧
        report.fragments = 0 ∧ otherReport.fragments = 1 ∧
        report.missing = ["front-matter/./title.md"] ∧ otherReport.missing = [] := by
  intro manifest disk other
  exact ⟨manifest.differAtTitlePage, manifest.load_shelved _, _, _, manifest.build_withFront _,
    manifest.build_withFront _, rfl, rfl, rfl, rfl⟩

end Bindery
