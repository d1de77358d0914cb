import Bindery.Proofs.Book.Confinement
import Bindery.Proofs.Book.Publication
import Bindery.Proofs.Files.Limits

namespace Bindery

/-! A book that is built again. What a build writes is neither the manifest nor below a section
directory, so the next build reads what the first one has read and writes the same. -/

section Publish

variable {layout : Layout} {disk later : Disk} {text : String}

theorem Layout.publish_eq_ok :
    layout.publish disk text = (.ok (), later) ↔
      ∃ made, disk.makeFolders layout.outputFolder = (.ok (), made) ∧
        made.write layout.outputPath text.toUTF8 = .ok later := by
  constructor
  · intro hpublish
    rw [publish] at hpublish
    split at hpublish
    · cases hpublish
    · rename_i made hfolders
      split at hpublish
      · rename_i written hwrite
        exact ⟨made, hfolders, hwrite.trans (congrArg _ (Prod.mk.inj hpublish).2)⟩
      · cases hpublish
  · rintro ⟨made, hfolders, hwrite⟩
    simp only [publish, hfolders, hwrite]

theorem Layout.pathSegments_outputFolder_concat (layout : Layout) :
    pathSegments layout.outputFolder = baseSegments layout.root ++ ["dist"] ++ ["latex"] := by
  rw [layout.pathSegments_outputFolder, List.append_assoc]
  rfl

theorem Layout.keeps_of_publish (hpublish : layout.publish disk text = (.ok (), later)) :
    disk.Keeps later := by
  obtain ⟨made, hfolders, hwrite⟩ := publish_eq_ok.1 hpublish
  exact (Disk.keeps_of_makeFolders hfolders).trans (Disk.keeps_of_write hwrite)

theorem Layout.publish_again (hpublish : layout.publish disk text = (.ok (), later)) :
    layout.publish later text = (.ok (), later) := by
  obtain ⟨made, hfolders, hwrite⟩ := publish_eq_ok.1 hpublish
  have hkeeps := Disk.keeps_of_write hwrite
  exact publish_eq_ok.2 ⟨later,
    hkeeps.makeFolders isEntryName_latex layout.pathSegments_outputFolder_concat hfolders,
    Disk.write_again isEntryName_output layout.pathSegments_outputPath hwrite⟩

theorem Layout.publish_unlimited (hpublish : layout.publish disk text = (.ok (), later)) :
    layout.publish disk.unlimited text = (.ok (), later.unlimited) := by
  obtain ⟨made, hfolders, hwrite⟩ := publish_eq_ok.1 hpublish
  exact publish_eq_ok.2
    ⟨made.unlimited, Disk.makeFolders_unlimited hfolders, Disk.write_unlimited hwrite⟩

/-- A text was published from the root at `home`, where the manifest stands. -/
structure Layout.PublishedFrom (layout : Layout) (disk : Disk) (home : Place) (text : String)
    (later : Disk) : Prop where
  manifest : disk.locate layout.manifestPath = .ok (home ++ ["book.json"])
  follow :
    disk.view.follow [] (disk.start (baseSegments layout.root) ++ baseSegments layout.root) =
      .ok home
  folder : disk.view home = some .folder
  keeps : disk.Keeps later
  view (place : Place) :
    later.view place =
      if place = home ++ ["dist", "latex", "book.tex"] then some (.file text.toUTF8)
      else if place = home ++ ["dist"] ∨ place = home ++ ["dist", "latex"] then some .folder
      else disk.view place

theorem Layout.publishedFrom_of_publish {json : String}
    (hread : disk.read layout.manifestPath = .ok json)
    (hpublish : layout.publish disk text = (.ok (), later)) :
    ∃ home, layout.PublishedFrom disk home text later := by
  have hmanifest := pathSegments_joinPath_name layout.root isEntryName_manifest
  have hpath := joinPath_ne_empty layout.root isEntryName_manifest.ne_empty
  obtain ⟨home, hreaches, hplace⟩ := disk.unlimited.reaches_of_read rfl hpath
    isEntryName_manifest hmanifest (Disk.read_unlimited hread)
  have hlocate : disk.locate layout.manifestPath = .ok (home ++ ["book.json"]) := by
    rw [disk.read_eq] at hread
    obtain ⟨place, hfound, -⟩ := bind_eq_ok.1 hread
    rw [hfound, ← Disk.locate_unlimited hfound]
    exact hplace
  -- What a publication does is known of a disk without a limit, and here it does the same there.
  obtain ⟨error, hfailed, -⟩ | ⟨written, hwritten, hpublished⟩ := publish_cases hreaches text
  · rw [publish_unlimited hpublish] at hfailed
    cases hfailed
  · rw [publish_unlimited hpublish] at hwritten
    obtain rfl := (Prod.mk.inj hwritten).2
    exact ⟨home, hlocate, hreaches.follow, hreaches.folder, keeps_of_publish hpublish,
      hpublished.view⟩

end Publish

section Published

variable {layout : Layout} {disk later : Disk} {home : Place} {text : String}
  (hpublished : layout.PublishedFrom disk home text later)

include hpublished

/-- Beside the output folder nothing has changed. -/
theorem Layout.PublishedFrom.view_of_ne {name : String} (hname : name ≠ "dist") (below : Place) :
    later.view (home ++ name :: below) = disk.view (home ++ name :: below) := by
  rw [hpublished.view]
  simp [hname]

theorem Layout.PublishedFrom.read_manifest :
    later.read layout.manifestPath = disk.read layout.manifestPath := by
  have hlocate : later.locate layout.manifestPath = .ok (home ++ ["book.json"]) :=
    hpublished.keeps.locate hpublished.manifest
  rw [later.read_eq, disk.read_eq, hlocate, hpublished.manifest, ok_bind, ok_bind, View.read,
    View.read, hpublished.view_of_ne (by decide)]

theorem Layout.PublishedFrom.load :
    Manifest.load later layout.manifestPath = Manifest.load disk layout.manifestPath := by
  rw [Manifest.load, Manifest.load, hpublished.read_manifest]

/-- An entry of the root is looked for at the same place before and after. -/
theorem Layout.PublishedFrom.parent (name : String) :
    (∃ fault, later.parent (baseSegments layout.root) name = .error fault ∧
        disk.parent (baseSegments layout.root) name = .error fault) ∨
      later.parent (baseSegments layout.root) name = .ok home ∧
        disk.parent (baseSegments layout.root) name = .ok home := by
  have hfollow := hpublished.keeps.view.follow hpublished.follow
  have hfolder := hpublished.keeps.view.folder hpublished.folder
  rw [Disk.parent, Disk.parent, hpublished.keeps.accept_eq, Disk.start,
    hpublished.keeps.workingPlace]
  rw [Disk.start] at hfollow
  -- A name may make the path too long, with or without the output.
  cases disk.accept (baseSegments layout.root ++ [name]) with
  | error fault => exact .inl ⟨fault, rfl, rfl⟩
  | ok accepted =>
      refine .inr ⟨?_, ?_⟩
      · rw [ok_bind, hfollow, ok_bind, hfolder]
      · rw [ok_bind, hpublished.follow, ok_bind, hpublished.folder]

theorem Layout.PublishedFrom.agreesOn (place : Section) :
    later.AgreesOn disk (layout.sectionPath place) where
  pathLimit? := hpublished.keeps.pathLimit?
  locate := by
    have hname := place.isEntryName_directory
    have hsegments := layout.pathSegments_sectionPath place
    have hdirectory : place.directory ≠ "dist" := by cases place <;> decide
    rw [Disk.locate_concat hname hsegments, Disk.locate_concat hname hsegments]
    obtain ⟨fault, hlater, hdisk⟩ | ⟨hlater, hdisk⟩ := hpublished.parent place.directory
    · rw [hlater, hdisk]
      exact .inl ⟨fault, rfl, rfl⟩
    · rw [hlater, hdisk, ok_bind, ok_bind, hpublished.view_of_ne hdirectory]
      split_ifs
      · exact .inl ⟨.notFound, rfl, rfl⟩
      · refine .inr ⟨home ++ [place.directory], _, rfl, rfl, fun below => ?_⟩
        rw [List.append_assoc]
        exact hpublished.view_of_ne hdirectory below

theorem Layout.PublishedFrom.source : layout.source later = layout.source disk := by
  have hfetch : fetchFragment later layout = fetchFragment disk layout := by
    funext place file
    cases hfile : leadsOutside file with
    | true => rw [fetchFragment_outside hfile, fetchFragment_outside hfile]
    | false =>
        rw [fetchFragment_inside hfile, fetchFragment_inside hfile,
          (hpublished.agreesOn place).read_innerPath hfile]
  rw [Layout.source, Layout.source, hfetch]

end Published

/-- A build that succeeds is repeated by the next one: the same report, the same events, and a disk
on which nothing has changed since. -/
theorem build_idempotent (options : BuildOptions) (disk : Disk) {report : BuildReport}
    (hbuild : (build options disk).result = .ok report) :
    build options (build options disk).disk = build options disk := by
  obtain ⟨manifest, hload, -⟩ := report_of_build hbuild
  obtain ⟨json, hread⟩ := Manifest.read_of_load hload
  obtain ⟨hresult, hdisk⟩ := build_of_load hload
  obtain ⟨later, hpublish⟩ : ∃ later,
      options.layout.publish disk (options.assemble disk manifest).text = (.ok (), later) := by
    rw [hresult] at hbuild
    rcases hpublish : options.layout.publish disk (options.assemble disk manifest).text with
      ⟨error | done, later⟩
    · rw [hpublish] at hbuild
      contradiction
    · exact ⟨later, rfl⟩
  obtain ⟨home, hpublished⟩ := Layout.publishedFrom_of_publish hread hpublish
  have hassemble : options.assemble later manifest = options.assemble disk manifest := by
    rw [BuildOptions.assemble, BuildOptions.assemble, hpublished.source]
  have hagain := Layout.publish_again hpublish
  have hreload := hpublished.load.trans hload
  rw [hdisk, hpublish]
  simp only [build, hload, hreload, hassemble, hpublish, hagain]

theorem build_idempotent_shelved :
    let disk := oneChapter.shelved oneChapterFolder
    (∃ report, (build {} disk).result = .ok report ∧ report.fragments = 1 ∧ report.missing = []) ∧
      build {} (build {} disk).disk = build {} disk := by
  intro disk
  have hreport := @build_shelved_of_lookup oneChapter oneChapterFolder rfl
  exact ⟨⟨_, hreport, rfl, rfl⟩, build_idempotent {} disk hreport⟩

end Bindery
