import Bindery.Book.Build
import Bindery.Proofs.Book.ManifestFormat
import Bindery.Proofs.Files.Making

namespace Bindery

/-! A build writes one file and the folders that hold it, or leaves the disk as it was. -/

/-- A folder that holds a file which can be read is reached by the segments in front of its name. -/
theorem Disk.reaches_of_read {disk : Disk} (hlimit : disk.pathLimit? = none) {path text : String}
    (hpath : path ≠ "") {front : List String} {name : String} (hname : IsEntryName name)
    (hsegments : pathSegments path = front ++ [name]) (hread : disk.read path = .ok text) :
    ∃ home, disk.Reaches front home ∧ disk.locate path = .ok (home ++ [name]) := by
  rw [disk.read_eq] at hread
  obtain ⟨place, hplace, -⟩ := bind_eq_ok.1 hread
  have hfound := hplace
  rw [disk.locate_eq hpath, hsegments] at hfound
  obtain ⟨_, haccepted, hfollow⟩ := bind_eq_ok.1 hfound
  rw [start_append hname, ← List.append_assoc, View.follow_append] at hfollow
  obtain ⟨home, hhome, hlast⟩ := bind_eq_ok.1 hfollow
  rw [View.follow_name hname] at hlast
  have hnul : hasNul front = false := by
    have hwhole := nulFree_of_accept haccepted
    rw [hasNul_append, Bool.or_eq_false_iff] at hwhole
    exact hwhole.1
  split at hlast
  · rename_i hfolder
    split_ifs at hlast
    obtain rfl := Except.ok.inj hlast
    exact ⟨home, ⟨hlimit, hnul, hhome, hfolder⟩, hplace⟩
  · contradiction

theorem isEntryName_manifest : IsEntryName "book.json" := by decide

theorem isEntryName_dist : IsEntryName "dist" := by decide

theorem isEntryName_latex : IsEntryName "latex" := by decide

theorem isEntryName_output : IsEntryName "book.tex" := by decide

section Publish

variable (layout : Layout)

theorem Layout.pathSegments_outputFolder :
    pathSegments layout.outputFolder = baseSegments layout.root ++ ["dist", "latex"] := by
  rw [outputFolder, pathSegments_joinPath_name _ isEntryName_latex,
    baseSegments_joinPath _ isEntryName_dist, List.append_assoc]
  rfl

theorem Layout.pathSegments_outputPath :
    pathSegments layout.outputPath =
      baseSegments layout.root ++ ["dist"] ++ ["latex"] ++ ["book.tex"] := by
  rw [outputPath, outputFolder, pathSegments_joinPath_name _ isEntryName_output,
    baseSegments_joinPath _ isEntryName_latex, baseSegments_joinPath _ isEntryName_dist]

/-- What a disk looks like after a text was published from a root that lies at `home`. -/
structure Layout.Published (disk : Disk) (home : Place) (text : String) (later : Disk) : Prop where
  pathLimit? : later.pathLimit? = disk.pathLimit?
  workingPlace : later.workingPlace = disk.workingPlace
  dist : later.locate (joinPath layout.root "dist") = .ok (home ++ ["dist"])
  outputFolder : later.locate layout.outputFolder = .ok (home ++ ["dist", "latex"])
  outputPath : later.locate layout.outputPath = .ok (home ++ ["dist", "latex", "book.tex"])
  view (place : Place) :
    later.view place =
      if place = home ++ ["dist", "latex", "book.tex"] then some (.file text.toUTF8)
      else if place = home ++ ["dist"] ∨ place = home ++ ["dist", "latex"] then some .folder
      else disk.view place

variable {layout} {disk middle made : Disk} {front : List String} {home : Place}

/-- Where a folder stands under the name of the new file, no folder had to be made. -/
theorem Disk.Provides.unchanged_of_view {name inner file : String}
    (houter : disk.Provides (front ++ [name]) (home ++ [name]) middle)
    (hinner : middle.Provides (front ++ [name] ++ [inner]) (home ++ [name] ++ [inner]) made)
    (hfile : made.view (home ++ [name] ++ [inner] ++ [file]) = some .folder) : made = disk := by
  rw [hinner.view, Function.update_of_ne (by simp)] at hfile
  obtain rfl | hnone := hinner.unchanged
  · obtain rfl | hnone := houter.unchanged
    · rfl
    · rw [houter.view, Function.update_of_ne (by simp)] at hfile
      rw [Disk.view_below (Disk.view_below hnone inner)] at hfile
      cases hfile
  · rw [Disk.view_below hnone] at hfile
    cases hfile

/-- The file is written into the folders that were provided for it. -/
theorem Disk.Provides.published (hreaches : disk.Reaches (baseSegments layout.root) home)
    (houter : disk.Provides (baseSegments layout.root ++ ["dist"]) (home ++ ["dist"]) middle)
    (hinner : middle.Provides (baseSegments layout.root ++ ["dist"] ++ ["latex"])
      (home ++ ["dist"] ++ ["latex"]) made)
    (hfile : made.view (home ++ ["dist"] ++ ["latex"] ++ ["book.tex"]) ≠ some .folder)
    (text : String) :
    layout.Published disk home text
      (made.put (.file text.toUTF8) (home ++ ["dist"] ++ ["latex"] ++ ["book.tex"])) := by
  have hparent := hinner.reaches.parent isEntryName_output
  have hput := Disk.view_put_file isEntryName_output hparent hfile text.toUTF8
  generalize hwritten :
    made.put (.file text.toUTF8) (home ++ ["dist"] ++ ["latex"] ++ ["book.tex"]) = written at hput ⊢
  have hlast : made.view.Keeps written.view := by
    rw [hput]
    exact View.keeps_update _ fun hfolder => absurd hfolder hfile
  have hlimit : written.pathLimit? = none := by
    rw [← hwritten]
    exact hinner.reaches.pathLimit?
  have hworking : written.workingPlace = middle.workingPlace := by
    rw [← hwritten]
    exact hinner.workingPlace
  have hbelow := hinner.keeps.trans hlast
  have hstart := hworking.trans houter.workingPlace
  have hhome := hreaches.keeps hlimit hstart (houter.keeps.trans hbelow)
  have hdist := houter.reaches.keeps hlimit hworking hbelow
  have hlatex := hinner.reaches.keeps hlimit (hworking.trans hinner.workingPlace.symm) hlast
  have hview (place : Place) :
      written.view place =
        if place = home ++ ["dist", "latex", "book.tex"] then some (.file text.toUTF8)
        else if place = home ++ ["dist"] ∨ place = home ++ ["dist", "latex"] then some .folder
        else disk.view place := by
    rw [hput, hinner.view, houter.view]
    simp only [List.append_assoc, List.cons_append, List.nil_append, Function.update_apply]
    by_cases hplace : place = home ++ ["dist", "latex"]
    · simp [hplace]
    · simp [hplace]
  exact
    { pathLimit? := hlimit.trans hreaches.pathLimit?.symm
      workingPlace := hstart
      dist := hhome.locate isEntryName_dist (pathSegments_joinPath_name _ isEntryName_dist)
        (by rw [hdist.folder]; rfl)
      outputFolder := by
        have hsegments := layout.pathSegments_outputFolder
        rw [List.append_cons] at hsegments
        have hlocate := hdist.locate isEntryName_latex hsegments (by rw [hlatex.folder]; rfl)
        simpa using hlocate
      outputPath := by
        have hlocate := hlatex.locate isEntryName_output layout.pathSegments_outputPath
          (by rw [hput, Function.update_self]; rfl)
        simpa using hlocate
      view := hview }

/-- Below a root that is reached a text is published, or nothing is changed because of what stands
where the folders or the file should be. -/
theorem Layout.publish_cases (hreaches : disk.Reaches (baseSegments layout.root) home)
    (text : String) :
    (∃ error, layout.publish disk text = (.error error, disk) ∧
        disk.view (home ++ ["dist"]) ≠ none) ∨
      ∃ later, layout.publish disk text = (.ok (), later) ∧
        layout.Published disk home text later := by
  rw [publish]
  obtain ⟨fault, hfolders, hsome⟩ | ⟨middle, made, hfolders, houter, hinner⟩ :=
    hreaches.makeFolders isEntryName_dist isEntryName_latex layout.pathSegments_outputFolder
  · rw [hfolders]
    exact .inl ⟨_, rfl, hsome⟩
  have hparent := hinner.reaches.parent isEntryName_output
  have hwrite := @Disk.write_eq made _ _ isEntryName_output _ layout.pathSegments_outputPath
    text.toUTF8
  rw [hparent, ok_bind] at hwrite
  rw [hfolders]
  by_cases hfile : made.view (home ++ ["dist"] ++ ["latex"] ++ ["book.tex"]) = some .folder
  · rw [hfile] at hwrite
    simp only [hwrite]
    obtain rfl := houter.unchanged_of_view hinner hfile
    refine .inl ⟨_, rfl, fun hnone => ?_⟩
    rw [Disk.view_below (Disk.view_below hnone "latex")] at hfile
    cases hfile
  · split at hwrite
    · rename_i hfolder
      exact absurd hfolder hfile
    · simp only [hwrite]
      exact .inr ⟨_, rfl, houter.published hreaches hinner hfile text⟩

/-- A first text is published wherever the root is reached. -/
theorem Layout.publish_of_none (hreaches : disk.Reaches (baseSegments layout.root) home)
    (hnone : disk.view (home ++ ["dist"]) = none) (text : String) :
    ∃ later, layout.publish disk text = (.ok (), later) := by
  obtain ⟨_, -, hsome⟩ | ⟨later, hpublish, -⟩ := publish_cases hreaches text
  · exact absurd hnone hsome
  · exact ⟨later, hpublish⟩

/-- What was published is read at the output path. -/
theorem Layout.read_of_publish {text : String} {later : Disk}
    (hpublish : layout.publish disk text = (.ok (), later)) :
    later.read layout.outputPath = .ok text := by
  rw [publish] at hpublish
  split at hpublish
  · cases hpublish
  · split at hpublish
    · rename_i hwrite
      obtain rfl := (Prod.mk.inj hpublish).2
      exact Disk.read_of_write isEntryName_output layout.pathSegments_outputPath hwrite
    · cases hpublish

end Publish

section Build

variable {options : BuildOptions} {disk : Disk} {manifest : Manifest}

/-- What is reported of a manifest and the document that is assembled from it. -/
def BuildOptions.report (options : BuildOptions) (disk : Disk) (manifest : Manifest) :
    BuildReport where
  title := manifest.title
  outputPath := options.layout.outputPath
  fragments := (options.assemble disk manifest).fragments
  missing := (options.assemble disk manifest).missing
  issues := manifest.issues

theorem Manifest.read_of_load {path : String} (hload : Manifest.load disk path = .ok manifest) :
    ∃ text, disk.read path = .ok text := by
  rw [load] at hload
  split at hload
  · contradiction
  · contradiction
  · rename_i text hread
    exact ⟨text, hread⟩

theorem build_of_no_manifest {error : ManifestError}
    (hload : Manifest.load disk options.layout.manifestPath = .error error) :
    (build options disk).result = .error (.manifest error) ∧ (build options disk).disk = disk := by
  simp only [build, hload, and_self]

theorem build_of_load (hload : Manifest.load disk options.layout.manifestPath = .ok manifest) :
    let published := options.layout.publish disk (options.assemble disk manifest).text
    (build options disk).result = published.1.map (fun _ => options.report disk manifest) ∧
      (build options disk).disk = published.2 := by
  simp only [build, hload]
  rcases options.layout.publish disk (options.assemble disk manifest).text with ⟨result, later⟩
  cases result <;> exact ⟨rfl, rfl⟩

theorem report_of_build {report : BuildReport} (hbuild : (build options disk).result = .ok report) :
    ∃ manifest, Manifest.load disk options.layout.manifestPath = .ok manifest ∧
      report = options.report disk manifest := by
  cases hload : Manifest.load disk options.layout.manifestPath with
  | error error =>
      rw [(build_of_no_manifest hload).1] at hbuild
      contradiction
  | ok manifest =>
      rw [(build_of_load hload).1] at hbuild
      refine ⟨manifest, rfl, ?_⟩
      cases hpublish : (options.layout.publish disk (options.assemble disk manifest).text).1 with
      | error error =>
          rw [hpublish] at hbuild
          contradiction
      | ok done =>
          rw [hpublish] at hbuild
          exact (Except.ok.inj hbuild).symm

theorem read_output_of_build {report : BuildReport}
    (hload : Manifest.load disk options.layout.manifestPath = .ok manifest)
    (hbuild : (build options disk).result = .ok report) :
    (build options disk).disk.read options.layout.outputPath =
      .ok (options.assemble disk manifest).text := by
  obtain ⟨hresult, hdisk⟩ := build_of_load hload
  rw [hresult] at hbuild
  rw [hdisk]
  cases hpublish : options.layout.publish disk (options.assemble disk manifest).text with
  | mk published later =>
      rw [hpublish] at hbuild
      cases published with
      | error error => contradiction
      | ok done => exact Layout.read_of_publish hpublish

end Build

/-- A build that fails leaves the disk as it was. One that succeeds changes the output file and the
two folders that hold it, and reports on the manifest and the fragments that stood there before. -/
theorem build_all_or_nothing (options : BuildOptions) (disk : Disk)
    (hlimit : disk.pathLimit? = none) :
    (∀ error, (build options disk).result = .error error → (build options disk).disk = disk) ∧
      ∀ report, (build options disk).result = .ok report →
        ∃ home manifest, disk.locate options.layout.manifestPath = .ok (home ++ ["book.json"]) ∧
          Manifest.load disk options.layout.manifestPath = .ok manifest ∧
          options.layout.Published disk home (options.assemble disk manifest).text
            (build options disk).disk ∧
          report = options.report disk manifest := by
  cases hload : Manifest.load disk options.layout.manifestPath with
  | error fault =>
      obtain ⟨hresult, hdisk⟩ := build_of_no_manifest hload
      rw [hresult, hdisk]
      exact ⟨fun _ _ => rfl, fun _ hreport => by contradiction⟩
  | ok manifest =>
      obtain ⟨text, hread⟩ := Manifest.read_of_load hload
      obtain ⟨home, hreaches, hplace⟩ := disk.reaches_of_read hlimit
        (joinPath_ne_empty options.layout.root isEntryName_manifest.ne_empty) isEntryName_manifest
        (pathSegments_joinPath_name options.layout.root isEntryName_manifest) hread
      obtain ⟨hresult, hdisk⟩ := build_of_load hload
      rw [hresult, hdisk]
      obtain ⟨error, hpublish, -⟩ | ⟨later, hpublish, hpublished⟩ :=
        Layout.publish_cases hreaches (options.assemble disk manifest).text
      · rw [hpublish]
        exact ⟨fun _ _ => rfl, fun _ hreport => by contradiction⟩
      · rw [hpublish]
        refine ⟨fun _ hreport => by contradiction, fun report hreport => ?_⟩
        exact ⟨home, manifest, hplace, rfl, hpublished, (Except.ok.inj hreport).symm⟩

/-! A book of which nothing but the manifest and some other entries are there. -/

def Manifest.shelved (manifest : Manifest) (others : Folder) : Disk where
  tree :=
    [("book", .folder (("book.json", .file (String.ofList manifest.json).toUTF8) :: others))]
  pathLimit? := none

theorem Manifest.locate_shelved (manifest : Manifest) (others : Folder) :
    (manifest.shelved others).locate "book/book.json" = .ok ["book", "book.json"] := rfl

theorem Manifest.load_shelved (manifest : Manifest) (others : Folder) :
    Manifest.load (manifest.shelved others) "book/book.json" = .ok manifest :=
  load_of_file (manifest.locate_shelved others) rfl

theorem build_shelved_of_lookup (manifest : Manifest) {others : Folder}
    (hdist : others.lookup "dist" = none) :
    (build {} (manifest.shelved others)).result =
      .ok (BuildOptions.report {} (manifest.shelved others) manifest) := by
  have hreaches : (manifest.shelved others).Reaches (baseSegments "book") ["book"] :=
    ⟨rfl, rfl, rfl, rfl⟩
  have hbook : (manifest.shelved others).tree.at? ["book"] = some (.folder
      (("book.json", .file (String.ofList manifest.json).toUTF8) :: others)) := rfl
  have hnone : (manifest.shelved others).view (["book"] ++ ["dist"]) = none := by
    rw [← Disk.lookup_eq_view hbook]
    exact congrArg (Option.map Node.sight) hdist
  obtain ⟨later, hpublish⟩ := @Layout.publish_of_none {} (manifest.shelved others) _ hreaches hnone
    (BuildOptions.assemble {} (manifest.shelved others) manifest).text
  rw [(@build_of_load {} (manifest.shelved others) manifest (manifest.load_shelved _)).1, hpublish]
  rfl

theorem build_shelved (manifest : Manifest) :
    (build {} (manifest.shelved [])).result =
      .ok (BuildOptions.report {} (manifest.shelved []) manifest) :=
  build_shelved_of_lookup manifest rfl

/-- A book of one chapter, which is there. -/
def oneChapter : Manifest :=
  ⟨"T", "", "", [], [], [⟨1, "a.md", none⟩], []⟩

def oneChapterFolder : Folder :=
  [("chapters", .folder [("a.md", .file "# A".toUTF8)])]

theorem build_all_or_nothing_shelved :
    let disk := oneChapter.shelved oneChapterFolder
    let blocked := oneChapter.shelved (("dist", .file "".toUTF8) :: oneChapterFolder)
    (∃ report, (build {} disk).result = .ok report ∧ report.title = "T" ∧
        report.fragments = 1 ∧ report.missing = []) ∧
      (build {} disk).disk.view ["book", "dist", "latex", "book.tex"] =
        some (.file (BuildOptions.assemble {} disk oneChapter).text.toUTF8) ∧
      (∃ error, (build {} blocked).result = .error error) ∧ (build {} blocked).disk = blocked := by
  intro disk blocked
  have hrefused (text : String) :
      ∃ error, Layout.publish {} blocked text = (.error error, blocked) := by
    have hfolders : blocked.makeFolders (Layout.outputFolder {}) =
        (.error .notDirectory, blocked) := rfl
    rw [Layout.publish, hfolders]
    exact ⟨_, rfl⟩
  obtain ⟨error, hfailed⟩ := hrefused (BuildOptions.assemble {} blocked oneChapter).text
  have herror : (build {} blocked).result = .error error := by
    rw [(@build_of_load {} blocked oneChapter (oneChapter.load_shelved _)).1, hfailed]
    rfl
  obtain ⟨-, hsucceeds⟩ := build_all_or_nothing {} disk rfl
  obtain ⟨hfails, -⟩ := build_all_or_nothing {} blocked rfl
  have hreport := @build_shelved_of_lookup oneChapter oneChapterFolder rfl
  obtain ⟨home, loaded, hhome, hagain, hafter, -⟩ := hsucceeds _ hreport
  obtain rfl : loaded = oneChapter := Except.ok.inj (hagain.symm.trans (oneChapter.load_shelved _))
  have hplace : home ++ ["book.json"] = ["book"] ++ ["book.json"] :=
    Except.ok.inj (hhome.symm.trans (oneChapter.locate_shelved _))
  obtain rfl : home = ["book"] := List.append_cancel_right hplace
  exact ⟨⟨_, hreport, rfl, rfl, rfl⟩, hafter.view _, ⟨error, herror⟩, hfails error herror⟩

end Bindery
