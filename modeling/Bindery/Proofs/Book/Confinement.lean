import Bindery.Book.Folder
import Bindery.Proofs.Files.DiskView

namespace Bindery

/-! A fragment is read inside its section directory: names that lead outside are refused, and what
any other name gives depends only on what is seen in that directory. -/

/-- A path fails alike on two disks, or leads to places below which the same is seen. -/
structure Disk.AgreesOn (disk other : Disk) (path : String) : Prop where
  pathLimit? : disk.pathLimit? = other.pathLimit?
  locate :
    (∃ fault, disk.locate path = .error fault ∧ other.locate path = .error fault) ∨
      ∃ place there, disk.locate path = .ok place ∧ other.locate path = .ok there ∧
        ∀ below, disk.view (place ++ below) = other.view (there ++ below)

/-- What a source answers where a file was to be read: nothing where there is none. -/
def Fetched.ofRead : Except FileFault String → Fetched
  | .ok text => .ok (some text)
  | .error .notFound => .ok none
  | .error fault => .error fault

theorem Fetched.ofRead_eq_some {result : Except FileFault String} {text : String} :
    ofRead result = .ok (some text) ↔ result = .ok text := by
  cases result with
  | ok found => simp [ofRead]
  | error fault => cases fault <;> simp [ofRead]

theorem leadsOutside_iff (file : String) :
    leadsOutside file = true ↔ file.toList.head? = some '/' ∨ ".." ∈ pathSegments file := by
  simp [leadsOutside, isAbsolute]

theorem Section.isEntryName_directory (place : Section) : IsEntryName place.directory := by
  cases place <;> decide

section Names

variable (layout : Layout) (place : Section) (file : String)

/-- The path of a fragment that is looked for inside its section directory. -/
def Layout.innerPath : String :=
  joinPath (layout.sectionPath place) ("/".intercalate (pathNames file))

/-- The segments of an inner path behind its section directory; a file without a name asks for the
directory itself. -/
def innerSegments : List String :=
  if pathNames file = [] then [""] else pathNames file

theorem isAbsolute_intercalate_pathNames :
    isAbsolute ("/".intercalate (pathNames file)) = false := by
  cases hnames : pathNames file with
  | nil => rfl
  | cons name names =>
      have hname : name ∈ pathNames file := hnames ▸ List.mem_cons_self
      have hslash := no_slash_of_mem_pathNames hname
      have hne : name ≠ "" := by
        rintro rfl
        exact absurd (isName_of_mem_pathNames hname) (by decide)
      cases hletters : name.toList with
      | nil => exact absurd (String.toList_eq_nil_iff.1 hletters) hne
      | cons c letters =>
          have hc : c ≠ '/' := by
            rintro rfl
            exact hslash (hletters ▸ List.mem_cons_self)
          have hhead : ("/".intercalate (name :: names)).toList.head? = some c := by
            rw [String.toList_intercalate, List.map_cons, hletters]
            cases names <;> rfl
          rw [isAbsolute, hhead]
          simpa using hc

theorem Layout.pathSegments_sectionPath :
    pathSegments (layout.sectionPath place) = baseSegments layout.root ++ [place.directory] :=
  pathSegments_joinPath_name layout.root place.isEntryName_directory

theorem Layout.pathSegments_innerPath :
    pathSegments (layout.innerPath place file) =
      pathSegments (layout.sectionPath place) ++ innerSegments file := by
  rw [innerPath, pathSegments_joinPath _ (isAbsolute_intercalate_pathNames file),
    layout.pathSegments_sectionPath, sectionPath,
    baseSegments_joinPath _ place.isEntryName_directory,
    pathSegments_intercalate fun name hname => no_slash_of_mem_pathNames hname]
  rfl

theorem Layout.pathNames_innerPath :
    pathNames (layout.innerPath place file) =
      pathNames (layout.sectionPath place) ++ pathNames file := by
  have hinner : (innerSegments file).filter isName = pathNames file := by
    rw [innerSegments]
    split_ifs with hnone
    · rw [hnone]
      decide
    · exact List.filter_eq_self.2 fun name hname => isName_of_mem_pathNames hname
  rw [pathNames, layout.pathSegments_innerPath, List.filter_append, hinner]
  rfl

/-- Section directories stand side by side. -/
theorem Layout.section_of_locate {layout : Layout} {disk : Disk} {place other : Section}
    {home there : Place} (hhome : disk.locate (layout.sectionPath place) = .ok home)
    (hthere : disk.locate (layout.sectionPath other) = .ok there) :
    ∃ root, home = root ++ [place.directory] ∧ there = root ++ [other.directory] := by
  obtain ⟨root, hroot, rfl⟩ := Disk.parent_of_locate place.isEntryName_directory
    (layout.pathSegments_sectionPath place) hhome
  obtain ⟨base, hbase, rfl⟩ := Disk.parent_of_locate other.isEntryName_directory
    (layout.pathSegments_sectionPath other) hthere
  obtain ⟨-, hfollow, -⟩ := Disk.parent_iff.1 hroot
  obtain ⟨-, hagain, -⟩ := Disk.parent_iff.1 hbase
  obtain rfl := Except.ok.inj (hfollow.symm.trans hagain)
  exact ⟨root, rfl, rfl⟩

/-- The names of a file are followed from its section directory on. -/
theorem Layout.locate_innerPath (disk : Disk) :
    disk.locate (layout.innerPath place file) =
      disk.accept (pathSegments (layout.innerPath place file)) >>= fun _ =>
        disk.locate (layout.sectionPath place) >>= (disk.view.follow · (innerSegments file)) := by
  have hdirectory := place.isEntryName_directory
  have hsegments := layout.pathSegments_innerPath place file
  have hsize : (layout.sectionPath place).utf8ByteSize ≤
      (layout.innerPath place file).utf8ByteSize :=
    size_le_joinPath _ (isAbsolute_intercalate_pathNames file)
  have hsection : layout.sectionPath place ≠ "" := joinPath_ne_empty _ hdirectory.ne_empty
  have hinner : layout.innerPath place file ≠ "" := by
    intro hempty
    rw [hempty] at hsize
    exact hsection (String.utf8ByteSize_eq_zero_iff.1 (Nat.le_zero.1 hsize))
  rw [disk.locate_eq hinner, disk.locate_eq hsection]
  cases hinside : disk.accept (pathSegments (layout.innerPath place file)) with
  | error fault => rw [error_bind, error_bind]
  | ok accepted =>
      have hstart : disk.start (pathSegments (layout.innerPath place file)) =
          disk.start (pathSegments (layout.sectionPath place)) := by
        rw [hsegments, layout.pathSegments_sectionPath, List.append_assoc, List.singleton_append,
          Disk.start_append hdirectory, Disk.start_append hdirectory]
      have houtside := Disk.accept_of_append hsegments hsize hinside
      rw [houtside, ok_bind, ok_bind, ok_bind, hstart, hsegments, ← List.append_assoc,
        View.follow_append]

end Names

section Inside

variable {layout : Layout} {place : Section} {file : String}

theorem fetchFragment_outside (hfile : leadsOutside file = true) (disk : Disk) :
    fetchFragment disk layout place file = .error (.outsideDirectory file place.directory) := by
  rw [fetchFragment, Layout.fragmentPath, if_pos hfile]
  rfl

variable (hfile : leadsOutside file = false)

include hfile

theorem Layout.fragmentPath_inside :
    layout.fragmentPath place file = .ok (layout.innerPath place file) := by
  rw [fragmentPath, hfile]
  rfl

theorem fetchFragment_inside (disk : Disk) :
    fetchFragment disk layout place file = .ofRead (disk.read (layout.innerPath place file)) := by
  rw [fetchFragment, Layout.fragmentPath_inside hfile, ok_bind]
  cases disk.read (layout.innerPath place file) with
  | ok text => rfl
  | error fault => cases fault <;> rfl

/-- A file is looked for under its names alone. -/
theorem fetchFragment_congr {other : String} (hother : leadsOutside other = false)
    (hnames : pathNames file = pathNames other) (disk : Disk) :
    fetchFragment disk layout place file = fetchFragment disk layout place other := by
  rw [fetchFragment_inside hfile, fetchFragment_inside hother, Layout.innerPath, Layout.innerPath,
    hnames]

theorem ne_up_of_mem_innerSegments : ∀ segment ∈ innerSegments file, segment ≠ ".." := by
  rintro segment hsegment rfl
  rw [innerSegments] at hsegment
  split_ifs at hsegment
  · simp at hsegment
  · have hup : ".." ∈ pathSegments file := (List.mem_filter.1 hsegment).1
    rw [(leadsOutside_iff file).2 (.inr hup)] at hfile
    contradiction

/-- An inner path leads to its names below the section directory, wherever that is. -/
theorem Layout.place_of_locate_innerPath {disk : Disk} {found : Place}
    (hfound : disk.locate (layout.innerPath place file) = .ok found) :
    ∃ home, disk.locate (layout.sectionPath place) = .ok home ∧
      found = home ++ pathNames file := by
  rw [layout.locate_innerPath] at hfound
  obtain ⟨_, _, hfound⟩ := bind_eq_ok.1 hfound
  obtain ⟨home, hhome, hfollow⟩ := bind_eq_ok.1 hfound
  have hup := ne_up_of_mem_innerSegments hfile
  refine ⟨home, hhome, ?_⟩
  rw [innerSegments] at hfollow hup
  split_ifs at hfollow hup with hnone
  · rw [View.follow, View.follow] at hfollow
    split at hfollow
    · simp only [show isName "" = false from rfl, Bool.not_false, if_true] at hfollow
      rw [hnone, List.append_nil]
      exact (Except.ok.inj hfollow).symm
    · cases hfollow
  · have hnames : ∀ name ∈ pathNames file, isName name = true ∧ name ≠ ".." :=
      fun name hname => ⟨isName_of_mem_pathNames hname, hup name hname⟩
    exact View.follow_below hnames hfollow

theorem Disk.AgreesOn.read_innerPath {disk other : Disk}
    (hagrees : disk.AgreesOn other (layout.sectionPath place)) :
    disk.read (layout.innerPath place file) = other.read (layout.innerPath place file) := by
  have haccepted (segments : List String) : disk.accept segments = other.accept segments := by
    rw [Disk.accept, Disk.accept, hagrees.pathLimit?]
  rw [disk.read_eq, other.read_eq, layout.locate_innerPath, layout.locate_innerPath, haccepted]
  cases other.accept (pathSegments (layout.innerPath place file)) with
  | error fault => simp only [error_bind]
  | ok accepted =>
      obtain ⟨fault, hdisk, hother⟩ | ⟨home, there, hdisk, hother, hbelow⟩ := hagrees.locate
      · simp only [ok_bind, hdisk, hother, error_bind]
      · simp only [ok_bind, hdisk, hother]
        obtain ⟨fault, hhome, hthere⟩ | ⟨below, hhome, hthere⟩ :=
          View.follow_congr_below (ne_up_of_mem_innerSegments hfile) hbelow
        · rw [hhome, hthere, error_bind, error_bind]
        · rw [hhome, hthere, ok_bind, ok_bind, View.read, View.read, hbelow below]

/-- What is fetched is the text of the file that its names lead to below the section directory. -/
theorem file_of_fetchFragment {disk : Disk} {text : String}
    (htext : fetchFragment disk layout place file = .ok (some text)) :
    ∃ home content, disk.locate (layout.sectionPath place) = .ok home ∧
      disk.view (home ++ pathNames file) = some (.file content) ∧
      String.fromUTF8? content = some text := by
  rw [fetchFragment_inside hfile, Fetched.ofRead_eq_some, disk.read_eq] at htext
  obtain ⟨there, hthere, hread⟩ := bind_eq_ok.1 htext
  obtain ⟨home, hhome, rfl⟩ := Layout.place_of_locate_innerPath hfile hthere
  obtain ⟨content, hcontent, hdecoded⟩ := View.file_of_read hread
  exact ⟨home, content, hhome, hcontent, hdecoded⟩

end Inside

/-- A name that starts at the root or leads upwards is refused without a look at the disk. Any other
name is followed from the section directory on, by what is neither empty nor a dot in it, so disks
that agree on that directory give the same text, and so do names that differ in nothing else. -/
theorem fetch_confined (layout : Layout) (place : Section) :
    (∀ file, file.toList.head? = some '/' ∨ ".." ∈ pathSegments file →
      (FileFault.outsideDirectory file place.directory).message =
          "'" ++ file ++ "' points outside " ++ place.directory ++ "/" ∧
        ∀ disk, fetchFragment disk layout place file =
          .error (.outsideDirectory file place.directory)) ∧
      (∀ file, ¬ (file.toList.head? = some '/' ∨ ".." ∈ pathSegments file) →
        let names := (pathSegments file).filter fun segment => segment != "" && segment != "."
        ∃ path, pathNames path = pathNames (layout.sectionPath place) ++ names ∧
          ∀ disk, fetchFragment disk layout place file = .ofRead (disk.read path) ∧
            (∀ found, disk.locate path = .ok found →
              ∃ home, disk.locate (layout.sectionPath place) = .ok home ∧ found = home ++ names) ∧
            ∀ text, fetchFragment disk layout place file = .ok (some text) →
              ∃ home content, disk.locate (layout.sectionPath place) = .ok home ∧
                disk.view (home ++ names) = some (.file content) ∧
                String.fromUTF8? content = some text) ∧
      (∀ disk other, disk.AgreesOn other (layout.sectionPath place) → ∀ file,
        fetchFragment disk layout place file = fetchFragment other layout place file ∧
          (layout.source disk).holds place file = (layout.source other).holds place file ∧
          (layout.source disk).read place file = (layout.source other).read place file) ∧
      ∀ disk file other,
        ¬ (file.toList.head? = some '/' ∨ ".." ∈ pathSegments file) →
        ¬ (other.toList.head? = some '/' ∨ ".." ∈ pathSegments other) →
        pathNames file = pathNames other →
        fetchFragment disk layout place file = fetchFragment disk layout place other := by
  have hinside {file : String}
      (hfile : ¬ (file.toList.head? = some '/' ∨ ".." ∈ pathSegments file)) :
      leadsOutside file = false := by
    rwa [← leadsOutside_iff, Bool.not_eq_true] at hfile
  refine ⟨?_, ?_, ?_, ?_⟩
  · intro file hfile
    exact ⟨rfl, fetchFragment_outside ((leadsOutside_iff file).2 hfile)⟩
  · intro file hfile names
    refine ⟨layout.innerPath place file, layout.pathNames_innerPath place file, fun disk => ?_⟩
    exact ⟨fetchFragment_inside (hinside hfile) disk,
      fun found => Layout.place_of_locate_innerPath (hinside hfile),
      fun text => file_of_fetchFragment (hinside hfile)⟩
  · intro disk other hagrees file
    have hfetch : fetchFragment disk layout place file = fetchFragment other layout place file := by
      cases hfile : leadsOutside file with
      | true => rw [fetchFragment_outside hfile, fetchFragment_outside hfile]
      | false =>
          rw [fetchFragment_inside hfile, fetchFragment_inside hfile, hagrees.read_innerPath hfile]
    refine ⟨hfetch, ?_, ?_⟩
    · simp only [FragmentSource.holds, Layout.source, hfetch]
    · simp only [FragmentSource.read, Layout.source, hfetch]
  · intro disk file other hfile hother hnames
    rw [fetchFragment_inside (hinside hfile), fetchFragment_inside (hinside hother),
      Layout.innerPath, Layout.innerPath, hnames]

theorem fetch_confined_secret :
    let chapters : Node := .folder [("a.md", .file "A".toUTF8)]
    let disk : Disk := { tree := [("book", .folder [("chapters", chapters)])] }
    let other : Disk :=
      { tree := [("book", .folder [("secret.md", .file "S".toUTF8), ("chapters", chapters)])] }
    let fetch (disk : Disk) (file : String) : Fetched := fetchFragment disk {} .chapters file
    ".." ∈ pathSegments "../secret.md" ∧
      fetch other "../secret.md" = .error (.outsideDirectory "../secret.md" "chapters") ∧
      disk.AgreesOn other (Layout.sectionPath {} .chapters) ∧
      fetch disk ".//a.md" = fetch other ".//a.md" ∧
      pathNames ".//a.md" = pathNames "a.md" ∧ fetch other ".//a.md" = fetch other "a.md" ∧
      fetch other "a.md" = .ok (some "A") ∧
      ∃ home content, other.locate (Layout.sectionPath {} .chapters) = .ok home ∧
        other.view (home ++ ["a.md"]) = some (.file content) ∧
        String.fromUTF8? content = some "A" := by
  intro chapters disk other fetch
  obtain ⟨houtside, hinside, hagrees, hnames⟩ := fetch_confined {} .chapters
  have hup : ".." ∈ pathSegments "../secret.md" := by decide
  have hdotted : ¬ (".//a.md".toList.head? = some '/' ∨ ".." ∈ pathSegments ".//a.md") := by decide
  have hplain : ¬ ("a.md".toList.head? = some '/' ∨ ".." ∈ pathSegments "a.md") := by decide
  have hsame : pathNames ".//a.md" = pathNames "a.md" := by decide
  have hdisks : disk.AgreesOn other (Layout.sectionPath {} .chapters) := by
    refine ⟨rfl, .inr ⟨["book", "chapters"], ["book", "chapters"], rfl, rfl, fun below => ?_⟩⟩
    have hhere : disk.tree.at? ["book", "chapters"] = some chapters := rfl
    have hthere : other.tree.at? ["book", "chapters"] = some chapters := rfl
    exact (Folder.view_append_of_at? hhere below).trans
      (Folder.view_append_of_at? hthere below).symm
  obtain ⟨_, -, hinner⟩ := hinside "a.md" hplain
  exact ⟨hup, (houtside _ (.inr hup)).2 other, hdisks, (hagrees disk other hdisks _).1, hsame,
    hnames other _ _ hdotted hplain hsame, rfl, (hinner other).2.2 "A" rfl⟩

end Bindery
