import Bindery.Proofs.Files.DiskView

namespace Bindery

/-! Folders made inside a folder that can be reached: either nothing is changed, or they stand where
their names lead and nothing else is changed. No path is too long here. -/

/-- Segments lead to a folder, and what is put behind them is accepted. -/
structure Disk.Reaches (disk : Disk) (front : List String) (home : Place) : Prop where
  pathLimit? : disk.pathLimit? = none
  nulFree : hasNul front = false
  follow : disk.view.follow [] (disk.start front ++ front) = .ok home
  folder : disk.view home = some .folder

/-- A folder stands at the end of the segments, whether it was made or was there before. -/
structure Disk.Provides (disk : Disk) (front : List String) (home : Place) (later : Disk) :
    Prop where
  reaches : later.Reaches front home
  workingPlace : later.workingPlace = disk.workingPlace
  view : later.view = Function.update disk.view home (some .folder)
  unchanged : later = disk ∨ disk.view home = none

theorem View.keeps_update {view : View} {place : Place} (sight : Sight)
    (hplace : view place = some .folder → sight = .folder) :
    view.Keeps (Function.update view place (some sight)) where
  folder {other} hother := by
    by_cases hsame : other = place
    · subst hsame
      rw [Function.update_self, hplace hother]
    · rwa [Function.update_of_ne hsame]
  isNone {other} hother := by
    by_cases hsame : other = place
    · subst hsame
      rw [Function.update_self] at hother
      contradiction
    · rwa [Function.update_of_ne hsame] at hother

theorem Disk.Provides.keeps {disk later : Disk} {front : List String} {home : Place}
    (hprovides : disk.Provides front home later) : disk.view.Keeps later.view := by
  rw [hprovides.view]
  exact View.keeps_update _ fun _ => rfl

theorem Disk.view_below {disk : Disk} {place : Place} (hplace : disk.view place = none)
    (name : String) : disk.view (place ++ [name]) = none :=
  Folder.view_append_cons (fun hfolder => by rw [view, hfolder] at hplace; contradiction) name []

theorem hasNul_concat {front : List String} (hfront : hasNul front = false) {name : String}
    (hname : IsEntryName name) : hasNul (front ++ [name]) = false := by
  have hlast : hasNul [name] = false := by simpa [hasNul] using hname.no_nul
  rw [hasNul_append, hfront, hlast]
  rfl

theorem Disk.accept_of_hasNul {disk : Disk} (hlimit : disk.pathLimit? = none)
    {segments : List String} (hnul : hasNul segments = false) : disk.accept segments = .ok () := by
  rw [Disk.accept, hnul, hlimit]
  rfl

section Reaches

variable {disk : Disk} {front : List String} {home : Place} (hreaches : disk.Reaches front home)
  {name : String} (hname : IsEntryName name)

include hreaches

theorem Disk.Reaches.keeps {later : Disk} (hlimit : later.pathLimit? = none)
    (hworking : later.workingPlace = disk.workingPlace) (hkeeps : disk.view.Keeps later.view) :
    later.Reaches front home where
  pathLimit? := hlimit
  nulFree := hreaches.nulFree
  follow := by
    have hstart : later.start front = disk.start front := by rw [start, start, hworking]
    rw [hstart]
    exact hkeeps.follow hreaches.follow
  folder := hkeeps.folder hreaches.folder

include hname

theorem Disk.Reaches.accepted : disk.accept (front ++ [name]) = .ok () :=
  accept_of_hasNul hreaches.pathLimit? (hasNul_concat hreaches.nulFree hname)

theorem Disk.Reaches.parent : disk.parent front name = .ok home :=
  parent_iff.2 ⟨hreaches.accepted hname, hreaches.follow, hreaches.folder⟩

theorem Disk.Reaches.concat (hview : disk.view (home ++ [name]) = some .folder) :
    disk.Reaches (front ++ [name]) (home ++ [name]) where
  pathLimit? := hreaches.pathLimit?
  nulFree := hasNul_concat hreaches.nulFree hname
  follow := by
    rw [start_append hname, ← List.append_assoc, View.follow_append, hreaches.follow, ok_bind]
    rw [View.follow_name hname, hreaches.folder, hview]
    rfl
  folder := hview

theorem Disk.Reaches.locate {path : String} (hpath : pathSegments path = front ++ [name])
    (hview : (disk.view (home ++ [name])).isSome = true) :
    disk.locate path = .ok (home ++ [name]) := by
  rw [locate_concat hname hpath, hreaches.parent hname, ok_bind]
  simp [Option.isSome_iff_ne_none.1 hview]

theorem Disk.Reaches.parent_below {inner : String} (hinner : IsEntryName inner) :
    disk.parent (front ++ [name]) inner =
      match disk.view (home ++ [name]) with
      | some .folder => .ok (home ++ [name])
      | some (.file _) => .error .notDirectory
      | none => .error .notFound := by
  have hinside := hasNul_concat (hasNul_concat hreaches.nulFree hname) hinner
  rw [Disk.parent, accept_of_hasNul hreaches.pathLimit? hinside, ok_bind, start_append hname,
    ← List.append_assoc, View.follow_append, hreaches.follow, ok_bind, View.follow_name hname,
    hreaches.folder]
  cases hview : disk.view (home ++ [name]) with
  | none => rfl
  | some sight => cases sight <;> simp [hview]

/-- A folder is provided inside the folder that is reached, unless a file stands there. -/
theorem Disk.Reaches.provideFolder :
    (∃ content, disk.view (home ++ [name]) = some (.file content) ∧
        disk.provideFolder (front ++ [name]) = .error .alreadyExists) ∨
      ∃ later, disk.provideFolder (front ++ [name]) = .ok later ∧
        disk.Provides (front ++ [name]) (home ++ [name]) later := by
  have hparent := hreaches.parent hname
  rw [provideFolder_eq hname, hparent, ok_bind]
  cases hview : disk.view (home ++ [name]) with
  | none =>
      refine .inr ⟨_, rfl, ?_⟩
      have hput := view_put_folder hname hparent hview
      have hkeeps : disk.view.Keeps (disk.put (.folder []) (home ++ [name])).view := by
        rw [hput]
        exact View.keeps_update _ fun _ => rfl
      have hhome : (disk.put (.folder []) (home ++ [name])).Reaches front home :=
        hreaches.keeps hreaches.pathLimit? rfl hkeeps
      exact
        { reaches := hhome.concat hname (by rw [hput, Function.update_self])
          workingPlace := rfl
          view := hput
          unchanged := .inr hview }
  | some sight =>
      cases sight with
      | file content => exact .inl ⟨content, rfl, rfl⟩
      | folder =>
          exact .inr ⟨disk, rfl,
            { reaches := hreaches.concat hname hview
              workingPlace := rfl
              view := by rw [← hview, Function.update_eq_self]
              unchanged := .inl rfl }⟩

end Reaches

/-- The same folder is reached without the segments that lead nowhere, but for one in front. -/
theorem Disk.Reaches.filter {disk : Disk} {front : List String} {home : Place}
    (hreaches : disk.Reaches front home) :
    disk.Reaches ((if front.head? = some "" then [""] else []) ++ front.filter isName) home := by
  have hnul : hasNul (front.filter isName) = false := by
    have hfront := hreaches.nulFree
    simp only [hasNul, List.any_eq_false] at hfront ⊢
    exact fun segment hsegment => hfront segment (List.mem_filter.1 hsegment).1
  have hfollow := hreaches.follow
  rw [View.follow_append] at hfollow
  obtain ⟨origin, horigin, hfront⟩ := bind_eq_ok.1 hfollow
  have hfiltered := View.follow_filter hfront
  split_ifs with hroot
  · have hstart : disk.start front = [] := if_pos hroot
    have hempty : disk.view.follow [] ([""] ++ front.filter isName) =
        disk.view.follow [] (front.filter isName) := rfl
    rw [hstart] at horigin
    obtain rfl := Except.ok.inj horigin
    exact ⟨hreaches.pathLimit?, hnul, hempty.trans hfiltered, hreaches.folder⟩
  · have hhead : (front.filter isName).head? ≠ some "" := fun hhead =>
      absurd (List.mem_filter.1 (List.mem_of_head? hhead)).2 (by decide)
    have hstart : disk.start (front.filter isName) = disk.start front :=
      (if_neg hhead).trans (if_neg hroot).symm
    refine ⟨hreaches.pathLimit?, hnul, ?_, hreaches.folder⟩
    rw [List.nil_append, hstart, View.follow_append, horigin, ok_bind]
    exact hfiltered

theorem parentSegments_concat {front : List String} {outer inner path : String}
    (houter : IsEntryName outer) (hinner : IsEntryName inner)
    (hpath : pathSegments path = front ++ [outer, inner]) :
    parentSegments path =
      ((if front.head? = some "" then [""] else []) ++ front.filter isName) ++ [outer] := by
  have hne : path ≠ "" := by
    rintro rfl
    have hlength := congrArg List.length hpath
    rw [pathSegments_of_no_slash (by decide)] at hlength
    simp at hlength
  have hnames : pathNames path = front.filter isName ++ [outer, inner] := by
    rw [pathNames, hpath, List.filter_append]
    simp [houter.isName, hinner.isName]
  have habsolute : isAbsolute path = true ↔ front.head? = some "" := by
    rw [isAbsolute_iff_head? hne, hpath]
    cases front with
    | nil => simp [houter.ne_empty]
    | cons segment segments => rfl
  have hsome : (front.filter isName ++ [outer, inner]).isEmpty = false := by simp
  have hlast : (front.filter isName ++ [outer, inner]).dropLast =
      front.filter isName ++ [outer] := by simp
  rw [parentSegments, hnames, hsome, hlast]
  split_ifs with hslash hroot hroot
  · rfl
  · exact absurd (habsolute.1 (by simpa using hslash)) hroot
  · simp [habsolute.2 hroot] at hslash
  · rfl

theorem Disk.makeFoldersBelow_of_ok {disk later : Disk} {segments : List String}
    (hprovided : disk.provideFolder segments = .ok later) (above : List String) :
    disk.makeFoldersBelow segments above = (.ok (), later) := by
  cases above <;> rw [makeFoldersBelow, hprovided]

theorem Disk.makeFoldersBelow_of_error {disk : Disk} {segments : List String} {fault : FileFault}
    (hfault : fault ≠ .notFound) (hrefused : disk.provideFolder segments = .error fault)
    (above : List String) : disk.makeFoldersBelow segments above = (.error fault, disk) := by
  cases above with
  | nil => rw [makeFoldersBelow, hrefused]
  | cons name above =>
      rw [makeFoldersBelow, hrefused]
      cases fault <;> first | rfl | exact absurd rfl hfault

/-- Where the parent is missing it is made first, by names of its own. -/
theorem Disk.makeFoldersBelow_of_notFound {disk middle : Disk} {segments parent : List String}
    {name : String} (hmissing : disk.provideFolder segments = .error .notFound)
    (hparent : disk.provideFolder (parent ++ [name]) = .ok middle) :
    disk.makeFoldersBelow segments (parent ++ [name]).reverse =
      match middle.provideFolder segments with
      | .ok later => (.ok (), later)
      | .error fault => (.error fault, middle) := by
  have hbelow := makeFoldersBelow_of_ok hparent parent.reverse
  have hreverse : (name :: parent.reverse).reverse = parent ++ [name] := by simp
  rw [List.reverse_append, List.reverse_singleton, List.singleton_append, makeFoldersBelow,
    hmissing]
  cases hlater : middle.provideFolder segments with
  | ok later => simp only [hreverse, hbelow, hlater]
  | error fault => simp only [hreverse, hbelow, hlater]

/-- Two folders, one in the other, are made inside the folder that is reached, or nothing is because
something stands in the way. -/
theorem Disk.Reaches.makeFolders {disk : Disk} {front : List String} {home : Place}
    (hreaches : disk.Reaches front home) {outer inner path : String}
    (houter : IsEntryName outer) (hinner : IsEntryName inner)
    (hpath : pathSegments path = front ++ [outer, inner]) :
    (∃ fault, disk.makeFolders path = (.error fault, disk) ∧ disk.view (home ++ [outer]) ≠ none) ∨
      ∃ middle later, disk.makeFolders path = (.ok (), later) ∧
        disk.Provides (front ++ [outer]) (home ++ [outer]) middle ∧
        middle.Provides (front ++ [outer] ++ [inner]) (home ++ [outer] ++ [inner]) later := by
  have hne : path.isEmpty = false := by
    cases hempty : path.isEmpty with
    | false => rfl
    | true =>
        have hlength := congrArg List.length hpath
        rw [String.isEmpty_iff.1 hempty, pathSegments_of_no_slash (by decide)] at hlength
        simp at hlength
  have hsegments : pathSegments path = front ++ [outer] ++ [inner] := by simpa using hpath
  have hparent := hreaches.parent_below houter hinner
  rw [Disk.makeFolders, hne, parentSegments_concat houter hinner hpath, hsegments]
  cases hview : disk.view (home ++ [outer]) with
  | none =>
      have hmissing : disk.provideFolder (front ++ [outer] ++ [inner]) = .error .notFound := by
        rw [provideFolder_eq hinner, hparent, hview]
        rfl
      obtain ⟨content, hcontent, -⟩ | ⟨middle, hmade, hfiltered⟩ :=
        hreaches.filter.provideFolder houter
      · rw [hview] at hcontent
        contradiction
      have hhome :=
        hreaches.keeps hfiltered.reaches.pathLimit? hfiltered.workingPlace hfiltered.keeps
      have hmiddle := hhome.concat houter hfiltered.reaches.folder
      have hinside : middle.view (home ++ [outer] ++ [inner]) = none := by
        rw [hfiltered.view, Function.update_of_ne (by simp)]
        exact view_below hview inner
      obtain ⟨content, hcontent, -⟩ | ⟨later, hlater, hprovides⟩ := hmiddle.provideFolder hinner
      · rw [hinside] at hcontent
        contradiction
      refine .inr ⟨middle, later, ?_, ⟨hmiddle, hfiltered.workingPlace, hfiltered.view,
        hfiltered.unchanged⟩, hprovides⟩
      have hbelow := makeFoldersBelow_of_notFound hmissing hmade
      rw [hlater] at hbelow
      exact hbelow
  | some sight =>
      cases sight with
      | file content =>
          have hrefused : disk.provideFolder (front ++ [outer] ++ [inner]) =
              .error .notDirectory := by
            rw [provideFolder_eq hinner, hparent, hview]
            rfl
          exact .inl ⟨_, makeFoldersBelow_of_error (by simp) hrefused _, by simp⟩
      | folder =>
          have hmiddle := hreaches.concat houter hview
          obtain ⟨content, -, hrefused⟩ | ⟨later, hlater, hprovides⟩ := hmiddle.provideFolder hinner
          · exact .inl ⟨_, makeFoldersBelow_of_error (by simp) hrefused _, by simp⟩
          · refine .inr ⟨disk, later, makeFoldersBelow_of_ok hlater _, ⟨hmiddle, rfl, ?_, .inl rfl⟩,
              hprovides⟩
            rw [← hview, Function.update_eq_self]

end Bindery
