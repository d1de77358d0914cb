import Bindery.Files.Disk
import Bindery.Proofs.Chain
import Bindery.Proofs.Files.Paths
import Bindery.Proofs.Files.Walk

namespace Bindery

/-! What is done on a disk, by sight: where a path leads, what is read there, and what a new folder
or file changes. -/

def Disk.view (disk : Disk) : View :=
  disk.tree.view

/-- The place that a path leads to. -/
def Disk.locate (disk : Disk) (path : String) : Except FileFault Place :=
  (disk.resolve path).map Trail.place

/-- The text of the file at a place. -/
def View.read (view : View) (place : Place) : Except FileFault String :=
  match view place with
  | some (.file content) =>
      match String.fromUTF8? content with
      | some text => .ok text
      | none => .error .notText
  | _ => .error .isDirectory

/-- The folder that holds the last name of a path. -/
def Disk.parent (disk : Disk) (front : List String) (name : String) : Except FileFault Place := do
  disk.accept (front ++ [name])
  let parent ← disk.view.follow [] (disk.start front ++ front)
  match disk.view parent with
  | some .folder => .ok parent
  | _ => .error .notDirectory

theorem hasNul_append (front back : List String) :
    hasNul (front ++ back) = (hasNul front || hasNul back) :=
  List.any_append

/-- A path is accepted with every longer one that goes on behind its segments. -/
theorem Disk.accept_of_append {disk : Disk} {path longer : String} {behind : List String}
    (hsegments : pathSegments longer = pathSegments path ++ behind)
    (hsize : path.utf8ByteSize ≤ longer.utf8ByteSize)
    (hlonger : disk.accept (pathSegments longer) = .ok ()) :
    disk.accept (pathSegments path) = .ok () := by
  rw [Disk.accept, intercalate_pathSegments] at hlonger ⊢
  split_ifs at hlonger with hnul hlong
  have hshort : ¬ disk.pathLimit?.any (· < path.utf8ByteSize) = true := by
    cases hlimit : disk.pathLimit? with
    | none => simp
    | some limit =>
        simp only [hlimit, Option.any_some, decide_eq_true_eq] at hlong ⊢
        omega
  rw [if_neg, if_neg hshort]
  intro hmem
  rw [hsegments, hasNul_append] at hnul
  exact hnul (Bool.or_eq_true_iff.2 (.inl hmem))

theorem Disk.leads_of_follow {disk : Disk} {segments : List String} {trail : Trail}
    (hfollow : disk.follow segments = .ok trail) : disk.tree.Leads trail := by
  obtain ⟨_, _, hwalk⟩ := bind_eq_ok.1 hfollow
  exact Folder.Leads.start.walk hwalk

theorem Disk.map_place_follow (disk : Disk) (segments : List String) :
    (disk.follow segments).map Trail.place =
      disk.accept segments >>= fun _ =>
        disk.view.follow [] (disk.start segments ++ segments) := by
  rw [follow]
  cases disk.accept segments with
  | error fault => rfl
  | ok accepted => exact Folder.Leads.start.map_place_walk _

theorem Disk.locate_eq (disk : Disk) {path : String} (hpath : path ≠ "") :
    disk.locate path =
      disk.accept (pathSegments path) >>= fun _ =>
        disk.view.follow [] (disk.start (pathSegments path) ++ pathSegments path) := by
  have hempty : path.isEmpty = false := by simpa using hpath
  rw [locate, resolve, hempty, ← map_place_follow]
  rfl

theorem Disk.read_eq (disk : Disk) (path : String) :
    disk.read path = disk.locate path >>= disk.view.read := by
  rw [read, locate]
  cases hresolve : disk.resolve path with
  | error fault => rfl
  | ok trail =>
      have hleads : disk.tree.Leads trail := by
        rw [resolve] at hresolve
        split_ifs at hresolve
        exact leads_of_follow hresolve
      change _ = disk.view.read trail.place
      rw [View.read, view, hleads.view, ok_bind]
      cases disk.tree.atEnd trail <;> rfl

theorem View.file_of_read {view : View} {place : Place} {text : String}
    (hread : view.read place = .ok text) :
    ∃ content, view place = some (.file content) ∧ String.fromUTF8? content = some text := by
  rw [read] at hread
  split at hread
  · rename_i content hcontent
    split at hread
    · rename_i decoded hdecoded
      obtain rfl := Except.ok.inj hread
      exact ⟨content, hcontent, hdecoded⟩
    · contradiction
  · contradiction

theorem fromUTF8?_toUTF8 (text : String) : String.fromUTF8? text.toUTF8 = some text := by
  rw [String.fromUTF8?]
  exact dif_pos text.isValidUTF8

theorem View.read_of_file {view : View} {place : Place} {text : String}
    (hplace : view place = some (.file text.toUTF8)) : view.read place = .ok text := by
  simp only [read, hplace, fromUTF8?_toUTF8]

theorem Disk.nulFree_of_accept {disk : Disk} {segments : List String}
    (haccepted : disk.accept segments = .ok ()) : hasNul segments = false := by
  rw [Disk.accept] at haccepted
  split_ifs at haccepted with hnul
  exact Bool.eq_false_iff.2 hnul

theorem Disk.nulFree_of_locate {disk : Disk} {path : String} {place : Place}
    (hplace : disk.locate path = .ok place) : hasNul (pathSegments path) = false := by
  have hpath : path ≠ "" := by
    rintro rfl
    contradiction
  rw [disk.locate_eq hpath] at hplace
  obtain ⟨_, haccepted, -⟩ := bind_eq_ok.1 hplace
  exact nulFree_of_accept haccepted

/-! Where a new entry would stand. -/

theorem IsEntryName.ne_empty {name : String} (hname : IsEntryName name) : name ≠ "" := by
  rintro rfl
  exact absurd hname.isName (by decide)

/-- What is looked up in the folder that a path leads to is what is seen there. -/
theorem Disk.lookup_eq_view {disk : Disk} {parent : Place} {siblings : Folder}
    (hsiblings : disk.tree.at? parent = some (.folder siblings)) (name : String) :
    (siblings.lookup name).map Node.sight = disk.view (parent ++ [name]) := by
  rw [view, Folder.view_append_of_at? hsiblings, Folder.lookup_eq_at?]
  rfl

section Entry

variable {disk : Disk} {front : List String} {name : String} (hname : IsEntryName name)

include hname

theorem Disk.start_append (behind : List String) :
    disk.start (front ++ name :: behind) = disk.start front := by
  cases front with
  | nil => simp [start, hname.ne_empty]
  | cons segment segments => rfl

theorem Disk.target_concat :
    disk.target (front ++ [name]) =
      disk.accept (front ++ [name]) >>= fun _ =>
        disk.tree.walk [] (disk.start front ++ front) >>= fun trail =>
          match disk.tree.atEnd trail with
          | .file _ => .error .notDirectory
          | .folder siblings => .ok ⟨trail.place, siblings, some name⟩ := by
  have hkept : ((front ++ [name]).reverse.dropWhile (·.isEmpty)).reverse = front ++ [name] := by
    simp [hname.ne_empty]
  have hlast : (front ++ [name]).getLast?.filter (fun name => isName name && name != "..") =
      some name := by
    simp [hname.isName, hname.ne_up]
  simp only [target, hkept, List.dropLast_concat, hlast, disk.start_append hname []]
  rfl

theorem Disk.parent_eq :
    disk.parent front name = (disk.target (front ++ [name])).map Target.parent := by
  have hroot : disk.tree.Leads [] := .start
  have hplace := hroot.map_place_walk (disk.start front ++ front)
  rw [parent, target_concat hname]
  cases disk.accept (front ++ [name]) with
  | error fault => rfl
  | ok accepted =>
      rw [ok_bind, ok_bind, view, ← Trail.place_nil, ← hplace]
      cases hwalk : disk.tree.walk [] (disk.start front ++ front) with
      | error fault => rfl
      | ok trail =>
          have hview := (Folder.Leads.start.walk hwalk).view
          simp only [Except.map, ok_bind, hview]
          cases disk.tree.atEnd trail <;> rfl

/-- The target of a path is a name in the folder that is seen where the rest of the path leads. -/
theorem Disk.target_of_parent {parent : Place} (hparent : disk.parent front name = .ok parent) :
    ∃ siblings, disk.tree.at? parent = some (.folder siblings) ∧
      disk.target (front ++ [name]) = .ok ⟨parent, siblings, some name⟩ := by
  rw [parent_eq hname] at hparent
  cases htarget : disk.target (front ++ [name]) with
  | error fault => rw [htarget] at hparent; contradiction
  | ok target =>
      rw [htarget] at hparent
      obtain rfl := Except.ok.inj hparent
      rw [target_concat hname] at htarget
      obtain ⟨_, _, htarget⟩ := bind_eq_ok.1 htarget
      obtain ⟨trail, hwalk, htarget⟩ := bind_eq_ok.1 htarget
      have hnode := (Folder.Leads.start.walk hwalk).at?
      cases hend : disk.tree.atEnd trail with
      | file content => rw [hend] at htarget; contradiction
      | folder siblings =>
          rw [hend] at htarget hnode
          obtain rfl := Except.ok.inj htarget
          exact ⟨siblings, hnode, rfl⟩

theorem Disk.target_of_no_parent {fault : FileFault}
    (hparent : disk.parent front name = .error fault) :
    disk.target (front ++ [name]) = .error fault := by
  rw [parent_eq hname] at hparent
  cases htarget : disk.target (front ++ [name]) with
  | error other =>
      rw [htarget] at hparent
      exact congrArg _ (Except.error.inj hparent)
  | ok target => rw [htarget] at hparent; contradiction

omit hname in
theorem Disk.parent_iff {parent : Place} :
    disk.parent front name = .ok parent ↔
      disk.accept (front ++ [name]) = .ok () ∧
        disk.view.follow [] (disk.start front ++ front) = .ok parent ∧
        disk.view parent = some .folder := by
  rw [Disk.parent]
  constructor
  · intro hparent
    obtain ⟨_, haccepted, hparent⟩ := bind_eq_ok.1 hparent
    obtain ⟨place, hfollow, hparent⟩ := bind_eq_ok.1 hparent
    split at hparent
    · rename_i hfolder
      obtain rfl := Except.ok.inj hparent
      exact ⟨haccepted, hfollow, hfolder⟩
    · contradiction
  · rintro ⟨haccepted, hfollow, hfolder⟩
    rw [haccepted, ok_bind, hfollow, ok_bind, hfolder]

theorem View.follow_name (view : View) (place : Place) :
    view.follow place [name] =
      match view place with
      | some .folder =>
          if (view (place ++ [name])).isNone then .error .notFound else .ok (place ++ [name])
      | _ => .error .notDirectory := by
  rw [follow]
  cases view place with
  | none => rfl
  | some sight =>
      cases sight with
      | file content => rfl
      | folder => simp [follow, hname.isName, hname.ne_up, Nat.not_lt.2 hname.size_le]

theorem Folder.follow_name_append {root : Folder} {place : Place} {names : List String}
    (hsome : (root.view (place ++ name :: names)).isSome = true) :
    root.view.follow place (name :: names) = root.view.follow (place ++ [name]) names := by
  have hfolder : root.view place = some .folder := by
    by_contra hplace
    rw [view_append_cons hplace] at hsome
    contradiction
  rw [List.append_cons] at hsome
  have hnext := Option.isSome_iff_ne_none.1 (isSome_view_of_append hsome)
  rw [← List.singleton_append, View.follow_append, View.follow_name hname, hfolder]
  simp [hnext]

theorem Disk.place_follow_concat :
    (disk.follow (front ++ [name])).map Trail.place =
      disk.parent front name >>= fun parent =>
        if (disk.view (parent ++ [name])).isNone then .error .notFound
        else .ok (parent ++ [name]) := by
  rw [map_place_follow, start_append hname, ← List.append_assoc, View.follow_append, parent]
  cases disk.accept (front ++ [name]) with
  | error fault => rfl
  | ok accepted =>
      cases disk.view.follow [] (disk.start front ++ front) with
      | error fault => rfl
      | ok parent =>
          simp only [ok_bind, View.follow_name hname]
          cases disk.view parent with
          | none => rfl
          | some sight => cases sight <;> rfl

theorem Disk.locate_concat {path : String} (hpath : pathSegments path = front ++ [name]) :
    disk.locate path =
      disk.parent front name >>= fun parent =>
        if (disk.view (parent ++ [name])).isNone then .error .notFound
        else .ok (parent ++ [name]) := by
  have hne : path.isEmpty = false := by
    cases hempty : path.isEmpty with
    | false => rfl
    | true =>
        have hlast := congrArg List.getLast? hpath
        rw [String.isEmpty_iff.1 hempty, pathSegments_of_no_slash (by decide),
          List.getLast?_concat] at hlast
        exact absurd (Option.some.inj hlast).symm hname.ne_empty
  rw [locate, resolve, hne, hpath, ← place_follow_concat hname]
  rfl

theorem Disk.parent_of_locate {path : String} (hpath : pathSegments path = front ++ [name])
    {place : Place} (hplace : disk.locate path = .ok place) :
    ∃ parent, disk.parent front name = .ok parent ∧ place = parent ++ [name] := by
  rw [locate_concat hname hpath] at hplace
  obtain ⟨parent, hparent, hplace⟩ := bind_eq_ok.1 hplace
  split_ifs at hplace
  exact ⟨parent, hparent, (Except.ok.inj hplace).symm⟩

theorem Disk.makeFolder_eq :
    disk.makeFolder (front ++ [name]) =
      disk.parent front name >>= fun parent =>
        if (disk.view (parent ++ [name])).isSome then .error .alreadyExists
        else .ok (disk.put (.folder []) (parent ++ [name])) := by
  rw [makeFolder]
  cases hparent : disk.parent front name with
  | error fault => rw [target_of_no_parent hname hparent]; rfl
  | ok parent =>
      obtain ⟨siblings, hsiblings, htarget⟩ := target_of_parent hname hparent
      have hlookup := lookup_eq_view hsiblings name
      simp only [htarget, ok_bind, if_neg (Nat.not_lt.2 hname.size_le), ← hlookup,
        Option.isSome_map]
      rfl

/-- A folder is made where nothing stands, and left as it is where one stands. -/
theorem Disk.provideFolder_eq :
    disk.provideFolder (front ++ [name]) =
      disk.parent front name >>= fun parent =>
        match disk.view (parent ++ [name]) with
        | none => .ok (disk.put (.folder []) (parent ++ [name]))
        | some .folder => .ok disk
        | some (.file _) => .error .alreadyExists := by
  have hfollow := @place_follow_concat disk front name hname
  rw [provideFolder, makeFolder_eq hname]
  cases hsegments : disk.follow (front ++ [name]) with
  | error other =>
      rw [hsegments] at hfollow
      cases hparent : disk.parent front name with
      | error fault => rfl
      | ok parent =>
          rw [hparent, ok_bind] at hfollow
          cases hview : disk.view (parent ++ [name]) with
          | none => simp [hview]
          | some sight => rw [hview] at hfollow; contradiction
  | ok trail =>
      have hview := (leads_of_follow hsegments).view
      rw [hsegments] at hfollow
      obtain ⟨parent, hparent, hplace⟩ := bind_eq_ok.1 hfollow.symm
      split_ifs at hplace
      rw [← Except.ok.inj hplace] at hview
      change disk.view (parent ++ [name]) = _ at hview
      simp only [hparent, ok_bind, hview, Option.isSome_some, if_true, Except.map]
      cases disk.tree.atEnd trail <;> rfl

/-- A file is written where no folder stands. -/
theorem Disk.write_eq {path : String} (hpath : pathSegments path = front ++ [name])
    (content : ByteArray) :
    disk.write path content =
      disk.parent front name >>= fun parent =>
        match disk.view (parent ++ [name]) with
        | some .folder => .error .isDirectory
        | _ => .ok (disk.put (.file content) (parent ++ [name])) := by
  have hlast : (front ++ [name]).getLast? ≠ some "" := by
    simpa using hname.ne_empty
  rw [write, hpath]
  cases hparent : disk.parent front name with
  | error fault => rw [target_of_no_parent hname hparent]; rfl
  | ok parent =>
      obtain ⟨siblings, hsiblings, htarget⟩ := target_of_parent hname hparent
      have hlookup := lookup_eq_view hsiblings name
      simp only [htarget, ok_bind, if_neg hlast, if_neg (Nat.not_lt.2 hname.size_le), ← hlookup]
      cases siblings.lookup name with
      | none => rfl
      | some node => cases node <;> rfl

theorem Disk.view_parent {parent : Place} (hparent : disk.parent front name = .ok parent) :
    disk.view parent = some .folder := by
  obtain ⟨siblings, hsiblings, -⟩ := target_of_parent hname hparent
  rw [view, Folder.view, hsiblings]
  rfl

theorem Disk.view_put_folder {parent : Place} (hparent : disk.parent front name = .ok parent)
    (hplace : disk.view (parent ++ [name]) = none) :
    (disk.put (.folder []) (parent ++ [name])).view =
      Function.update disk.view (parent ++ [name]) (some .folder) := by
  refine Folder.view_put (view_parent hname hparent) ?_ fun _ _ => rfl
  change disk.view (parent ++ [name]) ≠ _
  simp [hplace]

theorem Disk.view_put_file {parent : Place} (hparent : disk.parent front name = .ok parent)
    (hplace : disk.view (parent ++ [name]) ≠ some .folder) (content : ByteArray) :
    (disk.put (.file content) (parent ++ [name])).view =
      Function.update disk.view (parent ++ [name]) (some (.file content)) :=
  Folder.view_put (view_parent hname hparent) hplace fun _ _ => rfl

/-- What was written to a path is read back from it. -/
theorem Disk.read_of_write {path : String} (hpath : pathSegments path = front ++ [name])
    {text : String} {later : Disk} (hwrite : disk.write path text.toUTF8 = .ok later) :
    later.read path = .ok text := by
  rw [write_eq hname hpath] at hwrite
  obtain ⟨parent, hparent, hwrite⟩ := bind_eq_ok.1 hwrite
  split at hwrite
  · contradiction
  · rename_i hfile
    have hview := view_put_file hname hparent hfile text.toUTF8
    obtain ⟨haccepted, hfollow, hfolder⟩ := parent_iff.1 hparent
    rw [Except.ok.inj hwrite] at hview
    have hfolders (place : Place) (hplace : disk.view place = some .folder) :
        later.view place = some .folder := by
      rw [hview, Function.update_of_ne, hplace]
      rintro rfl
      exact hfile hplace
    have hthere := hfolders parent hfolder
    have hagain := View.follow_of_folders hfolders hfollow (by rw [hthere]; rfl)
    have hlater : later.parent front name = .ok parent := by
      rw [← Except.ok.inj hwrite] at hagain hthere ⊢
      exact parent_iff.2 ⟨haccepted, hagain, hthere⟩
    rw [read_eq, locate_concat hname hpath, hlater, ok_bind, hview, Function.update_self]
    exact View.read_of_file (Function.update_self _ _ _)

end Entry

/-- Names of entries lead to what is seen behind them. -/
theorem Folder.follow_names {root : Folder} {place : Place} {names : List String}
    (hnames : ∀ name ∈ names, IsEntryName name)
    (hsome : (root.view (place ++ names)).isSome = true) :
    root.view.follow place names = .ok (place ++ names) := by
  induction names generalizing place with
  | nil => exact congrArg Except.ok (List.append_nil place).symm
  | cons name names ih =>
      obtain ⟨hname, hnames⟩ := List.forall_mem_cons.1 hnames
      rw [follow_name_append hname hsome]
      rw [List.append_cons place name names] at hsome ⊢
      exact ih hnames hsome

end Bindery
