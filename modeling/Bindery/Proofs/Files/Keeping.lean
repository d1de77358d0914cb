import Bindery.Proofs.Files.Making

namespace Bindery

/-! What is done again. New folders and files leave the paths of a disk as they were, so what has
succeeded once finds everything in its place the next time and changes nothing. -/

theorem Folder.setEntry_of_lookup {folder : Folder} {name : String} {node : Node}
    (hnode : folder.lookup name = some node) : folder.setEntry name node = folder := by
  induction folder with
  | nil => contradiction
  | cons entry entries ih =>
      obtain ⟨other, old⟩ := entry
      rw [setEntry]
      split_ifs with hname
      · subst hname
        rw [List.lookup_cons_self] at hnode
        rw [Option.some.inj hnode]
      · rw [List.lookup_cons, beq_false_of_ne (Ne.symm hname)] at hnode
        rw [ih hnode]

/-- Putting what stands at a place already leaves the tree as it is, also in its order. -/
theorem Folder.put_of_at? {folder : Folder} {place : Place} {node : Node}
    (hnode : folder.at? place = some node) : folder.put node place = folder := by
  induction place generalizing folder with
  | nil =>
      obtain rfl := Option.some.inj hnode
      rfl
  | cons name place ih =>
      by_cases hplace : place = []
      · subst hplace
        exact setEntry_of_lookup ((lookup_eq_at? folder name).trans hnode)
      · rw [at?_cons] at hnode
        obtain ⟨first, hfirst, hbelow⟩ := Option.bind_eq_some_iff.1 hnode
        cases first with
        | file content =>
            cases place with
            | nil => contradiction
            | cons second place => cases hbelow
        | folder entries =>
            rw [put_cons folder node hplace hfirst, ih hbelow, setEntry_of_lookup hfirst]

/-- A later state of a disk on which every path that led somewhere leads there still. -/
structure Disk.Keeps (disk later : Disk) : Prop where
  pathLimit? : later.pathLimit? = disk.pathLimit?
  workingPlace : later.workingPlace = disk.workingPlace
  view : disk.view.Keeps later.view

theorem Disk.Keeps.refl (disk : Disk) : disk.Keeps disk :=
  ⟨rfl, rfl, ⟨id, id⟩⟩

theorem Disk.Keeps.trans {disk middle later : Disk} (hfirst : disk.Keeps middle)
    (hsecond : middle.Keeps later) : disk.Keeps later where
  pathLimit? := hsecond.pathLimit?.trans hfirst.pathLimit?
  workingPlace := hsecond.workingPlace.trans hfirst.workingPlace
  view := hfirst.view.trans hsecond.view

/-! Where a new entry stands no folder stood before. -/

theorem Disk.at?_of_target {disk : Disk} {segments : List String} {target : Target}
    (htarget : disk.target segments = .ok target) :
    disk.tree.at? target.parent = some (.folder target.siblings) := by
  rw [Disk.target] at htarget
  obtain ⟨_, -, htarget⟩ := bind_eq_ok.1 htarget
  obtain ⟨trail, hwalk, htarget⟩ := bind_eq_ok.1 htarget
  have hnode := (Folder.Leads.start.walk hwalk).at?
  split at htarget
  · contradiction
  · rename_i siblings hsiblings
    obtain rfl := Except.ok.inj htarget
    rw [hnode, hsiblings]

theorem Disk.keeps_put {disk : Disk} {parent : Place} {siblings : Folder}
    (hsiblings : disk.tree.at? parent = some (.folder siblings)) {name : String}
    (hname : (siblings.lookup name).map Node.sight ≠ some .folder) {node : Node}
    (hnode : ∀ first below, node.at? (first :: below) = none) :
    disk.Keeps (disk.put node (parent ++ [name])) where
  pathLimit? := rfl
  workingPlace := rfl
  view := by
    rw [lookup_eq_view hsiblings] at hname
    have hparent : disk.tree.view parent = some .folder := by
      rw [Folder.view, hsiblings]
      rfl
    have hput : (disk.put node (parent ++ [name])).view = Function.update disk.view _ _ :=
      Folder.view_put hparent hname hnode
    rw [hput]
    exact View.keeps_update _ fun hfolder => absurd hfolder hname

theorem Disk.keeps_of_makeFolder {disk later : Disk} {segments : List String}
    (hmade : disk.makeFolder segments = .ok later) : disk.Keeps later := by
  rw [makeFolder] at hmade
  obtain ⟨target, htarget, hmade⟩ := bind_eq_ok.1 hmade
  split at hmade
  · contradiction
  · split_ifs at hmade with hlong hsome
    obtain rfl := Except.ok.inj hmade
    rw [Bool.not_eq_true, Option.isSome_eq_false_iff, Option.isNone_iff_eq_none] at hsome
    exact keeps_put (at?_of_target htarget) (by simp [hsome]) fun _ _ => rfl

theorem Disk.keeps_of_provideFolder {disk later : Disk} {segments : List String}
    (hprovided : disk.provideFolder segments = .ok later) : disk.Keeps later := by
  rw [provideFolder] at hprovided
  split at hprovided
  · rename_i made hmade
    exact Except.ok.inj hprovided ▸ keeps_of_makeFolder hmade
  · split at hprovided
    · exact Except.ok.inj hprovided ▸ .refl disk
    · contradiction

theorem Disk.keeps_of_write {disk later : Disk} {path : String} {content : ByteArray}
    (hwrite : disk.write path content = .ok later) : disk.Keeps later := by
  rw [write] at hwrite
  obtain ⟨target, htarget, hwrite⟩ := bind_eq_ok.1 hwrite
  split at hwrite
  · contradiction
  · split_ifs at hwrite
    split at hwrite
    · contradiction
    · rename_i hfile
      obtain rfl := Except.ok.inj hwrite
      refine keeps_put (at?_of_target htarget) (fun hfolder => ?_) fun _ _ => rfl
      obtain ⟨node, hnode, hsight⟩ := Option.map_eq_some_iff.1 hfolder
      cases node with
      | file content => contradiction
      | folder entries => exact hfile entries hnode

/-- The folder itself comes last, when its ancestors stand. -/
theorem Disk.provideFolder_of_makeFoldersBelow {disk later : Disk} {segments above : List String}
    (hmade : disk.makeFoldersBelow segments above = (.ok (), later)) :
    ∃ middle, disk.Keeps middle ∧ middle.provideFolder segments = .ok later := by
  induction above generalizing segments later with
  | nil =>
      rw [makeFoldersBelow] at hmade
      split at hmade
      · rename_i made hprovided
        exact ⟨disk, .refl disk, hprovided.trans (congrArg _ (Prod.mk.inj hmade).2)⟩
      · cases hmade
  | cons name above ih =>
      rw [makeFoldersBelow] at hmade
      split at hmade
      · rename_i made hprovided
        exact ⟨disk, .refl disk, hprovided.trans (congrArg _ (Prod.mk.inj hmade).2)⟩
      · split at hmade
        · cases hmade
        · rename_i middle hparent
          obtain ⟨before, hbefore, hmiddle⟩ := ih hparent
          split at hmade
          · rename_i made hprovided
            exact ⟨middle, hbefore.trans (keeps_of_provideFolder hmiddle),
              hprovided.trans (congrArg _ (Prod.mk.inj hmade).2)⟩
          · cases hmade
      · cases hmade

theorem Disk.keeps_of_makeFolders {disk later : Disk} {path : String}
    (hmade : disk.makeFolders path = (.ok (), later)) : disk.Keeps later := by
  rw [makeFolders] at hmade
  split_ifs at hmade
  · exact (Prod.mk.inj hmade).2 ▸ .refl disk
  · obtain ⟨middle, hmiddle, hprovided⟩ := provideFolder_of_makeFoldersBelow hmade
    exact hmiddle.trans (keeps_of_provideFolder hprovided)

section Again

variable {disk made later : Disk} {front : List String} {name : String}

theorem Disk.Keeps.accept_eq (hkeeps : disk.Keeps later) (segments : List String) :
    later.accept segments = disk.accept segments := by
  rw [Disk.accept, Disk.accept, hkeeps.pathLimit?]

theorem Disk.Keeps.locate (hkeeps : disk.Keeps later) {path : String} {place : Place}
    (hplace : disk.locate path = .ok place) : later.locate path = .ok place := by
  have hpath : path ≠ "" := by
    rintro rfl
    contradiction
  rw [Disk.locate_eq _ hpath] at hplace ⊢
  obtain ⟨_, haccepted, hfollow⟩ := bind_eq_ok.1 hplace
  rw [hkeeps.accept_eq, haccepted, ok_bind, start, hkeeps.workingPlace]
  exact hkeeps.view.follow hfollow

theorem Disk.Keeps.parent (hkeeps : disk.Keeps later) {parent : Place}
    (hparent : disk.parent front name = .ok parent) : later.parent front name = .ok parent := by
  obtain ⟨haccepted, hfollow, hfolder⟩ := parent_iff.1 hparent
  refine parent_iff.2 ⟨?_, ?_, hkeeps.view.folder hfolder⟩
  · rw [hkeeps.accept_eq, haccepted]
  · rw [start, hkeeps.workingPlace]
    exact hkeeps.view.follow hfollow

variable (hname : IsEntryName name)

include hname

/-- A folder that was provided once is found from then on. -/
theorem Disk.Keeps.provideFolder (hkeeps : made.Keeps later)
    (hprovided : disk.provideFolder (front ++ [name]) = .ok made) :
    later.provideFolder (front ++ [name]) = .ok later := by
  have hmade := keeps_of_provideFolder hprovided
  rw [provideFolder_eq hname] at hprovided
  obtain ⟨parent, hparent, hprovided⟩ := bind_eq_ok.1 hprovided
  have hfolder : made.view (parent ++ [name]) = some .folder := by
    split at hprovided
    · rename_i hnone
      obtain rfl := Except.ok.inj hprovided
      rw [view_put_folder hname hparent hnone, Function.update_self]
    · rename_i hfolder
      exact Except.ok.inj hprovided ▸ hfolder
    · contradiction
  rw [provideFolder_eq hname, (hmade.trans hkeeps).parent hparent, ok_bind,
    hkeeps.view.folder hfolder]

theorem Disk.Keeps.makeFolders (hkeeps : made.Keeps later) {path : String}
    (hpath : pathSegments path = front ++ [name])
    (hmade : disk.makeFolders path = (.ok (), made)) :
    later.makeFolders path = (.ok (), later) := by
  rw [Disk.makeFolders] at hmade ⊢
  split_ifs at hmade ⊢
  · rfl
  · rw [hpath] at hmade ⊢
    obtain ⟨middle, -, hprovided⟩ := provideFolder_of_makeFoldersBelow hmade
    exact makeFoldersBelow_of_ok (hkeeps.provideFolder hname hprovided) _

/-- What was written is written over with itself. -/
theorem Disk.write_again {path : String} (hpath : pathSegments path = front ++ [name])
    {content : ByteArray} (hwrite : disk.write path content = .ok later) :
    later.write path content = .ok later := by
  have hkeeps := keeps_of_write hwrite
  rw [write_eq hname hpath] at hwrite ⊢
  obtain ⟨parent, hparent, hwrite⟩ := bind_eq_ok.1 hwrite
  rw [hkeeps.parent hparent, ok_bind]
  split at hwrite
  · contradiction
  · rename_i hfile
    obtain rfl := Except.ok.inj hwrite
    have hthere : (disk.put (.file content) (parent ++ [name])).tree.at? (parent ++ [name]) =
        some (.file content) :=
      (Folder.at?_put (view_parent hname hparent) (.file content) name []).trans rfl
    have hput : (disk.put (.file content) (parent ++ [name])).put (.file content)
        (parent ++ [name]) = disk.put (.file content) (parent ++ [name]) := by
      rw [Disk.put, Folder.put_of_at? hthere]
    have hview : (disk.put (.file content) (parent ++ [name])).view (parent ++ [name]) =
        some (.file content) := by
      rw [view, Folder.view, hthere]
      rfl
    rw [hview, hput]

end Again

end Bindery
