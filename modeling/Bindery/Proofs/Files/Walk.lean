import Mathlib.Tactic.SplitIfs
import Bindery.Proofs.Files.View

namespace Bindery

/-! Paths followed by sight: where a trail ends depends only on what is seen at the places that it
passes, not on how the tree holds them. -/

/-- Every name on the trail is an entry of the folder in which the trail before it ends. -/
inductive Folder.Leads (root : Folder) : Trail → Prop
  | start : root.Leads []
  | step {trail : Trail} {entries : Folder} {name : String} {node : Node}
      (hbefore : root.Leads trail) (hentries : root.atEnd trail = .folder entries)
      (hnode : entries.lookup name = some node) :
      root.Leads ((name, node) :: trail)

/-- Follows segments from a place, as a walk does. -/
def View.follow (view : View) (place : Place) : List String → Except FileFault Place
  | [] => .ok place
  | segment :: segments =>
      match view place with
      | some .folder =>
          if !isName segment then View.follow view place segments
          else if segment = ".." then View.follow view place.dropLast segments
          else if maxNameSize < segment.utf8ByteSize then .error .nameTooLong
          else if (view (place ++ [segment])).isNone then .error .notFound
          else View.follow view (place ++ [segment]) segments
      | _ => .error .notDirectory

@[simp] theorem Trail.place_nil : Trail.place [] = [] := rfl

@[simp] theorem Trail.place_cons (name : String) (node : Node) (trail : Trail) :
    Trail.place ((name, node) :: trail) = Trail.place trail ++ [name] := by
  simp [Trail.place]

theorem Trail.place_tail (trail : Trail) : Trail.place trail.tail = trail.place.dropLast := by
  cases trail with
  | nil => rfl
  | cons step trail => simp [Trail.place]

theorem Folder.Leads.at? {root : Folder} {trail : Trail} (hleads : root.Leads trail) :
    root.at? trail.place = some (root.atEnd trail) := by
  induction hleads with
  | start => rfl
  | step _ hentries hnode ih =>
      rw [Trail.place_cons, at?_append, ih, hentries, Option.bind_some]
      exact (lookup_eq_at? _ _).symm.trans hnode

theorem Folder.Leads.tail {root : Folder} {trail : Trail} (hleads : root.Leads trail) :
    root.Leads trail.tail := by
  cases hleads with
  | start => exact .start
  | step hbefore _ _ => exact hbefore

theorem Folder.Leads.view {root : Folder} {trail : Trail} (hleads : root.Leads trail) :
    root.view trail.place = some (root.atEnd trail).sight := by
  rw [Folder.view, hleads.at?]
  rfl

theorem Folder.Leads.view_append {root : Folder} {trail : Trail} (hleads : root.Leads trail)
    (below : Place) : root.view (trail.place ++ below) = (root.atEnd trail).view below :=
  view_append_of_at? hleads.at? below

theorem Folder.Leads.lookup {root : Folder} {trail : Trail} (hleads : root.Leads trail)
    {entries : Folder} (hentries : root.atEnd trail = .folder entries) (name : String) :
    root.view (trail.place ++ [name]) = (entries.lookup name).map Node.sight := by
  rw [hleads.view_append, hentries, lookup_eq_at?]
  rfl

theorem Folder.Leads.walk {root : Folder} {trail later : Trail} (hleads : root.Leads trail)
    {segments : List String} (hwalk : root.walk trail segments = .ok later) :
    root.Leads later := by
  induction segments generalizing trail with
  | nil => exact Except.ok.inj hwalk ▸ hleads
  | cons segment segments ih =>
      rw [Folder.walk] at hwalk
      split at hwalk
      · contradiction
      · rename_i entries hentries
        split_ifs at hwalk
        · exact ih hleads hwalk
        · exact ih hleads.tail hwalk
        · split at hwalk
          · contradiction
          · rename_i node hnode
            exact ih (hleads.step hentries hnode) hwalk

/-- A walk ends where its segments lead by sight, and fails as they do. -/
theorem Folder.Leads.map_place_walk {root : Folder} {trail : Trail} (hleads : root.Leads trail)
    (segments : List String) :
    (root.walk trail segments).map Trail.place = root.view.follow trail.place segments := by
  induction segments generalizing trail with
  | nil => rfl
  | cons segment segments ih =>
      rw [Folder.walk, View.follow, hleads.view]
      cases hentries : root.atEnd trail with
      | file content => rfl
      | folder entries =>
          have hlookup := hleads.lookup hentries segment
          simp only [Node.sight]
          split_ifs with hname hup hlong hnone
          · exact ih hleads
          · rw [ih hleads.tail, Trail.place_tail]
          · rfl
          · rw [hlookup, Option.isNone_map] at hnone
            rw [Option.isNone_iff_eq_none.1 hnone]
            rfl
          · cases hnode : entries.lookup segment with
            | none => simp [hlookup, hnode] at hnone
            | some node =>
                have hnext := ih (hleads.step hentries hnode)
                rw [Trail.place_cons] at hnext
                exact hnext

theorem View.follow_append (view : View) (place : Place) (front back : List String) :
    view.follow place (front ++ back) = view.follow place front >>= (view.follow · back) := by
  induction front generalizing place with
  | nil => rfl
  | cons segment segments ih =>
      simp only [List.cons_append, follow, ih]
      split
      · split_ifs <;> rfl
      · rfl

/-- Names that do not lead upwards lead to what they name below the place they start from. -/
theorem View.follow_below {view : View} {place later : Place} {names : List String}
    (hnames : ∀ name ∈ names, isName name = true ∧ name ≠ "..")
    (hfollow : view.follow place names = .ok later) : later = place ++ names := by
  induction names generalizing place with
  | nil => simpa using (Except.ok.inj hfollow).symm
  | cons name names ih =>
      obtain ⟨⟨hname, hup⟩, hnames⟩ := List.forall_mem_cons.1 hnames
      rw [follow] at hfollow
      simp only [hname, Bool.not_true, Bool.false_eq_true, hup, if_false] at hfollow
      split at hfollow
      · split_ifs at hfollow
        have hlater := ih hnames hfollow
        rwa [List.append_assoc, List.singleton_append] at hlater
      · contradiction

/-- Names that do not lead upwards are followed by what is seen below the place they start from. -/
theorem View.follow_congr_below {view other : View} {place there : Place} {names : List String}
    (hnames : ∀ name ∈ names, name ≠ "..")
    (hbelow : ∀ below, view (place ++ below) = other (there ++ below)) :
    (∃ fault, view.follow place names = .error fault ∧ other.follow there names = .error fault) ∨
      ∃ below, view.follow place names = .ok (place ++ below) ∧
        other.follow there names = .ok (there ++ below) := by
  induction names generalizing place there with
  | nil => exact .inr ⟨[], by simp [follow]⟩
  | cons name names ih =>
      obtain ⟨hup, hnames⟩ := List.forall_mem_cons.1 hnames
      have hhere := hbelow []
      have hnext := hbelow [name]
      rw [List.append_nil, List.append_nil] at hhere
      simp only [follow, hhere, hnext, hup, if_false]
      split
      · split_ifs
        · exact ih hnames hbelow
        · exact .inl ⟨_, rfl, rfl⟩
        · exact .inl ⟨_, rfl, rfl⟩
        · have hdeeper (below : Place) :
              view ((place ++ [name]) ++ below) = other ((there ++ [name]) ++ below) := by
            rw [List.append_assoc, List.append_assoc]
            exact hbelow ([name] ++ below)
          refine (ih hnames hdeeper).imp_right ?_
          rintro ⟨below, hfirst, hsecond⟩
          exact ⟨name :: below, by simpa using hfirst, by simpa using hsecond⟩
      · exact .inl ⟨_, rfl, rfl⟩

/-- Segments that lead nowhere only ask for a folder to stand in. -/
theorem View.follow_filter {view : View} {place later : Place} {segments : List String}
    (hfollow : view.follow place segments = .ok later) :
    view.follow place (segments.filter isName) = .ok later := by
  induction segments generalizing place with
  | nil => exact hfollow
  | cons segment segments ih =>
      rw [follow] at hfollow
      split at hfollow
      · rename_i hfolder
        by_cases hname : isName segment = true
        · rw [List.filter_cons_of_pos hname, follow, hfolder]
          simp only [hname, Bool.not_true, Bool.false_eq_true, if_false] at hfollow ⊢
          split_ifs at hfollow ⊢
          · exact ih hfollow
          · exact ih hfollow
        · rw [List.filter_cons_of_neg hname]
          simp only [hname, Bool.not_false, if_true] at hfollow
          exact ih hfollow
      · contradiction

section Folders

variable {view other : View}
  (hfolders : ∀ place, view place = some .folder → other place = some .folder)

include hfolders

theorem View.isSome_of_follow {place home : Place} {segments : List String}
    (hfollow : view.follow place segments = .ok home) (hhome : (other home).isSome = true) :
    (other place).isSome = true := by
  cases segments with
  | nil => exact Except.ok.inj hfollow ▸ hhome
  | cons segment segments =>
      rw [follow] at hfollow
      split at hfollow
      · rename_i hfolder
        rw [hfolders place hfolder]
        rfl
      · contradiction

/-- Where the same folders stand a path leads to the same place, if anything stands there. -/
theorem View.follow_of_folders {place home : Place} {segments : List String}
    (hfollow : view.follow place segments = .ok home) (hhome : (other home).isSome = true) :
    other.follow place segments = .ok home := by
  induction segments generalizing place with
  | nil => exact hfollow
  | cons segment segments ih =>
      rw [follow] at hfollow ⊢
      split at hfollow
      · rename_i hfolder
        rw [hfolders place hfolder]
        simp only
        split_ifs at hfollow ⊢ with hname hup hlong hgone
        · exact ih hfollow
        · exact ih hfollow
        · have hsome := isSome_of_follow hfolders hfollow hhome
          rw [Option.isNone_iff_eq_none.1 hgone] at hsome
          contradiction
        · exact ih hfollow
      · contradiction

end Folders

/-- What has changed leaves every folder a folder, and something wherever something stood. -/
structure View.Keeps (view later : View) : Prop where
  folder {place : Place} : view place = some .folder → later place = some .folder
  isNone {place : Place} : (later place).isNone = true → (view place).isNone = true

theorem View.Keeps.trans {view middle later : View} (hfirst : view.Keeps middle)
    (hsecond : middle.Keeps later) : view.Keeps later where
  folder hplace := hsecond.folder (hfirst.folder hplace)
  isNone hplace := hfirst.isNone (hsecond.isNone hplace)

/-- A path that led somewhere still leads there. -/
theorem View.Keeps.follow {view later : View} (hkeeps : view.Keeps later) {place home : Place}
    {segments : List String} (hfollow : view.follow place segments = .ok home) :
    later.follow place segments = .ok home := by
  induction segments generalizing place with
  | nil => exact hfollow
  | cons segment segments ih =>
      rw [View.follow] at hfollow ⊢
      split at hfollow
      · rename_i hfolder
        rw [hkeeps.folder hfolder]
        simp only
        split_ifs at hfollow ⊢ with hname hup hlong hnone hsome
        · exact ih hfollow
        · exact ih hfollow
        · exact absurd (hkeeps.isNone hnone) hsome
        · exact ih hfollow
      · contradiction

end Bindery
