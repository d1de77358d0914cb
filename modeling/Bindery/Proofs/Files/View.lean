import Mathlib.Logic.Function.Basic
import Bindery.Files.Trail

namespace Bindery

/-! A directory tree as it is seen from outside. At each place stands a file with what it holds, a
folder, or nothing; the order of entries, and entries behind another one of their name, cannot be
seen. -/

inductive Sight
  | file (content : ByteArray)
  | folder

abbrev View := Place → Option Sight

def Node.sight : Node → Sight
  | .file content => .file content
  | .folder _ => .folder

/-- What stands at a place below a node. -/
def Node.at? : Node → Place → Option Node
  | .folder entries, place => Folder.at? entries place
  | .file content, [] => some (.file content)
  | .file _, _ :: _ => none

def Node.view (node : Node) : View :=
  fun place => (node.at? place).map Node.sight

def Folder.view (folder : Folder) : View :=
  fun place => (folder.at? place).map Node.sight

@[simp] theorem Node.at?_nil (node : Node) : node.at? [] = some node := by
  cases node <;> rfl

theorem Folder.at?_cons (folder : Folder) (name : String) (place : Place) :
    folder.at? (name :: place) = (folder.lookup name).bind (·.at? place) := by
  rw [at?]
  cases folder.lookup name with
  | none => rfl
  | some node =>
      cases node with
      | folder entries => rfl
      | file content => cases place <;> rfl

theorem Folder.at?_append (folder : Folder) (place below : Place) :
    folder.at? (place ++ below) = (folder.at? place).bind (·.at? below) := by
  induction place generalizing folder with
  | nil => rfl
  | cons name place ih =>
      rw [List.cons_append, at?_cons, at?_cons]
      cases folder.lookup name with
      | none => rfl
      | some node =>
          cases node with
          | folder entries => exact ih entries
          | file content => cases place <;> rfl

theorem Folder.view_append_of_at? {folder : Folder} {place : Place} {node : Node}
    (hnode : folder.at? place = some node) (below : Place) :
    folder.view (place ++ below) = node.view below := by
  rw [view, at?_append, hnode]
  rfl

/-- Below what is no folder nothing stands. -/
theorem Folder.view_append_cons {folder : Folder} {place : Place}
    (hplace : folder.view place ≠ some .folder) (name : String) (below : Place) :
    folder.view (place ++ name :: below) = none := by
  rw [view, at?_append]
  rw [view] at hplace
  cases hnode : folder.at? place with
  | none => rfl
  | some node =>
      cases node with
      | file content => rfl
      | folder entries =>
          rw [hnode] at hplace
          exact absurd rfl hplace

theorem Folder.isSome_view_of_append {folder : Folder} {place below : Place}
    (hbelow : (folder.view (place ++ below)).isSome = true) :
    (folder.view place).isSome = true := by
  cases below with
  | nil => rwa [List.append_nil] at hbelow
  | cons name below =>
      rw [Option.isSome_iff_ne_none]
      intro hnone
      rw [view_append_cons (by simp [hnone])] at hbelow
      contradiction

theorem Folder.at?_of_view {folder : Folder} {place : Place}
    (hplace : folder.view place = some .folder) :
    ∃ entries, folder.at? place = some (.folder entries) := by
  obtain ⟨node, hnode, hsight⟩ := Option.map_eq_some_iff.1 hplace
  cases node with
  | file content => contradiction
  | folder entries => exact ⟨entries, hnode⟩

theorem Folder.lookup_eq_at? (folder : Folder) (name : String) :
    folder.lookup name = folder.at? [name] := by
  rw [at?_cons]
  cases folder.lookup name <;> simp

theorem Folder.view_cons_eq_folder {folder : Folder} {first : String} {place : Place}
    (hplace : folder.view (first :: place) = some .folder) :
    ∃ entries, folder.lookup first = some (.folder entries) ∧
      Folder.view entries place = some .folder := by
  obtain ⟨below, hbelow⟩ := at?_of_view hplace
  rw [at?_cons] at hbelow
  obtain ⟨node, hnode, hbelow⟩ := Option.bind_eq_some_iff.1 hbelow
  cases node with
  | file content => cases place <;> simp [Node.at?] at hbelow
  | folder entries => exact ⟨entries, hnode, congrArg (Option.map Node.sight) hbelow⟩

/-! What a new entry changes. -/

theorem Folder.put_cons (folder : Folder) (node : Node) {first : String} {place : Place}
    (hplace : place ≠ []) {entries : Folder}
    (hfirst : folder.lookup first = some (.folder entries)) :
    folder.put node (first :: place) =
      folder.setEntry first (.folder (Folder.put entries node place)) := by
  cases place with
  | nil => contradiction
  | cons second place => rw [put, hfirst]; simp

theorem Folder.at?_put {folder : Folder} {parent : Place}
    (hparent : folder.view parent = some .folder) (node : Node) (name : String) (below : Place) :
    (folder.put node (parent ++ [name])).at? (parent ++ name :: below) = node.at? below := by
  induction parent generalizing folder with
  | nil =>
      change (folder.setEntry name node).at? (name :: below) = node.at? below
      rw [at?_cons, lookup_setEntry_self, Option.bind_some]
  | cons first parent ih =>
      obtain ⟨entries, hfirst, hentries⟩ := view_cons_eq_folder hparent
      rw [List.cons_append, List.cons_append, put_cons folder node (by simp) hfirst, at?_cons,
        lookup_setEntry_self]
      exact ih hentries

theorem Folder.view_put_elsewhere {folder : Folder} {parent : Place}
    (hparent : folder.view parent = some .folder) (node : Node) {name : String} {place : Place}
    (hplace : ¬ parent ++ [name] <+: place) :
    (folder.put node (parent ++ [name])).view place = folder.view place := by
  induction parent generalizing folder place with
  | nil =>
      cases place with
      | nil => rfl
      | cons other place =>
          have hother : other ≠ name := by
            rintro rfl
            exact hplace ⟨place, rfl⟩
          change Option.map _ ((folder.setEntry name node).at? (other :: place)) = _
          rw [view, at?_cons, at?_cons, lookup_setEntry_of_ne folder node hother]
  | cons first parent ih =>
      obtain ⟨entries, hfirst, hentries⟩ := view_cons_eq_folder hparent
      rw [List.cons_append, put_cons folder node (by simp) hfirst]
      cases place with
      | nil => rfl
      | cons other place =>
          rw [view, view, at?_cons, at?_cons]
          by_cases hother : other = first
          · subst hother
            rw [lookup_setEntry_self, hfirst]
            exact ih hentries fun hprefix => hplace ((List.prefix_cons_inj other).2 hprefix)
          · rw [lookup_setEntry_of_ne folder _ hother]

/-- A file or an empty folder where no folder stands changes what is seen at its own place only. -/
theorem Folder.view_put {folder : Folder} {parent : Place}
    (hparent : folder.view parent = some .folder) {name : String}
    (hplace : folder.view (parent ++ [name]) ≠ some .folder) {node : Node}
    (hnode : ∀ first below, node.at? (first :: below) = none) :
    (folder.put node (parent ++ [name])).view =
      Function.update folder.view (parent ++ [name]) (some node.sight) := by
  funext place
  by_cases hprefix : parent ++ [name] <+: place
  · obtain ⟨below, rfl⟩ := hprefix
    have hput := at?_put hparent node name below
    rw [view, List.append_assoc, List.singleton_append, hput]
    cases below with
    | nil => simp
    | cons first below =>
        have hbefore := view_append_cons hplace first below
        rw [List.append_assoc, List.singleton_append] at hbefore
        rw [hnode, Function.update_of_ne (by simp), hbefore]
        rfl
  · have hne : place ≠ parent ++ [name] := by
      rintro rfl
      exact hprefix (List.prefix_refl _)
    rw [view_put_elsewhere hparent node hprefix, Function.update_of_ne hne]

end Bindery
