namespace Bindery

/-! A directory tree without links: named files and folders, reached by the names that lead to
them. -/

inductive Node
  | file (content : ByteArray)
  | folder (entries : List (String × Node))

abbrev Folder := List (String × Node)

/-- The names that lead from the root to a node, none of them a dot. -/
abbrev Place := List String

def Folder.at? (folder : Folder) : Place → Option Node
  | [] => some (.folder folder)
  | name :: place =>
      match folder.lookup name with
      | none => none
      | some (.folder entries) => Folder.at? entries place
      | some (.file content) => if place.isEmpty then some (.file content) else none

/-- An existing entry keeps its position; a new one comes last. -/
def Folder.setEntry (folder : Folder) (name : String) (node : Node) : Folder :=
  match folder with
  | [] => [(name, node)]
  | (other, old) :: entries =>
      if other = name then (name, node) :: entries
      else (other, old) :: Folder.setEntry entries name node

/-- Sets the node at a place whose parent is a folder; the root stays a folder. -/
def Folder.put (folder : Folder) (node : Node) : Place → Folder
  | [] =>
      match node with
      | .folder entries => entries
      | .file _ => folder
  | [name] => folder.setEntry name node
  | name :: place =>
      match folder.lookup name with
      | some (.folder entries) => folder.setEntry name (.folder (Folder.put entries node place))
      | _ => folder

def Folder.erase (folder : Folder) : Place → Folder
  | [] => []
  | [name] => folder.filter (·.1 != name)
  | name :: place =>
      match folder.lookup name with
      | some (.folder entries) => folder.setEntry name (.folder (Folder.erase entries place))
      | _ => folder

mutual
/-- The paths of a node and of all below it, a folder's with a slash at its end. -/
def Node.paths (path : String) : Node → List String
  | .file _ => [path]
  | .folder entries => (path ++ "/") :: Node.pathsBelow (path ++ "/") entries

def Node.pathsBelow (above : String) : List (String × Node) → List String
  | [] => []
  | (name, node) :: entries => node.paths (above ++ name) ++ Node.pathsBelow above entries
end

/-- In the order of their code points. -/
def Folder.paths (folder : Folder) : List String :=
  (Node.pathsBelow "" folder).mergeSort (· ≤ ·)

@[simp] theorem Folder.at?_nil (folder : Folder) :
    folder.at? [] = some (.folder folder) := rfl

theorem Folder.lookup_setEntry_self (folder : Folder) (name : String) (node : Node) :
    (folder.setEntry name node).lookup name = some node := by
  induction folder with
  | nil => simp [setEntry]
  | cons entry entries ih =>
      obtain ⟨other, old⟩ := entry
      by_cases hname : other = name
      · simp [setEntry, hname]
      · simp [setEntry, hname, List.lookup_cons, beq_false_of_ne (Ne.symm hname), ih]

theorem Folder.lookup_setEntry_of_ne (folder : Folder) {name other : String} (node : Node)
    (hother : other ≠ name) :
    (folder.setEntry name node).lookup other = folder.lookup other := by
  induction folder with
  | nil => simp [setEntry, List.lookup_cons, beq_false_of_ne hother]
  | cons entry entries ih =>
      obtain ⟨key, old⟩ := entry
      by_cases hname : key = name
      · subst hname
        simp [setEntry, List.lookup_cons, beq_false_of_ne hother]
      · simp [setEntry, hname, List.lookup_cons, ih]

end Bindery
