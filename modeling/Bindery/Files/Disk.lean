import Bindery.Files.Trail

namespace Bindery

/-! A disk with a working folder, how a path is followed on it, and what can be done there. -/

structure Disk where
  tree : Folder
  /-- Where relative paths start. -/
  workingPlace : Place := []
  /-- The longest text of a path, in bytes, where there is such a limit. -/
  pathLimit? : Option Nat := some 4095

def Disk.at? (disk : Disk) (place : Place) : Option Node :=
  disk.tree.at? place

def Disk.put (disk : Disk) (node : Node) (place : Place) : Disk :=
  { disk with tree := disk.tree.put node place }

def Disk.erase (disk : Disk) (place : Place) : Disk :=
  { disk with tree := disk.tree.erase place }

/-- The segments of an absolute path begin with an empty one. -/
def Disk.start (disk : Disk) (segments : List String) : Place :=
  if segments.head? = some "" then [] else disk.workingPlace

def hasNul (segments : List String) : Bool :=
  segments.any (·.toList.contains '\x00')

/-- Some paths are refused for their text alone. -/
def Disk.accept (disk : Disk) (segments : List String) : Except FileFault Unit :=
  if hasNul segments then .error .nulInName
  else if disk.pathLimit?.any (· < ("/".intercalate segments).utf8ByteSize) then
    .error .nameTooLong
  else .ok ()

def Disk.follow (disk : Disk) (segments : List String) : Except FileFault Trail := do
  disk.accept segments
  disk.tree.walk [] (disk.start segments ++ segments)

def Disk.resolve (disk : Disk) (path : String) : Except FileFault Trail :=
  if path.isEmpty then .error .notFound else disk.follow (pathSegments path)

def Disk.read (disk : Disk) (path : String) : Except FileFault String := do
  match disk.tree.atEnd (← disk.resolve path) with
  | .file content =>
      match String.fromUTF8? content with
      | some text => .ok text
      | none => .error .notText
  | .folder _ => .error .isDirectory

/-- Where a new entry would stand: what is in its parent already, and its name unless the path ends
in dots. -/
structure Target where
  parent : Place
  siblings : Folder
  name? : Option String

/-- Slashes at the end of the path are dropped. -/
def Disk.target (disk : Disk) (segments : List String) : Except FileFault Target := do
  disk.accept segments
  let names := (segments.reverse.dropWhile (·.isEmpty)).reverse
  let parent ← disk.tree.walk [] (disk.start segments ++ names.dropLast)
  match disk.tree.atEnd parent with
  | .file _ => .error .notDirectory
  | .folder siblings =>
      return ⟨parent.place, siblings, names.getLast?.filter fun name => isName name && name != ".."⟩

def Disk.write (disk : Disk) (path : String) (content : ByteArray) : Except FileFault Disk := do
  let segments := pathSegments path
  let target ← disk.target segments
  match target.name? with
  | none => .error (if path.isEmpty then .notFound else .isDirectory)
  | some name =>
      if segments.getLast? = some "" then .error .isDirectory
      else if maxNameSize < name.utf8ByteSize then .error .nameTooLong
      else
        match target.siblings.lookup name with
        | some (.folder _) => .error .isDirectory
        | _ => return disk.put (.file content) (target.parent ++ [name])

def Disk.makeFolder (disk : Disk) (segments : List String) : Except FileFault Disk := do
  let target ← disk.target segments
  match target.name? with
  | none => .error .alreadyExists
  | some name =>
      if maxNameSize < name.utf8ByteSize then .error .nameTooLong
      else if (target.siblings.lookup name).isSome then .error .alreadyExists
      else return disk.put (.folder []) (target.parent ++ [name])

/-- A folder may stand there already. -/
def Disk.provideFolder (disk : Disk) (segments : List String) : Except FileFault Disk :=
  match disk.makeFolder segments with
  | .ok disk => .ok disk
  | .error fault =>
      match (disk.follow segments).map disk.tree.atEnd with
      | .ok (.folder _) => .ok disk
      | _ => .error fault

/-- Takes an empty folder away by its name, which has to end the path. Where the path no longer
leads to it nothing is left to do. -/
def Disk.removeFolder (disk : Disk) (segments : List String) : Except FileFault Disk :=
  match disk.target segments with
  | .error .notFound => .ok disk
  | .error fault => .error fault
  | .ok ⟨parent, _, some name⟩ => .ok (disk.erase (parent ++ [name]))
  | .ok ⟨_, _, none⟩ => .error .invalidArgument

/-- Removes a file, or a folder after everything in it. -/
def Disk.remove (disk : Disk) (path : String) : Except FileFault Unit × Disk :=
  match disk.resolve path with
  | .error fault => (.error fault, disk)
  | .ok trail =>
      match disk.tree.atEnd trail with
      | .file _ => (.ok (), disk.erase trail.place)
      | .folder _ =>
          let emptied := disk.put (.folder []) trail.place
          match emptied.removeFolder (pathSegments path) with
          | .ok disk => (.ok (), disk)
          | .error fault => (.error fault, emptied)

/-- Makes a folder and, where they are missing, its ancestors; `above` holds the segments of the
parent from the last one up. Ancestors that were made stay when the folder itself cannot be made. -/
def Disk.makeFoldersBelow (disk : Disk) (segments : List String) :
    (above : List String) → Except FileFault Unit × Disk
  | [] =>
      match disk.provideFolder segments with
      | .ok disk => (.ok (), disk)
      | .error fault => (.error fault, disk)
  | name :: above =>
      match disk.provideFolder segments with
      | .ok disk => (.ok (), disk)
      | .error .notFound =>
          match disk.makeFoldersBelow (name :: above).reverse above with
          | (.error fault, disk) => (.error fault, disk)
          | (.ok (), disk) =>
              match disk.provideFolder segments with
              | .ok disk => (.ok (), disk)
              | .error fault => (.error fault, disk)
      | .error fault => (.error fault, disk)

def Disk.makeFolders (disk : Disk) (path : String) : Except FileFault Unit × Disk :=
  if path.isEmpty then (.ok (), disk)
  else disk.makeFoldersBelow (pathSegments path) (parentSegments path).reverse

def Disk.save (disk : Disk) (path : String) (content : ByteArray) : Except FileFault Unit × Disk :=
  match disk.makeFolders (parentPath path) with
  | (.error fault, disk) => (.error fault, disk)
  | (.ok (), disk) =>
      match disk.write path content with
      | .ok disk => (.ok (), disk)
      | .error fault => (.error fault, disk)

end Bindery
