import Bindery.Files.Path
import Bindery.Files.Tree

namespace Bindery

/-! Why a file could not be read or written. -/

inductive FileFault
  | notFound
  | notDirectory
  | isDirectory
  | alreadyExists
  | invalidArgument
  | nameTooLong
  | nulInName
  | notText
  | outsideDirectory (file directory : String)
  deriving DecidableEq, Repr

def FileFault.message : FileFault → String
  | .notFound => "No such file or directory (os error 2)"
  | .notDirectory => "Not a directory (os error 20)"
  | .isDirectory => "Is a directory (os error 21)"
  | .alreadyExists => "File exists (os error 17)"
  | .invalidArgument => "Invalid argument (os error 22)"
  | .nameTooLong => "File name too long (os error 36)"
  | .nulInName => "file name contained an unexpected NUL byte"
  | .notText => "stream did not contain valid UTF-8"
  | .outsideDirectory file directory => s!"'{file}' points outside {directory}/"

/-! The way from the root of a tree to a node, and how the segments of a path lengthen and shorten
it. -/

/-- The names that were passed and what each of them leads to, the last one first. -/
abbrev Trail := List (String × Node)

def Trail.place (trail : Trail) : Place :=
  (trail.map (·.1)).reverse

/-- What stands at the end of a trail through a tree. -/
def Folder.atEnd (root : Folder) (trail : Trail) : Node :=
  match trail with
  | [] => .folder root
  | (_, node) :: _ => node

/-- The longest name that a folder entry may have, in bytes. -/
def maxNameSize : Nat := 255

/-- Follows segments from the end of a trail. Each of them, also an empty one, asks for a folder to
stand in; above the root is the root. -/
def Folder.walk (root : Folder) (trail : Trail) : List String → Except FileFault Trail
  | [] => .ok trail
  | segment :: segments =>
      match root.atEnd trail with
      | .file _ => .error .notDirectory
      | .folder entries =>
          if !isName segment then root.walk trail segments
          else if segment = ".." then root.walk trail.tail segments
          else if maxNameSize < segment.utf8ByteSize then .error .nameTooLong
          else
            match entries.lookup segment with
            | none => .error .notFound
            | some node => root.walk ((segment, node) :: trail) segments

end Bindery
