import Bindery.Book.Layout
import Bindery.Book.ManifestFormat
import Bindery.Files.Disk

namespace Bindery

/-! The manifest of a book on disk, or why there is none. -/

inductive ManifestCause
  | notFound
  | unreadable (fault : FileFault)
  | malformed (message : String)

structure ManifestError where
  path : String
  cause : ManifestCause

def ManifestError.message (error : ManifestError) : String :=
  match error.cause with
  | .notFound => "Manifest not found: " ++ error.path
  | .unreadable fault => "Cannot read manifest " ++ error.path ++ ": " ++ fault.message
  | .malformed message => "Malformed manifest " ++ error.path ++ ": " ++ message

/-- What lies behind the error, if it is more than the error says itself. -/
def ManifestError.underlying : ManifestError → List String
  | ⟨_, .notFound⟩ => []
  | ⟨_, .unreadable fault⟩ => [fault.message]
  | ⟨_, .malformed message⟩ => [message]

def Manifest.load (disk : Disk) (path : String) : Except ManifestError Manifest :=
  match disk.read path with
  | .error .notFound => .error ⟨path, .notFound⟩
  | .error fault => .error ⟨path, .unreadable fault⟩
  | .ok text =>
      match Manifest.ofJson text.toList with
      | .ok manifest => .ok manifest
      | .error fault => .error ⟨path, .malformed (fault.message text.toList)⟩

end Bindery
