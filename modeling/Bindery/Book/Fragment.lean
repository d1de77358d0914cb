import Bindery.Book.Event
import Bindery.Book.Layout
import Bindery.Files.Trail

namespace Bindery

/-! The text behind one manifest entry, and where such texts come from. -/

/-- What a source answers for a file: its text, nothing where there is no file, or a fault. -/
abbrev Fetched := Except FileFault (Option String)

structure FragmentSource where
  fetch : Section → String → Fetched

/-- A fragment that was not found has an empty text. -/
structure Fragment where
  place : Section
  file : String
  text : String
  found : Bool
  deriving DecidableEq, Repr

def Fragment.ofFetched (place : Section) (file : String) : Fetched → Fragment
  | .ok (some text) => ⟨place, file, text, true⟩
  | _ => ⟨place, file, "", false⟩

def fetchEvents (place : Section) (file : String) : Fetched → List Event
  | .ok (some _) => []
  | .ok none => [⟨.warning, .source, "File not found: " ++ place.label file⟩]
  | .error fault =>
      [⟨.warning, .source, "Cannot read " ++ place.label file ++ ": " ++ fault.message⟩]

def FragmentSource.holds (source : FragmentSource) (place : Section) (file : String) : Bool :=
  match source.fetch place file with
  | .ok (some _) => true
  | _ => false

def FragmentSource.read (source : FragmentSource) (place : Section) (file : String) : Fragment :=
  Fragment.ofFetched place file (source.fetch place file)

def FragmentSource.readEvents (source : FragmentSource) (place : Section) (file : String) :
    List Event :=
  fetchEvents place file (source.fetch place file)

end Bindery
