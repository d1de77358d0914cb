import Bindery.Book.Fragment
import Bindery.Files.Disk

namespace Bindery

/-! Fragments in the section directories of a book on disk. A file name is followed inside its
section directory only: one that leads outside is refused before the disk is looked at. -/

def Layout.fragmentPath (layout : Layout) (place : Section) (file : String) :
    Except FileFault String :=
  if leadsOutside file then .error (.outsideDirectory file place.directory)
  else .ok (joinPath (layout.sectionPath place) ("/".intercalate (pathNames file)))

def fetchFragment (disk : Disk) (layout : Layout) (place : Section) (file : String) : Fetched := do
  match disk.read (← layout.fragmentPath place file) with
  | .ok text => .ok (some text)
  | .error .notFound => .ok none
  | .error fault => .error fault

def Layout.source (layout : Layout) (disk : Disk) : FragmentSource where
  fetch := fetchFragment disk layout

end Bindery
