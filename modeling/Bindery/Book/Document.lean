import Bindery.Book.Event
import Bindery.Book.Layout
import Bindery.Book.Manifest
import Bindery.Latex.Text

namespace Bindery

open Latex

/-! A document in the making. Text is only ever appended, and the regions follow each other in one
order. -/

inductive Region
  | preamble
  | frontMatter
  | mainMatter
  | backMatter
  | closed
  deriving DecidableEq, Repr

def Region.marker : Region → String
  | .preamble | .closed => ""
  | .frontMatter => "\\frontmatter\n"
  | .mainMatter => "\\mainmatter\n\n"
  | .backMatter => "\\backmatter\n\n\\appendix\n\n"

structure Document where
  text : String := ""
  region : Region := .preamble
  /-- The numbers of the parts that have a header. -/
  openedParts : List UInt32 := []
  fragments : Nat := 0
  missing : List String := []
  events : List Event := []

def Document.append (document : Document) (text : String) : Document :=
  { document with text := document.text ++ text }

def Document.note (document : Document) (events : List Event) : Document :=
  { document with events := document.events ++ events }

def Document.enter (document : Document) (region : Region) : Document :=
  { document with region, text := document.text ++ region.marker }

def Document.addFragment (document : Document) (latex : List Char) : Document :=
  { document with
    text := document.text ++ String.ofList latex ++ "\n\n"
    fragments := document.fragments + 1 }

def partHeader (part : Part) : String :=
  String.ofList (command "part" (escape part.title.toList)) ++ "\n\n"

/-- Writes the header of a part whose number has none yet. -/
def Document.openPart (document : Document) (part : Part) : Document :=
  if document.openedParts.contains part.number then document
  else
    { document with
      text := document.text ++ partHeader part
      openedParts := part.number :: document.openedParts }

def Document.recordMissing (document : Document) (place : Section) (file : String) : Document :=
  { document with missing := document.missing ++ [place.label file] }

end Bindery
