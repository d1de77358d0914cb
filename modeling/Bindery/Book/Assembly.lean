import Bindery.Book.Document
import Bindery.Book.Fragment
import Bindery.Book.Issue
import Bindery.Book.Preamble
import Bindery.Markdown.Itemize

namespace Bindery

open Latex Markdown

/-! A manifest and its fragments put together into one document: front matter, chapters under their
parts, and back matter. -/

def Document.receive (document : Document) (place : Section) (file : String) (fetched : Fetched) :
    Document × Fragment :=
  let fragment := Fragment.ofFetched place file fetched
  let document := document.note (fetchEvents place file fetched)
  (if fragment.found then document else document.recordMissing place file, fragment)

def Document.addMatter (source : FragmentSource) (place : Section) (document : Document)
    (item : MatterItem) : Document :=
  let (document, fragment) := document.receive place item.file (source.fetch place item.file)
  if fragment.text.isEmpty then document
  else
    (document.note [⟨.debug, .assembly, "Converting " ++ place.label item.file⟩]).addFragment
      (fragmentLatex .unnumbered fragment.text.toList)

/-- A chapter without text keeps its place in the numbering if it declares a title. -/
def Document.addChapterText (source : FragmentSource) (document : Document) (chapter : Chapter) :
    Document :=
  let (document, fragment) :=
    document.receive .chapters chapter.file (source.fetch .chapters chapter.file)
  if fragment.text.isEmpty then
    match chapter.title with
    | some title => document.addFragment (command "chapter" (escape title.toList))
    | none => document
  else
    (document.note
      [⟨.debug, .assembly, s!"Converting chapter {chapter.number} ({chapter.file})"⟩]).addFragment
        (fragmentLatex .numbered fragment.text.toList)

def Document.openFor (document : Document) (parts : PartMap) (chapter : Chapter) : Document :=
  match parts.lookup chapter.number with
  | some part => document.openPart part
  | none => document

def Document.addChapter (parts : PartMap) (source : FragmentSource) (document : Document)
    (chapter : Chapter) : Document :=
  (document.openFor parts chapter).addChapterText source chapter

def Document.beginRegion (document : Document) (region : Region) (message : String) : Document :=
  (document.note [⟨.info, .assembly, message⟩]).enter region

def assembleFrontMatter (manifest : Manifest) (source : FragmentSource) (document : Document) :
    Document :=
  let document := document.beginRegion .frontMatter "Processing front matter..."
  manifest.printedFrontMatter.foldl (Document.addMatter source .frontMatter)
    (document.append "\\maketitle\n\\tableofcontents\n\n")

def assembleMainMatter (manifest : Manifest) (source : FragmentSource) (document : Document) :
    Document :=
  manifest.chapters.foldl (Document.addChapter manifest.partMap source)
    (document.beginRegion .mainMatter "Processing chapters...")

def assembleBackMatter (manifest : Manifest) (source : FragmentSource) (document : Document) :
    Document :=
  manifest.backMatter.foldl (Document.addMatter source .backMatter)
    (document.beginRegion .backMatter "Processing back matter...")

def issueEvents (manifest : Manifest) : List Event :=
  manifest.issues.map fun issue => ⟨.warning, .assembly, "Manifest: " ++ issue.message⟩

def assemble (settings : PageSettings) (manifest : Manifest) (source : FragmentSource) : Document :=
  let document : Document :=
    { text := settings.preamble manifest, events := issueEvents manifest }
  let document := assembleFrontMatter manifest source document
  let document := assembleMainMatter manifest source document
  let document := assembleBackMatter manifest source document
  (document.enter .closed).append documentClosing

end Bindery
