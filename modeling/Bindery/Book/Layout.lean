import Bindery.Files.Path

namespace Bindery

/-! Where the files of a book stand below its root. -/

inductive Section
  | frontMatter
  | chapters
  | backMatter
  deriving DecidableEq, Repr

def Section.directory : Section → String
  | .frontMatter => "front-matter"
  | .chapters => "chapters"
  | .backMatter => "back-matter"

/-- How a fragment is named in messages. -/
def Section.label (place : Section) (file : String) : String :=
  place.directory ++ "/" ++ file

structure Layout where
  root : String := "book"
  deriving DecidableEq, Repr

def Layout.manifestPath (layout : Layout) : String :=
  joinPath layout.root "book.json"

def Layout.sectionPath (layout : Layout) (place : Section) : String :=
  joinPath layout.root place.directory

def Layout.outputFolder (layout : Layout) : String :=
  joinPath (joinPath layout.root "dist") "latex"

def Layout.outputPath (layout : Layout) : String :=
  joinPath layout.outputFolder "book.tex"

end Bindery
