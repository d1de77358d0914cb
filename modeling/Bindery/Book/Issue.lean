import Bindery.Book.Manifest

namespace Bindery

/-! Structural problems of a manifest. None of them stops a build. -/

inductive Issue
  | chapterInMultipleParts (chapter assigned ignored : UInt32)
  | unknownChapter (part chapter : UInt32)
  | duplicateChapter (number : UInt32)
  | duplicatePart (number : UInt32)
  deriving DecidableEq, Repr

def Issue.message : Issue → String
  | .chapterInMultipleParts chapter assigned ignored =>
      s!"chapter {chapter} is listed in parts {assigned} and {ignored}; using part {assigned}"
  | .unknownChapter part chapter => s!"part {part} lists undeclared chapter {chapter}"
  | .duplicateChapter number => s!"chapter number {number} is declared more than once"
  | .duplicatePart number => s!"part number {number} is declared more than once"

def Manifest.declares (manifest : Manifest) (number : UInt32) : Bool :=
  manifest.chapters.any (·.number == number)

/-- The chapters whose number stands in `seen` or belongs to an earlier chapter. -/
def chapterIssues (seen : List UInt32) : List Chapter → List Issue
  | [] => []
  | chapter :: chapters =>
      let issues := chapterIssues (chapter.number :: seen) chapters
      if seen.contains chapter.number then .duplicateChapter chapter.number :: issues else issues

/-- The numbers that parts have listed so far, each with the number of the first such part. -/
abbrev Owners :=
  List (UInt32 × UInt32)

def Manifest.listedIssues (manifest : Manifest) (part : Part) (owners : Owners) :
    List UInt32 → List Issue × Owners
  | [] => ([], owners)
  | chapter :: chapters =>
      let unknown :=
        if manifest.declares chapter then [] else [.unknownChapter part.number chapter]
      let (shared, owners) :=
        match owners.lookup chapter with
        | some assigned =>
            if assigned = part.number then ([], owners)
            else ([.chapterInMultipleParts chapter assigned part.number], owners)
        | none => ([], (chapter, part.number) :: owners)
      let (issues, owners) := manifest.listedIssues part owners chapters
      (unknown ++ shared ++ issues, owners)

def Manifest.partIssues (manifest : Manifest) (seen : List UInt32) (owners : Owners) :
    List Part → List Issue
  | [] => []
  | part :: parts =>
      let (listed, owners) := manifest.listedIssues part owners part.chapters
      let issues := listed ++ manifest.partIssues (part.number :: seen) owners parts
      if seen.contains part.number then .duplicatePart part.number :: issues else issues

def Manifest.issues (manifest : Manifest) : List Issue :=
  chapterIssues [] manifest.chapters ++ manifest.partIssues [] [] manifest.parts

end Bindery
