namespace Bindery

/-! The declared structure of a manuscript: which files it has, in which order, and which chapters
its parts group. -/

structure MatterItem where
  file : String
  deriving DecidableEq, Repr

structure Chapter where
  number : UInt32
  file : String
  /-- The heading printed when the chapter has no text of its own. -/
  title : Option String
  deriving DecidableEq, Repr

structure Part where
  number : UInt32
  title : String
  chapters : List UInt32
  deriving DecidableEq, Repr

structure Manifest where
  title : String
  author : String
  version : String
  frontMatter : List MatterItem
  parts : List Part
  chapters : List Chapter
  backMatter : List MatterItem
  deriving DecidableEq, Repr

/-- The title page is set from the manifest itself, so the file of this name is never printed. -/
def MatterItem.isTitlePage (item : MatterItem) : Bool :=
  item.file == "title.md"

def Manifest.printedFrontMatter (manifest : Manifest) : List MatterItem :=
  manifest.frontMatter.filter (!·.isTitlePage)

/-- Chapter numbers in ascending order, each with the part that has it. -/
abbrev PartMap :=
  List (UInt32 × Part)

/-- Of several parts that list a number the first one keeps it. -/
def PartMap.add (part : Part) (entries : PartMap) (number : UInt32) : PartMap :=
  match entries with
  | [] => [(number, part)]
  | entry :: entries =>
      if number < entry.1 then (number, part) :: entry :: entries
      else if number = entry.1 then entry :: entries
      else entry :: PartMap.add part entries number

def PartMap.addPart (entries : PartMap) (part : Part) : PartMap :=
  part.chapters.foldl (PartMap.add part) entries

def Manifest.partMap (manifest : Manifest) : PartMap :=
  manifest.parts.foldl PartMap.addPart []

end Bindery
