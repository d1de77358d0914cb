import Bindery.Book.Manifest
import Bindery.Json.Record
import Bindery.Json.Value

namespace Bindery

open Json

/-! The manifest as JSON text: how it is read, and its compact written form. -/

structure MatterItem.Draft where
  file : Option String := none

def MatterItem.shape : Shape MatterItem.Draft MatterItem where
  name := "MatterItem"
  fields := [RecordField.of "file" false readText (·.file) ({ · with file := some · })]
  blank := {}
  finish draft :=
    match draft.file with
    | none => .error "file"
    | some file => .ok ⟨file⟩

structure Chapter.Draft where
  number : Option UInt32 := none
  file : Option String := none
  title : Option (Option String) := none

def Chapter.shape : Shape Chapter.Draft Chapter where
  name := "Chapter"
  fields :=
    [ RecordField.of "number" false readWord (·.number) ({ · with number := some · }),
      RecordField.of "file" false readText (·.file) ({ · with file := some · }),
      RecordField.of "title" true readTextOrNull (·.title) ({ · with title := some · }) ]
  blank := {}
  finish draft :=
    match draft.number, draft.file with
    | none, _ => .error "number"
    | _, none => .error "file"
    | some number, some file => .ok ⟨number, file, draft.title.getD none⟩

structure Part.Draft where
  number : Option UInt32 := none
  title : Option String := none
  chapters : Option (List UInt32) := none

def Part.shape : Shape Part.Draft Part where
  name := "Part"
  fields :=
    [ RecordField.of "number" false readWord (·.number) ({ · with number := some · }),
      RecordField.of "title" false readText (·.title) ({ · with title := some · }),
      RecordField.of "chapters" true (readList readWord) (·.chapters)
        ({ · with chapters := some · }) ]
  blank := {}
  finish draft :=
    match draft.number, draft.title with
    | none, _ => .error "number"
    | _, none => .error "title"
    | some number, some title => .ok ⟨number, title, draft.chapters.getD []⟩

structure Manifest.Draft where
  title : Option String := none
  author : Option String := none
  version : Option String := none
  frontMatter : Option (List MatterItem) := none
  parts : Option (List Part) := none
  chapters : Option (List Chapter) := none
  backMatter : Option (List MatterItem) := none

def Manifest.shape : Shape Manifest.Draft Manifest where
  name := "Manifest"
  fields :=
    [ RecordField.of "title" false readText (·.title) ({ · with title := some · }),
      RecordField.of "author" true readText (·.author) ({ · with author := some · }),
      RecordField.of "version" true readText (·.version) ({ · with version := some · }),
      RecordField.of "frontMatter" true (readList MatterItem.shape.read) (·.frontMatter)
        ({ · with frontMatter := some · }),
      RecordField.of "parts" true (readList Part.shape.read) (·.parts) ({ · with parts := some · }),
      RecordField.of "chapters" true (readList Chapter.shape.read) (·.chapters)
        ({ · with chapters := some · }),
      RecordField.of "backMatter" true (readList MatterItem.shape.read) (·.backMatter)
        ({ · with backMatter := some · }) ]
  blank := {}
  finish draft :=
    match draft.title with
    | none => .error "title"
    | some title =>
        .ok
          { title
            author := draft.author.getD ""
            version := draft.version.getD ""
            frontMatter := draft.frontMatter.getD []
            parts := draft.parts.getD []
            chapters := draft.chapters.getD []
            backMatter := draft.backMatter.getD [] }

def Manifest.ofJson (text : List Char) : Except Fault Manifest :=
  readWhole Manifest.shape.read text

def numberValue (number : UInt32) : Value :=
  .number number.toNat

def MatterItem.value (item : MatterItem) : Value :=
  .object [("file", .text item.file)]

/-- An absent title is left out. -/
def Chapter.value (chapter : Chapter) : Value :=
  .object <|
    [("number", numberValue chapter.number), ("file", .text chapter.file)]
      ++ (chapter.title.map fun title => ("title", Value.text title)).toList

def Part.value (part : Part) : Value :=
  .object
    [ ("number", numberValue part.number), ("title", .text part.title),
      ("chapters", .array (part.chapters.map numberValue)) ]

def Manifest.value (manifest : Manifest) : Value :=
  .object
    [ ("title", .text manifest.title), ("author", .text manifest.author),
      ("version", .text manifest.version),
      ("frontMatter", .array (manifest.frontMatter.map MatterItem.value)),
      ("parts", .array (manifest.parts.map Part.value)),
      ("chapters", .array (manifest.chapters.map Chapter.value)),
      ("backMatter", .array (manifest.backMatter.map MatterItem.value)) ]

def Manifest.json (manifest : Manifest) : List Char :=
  manifest.value.compact

end Bindery
