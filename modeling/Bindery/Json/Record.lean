import Bindery.Json.Skip

namespace Bindery.Json

/-! Values of a known kind: strings, numbers, lists, and records. A record is written as an object,
whose unknown members are passed over, or as the list of its fields in order. -/

/-- A value of another kind is read first, so that the message can show it. -/
def wrongKind (expected : String) (text : List Char) : Fault :=
  let refuse (found : Found) (rest : List Char) : Fault :=
    faultBefore (.wrongType found expected) rest
  let refuseWord (letters : List Char) (found : Found) (rest : List Char) : Fault :=
    match skipWord letters rest with
    | .ok rest => refuse found rest
    | .error fault => fault
  match text with
  | [] => faultAt .endInValue []
  | 'n' :: rest => refuseWord ['u', 'l', 'l'] .null rest
  | 't' :: rest => refuseWord ['r', 'u', 'e'] (.boolean true) rest
  | 'f' :: rest => refuseWord ['a', 'l', 's', 'e'] (.boolean false) rest
  | '"' :: rest =>
      match readChars rest with
      | .ok (chars, rest) => refuse (.text (String.ofList chars)) rest
      | .error fault => fault
  | '[' :: _ => refuse .list text
  | '\x7b' :: _ => refuse .object text
  | c :: _ =>
      if c.isDigit || c == '-' then
        match readNumber text with
        | .ok (number, rest) => refuse number.found rest
        | .error fault => fault
      else faultAt .expectedValue text

def readText : Reader String := fun text =>
  match skipSpace text with
  | '"' :: rest => do
      let (chars, rest) ← readChars rest
      return (String.ofList chars, rest)
  | text => .error (wrongKind "a string" text)

def readTextOrNull : Reader (Option String) := fun text =>
  match skipSpace text with
  | 'n' :: rest => do return (none, ← skipWord ['u', 'l', 'l'] rest)
  | text => do
      let (value, rest) ← readText text
      return (some value, rest)

/-- Only a natural literal below `2 ^ 32` is a word; nothing is rounded or wrapped. -/
def Number.word : Number → Except Cause UInt32
  | .natural value =>
      if value < UInt32.size then .ok value.toUInt32
      else .error (.wrongValue (.integer value) "u32")
  | .negative value => .error (.wrongValue (.integer value) "u32")
  | .floating value => .error (.wrongType (.floating value) "u32")

def readWord : Reader UInt32 := fun text =>
  match skipSpace text with
  | [] => .error (faultAt .endInValue [])
  | c :: rest =>
      if c.isDigit || c == '-' then do
        let (number, rest) ← readNumber (c :: rest)
        match number.word with
        | .ok value => .ok (value, rest)
        | .error cause => .error (faultBefore cause rest)
      else .error (wrongKind "u32" (c :: rest))

/-- The text of the next element, or nothing in front of the closing bracket. -/
def nextElement? (isFirst : Bool) (text : List Char) : Except Fault (Option (List Char)) :=
  match skipSpace text with
  | [] => .error (faultAt .endInList [])
  | ']' :: _ => .ok none
  | c :: rest =>
      if isFirst then .ok (some (c :: rest))
      else if c = ',' then
        match skipSpace rest with
        | [] => .error (faultAt .endInValue [])
        | ']' :: rest => .error (faultAt .trailingComma (']' :: rest))
        | rest => .ok (some rest)
      else .error (faultAt .expectedListEnd (c :: rest))

def closeList (text : List Char) : Except Fault (List Char) :=
  match skipSpace text with
  | [] => .error (faultAt .endInList [])
  | ']' :: rest => .ok rest
  | ',' :: rest =>
      match skipSpace rest with
      | ']' :: rest => .error (faultAt .trailingComma (']' :: rest))
      | rest => .error (faultAt .trailingText rest)
  | rest => .error (faultAt .trailingText rest)

/-- Every element takes at least one character, so the length of the text bounds their number. -/
def readElements (read : Reader α) : (bound : Nat) → (isFirst : Bool) → Reader (List α)
  | 0, _, text => .error (faultAt .endInList text)
  | bound + 1, isFirst, text => do
      match ← nextElement? isFirst text with
      | none => return ([], text)
      | some element => do
          let (value, rest) ← read element
          let (values, rest) ← readElements read bound false rest
          return (value :: values, rest)

def readList (read : Reader α) : Reader (List α) := fun text =>
  match skipSpace text with
  | '[' :: rest => do
      let (values, rest) ← readElements read (rest.length + 1) true rest
      return (values, ← closeList rest)
  | text => .error (wrongKind "a sequence" text)

/-- A field of a record that is read into drafts of type `δ`. -/
structure RecordField (δ : Type) where
  key : String
  isRead : δ → Bool
  /-- Whether a list may end in front of the field. -/
  hasDefault : Bool
  read : δ → Reader δ

def RecordField.of (key : String) (hasDefault : Bool) (read : Reader β) (get : δ → Option β)
    (set : δ → β → δ) : RecordField δ where
  key := key
  isRead draft := (get draft).isSome
  hasDefault := hasDefault
  read draft text := do
    let (value, rest) ← read text
    return (set draft value, rest)

/-- Records of type `α`, read field by field into drafts of type `δ`. A draft without a field that
the record needs is finished by the key of that field. -/
structure Shape (δ α : Type) where
  name : String
  fields : List (RecordField δ)
  blank : δ
  finish : δ → Except String α

def Shape.field? (shape : Shape δ α) (key : String) : Option (RecordField δ) :=
  shape.fields.find? (·.key == key)

/-- The next key, and the text behind it, or nothing in front of the closing brace. -/
def nextKey? (isFirst : Bool) (text : List Char) : Except Fault (Option (String × List Char)) :=
  let readKey : List Char → Except Fault (Option (String × List Char))
    | '"' :: rest => do
        let (chars, rest) ← readChars rest
        return some (String.ofList chars, rest)
    | rest => .error (faultAt .keyNotString rest)
  match skipSpace text with
  | [] => .error (faultAt .endInObject [])
  | '\x7d' :: _ => .ok none
  | c :: rest =>
      if isFirst then readKey (c :: rest)
      else if c = ',' then
        match skipSpace rest with
        | [] => .error (faultAt .endInValue [])
        | '\x7d' :: rest => .error (faultAt .trailingComma ('\x7d' :: rest))
        | rest => readKey rest
      else .error (faultAt .expectedObjectEnd (c :: rest))

def closeObject (text : List Char) : Except Fault (List Char) :=
  match skipSpace text with
  | [] => .error (faultAt .endInObject [])
  | '\x7d' :: rest => .ok rest
  | ',' :: rest => .error (faultAt .trailingComma (',' :: rest))
  | rest => .error (faultAt .trailingText rest)

/-- A fault that belongs to an object as a whole stands behind the object's end, or at the next
token where the object does not end here. -/
def faultInObject (cause : Cause) (text : List Char) : Fault :=
  match closeObject text with
  | .ok rest => faultBefore cause rest
  | .error _ => faultBefore cause (skipSpace text)

/-- Every member takes at least one character, so the length of the text bounds their number. -/
def Shape.readMembers (shape : Shape δ α) : (bound : Nat) → (isFirst : Bool) → δ → Reader δ
  | 0, _, _, text => .error (faultAt .endInObject text)
  | bound + 1, isFirst, draft, text => do
      match ← nextKey? isFirst text with
      | none => return (draft, text)
      | some (key, rest) =>
          match shape.field? key with
          | none => do
              let rest ← skipValue (← skipColon rest)
              shape.readMembers bound false draft rest
          | some field => do
              if field.isRead draft then .error (faultInObject (.duplicateField key) rest)
              else do
                let (draft, rest) ← field.read draft (← skipColon rest)
                shape.readMembers bound false draft rest

/-- Reads the elements of a list into the fields in turn; `count` of them have been read. -/
def Shape.readFields (shape : Shape δ α) : List (RecordField δ) → (count : Nat) → δ → Reader δ
  | [], _, draft, text => .ok (draft, text)
  | field :: fields, count, draft, text => do
      match ← nextElement? (count == 0) text with
      | some element => do
          let (draft, rest) ← field.read draft element
          shape.readFields fields (count + 1) draft rest
      | none =>
          if field.hasDefault then shape.readFields fields (count + 1) draft text
          else
            let cause := Cause.wrongLength count shape.name shape.fields.length
            .error (faultBefore cause (← closeList text))

def Shape.complete (shape : Shape δ α) (draft : δ) (rest : List Char) :
    Except Fault (α × List Char) :=
  match shape.finish draft with
  | .ok record => .ok (record, rest)
  | .error key => .error (faultBefore (.missingField key) rest)

def Shape.read (shape : Shape δ α) : Reader α := fun text =>
  match skipSpace text with
  | '\x7b' :: rest => do
      let (draft, rest) ← shape.readMembers (rest.length + 1) true shape.blank rest
      shape.complete draft (← closeObject rest)
  | '[' :: rest => do
      let (draft, rest) ← shape.readFields shape.fields 0 shape.blank rest
      shape.complete draft (← closeList rest)
  | text => .error (wrongKind s!"struct {shape.name}" text)

/-- A whole text that holds one value and white space around it. -/
def readWhole (read : Reader α) (text : List Char) : Except Fault α := do
  let (value, rest) ← read text
  match skipSpace rest with
  | [] => return value
  | rest => .error (faultAt .trailingText rest)

end Bindery.Json
