import Bindery.Decimal.Printed
import Bindery.Text.Quoted

namespace Bindery.Json

/-! Why a JSON text was refused, and where. -/

inductive Found
  | null
  | boolean (value : Bool)
  | integer (value : Int)
  | floating (value : Float)
  | text (value : String)
  | list
  | object

def Found.message : Found → String
  | .null => "null"
  | .boolean value => s!"boolean `{value}`"
  | .integer value => s!"integer `{value}`"
  | .floating value => "floating point `" ++ Decimal.floatText value ++ "`"
  | .text value => "string " ++ Text.quoted value
  | .list => "sequence"
  | .object => "map"

inductive Cause
  | endInValue
  | endInList
  | endInObject
  | endInString
  | expectedColon
  | expectedListEnd
  | expectedObjectEnd
  | expectedIdentifier
  | expectedValue
  | badEscape
  | badNumber
  | numberOutOfRange
  | controlCharacter
  | keyNotString
  | loneSurrogate
  | brokenSurrogatePair
  | trailingComma
  | trailingText
  | wrongType (found : Found) (expected : String)
  | wrongValue (found : Found) (expected : String)
  | wrongLength (count : Nat) (record : String) (size : Nat)
  | missingField (key : String)
  | duplicateField (key : String)

def Cause.message : Cause → String
  | .endInValue => "EOF while parsing a value"
  | .endInList => "EOF while parsing a list"
  | .endInObject => "EOF while parsing an object"
  | .endInString => "EOF while parsing a string"
  | .expectedColon => "expected `:`"
  | .expectedListEnd => "expected `,` or `]`"
  | .expectedObjectEnd => "expected `,` or `\x7d`"
  | .expectedIdentifier => "expected ident"
  | .expectedValue => "expected value"
  | .badEscape => "invalid escape"
  | .badNumber => "invalid number"
  | .numberOutOfRange => "number out of range"
  | .controlCharacter => "control character (\\u0000-\\u001F) found while parsing a string"
  | .keyNotString => "key must be a string"
  | .loneSurrogate => "lone leading surrogate in hex escape"
  | .brokenSurrogatePair => "unexpected end of hex escape"
  | .trailingComma => "trailing comma"
  | .trailingText => "trailing characters"
  | .wrongType found expected => s!"invalid type: {found.message}, expected {expected}"
  | .wrongValue found expected => s!"invalid value: {found.message}, expected {expected}"
  | .wrongLength count record size =>
      let elements := if size = 1 then "element" else "elements"
      s!"invalid length {count}, expected struct {record} with {size} {elements}"
  | .missingField key => s!"missing field `{key}`"
  | .duplicateField key => s!"duplicate field `{key}`"

/-- A cause, with the number of bytes of the text that were not read when it was found. -/
structure Fault where
  cause : Cause
  unread : Nat

def byteCount : List Char → Nat
  | [] => 0
  | c :: text => c.utf8Size + byteCount text

def faultBefore (cause : Cause) (rest : List Char) : Fault :=
  ⟨cause, byteCount rest⟩

/-- The fault is the first byte of `rest`, or the end of the text. -/
def faultAt (cause : Cause) (rest : List Char) : Fault :=
  ⟨cause, byteCount rest - 1⟩

/-- The line, and the bytes read in that line, after a number of bytes. -/
def lineAndColumn (line column : Nat) : List Char → Nat → Nat × Nat
  | [], _ => (line, column)
  | _, 0 => (line, column)
  | c :: text, bytes =>
      if c = '\n' then lineAndColumn (line + 1) 0 text (bytes - 1)
      else lineAndColumn line (column + min c.utf8Size bytes) text (bytes - c.utf8Size)

def Fault.message (fault : Fault) (text : List Char) : String :=
  let (line, column) := lineAndColumn 1 0 text (byteCount text - fault.unread)
  s!"{fault.cause.message} at line {line} column {column}"

end Bindery.Json
