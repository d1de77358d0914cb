import Bindery.Json.Text

namespace Bindery.Json

/-! Values to be written, on one line or spread over several. -/

inductive Value
  | number (value : Nat)
  | text (value : String)
  | array (values : List Value)
  | object (members : List (String × Value))

def openBrace : Char := '\x7b'

def closeBrace : Char := '\x7d'

mutual
/-- Without any white space. -/
def Value.compact : Value → List Char
  | .number value => Nat.toDigits 10 value
  | .text value => quotedText value
  | .array [] => ['[', ']']
  | .array (value :: values) => '[' :: value.compact ++ Value.compactElements values
  | .object [] => [openBrace, closeBrace]
  | .object ((key, value) :: members) =>
      openBrace :: quotedText key ++ ':' :: value.compact ++ Value.compactMembers members

/-- What follows an element, up to the closing bracket. -/
def Value.compactElements : List Value → List Char
  | [] => [']']
  | value :: values => ',' :: value.compact ++ Value.compactElements values

def Value.compactMembers : List (String × Value) → List Char
  | [] => [closeBrace]
  | (key, value) :: members =>
      ',' :: quotedText key ++ ':' :: value.compact ++ Value.compactMembers members
end

def newline (depth : Nat) : List Char :=
  '\n' :: List.replicate (2 * depth) ' '

mutual
/-- One element or member a line, two spaces deeper than what holds it. -/
def Value.pretty (depth : Nat) : Value → List Char
  | .number value => Nat.toDigits 10 value
  | .text value => quotedText value
  | .array [] => ['[', ']']
  | .array (value :: values) =>
      '[' :: newline (depth + 1) ++ value.pretty (depth + 1)
        ++ Value.prettyElements depth values
  | .object [] => [openBrace, closeBrace]
  | .object ((key, value) :: members) =>
      openBrace :: newline (depth + 1) ++ quotedText key ++ ':' :: ' '
        :: value.pretty (depth + 1) ++ Value.prettyMembers depth members

def Value.prettyElements (depth : Nat) : List Value → List Char
  | [] => newline depth ++ [']']
  | value :: values =>
      ',' :: newline (depth + 1) ++ value.pretty (depth + 1)
        ++ Value.prettyElements depth values

def Value.prettyMembers (depth : Nat) : List (String × Value) → List Char
  | [] => newline depth ++ [closeBrace]
  | (key, value) :: members =>
      ',' :: newline (depth + 1) ++ quotedText key ++ ':' :: ' '
        :: value.pretty (depth + 1) ++ Value.prettyMembers depth members
end

end Bindery.Json
