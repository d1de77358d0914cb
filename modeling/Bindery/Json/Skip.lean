import Bindery.Json.Text

namespace Bindery.Json

/-! Passing over white space and over whole values that nobody asks for. Their grammar is checked
all the same. -/

def isSpace (c : Char) : Bool :=
  c == ' ' || c == '\n' || c == '\t' || c == '\r'

def skipSpace (text : List Char) : List Char :=
  text.dropWhile isSpace

/-- Passes over the letters of a word of which the first one has been seen. -/
def skipWord : List Char → List Char → Except Fault (List Char)
  | [], text => .ok text
  | _ :: _, [] => .error (faultBefore .endInValue [])
  | letter :: letters, c :: text =>
      if c = letter then skipWord letters text else .error (faultAt .expectedIdentifier (c :: text))

def skipColon (text : List Char) : Except Fault (List Char) :=
  match skipSpace text with
  | [] => .error (faultAt .endInObject [])
  | ':' :: rest => .ok rest
  | rest => .error (faultAt .expectedColon rest)

mutual
/-- Every value takes at least one character, so the depth is bounded by the length of the text. -/
def skipValueWithin : (depth : Nat) → List Char → Except Fault (List Char)
  | 0, text => .error (faultAt .endInValue text)
  | depth + 1, text =>
      match skipSpace text with
      | [] => .error (faultAt .endInValue [])
      | 'n' :: rest => skipWord ['u', 'l', 'l'] rest
      | 't' :: rest => skipWord ['r', 'u', 'e'] rest
      | 'f' :: rest => skipWord ['a', 'l', 's', 'e'] rest
      | '"' :: rest => skipChars rest
      | '[' :: rest =>
          match skipSpace rest with
          | [] => .error (faultAt .endInList [])
          | ']' :: rest => .ok rest
          | rest => skipElementsWithin depth rest
      | '\x7b' :: rest =>
          match skipSpace rest with
          | '\x7d' :: rest => .ok rest
          | rest => skipMembersWithin depth rest
      | c :: rest =>
          if c.isDigit || c == '-' then skipNumber (c :: rest)
          else .error (faultAt .expectedValue (c :: rest))

def skipElementsWithin : (depth : Nat) → List Char → Except Fault (List Char)
  | 0, text => .error (faultAt .endInValue text)
  | depth + 1, text => do
      match skipSpace (← skipValueWithin depth text) with
      | [] => .error (faultAt .endInList [])
      | ',' :: rest => skipElementsWithin depth rest
      | ']' :: rest => .ok rest
      | rest => .error (faultAt .expectedListEnd rest)

def skipMembersWithin : (depth : Nat) → List Char → Except Fault (List Char)
  | 0, text => .error (faultAt .endInValue text)
  | depth + 1, text =>
      match skipSpace text with
      | [] => .error (faultAt .endInObject [])
      | '"' :: key => do
          match skipSpace (← skipValueWithin depth (← skipColon (← skipChars key))) with
          | [] => .error (faultAt .endInObject [])
          | ',' :: rest => skipMembersWithin depth rest
          | '\x7d' :: rest => .ok rest
          | rest => .error (faultAt .expectedObjectEnd rest)
      | rest => .error (faultAt .keyNotString rest)
end

def skipValue (text : List Char) : Except Fault (List Char) :=
  skipValueWithin (2 * text.length + 1) text

end Bindery.Json
