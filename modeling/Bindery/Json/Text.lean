import Bindery.Json.Number

namespace Bindery.Json

/-! Strings. -/

def shortEscapes : List (Char × Char) :=
  [ ('"', '"'), ('\\', '\\'), ('/', '/'), ('b', '\x08'), ('f', '\x0c'), ('n', '\n'), ('r', '\r'),
    ('t', '\t') ]

def hexValue? (c : Char) : Option Nat :=
  if c.isDigit then some (c.toNat - '0'.toNat)
  else if 'a' ≤ c ∧ c ≤ 'f' then some (c.toNat - 'a'.toNat + 10)
  else if 'A' ≤ c ∧ c ≤ 'F' then some (c.toNat - 'A'.toNat + 10)
  else none

def hexUnit? : List Char → Option Nat
  | [a, b, c, d] => do
      return ((← hexValue? a) * 16 + (← hexValue? b)) * 256 + (← hexValue? c) * 16 + (← hexValue? d)
  | _ => none

/-- Four bytes are read before they are looked at. -/
def badUnit (text : List Char) : Fault :=
  if byteCount text < 4 then ⟨.endInString, 0⟩ else ⟨.badEscape, byteCount text - 4⟩

def isHighSurrogate (unit : Nat) : Bool :=
  0xD800 ≤ unit && unit ≤ 0xDBFF

def isLowSurrogate (unit : Nat) : Bool :=
  0xDC00 ≤ unit && unit ≤ 0xDFFF

def joinSurrogates (high low : Nat) : Char :=
  Char.ofNat ((high - 0xD800) * 0x400 + (low - 0xDC00) + 0x10000)

/-- What stands behind a high surrogate where the escape of a low one has to. -/
def brokenPair : List Char → Fault
  | [] | ['\\'] => ⟨.endInString, 0⟩
  | '\\' :: text => faultAt .brokenSurrogatePair text
  | text => faultAt .brokenSurrogatePair text

/-- What a reader leaves of a text once it has taken a first piece off it. -/
abbrev Rest (text : List Char) := { rest : List Char // rest.length < text.length }

def readEscape : (text : List Char) → Except Fault (Char × Rest text)
  | [] => .error ⟨.endInString, 0⟩
  | 'u' :: text =>
      match hexUnit? (text.take 4) with
      | none => .error (badUnit text)
      | some unit =>
          if isLowSurrogate unit then .error (faultBefore .loneSurrogate (text.drop 4))
          else if !isHighSurrogate unit then
            .ok (Char.ofNat unit, ⟨text.drop 4, by
              simp only [List.length_drop, List.length_cons]
              omega⟩)
          else
            match hlow : text.drop 4 with
            | '\\' :: 'u' :: behind =>
                match hexUnit? (behind.take 4) with
                | none => .error (badUnit behind)
                | some low =>
                    if isLowSurrogate low then
                      .ok (joinSurrogates unit low, ⟨behind.drop 4, by
                        have hlength := congrArg List.length hlow
                        simp only [List.length_drop, List.length_cons] at hlength ⊢
                        omega⟩)
                    else .error (faultBefore .loneSurrogate (behind.drop 4))
            | behind => .error (brokenPair behind)
  | c :: text =>
      match shortEscapes.lookup c with
      | some meant => .ok (meant, ⟨text, Nat.lt_succ_self _⟩)
      | none => .error (faultAt .badEscape (c :: text))

def isControl (c : Char) : Bool :=
  c.toNat < 0x20

/-- The characters up to the closing quotation mark, and the text behind it. -/
def readChars (text : List Char) : Except Fault (List Char × List Char) :=
  match text with
  | [] => .error ⟨.endInString, 0⟩
  | '"' :: rest => .ok ([], rest)
  | '\\' :: escape =>
      match readEscape escape with
      | .error fault => .error fault
      | .ok (c, rest) => do
          let (chars, rest) ← readChars rest.1
          return (c :: chars, rest)
  | c :: rest =>
      if isControl c then .error (faultBefore .controlCharacter rest)
      else do
        let (chars, rest) ← readChars rest
        return (c :: chars, rest)
  termination_by text.length
  decreasing_by
    · exact Nat.lt_succ_of_lt rest.2
    · simp

/-- Passes over a string. A code unit is not asked for its other half. -/
def skipChars : List Char → Except Fault (List Char)
  | [] => .error ⟨.endInString, 0⟩
  | '"' :: rest => .ok rest
  | ['\\'] => .error ⟨.endInString, 0⟩
  | '\\' :: 'u' :: a :: b :: c :: d :: rest =>
      if (hexUnit? [a, b, c, d]).isSome then skipChars rest
      else .error (badUnit (a :: b :: c :: d :: rest))
  | '\\' :: 'u' :: rest => .error (badUnit rest)
  | '\\' :: c :: rest =>
      if (shortEscapes.lookup c).isSome then skipChars rest
      else .error (faultAt .badEscape (c :: rest))
  | c :: rest =>
      if isControl c then .error (faultBefore .controlCharacter (c :: rest)) else skipChars rest

/-- A character as it is written between quotation marks. -/
def escapedChar (c : Char) : List Char :=
  match c with
  | '"' => ['\\', '"']
  | '\\' => ['\\', '\\']
  | '\x08' => ['\\', 'b']
  | '\x0c' => ['\\', 'f']
  | '\n' => ['\\', 'n']
  | '\r' => ['\\', 'r']
  | '\t' => ['\\', 't']
  | c =>
      if isControl c then
        ['\\', 'u', '0', '0', (c.toNat / 16).digitChar, (c.toNat % 16).digitChar]
      else [c]

def quotedText (text : String) : List Char :=
  '"' :: text.toList.flatMap escapedChar ++ ['"']

end Bindery.Json
