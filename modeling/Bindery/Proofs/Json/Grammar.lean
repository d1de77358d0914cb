import Bindery.Proofs.Json.Number

namespace Bindery.Json

/-! JSON texts by their grammar. A tree says how each token of a value is written; a text of it has
these tokens in their order and any white space around them. -/

abbrev Token := List Char

/-- One character between quotation marks, or one half of a character beyond sixteen bits. -/
inductive Letter
  | plain (c : Char) (hplain : c ≠ '"' ∧ c ≠ '\\' ∧ isControl c = false)
  | short (letter meant : Char) (hshort : shortEscapes.lookup letter = some meant)
  | unit (digits : List Char) (value : Nat) (hunit : hexUnit? digits = some value)

def Letter.chars : Letter → List Char
  | .plain c _ => [c]
  | .short letter _ _ => ['\\', letter]
  | .unit digits _ _ => '\\' :: 'u' :: digits

/-- Nothing for a half of a character without its other half. -/
def decodeLetters : List Letter → Option (List Char)
  | [] => some []
  | .plain c _ :: letters => (decodeLetters letters).map (c :: ·)
  | .short _ meant _ :: letters => (decodeLetters letters).map (meant :: ·)
  | .unit _ value _ :: letters =>
      if isLowSurrogate value then none
      else if isHighSurrogate value then
        match letters with
        | .unit _ low _ :: letters =>
            if isLowSurrogate low then (decodeLetters letters).map (joinSurrogates value low :: ·)
            else none
        | _ => none
      else (decodeLetters letters).map (Char.ofNat value :: ·)

def decodeText (letters : List Letter) : Option String :=
  (decodeLetters letters).map String.ofList

def stringToken (letters : List Letter) : Token :=
  '"' :: letters.flatMap Letter.chars ++ ['"']

structure IsDigits (digits : List Char) : Prop where
  ne_nil : digits ≠ []
  isDigit : ∀ c ∈ digits, c.isDigit = true

structure Exponent where
  mark : Char
  sign? : Option Char
  digits : List Char
  mark_eq : mark = 'e' ∨ mark = 'E'
  sign_eq : ∀ sign ∈ sign?, sign = '+' ∨ sign = '-'
  isDigits : IsDigits digits

def Exponent.chars (exponent : Exponent) : List Char :=
  exponent.mark :: exponent.sign?.toList ++ exponent.digits

/-- A number literal; only a single zero begins with a zero. -/
structure Numeral where
  negative : Bool
  whole : List Char
  fraction? : Option { digits : List Char // IsDigits digits }
  exponent? : Option Exponent
  isDigits : IsDigits whole
  noZero : whole.head? = some '0' → whole = ['0']

def Numeral.sign (numeral : Numeral) : List Char :=
  if numeral.negative then ['-'] else []

def fractionChars (fraction? : Option { digits : List Char // IsDigits digits }) : List Char :=
  fraction?.elim [] ('.' :: ·.1)

def exponentChars (exponent? : Option Exponent) : List Char :=
  exponent?.elim [] Exponent.chars

def Numeral.chars (numeral : Numeral) : Token :=
  numeral.sign ++ numeral.whole ++ fractionChars numeral.fraction? ++
    exponentChars numeral.exponent?

inductive Tree
  | null
  | boolean (value : Bool)
  | number (numeral : Numeral)
  | text (letters : List Letter)
  | array (elements : List Tree)
  | object (members : List (List Letter × Tree))

/-- What stands in front of an element or a member. -/
def separator (isFirst : Bool) : List Token :=
  if isFirst then [] else [[',']]

theorem flatten_separator : (separator false).flatten = [','] := rfl

mutual
def Tree.tokens : Tree → List Token
  | .null => [['n', 'u', 'l', 'l']]
  | .boolean true => [['t', 'r', 'u', 'e']]
  | .boolean false => [['f', 'a', 'l', 's', 'e']]
  | .number numeral => [numeral.chars]
  | .text letters => [stringToken letters]
  | .array elements => ['['] :: Tree.elementTokens true elements
  | .object members => ['\x7b'] :: Tree.memberTokens true members

/-- The elements and the closing bracket. -/
def Tree.elementTokens (isFirst : Bool) : List Tree → List Token
  | [] => [[']']]
  | element :: elements =>
      separator isFirst ++ (element.tokens ++ Tree.elementTokens false elements)

def Tree.memberTokens (isFirst : Bool) : List (List Letter × Tree) → List Token
  | [] => [['\x7d']]
  | (key, value) :: members =>
      separator isFirst ++
        stringToken key :: [':'] :: (value.tokens ++ Tree.memberTokens false members)
end

theorem Tree.elementTokens_first (element : Tree) (elements : List Tree) :
    Tree.elementTokens true (element :: elements) =
      element.tokens ++ Tree.elementTokens false elements := rfl

theorem Tree.memberTokens_first (key : List Letter) (value : Tree)
    (members : List (List Letter × Tree)) :
    Tree.memberTokens true ((key, value) :: members) =
      stringToken key :: [':'] :: (value.tokens ++ Tree.memberTokens false members) := rfl

/-- A tree is taken apart with what is known of all its elements, or of the values of all its
members. -/
theorem Tree.induction {motive : Tree → Prop} (null : motive .null)
    (boolean : ∀ value, motive (.boolean value)) (number : ∀ numeral, motive (.number numeral))
    (text : ∀ letters, motive (.text letters))
    (array : ∀ elements, (∀ element ∈ elements, motive element) → motive (.array elements))
    (object : ∀ members, (∀ member ∈ members, motive member.2) → motive (.object members))
    (tree : Tree) : motive tree := by
  -- A tree nests in a list of elements, in a list of members and in a member.
  apply @Tree.rec motive (fun elements => ∀ element ∈ elements, motive element)
    (fun members => ∀ member ∈ members, motive member.2) (fun member => motive member.2) null
    boolean number text array object
  case nil => exact List.forall_mem_nil _
  case cons => exact fun _ _ hfirst hothers => List.forall_mem_cons.2 ⟨hfirst, hothers⟩
  case nil => exact List.forall_mem_nil _
  case cons => exact fun _ _ hfirst hothers => List.forall_mem_cons.2 ⟨hfirst, hothers⟩
  case mk => exact fun _ _ hvalue => hvalue

/-- The tokens of a text, with any white space in front of each and behind the last one. -/
inductive Spaced : List Token → List Char → Prop
  | nil {space : List Char} (hspace : ∀ c ∈ space, isSpace c = true) : Spaced [] space
  | cons {space rest : List Char} {token : Token} {tokens : List Token}
      (hspace : ∀ c ∈ space, isSpace c = true) (hrest : Spaced tokens rest) :
      Spaced (token :: tokens) (space ++ (token ++ rest))

def Tree.Spells (tree : Tree) (text : List Char) : Prop :=
  Spaced tree.tokens text

end Bindery.Json
