namespace Bindery.Latex

/-! Commands, groups and environments as LaTeX writes them. -/

def group (text : List Char) : List Char :=
  '\x7b' :: text ++ ['\x7d']

def command (name : String) (argument : List Char) : List Char :=
  '\\' :: name.toList ++ group argument

def beginEnvironment (name : String) : List Char :=
  command "begin" name.toList

def endEnvironment (name : String) : List Char :=
  command "end" name.toList

/-! Manuscript text made literal for LaTeX. Every character is written on its own, so a text is
escaped in one pass and no written backslash is read again. -/

/-- The ten characters that LaTeX gives a meaning in running text. -/
def isReserved (c : Char) : Bool :=
  c ∈ ['\\', '&', '%', '$', '#', '_', '\x7b', '\x7d', '~', '^']

def escapeChar (c : Char) : List Char :=
  match c with
  | '\\' => "\\textbackslash\x7b\x7d".toList
  | '~' => "\\textasciitilde\x7b\x7d".toList
  | '^' => "\\textasciicircum\x7b\x7d".toList
  | c => if isReserved c then ['\\', c] else [c]

def escape (text : List Char) : List Char :=
  text.flatMap escapeChar

/-- In a listing only the backslash and the two braces keep a meaning. -/
def escapeCodeChar (c : Char) : List Char :=
  match c with
  | '\\' | '\x7b' | '\x7d' => escapeChar c
  | c => [c]

def escapeCode (code : List Char) : List Char :=
  code.flatMap escapeCodeChar

def escapeText (text : String) : String :=
  String.ofList (escape text.toList)

@[simp] theorem escape_nil : escape [] = [] := rfl

@[simp] theorem escape_cons (c : Char) (text : List Char) :
    escape (c :: text) = escapeChar c ++ escape text := rfl

@[simp] theorem escape_append (first second : List Char) :
    escape (first ++ second) = escape first ++ escape second :=
  List.flatMap_append

theorem escapeChar_of_not_isReserved {c : Char} (hc : isReserved c = false) :
    escapeChar c = [c] := by
  have hplain : c ∉ ['\\', '&', '%', '$', '#', '_', '\x7b', '\x7d', '~', '^'] := by
    simpa [isReserved] using hc
  unfold escapeChar
  split <;> simp_all

@[simp] theorem escapeCode_nil : escapeCode [] = [] := rfl

@[simp] theorem escapeCode_cons (c : Char) (code : List Char) :
    escapeCode (c :: code) = escapeCodeChar c ++ escapeCode code := rfl

@[simp] theorem toList_escapeText (text : String) :
    (escapeText text).toList = escape text.toList := by
  simp [escapeText]

end Bindery.Latex
