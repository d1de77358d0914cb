import Bindery.Markdown.Block

namespace Bindery.Markdown

open Latex

/-! Item lines put into lists. Each run of items becomes one flat list; indentation stays text. -/

def listBegin : List Char :=
  beginEnvironment "itemize"

def listEnd : List Char :=
  endEnvironment "itemize"

/-- Writes the lines, given whether a list is open before them. -/
def itemizeFrom : Bool → List Line → List (List Char)
  | false, [] => []
  | true, [] => [listEnd]
  | false, .item text :: lines => listBegin :: text :: itemizeFrom true lines
  | true, .item text :: lines => text :: itemizeFrom true lines
  | false, .text text :: lines => text :: itemizeFrom false lines
  | true, .text text :: lines => listEnd :: text :: itemizeFrom false lines

def itemize (lines : List Line) : List (List Char) :=
  itemizeFrom false lines

def fragmentLatex (mode : HeadingMode) (markdown : List Char) : List Char :=
  ['\n'].intercalate (itemize (fragmentLines mode markdown))

end Bindery.Markdown
