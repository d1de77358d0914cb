import Bindery.Markdown.Inline
import Bindery.Markdown.Source
import Bindery.Text.Classes

namespace Bindery.Markdown

open Latex Text

/-! The lines of a fragment cut into blocks, and the LaTeX lines of each block. A fenced block takes
several lines and every other block takes one. -/

/-- Whether a level-one header takes part in the numbering of chapters. -/
inductive HeadingMode
  | numbered
  | unnumbered
  deriving DecidableEq, Repr

inductive Line
  | item (content : List Char)
  | text (content : List Char)
  deriving DecidableEq, Repr

def Line.isItem : Line → Bool
  | .item _ => true
  | .text _ => false

def Line.content : Line → List Char
  | .item content | .text content => content

inductive HeadingLevel
  | chapter
  | sect
  | subsection
  | subsubsection
  deriving DecidableEq, Repr

def HeadingLevel.ofDepth? : Nat → Option HeadingLevel
  | 1 => some .chapter
  | 2 => some .sect
  | 3 => some .subsection
  | 4 => some .subsubsection
  | _ => none

def HeadingLevel.command : HeadingMode → HeadingLevel → String
  | .numbered, .chapter => "chapter"
  | .unnumbered, .chapter => "chapter*"
  | _, .sect => "section"
  | _, .subsection => "subsection"
  | _, .subsubsection => "subsubsection"

inductive Block
  | listing (language : List Char) (code : List (List Char))
  | heading (level : HeadingLevel) (title : List Char)
  | rule
  | item (indent text : List Char)
  | paragraph (text : List Char)
  deriving DecidableEq, Repr

def fence : List Char :=
  ['\x60', '\x60', '\x60']

def fenceLanguage? (line : List Char) : Option (List Char) :=
  match trimStart line with
  | '\x60' :: '\x60' :: '\x60' :: tag =>
      if (tag.dropWhile isWord).all isBlank then some (tag.takeWhile isWord) else none
  | _ => none

def isFenceEnd (line : List Char) : Bool :=
  trim line == fence

def heading? (line : List Char) : Option (HeadingLevel × List Char) :=
  match HeadingLevel.ofDepth? (line.takeWhile (· == '#')).length, line.dropWhile (· == '#') with
  | some level, ' ' :: c :: title => some (level, c :: title)
  | _, _ => none

def isRule (line : List Char) : Bool :=
  3 ≤ line.length && line.all (· == '-')

def item? (line : List Char) : Option (List Char × List Char) :=
  match trimStart line with
  | '-' :: ' ' :: c :: text | '*' :: ' ' :: c :: text => some (line.takeWhile isBlank, c :: text)
  | _ => none

def Block.ofLine (line : List Char) : Block :=
  match heading? line with
  | some (level, title) => .heading level title
  | none =>
      if isRule line then .rule
      else
        match item? line with
        | some (indent, text) => .item indent text
        | none => .paragraph line

def findListing? : List (List Char) → Option ((List Char × List (List Char)) × List (List Char))
  | [] => none
  | line :: lines =>
      (fenceLanguage? line).bind fun language =>
        (cutAt? isFenceEnd lines).map fun (code, rest) => ((language, code), rest)

/-- A fenced block; without a closing line there is none. -/
def listingPattern : Pattern (List Char) (List Char × List (List Char)) where
  find? := findListing?
  shortens {lines} _ _ hfound := by
    cases lines with
    | nil => simp [findListing?] at hfound
    | cons line lines =>
        obtain ⟨language, _, hcode⟩ := Option.bind_eq_some_iff.1 hfound
        obtain ⟨⟨code, rest⟩, hcut, hpair⟩ := Option.map_eq_some_iff.1 hcode
        obtain ⟨_, rfl⟩ := Prod.mk.inj hpair
        exact Nat.lt_succ_of_lt (cutAt?_length hcut)

def Block.ofLines (lines : List (List Char)) : List Block :=
  listingPattern.replace (fun (language, code) => .listing language code) Block.ofLine lines

def defaultLanguage : List Char :=
  "text".toList

def listingBegin (language : List Char) : List Char :=
  let language := if language.isEmpty then defaultLanguage else language
  beginEnvironment "lstlisting" ++ "[language=".toList ++ language ++ [']']

def Block.lines (mode : HeadingMode) : Block → List Line
  | .listing language code =>
      [.text [], .text (listingBegin language)] ++ code.map (.text <| escapeCode ·)
        ++ [.text (endEnvironment "lstlisting"), .text []]
  | .heading level title => [.text (command (level.command mode) (inlineLatex title))]
  | .rule => [.text "\\hrulefill".toList, .text []]
  | .item indent text => [.item (indent ++ "\\item ".toList ++ inlineLatex text)]
  | .paragraph text => [.text (inlineLatex text)]

def fragmentLines (mode : HeadingMode) (markdown : List Char) : List Line :=
  (Block.ofLines (sourceLines markdown)).flatMap (Block.lines mode)

end Bindery.Markdown
