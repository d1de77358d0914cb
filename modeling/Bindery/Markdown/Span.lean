import Bindery.Latex.Text

namespace Bindery.Markdown

open Latex

/-! Running text as a tree: characters, code, links and emphasis, and the LaTeX of each. -/

/-- Text in which only code spans have been told apart. -/
inductive Piece
  | char (c : Char)
  | code (body : List Char)
  deriving DecidableEq, Repr

/-- The four kinds of emphasis, told apart by the marker on both sides. -/
inductive Style
  | boldItalic
  | bold
  | star
  | underscore
  deriving DecidableEq, Repr

/-- From the longest marker down. -/
def Style.all : List Style :=
  [.boldItalic, .bold, .star, .underscore]

def Style.marker : Style → List Char
  | .boldItalic => ['*', '*', '*']
  | .bold => ['*', '*']
  | .star => ['*']
  | .underscore => ['_']

def Style.latex : Style → List Char → List Char
  | .boldItalic, body => command "textbf" (command "textit" body)
  | .bold, body => command "textbf" body
  | .star, body | .underscore, body => command "textit" body

inductive Span
  | char (c : Char)
  | code (body : List Char)
  | link (label : List Span) (url : List Piece)
  | styled (style : Style) (body : List Span)

def Span.ofPiece : Piece → Span
  | .char c => .char c
  | .code body => .code body

def codeLatex (body : List Char) : List Char :=
  command "texttt" (escape body)

/-- A url keeps its characters as they are; only its code spans are set as code. -/
def Piece.urlLatex : Piece → List Char
  | .char c => [c]
  | .code body => codeLatex body

mutual
def Span.latex : Span → List Char
  | .char c => escapeChar c
  | .code body => codeLatex body
  | .link label url =>
      command "href" (url.flatMap Piece.urlLatex) ++ group (Span.allLatex label)
  | .styled style body => style.latex (Span.allLatex body)

def Span.allLatex : List Span → List Char
  | [] => []
  | span :: spans => span.latex ++ Span.allLatex spans
end

@[simp] theorem Span.latex_char (c : Char) : (Span.char c).latex = escapeChar c := by
  simp [Span.latex]

@[simp] theorem Span.allLatex_nil : Span.allLatex [] = [] := by
  simp [Span.allLatex]

@[simp] theorem Span.allLatex_cons (span : Span) (spans : List Span) :
    Span.allLatex (span :: spans) = span.latex ++ Span.allLatex spans := by
  simp [Span.allLatex]

theorem Span.allLatex_eq_flatMap (spans : List Span) :
    Span.allLatex spans = spans.flatMap Span.latex := by
  induction spans with
  | nil => simp
  | cons span spans ih => simp [ih]

end Bindery.Markdown
