import Bindery.Markdown.Pattern

namespace Bindery.Markdown

/-! The tree that running text is read as. The passes are those over a working text, here over units
that hold what an earlier pass has found. -/

def Piece.ofText (text : List Char) : List Piece :=
  codePattern.replace .code .char text

/-- The styles one after the other; the body of an emphasis takes those after its own. -/
def emphasize : List Style → List Span → List Span
  | [], spans => spans
  | style :: styles, spans =>
      emphasize styles <|
        (style.pattern Span.isChar).replace (fun body => .styled style (emphasize styles body)) id
          spans

def Span.ofLink (parts : List Piece × List Piece) : Span :=
  .link (emphasize Style.all (parts.1.map Span.ofPiece)) parts.2

def Span.ofPieces (pieces : List Piece) : List Span :=
  (linkPattern Piece.isChar).replace Span.ofLink Span.ofPiece pieces

def Span.ofText (text : List Char) : List Span :=
  emphasize Style.all (Span.ofPieces (Piece.ofText text))

end Bindery.Markdown
