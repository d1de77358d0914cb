import Bindery.Book.Manifest
import Bindery.Latex.Text

namespace Bindery

open Latex (escapeText)

/-! What a document opens and closes with. The settings go in as they are given; the manifest's own
text is escaped. -/

structure PageSettings where
  fontSize : String := "11pt"
  paper : String := "letterpaper"
  margin : String := "1in"
  linkColor : String := "blue"
  deriving DecidableEq, Repr

def braced (text : String) : String :=
  "\x7b" ++ text ++ "\x7d"

def PageSettings.preambleLines (settings : PageSettings) (manifest : Manifest) : List String :=
  let title := braced (escapeText manifest.title)
  let author := braced (escapeText manifest.author)
  [ "\\documentclass[" ++ settings.fontSize ++ "," ++ settings.paper ++ "]" ++ braced "book",
    "",
    "% Packages",
    "\\usepackage[utf8]" ++ braced "inputenc",
    "\\usepackage[T1]" ++ braced "fontenc",
    "\\usepackage" ++ braced "lmodern",
    "\\usepackage" ++ braced "hyperref",
    "\\usepackage" ++ braced "listings",
    "\\usepackage" ++ braced "xcolor",
    "\\usepackage" ++ braced "geometry",
    "",
    "% Page geometry",
    "\\geometry\x7b",
    "  " ++ settings.paper ++ ",",
    "  margin=" ++ settings.margin,
    "\x7d",
    "",
    "% Hyperref setup",
    "\\hypersetup\x7b",
    "  colorlinks=true,",
    "  linkcolor=" ++ settings.linkColor ++ ",",
    "  urlcolor=" ++ settings.linkColor ++ ",",
    "  pdftitle=" ++ title ++ ",",
    "  pdfauthor=" ++ author,
    "\x7d",
    "",
    "% Listings setup for code blocks",
    "\\lstset\x7b",
    "  basicstyle=\\ttfamily\\small,",
    "  breaklines=true,",
    "  frame=single,",
    "  backgroundcolor=\\color" ++ braced "gray!10" ++ ",",
    "  numbers=left,",
    "  numberstyle=\\tiny\\color" ++ braced "gray" ++ ",",
    "  tabsize=2",
    "\x7d",
    "",
    "% Title info",
    "\\title" ++ title,
    "\\author" ++ author,
    "\\date" ++ braced ("Version " ++ escapeText manifest.version),
    "",
    "\\begin" ++ braced "document",
    "",
    "" ]

def PageSettings.preamble (settings : PageSettings) (manifest : Manifest) : String :=
  "\n".intercalate (settings.preambleLines manifest)

def documentClosing : String :=
  "\n\\end" ++ braced "document" ++ "\n"

end Bindery
