import Bindery.Book.Preamble

namespace Bindery

open Latex

/-! The preamble of the default page settings, cut where the manifest's own text goes in. -/

/-- The lines of a preamble for a manifest without text. -/
def plainPreamble : List String :=
  ({} : PageSettings).preambleLines ⟨"", "", "", [], [], [], []⟩

/-- What stands in front of the metadata of the finished file. -/
def packageLines : List String :=
  plainPreamble.take 22

def metadataLines (manifest : Manifest) : List String :=
  [ "  pdftitle=" ++ braced (escapeText manifest.title) ++ ",",
    "  pdfauthor=" ++ braced (escapeText manifest.author) ]

def listingLines : List String :=
  (plainPreamble.drop 24).take 14

def titleLines (manifest : Manifest) : List String :=
  [ "\\title" ++ braced (escapeText manifest.title),
    "\\author" ++ braced (escapeText manifest.author),
    "\\date" ++ braced ("Version " ++ escapeText manifest.version) ]

def openingLines : List String :=
  (plainPreamble.drop 41).take 3

theorem preambleLines_default (manifest : Manifest) :
    ({} : PageSettings).preambleLines manifest =
      packageLines ++ metadataLines manifest ++ listingLines ++ titleLines manifest ++
        openingLines ++ [""] := rfl

def writtenLines (lines : List String) : List Char :=
  lines.flatMap fun line => line.toList ++ ['\n']

theorem intercalate_append_nil (separator : List Char) (lines : List (List Char)) :
    separator.intercalate (lines ++ [[]]) = lines.flatMap (· ++ separator) := by
  induction lines with
  | nil => rfl
  | cons line lines ih =>
      cases lines with
      | nil => simp
      | cons next lines =>
          simp only [List.cons_append, List.intercalate_cons_cons, List.flatMap_cons] at ih ⊢
          rw [ih]

theorem toList_preamble (manifest : Manifest) :
    (({} : PageSettings).preamble manifest).toList =
      writtenLines packageLines ++ writtenLines (metadataLines manifest) ++
        writtenLines listingLines ++ writtenLines (titleLines manifest) ++
        writtenLines openingLines := by
  rw [PageSettings.preamble, String.toList_intercalate, preambleLines_default, List.map_append]
  have hjoin := intercalate_append_nil ['\n']
    ((packageLines ++ metadataLines manifest ++ listingLines ++ titleLines manifest ++
      openingLines).map String.toList)
  have hlast : [""].map String.toList = [[]] := by decide
  rw [hlast, show "\n".toList = ['\n'] from by decide, hjoin]
  simp only [writtenLines, List.map_append, List.flatMap_append, List.flatMap_map]

end Bindery
