import Bindery.Markdown.Tree
import Bindery.Proofs.Latex.Renaming
import Bindery.Proofs.Markdown.Passes

namespace Bindery.Markdown

open Latex

/-! Running text under other names has the tree of the text, under these names. -/

theorem Pattern.replace_map {α β γ : Type} {pattern : Pattern α γ} {f : α → α} {g : γ → γ}
    {h : β → β} {write : γ → β} {other : α → β}
    (hfind : ∀ text,
      pattern.find? (text.map f) = (pattern.find? text).map (Prod.map g (List.map f)))
    (hwrite : ∀ found, write (g found) = h (write found))
    (hother : ∀ a, other (f a) = h (other a)) (text : List α) :
    pattern.replace write other (text.map f) = (pattern.replace write other text).map h := by
  induction text using Pattern.induction pattern with
  | nil => simp
  | found a text found rest hfound ih =>
      have hthere : pattern.find? (f a :: text.map f) = some (g found, rest.map f) := by
        rw [← List.map_cons, hfind, hfound]
        rfl
      rw [List.map_cons, replace_cons_some hthere, replace_cons_some hfound, List.map_cons, hwrite,
        ih]
  | kept a text hnone ih =>
      have hthere : pattern.find? (f a :: text.map f) = none := by
        rw [← List.map_cons, hfind, hnone]
        rfl
      rw [List.map_cons, replace_cons_none hthere, replace_cons_none hnone, List.map_cons, hother,
        ih]

section Scan

variable {α : Type} {stop : α → Bool} {f : α → α} (hstop : ∀ a, stop (f a) = stop a)

include hstop

theorem cutAt?_map (text : List α) :
    cutAt? stop (text.map f) = (cutAt? stop text).map (Prod.map (List.map f) (List.map f)) := by
  induction text with
  | nil => rfl
  | cons a text ih =>
      simp only [List.map_cons, cutAt?, hstop, ih]
      split
      · rfl
      · cases cutAt? stop text <;> rfl

theorem upTo?_map (text : List α) :
    upTo? stop (text.map f) = (upTo? stop text).map (Prod.map (List.map f) (List.map f)) := by
  have hsame : (!stop ·) ∘ f = (!stop ·) := funext fun a => by simp [hstop]
  cases text with
  | nil => rfl
  | cons a text =>
      simp only [List.map_cons, upTo?, hstop, List.dropWhile_map, List.takeWhile_map, hsame]
      split
      · rfl
      · cases text.dropWhile (!stop ·) <;> rfl

end Scan

section Patterns

variable {α : Type} {is : Char → α → Bool} {f : α → α}
  (his : ∀ c, isAscii c = true → ∀ a, is c (f a) = is c a)

include his

theorem findUrl?_map (label target : List α) :
    findUrl? is (label.map f) (target.map f) = (findUrl? is label target).map
      (Prod.map (Prod.map (List.map f) (List.map f)) (List.map f)) := by
  cases target with
  | nil => rfl
  | cons a target =>
      simp only [List.map_cons, findUrl?, his '(' (by decide), upTo?_map (his ')' (by decide))]
      split
      · cases upTo? (is ')') target <;> rfl
      · rfl

theorem linkPattern_map (text : List α) :
    (linkPattern is).find? (text.map f) = ((linkPattern is).find? text).map
      (Prod.map (Prod.map (List.map f) (List.map f)) (List.map f)) := by
  cases text with
  | nil => rfl
  | cons a text =>
      simp only [linkPattern, List.map_cons, findLink?, his '[' (by decide),
        upTo?_map (his ']' (by decide))]
      split
      · cases upTo? (is ']') text with
        | none => rfl
        | some found => exact findUrl?_map his found.1 found.2
      · rfl

theorem afterMarker?_map {marker : List Char} (hmarker : ∀ c ∈ marker, isAscii c = true)
    (text : List α) :
    afterMarker? is marker (text.map f) = (afterMarker? is marker text).map (List.map f) := by
  induction marker generalizing text with
  | nil => rfl
  | cons c marker ih =>
      obtain ⟨hc, hmarker⟩ := List.forall_mem_cons.1 hmarker
      cases text with
      | nil => rfl
      | cons a text =>
          simp only [List.map_cons, afterMarker?, his c hc, ih hmarker]
          split <;> rfl

theorem upToMarker?_map {marker : List Char} (hmarker : ∀ c ∈ marker, isAscii c = true)
    (text : List α) :
    upToMarker? is marker (text.map f) =
      (upToMarker? is marker text).map (Prod.map (List.map f) (List.map f)) := by
  induction text with
  | nil => rfl
  | cons a text ih =>
      simp only [List.map_cons, upToMarker?, his '\n' (by decide), afterMarker?_map his hmarker, ih]
      split
      · rfl
      · cases afterMarker? is marker text with
        | some rest => rfl
        | none => cases upToMarker? is marker text <;> rfl

theorem stylePattern_map (style : Style) (text : List α) :
    (style.pattern is).find? (text.map f) =
      ((style.pattern is).find? text).map (Prod.map (List.map f) (List.map f)) := by
  have hall : style.marker.all isAscii = true := by cases style <;> decide
  have hmarker := List.all_eq_true.1 hall
  simp only [Style.pattern, afterMarker?_map his hmarker]
  cases afterMarker? is style.marker text with
  | none => rfl
  | some inner => exact upToMarker?_map his hmarker inner

end Patterns

/-! The tree of a text. -/

def Piece.rename (r : Char → Char) : Piece → Piece
  | .char c => .char (r c)
  | .code body => .code (body.map r)

mutual
def Span.rename (r : Char → Char) : Span → Span
  | .char c => .char (r c)
  | .code body => .code (body.map r)
  | .link label url => .link (Span.renameAll r label) (url.map (Piece.rename r))
  | .styled style body => .styled style (Span.renameAll r body)

def Span.renameAll (r : Char → Char) : List Span → List Span
  | [] => []
  | span :: spans => span.rename r :: Span.renameAll r spans
end

theorem Span.renameAll_eq_map (r : Char → Char) (spans : List Span) :
    Span.renameAll r spans = spans.map (Span.rename r) := by
  induction spans with
  | nil => rfl
  | cons span spans ih => rw [Span.renameAll, ih, List.map_cons]

theorem Span.rename_ofPiece (r : Char → Char) (piece : Piece) :
    Span.ofPiece (piece.rename r) = (Span.ofPiece piece).rename r := by
  cases piece <;> rfl

section Renaming

variable {r : Char → Char} (hr : IsRenaming r)

include hr

theorem Piece.isChar_rename (c : Char) (hc : isAscii c = true) (piece : Piece) :
    (piece.rename r).isChar c = piece.isChar c := by
  cases piece with
  | char d => exact hr.beq hc d
  | code body => rfl

theorem Span.isChar_rename (c : Char) (hc : isAscii c = true) (span : Span) :
    (span.rename r).isChar c = span.isChar c := by
  cases span with
  | char d => exact hr.beq hc d
  | code body => rfl
  | link label url => rfl
  | styled style body => rfl

theorem codePattern_map (text : List Char) :
    codePattern.find? (text.map r) =
      (codePattern.find? text).map (Prod.map (List.map r) (List.map r)) := by
  cases text with
  | nil => rfl
  | cons c text =>
      simp only [codePattern, List.map_cons, findCode?, hr.beq (show isAscii '\x60' by decide)]
      split
      · exact upTo?_map (hr.beq (by decide)) text
      · rfl

theorem Piece.ofText_map (text : List Char) :
    Piece.ofText (text.map r) = (Piece.ofText text).map (Piece.rename r) := by
  rw [Piece.ofText, Piece.ofText]
  apply Pattern.replace_map (codePattern_map hr)
  · intro body
    rfl
  · intro c
    rfl

theorem emphasize_map (styles : List Style) (spans : List Span) :
    emphasize styles (spans.map (Span.rename r)) =
      (emphasize styles spans).map (Span.rename r) := by
  induction styles generalizing spans with
  | nil => rfl
  | cons style styles ih =>
      rw [emphasize, emphasize, ← ih]
      congr 1
      apply Pattern.replace_map (stylePattern_map (Span.isChar_rename hr) style)
      · intro body
        rw [Span.rename, Span.renameAll_eq_map, ih]
      · intro span
        rfl

theorem Span.ofLink_rename (parts : List Piece × List Piece) :
    Span.ofLink (parts.map (List.map (Piece.rename r)) (List.map (Piece.rename r))) =
      (Span.ofLink parts).rename r := by
  have hlabel : (parts.1.map (Piece.rename r)).map Span.ofPiece =
      (parts.1.map Span.ofPiece).map (Span.rename r) := by
    simp only [List.map_map, Function.comp_def, Span.rename_ofPiece]
  rw [Span.ofLink, Span.ofLink, Span.rename, Span.renameAll_eq_map]
  simp only [Prod.map_fst, Prod.map_snd, hlabel, emphasize_map hr]

theorem Span.ofText_map (text : List Char) :
    Span.ofText (text.map r) = (Span.ofText text).map (Span.rename r) := by
  have hlinks := Pattern.replace_map (linkPattern_map (Piece.isChar_rename hr))
    (Span.ofLink_rename hr) (Span.rename_ofPiece r) (Piece.ofText text)
  rw [Span.ofText, Piece.ofText_map hr, Span.ofPieces, hlinks, emphasize_map hr]
  rfl

/-! The LaTeX of a tree. -/

theorem codeLatex_map (body : List Char) : codeLatex (body.map r) = (codeLatex body).map r := by
  rw [codeLatex, hr.escape_map, hr.command_map (by decide), codeLatex]

theorem Piece.urlLatex_rename (piece : Piece) :
    (piece.rename r).urlLatex = piece.urlLatex.map r := by
  cases piece with
  | char c => rfl
  | code body => exact codeLatex_map hr body

theorem Style.latex_map (style : Style) (body : List Char) :
    style.latex (body.map r) = (style.latex body).map r := by
  cases style with
  | boldItalic =>
      rw [Style.latex, hr.command_map (by decide), hr.command_map (by decide), Style.latex]
  | bold | star | underscore => exact hr.command_map (by decide) body

end Renaming

mutual
theorem Span.latex_rename {r : Char → Char} (hr : IsRenaming r) :
    ∀ span : Span, (span.rename r).latex = span.latex.map r
  | .char c => by simpa [escape, Span.rename] using hr.escape_map [c]
  | .code body => by
      rw [Span.rename, Span.latex, codeLatex_map hr, Span.latex]
  | .link label url => by
      have hurl : (url.map (Piece.rename r)).flatMap Piece.urlLatex =
          (url.flatMap Piece.urlLatex).map r := by
        simp only [List.flatMap_map, List.map_flatMap, Piece.urlLatex_rename hr]
      rw [Span.rename, Span.latex, Span.allLatex_rename hr label, hurl, hr.group_map,
        hr.command_map (by decide), Span.latex, List.map_append]
  | .styled style body => by
      rw [Span.rename, Span.latex, Span.allLatex_rename hr body, style.latex_map hr, Span.latex]

theorem Span.allLatex_rename {r : Char → Char} (hr : IsRenaming r) :
    ∀ spans : List Span, Span.allLatex (Span.renameAll r spans) = (Span.allLatex spans).map r
  | [] => by simp [Span.renameAll]
  | span :: spans => by
      rw [Span.renameAll, Span.allLatex_cons, Span.latex_rename hr span,
        Span.allLatex_rename hr spans, Span.allLatex_cons, List.map_append]
end

theorem inlineLatex_map {r : Char → Char} (hr : IsRenaming r) (text : List Char) :
    inlineLatex (text.map r) = (inlineLatex text).map r := by
  rw [inlineLatex_eq, Span.ofText_map hr, ← Span.renameAll_eq_map, Span.allLatex_rename hr,
    ← inlineLatex_eq]

end Bindery.Markdown
