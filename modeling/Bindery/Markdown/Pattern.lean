import Bindery.Markdown.Scan
import Bindery.Markdown.Span

namespace Bindery.Markdown

/-! The patterns of running text. Those for links and emphasis are read over characters as well as
over units that may hold more than one; `is` tells whether a unit is a single given character. -/

def sameChar (c d : Char) : Bool :=
  d == c

def Piece.isChar (c : Char) : Piece → Bool
  | .char d => d == c
  | .code _ => false

def Span.isChar (c : Char) : Span → Bool
  | .char d => d == c
  | _ => false

def findCode? : List Char → Option (List Char × List Char)
  | [] => none
  | c :: text => if c == '\x60' then upTo? (sameChar '\x60') text else none

def codePattern : Pattern Char (List Char) where
  find? := findCode?
  shortens {text} _ _ hfound := by
    cases text with
    | nil => simp [findCode?] at hfound
    | cons c text =>
        simp only [findCode?] at hfound
        split at hfound
        · exact Nat.lt_succ_of_lt (upTo?_length hfound)
        · contradiction

def findUrl? (is : Char → α → Bool) (label : List α) :
    List α → Option ((List α × List α) × List α)
  | [] => none
  | a :: target =>
      if is '(' a then (upTo? (is ')') target).map fun (url, rest) => ((label, url), rest)
      else none

def findLink? (is : Char → α → Bool) : List α → Option ((List α × List α) × List α)
  | [] => none
  | a :: text =>
      if is '[' a then (upTo? (is ']') text).bind fun (label, target) => findUrl? is label target
      else none

/-- A label in brackets and a url in parentheses right behind it. -/
def linkPattern (is : Char → α → Bool) : Pattern α (List α × List α) where
  find? := findLink? is
  shortens {text} _ rest hfound := by
    cases text with
    | nil => simp [findLink?] at hfound
    | cons a text =>
        simp only [findLink?] at hfound
        split at hfound
        · obtain ⟨⟨label, target⟩, hlabel, hurl⟩ := Option.bind_eq_some_iff.1 hfound
          have htarget := upTo?_length hlabel
          cases target with
          | nil => simp [findUrl?] at hurl
          | cons b target =>
              simp only [findUrl?] at hurl
              split at hurl
              · obtain ⟨⟨url, after⟩, hafter, hpair⟩ := Option.map_eq_some_iff.1 hurl
                obtain ⟨_, rfl⟩ := Prod.mk.inj hpair
                have hrest := upTo?_length hafter
                simp only [List.length_cons] at htarget ⊢
                omega
              · contradiction
        · contradiction

/-- The units after the marker that the text begins with. -/
def afterMarker? (is : Char → α → Bool) : List Char → List α → Option (List α)
  | [], text => some text
  | c :: marker, a :: text => if is c a then afterMarker? is marker text else none
  | _ :: _, [] => none

/-- The shortest body before a closing marker, of one unit at least. Emphasis keeps to its line. -/
def upToMarker? (is : Char → α → Bool) (marker : List Char) : List α → Option (List α × List α)
  | [] => none
  | a :: text =>
      if is '\n' a then none
      else
        match afterMarker? is marker text with
        | some rest => some ([a], rest)
        | none => (upToMarker? is marker text).map fun (body, rest) => (a :: body, rest)

theorem afterMarker?_length {is : Char → α → Bool} {marker : List Char} {text rest : List α}
    (hmarker : afterMarker? is marker text = some rest) : rest.length ≤ text.length := by
  induction marker generalizing text with
  | nil =>
      simp only [afterMarker?, Option.some.injEq] at hmarker
      exact Nat.le_of_eq (congrArg List.length hmarker.symm)
  | cons c marker ih =>
      cases text with
      | nil => simp [afterMarker?] at hmarker
      | cons a text =>
          simp only [afterMarker?] at hmarker
          split at hmarker
          · exact Nat.le_succ_of_le (ih hmarker)
          · contradiction

theorem upToMarker?_length {is : Char → α → Bool} {marker : List Char} {text body rest : List α}
    (hbody : upToMarker? is marker text = some (body, rest)) : rest.length < text.length := by
  induction text generalizing body with
  | nil => simp [upToMarker?] at hbody
  | cons a text ih =>
      simp only [upToMarker?] at hbody
      split at hbody
      · contradiction
      · split at hbody
        · rename_i hafter
          simp only [Option.some.injEq, Prod.mk.injEq] at hbody
          obtain ⟨_, rfl⟩ := hbody
          exact Nat.lt_succ_of_le (afterMarker?_length hafter)
        · obtain ⟨⟨inner, tail⟩, hinner, hpair⟩ := Option.map_eq_some_iff.1 hbody
          simp only [Prod.mk.injEq] at hpair
          obtain ⟨_, rfl⟩ := hpair
          exact Nat.lt_succ_of_lt (ih hinner)

/-- An emphasis, of which the part between the markers is found. -/
def Style.pattern (is : Char → α → Bool) (style : Style) : Pattern α (List α) where
  find? text := (afterMarker? is style.marker text).bind (upToMarker? is style.marker)
  shortens hfound := by
    obtain ⟨inner, hopen, hbody⟩ := Option.bind_eq_some_iff.1 hfound
    exact Nat.lt_of_lt_of_le (upToMarker?_length hbody) (afterMarker?_length hopen)

end Bindery.Markdown
