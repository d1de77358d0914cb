import Bindery.Markdown.Tree
import Bindery.Proofs.Markdown.Patterns

namespace Bindery.Markdown

open Latex

variable {α β γ δ : Type}

/-! A pass over a working text makes the same step as the pass over the spans that the text shows.
From pass to pass the slots only grow, so what a placeholder stands for never changes. -/

@[simp] theorem cuts_nil (pattern : Pattern Char γ) : cuts pattern [] = [] :=
  Pattern.replace_nil

theorem cuts_cons_some {pattern : Pattern Char γ} {c : Char} {text rest : List Char} {found : γ}
    (hfound : pattern.find? (c :: text) = some (found, rest)) :
    cuts pattern (c :: text) = .found found :: cuts pattern rest :=
  Pattern.replace_cons_some hfound

theorem cuts_cons_none {pattern : Pattern Char γ} {c : Char} {text : List Char}
    (hfound : pattern.find? (c :: text) = none) :
    cuts pattern (c :: text) = .kept c :: cuts pattern text :=
  Pattern.replace_cons_none hfound

theorem cuts_append {pattern : Pattern Char γ} {front : List Char}
    (hfront : ∀ c ∈ front, ∀ text, pattern.find? (c :: text) = none) (text : List Char) :
    cuts pattern (front ++ text) = front.map .kept ++ cuts pattern text :=
  Pattern.replace_append hfront text

theorem Slots.write_kept (slots : Slots) (latex : γ → Slots → List Char × Slots)
    (front : List Char) (cuts : List (Cut γ)) :
    slots.write latex (front.map .kept ++ cuts) =
      (front ++ (slots.write latex cuts).1, (slots.write latex cuts).2) := by
  induction front with
  | nil => rfl
  | cons c front ih => simp [ih]

/-- Cuts of a working text, each match of which is to show a span. -/
inductive CutsShow (captured : Slots → γ → Span → Prop) (slots : Slots) :
    List (Cut γ) → List Span → Prop
  | nil : CutsShow captured slots [] []
  | char {c : Char} {cuts : List (Cut γ)} {spans : List Span} (hplain : isSlotMark c = false)
      (htail : CutsShow captured slots cuts spans) :
      CutsShow captured slots (.kept c :: cuts) (.char c :: spans)
  | slot {index : Nat} {span : Span} {cuts : List (Cut γ)} {spans : List Span}
      (hheld : span.isHeld = true) (hlatex : slots[index]? = some span.latex)
      (htail : CutsShow captured slots cuts spans) :
      CutsShow captured slots ((placeholder index).map .kept ++ cuts) (span :: spans)
  | found {found : γ} {span : Span} {cuts : List (Cut γ)} {spans : List Span}
      (hfound : captured slots found span) (htail : CutsShow captured slots cuts spans) :
      CutsShow captured slots (.found found :: cuts) (span :: spans)

/-- How the LaTeX of a match is made: it is that of the span that the match is read as, and slots
are only added on the way. It must not matter how many slots there are by then. -/
def Renders (latex : γ → Slots → List Char × Slots) (captured : Slots → γ → Span → Prop) : Prop :=
  ∀ slots found span, captured slots found span → ∀ more : Slots, slots.Extends more →
    span.isHeld = true ∧ (latex found more).1 = span.latex ∧ more.Extends (latex found more).2

theorem CutsShow.write {captured : Slots → γ → Span → Prop}
    {latex : γ → Slots → List Char × Slots} (hlatex : Renders latex captured) {slots : Slots}
    {cuts : List (Cut γ)} {spans : List Span} (hcuts : CutsShow captured slots cuts spans)
    {more : Slots} (hmore : slots.Extends more) :
    more.Extends (more.write latex cuts).2 ∧
      Shows (more.write latex cuts).2 (more.write latex cuts).1 spans := by
  induction hcuts generalizing more with
  | nil =>
      rw [Slots.write_nil]
      exact ⟨.refl _, .nil⟩
  | char hplain _ ih =>
      obtain ⟨hgrown, htail⟩ := ih hmore
      rw [Slots.write_cons_kept]
      exact ⟨hgrown, .char hplain htail⟩
  | @slot index span cuts spans hheld hslot _ ih =>
      obtain ⟨hgrown, htail⟩ := ih hmore
      rw [Slots.write_kept]
      exact ⟨hgrown, .slot hheld (hgrown _ _ (hmore _ _ hslot)) htail⟩
  | @found found span cuts spans hfound _ ih =>
      obtain ⟨hheld, hmarkup, hadded⟩ := hlatex _ _ _ hfound more hmore
      have hpushed := (latex found more).2.extends_push (latex found more).1
      have hstored := hadded.trans hpushed
      obtain ⟨hgrown, htail⟩ := ih (hmore.trans hstored)
      have hone := Shows.stored (latex found more).2 hheld
      rw [← hmarkup] at hone
      rw [Slots.write_cons_found]
      exact ⟨hstored.trans hgrown, (hone.mono hgrown).append htail⟩

theorem Reads.cuts {embed : α → Span} {captured : Slots → γ → δ → Prop}
    {pattern : Pattern Char γ} {reading : Pattern α δ}
    (hreads : Reads embed captured pattern reading) {build : δ → β} {other : α → β}
    {place : β → Span} (hother : ∀ a, place (other a) = embed a) {slots : Slots}
    {text : List Char} {units : List α} (hshows : Shows slots text (units.map embed)) :
    CutsShow (fun slots found span => ∃ read, captured slots found read ∧ span = place (build read))
      slots (cuts pattern text) ((reading.replace build other units).map place) := by
  induction units using Pattern.induction reading generalizing text with
  | nil =>
      obtain rfl := hshows.eq_nil_iff.2 rfl
      rw [cuts_nil, Pattern.replace_nil]
      exact .nil
  | found a units read rest hread ih =>
      have hagrees := hreads.agrees hshows
      rw [hread] at hagrees
      generalize hfound : pattern.find? text = found at hagrees
      cases hagrees with
      | @some found _ hrel =>
          cases text with
          | nil =>
              have hnil := hshows.eq_nil_iff.1 rfl
              simp at hnil
          | cons c text =>
              rw [cuts_cons_some hfound, Pattern.replace_cons_some hread, List.map_cons]
              exact .found ⟨read, hrel.1, rfl⟩ (ih hrel.2)
  | kept a units hread ih =>
      have hagrees := hreads.agrees hshows
      rw [hread] at hagrees
      generalize hfound : pattern.find? text = found at hagrees
      cases hagrees
      rw [Pattern.replace_cons_none hread, List.map_cons, hother]
      rw [List.map_cons] at hshows
      generalize embed a = span at hshows
      cases hshows with
      | char hplain htail =>
          rw [cuts_cons_none hfound]
          exact .char hplain (ih htail)
      | slot hheld hlatex htail =>
          rw [cuts_append fun c hc text => hreads.starts c text (mem_placeholder hc)]
          exact .slot hheld hlatex (ih htail)

/-- One pass over a working text against the same pass over what it shows. -/
theorem Reads.pass {embed : α → Span} {captured : Slots → γ → δ → Prop}
    {pattern : Pattern Char γ} {reading : Pattern α δ}
    (hreads : Reads embed captured pattern reading) {build : δ → β} {other : α → β}
    {place : β → Span} (hother : ∀ a, place (other a) = embed a)
    {latex : γ → Slots → List Char × Slots}
    (hlatex : Renders latex fun slots found span =>
      ∃ read, captured slots found read ∧ span = place (build read))
    {slots : Slots} {text : List Char} {units : List α}
    (hshows : Shows slots text (units.map embed)) :
    slots.Extends (slots.pass pattern latex text).2 ∧
      Shows (slots.pass pattern latex text).2 (slots.pass pattern latex text).1
        ((reading.replace build other units).map place) :=
  (hreads.cuts hother hshows).write hlatex (.refl slots)

theorem Slots.protect_shows (slots : Slots) (text : List Char) :
    slots.Extends (slots.protect text).2 ∧
      Shows (slots.protect text).2 (slots.protect text).1 (text.map .char) := by
  have hcuts : CutsShow (fun _ c span => isSlotMark c = true ∧ span = .char c) slots
      (cuts slotMarkPattern text) (text.map .char) := by
    induction text with
    | nil => simpa using CutsShow.nil
    | cons c text ih =>
        cases hmark : isSlotMark c with
        | true =>
            rw [cuts_cons_some (show findSlotMark? (c :: text) = some (c, text) by
              simp [findSlotMark?, hmark])]
            exact .found ⟨hmark, rfl⟩ ih
        | false =>
            rw [cuts_cons_none (show findSlotMark? (c :: text) = none by
              simp [findSlotMark?, hmark])]
            exact .char hmark ih
  refine hcuts.write ?_ (.refl slots)
  rintro slots c span ⟨hmark, rfl⟩ more _
  exact ⟨hmark, by simp [isSlotMark_escapeChar hmark], .refl more⟩

/-- What the styles make of a body, given that they make of any text what it is read as. -/
theorem renders_styled (style : Style) {styles : List Style}
    (hstyles : ∀ {slots : Slots} {text : List Char} {spans : List Span}, Shows slots text spans →
      slots.Extends (slots.emphasize styles text).2 ∧
        Shows (slots.emphasize styles text).2 (slots.emphasize styles text).1
          (Markdown.emphasize styles spans)) :
    Renders
      (fun body slots =>
        (style.latex ((slots.emphasize styles body).2.resolve escape
          (slots.emphasize styles body).1), (slots.emphasize styles body).2))
      (fun slots found span => ∃ body : List Span, Shows slots found (body.map id) ∧
        span = id (Span.styled style (Markdown.emphasize styles body))) := by
  rintro slots found span ⟨body, hfound, rfl⟩ more hmore
  rw [List.map_id] at hfound
  obtain ⟨hgrown, hinner⟩ := hstyles (hfound.mono hmore)
  exact ⟨rfl, by simp [hinner.resolve_escape, Span.latex], hgrown⟩

theorem Slots.emphasize_shows (styles : List Style) {slots : Slots} {text : List Char}
    {spans : List Span} (hshows : Shows slots text spans) :
    slots.Extends (slots.emphasize styles text).2 ∧
      Shows (slots.emphasize styles text).2 (slots.emphasize styles text).1
        (Markdown.emphasize styles spans) := by
  induction styles generalizing slots text spans with
  | nil =>
      rw [Slots.emphasize_nil]
      exact ⟨.refl slots, hshows⟩
  | cons style styles ih =>
      obtain ⟨hgrown, hpassed⟩ := (reads_stylePattern style).pass (fun _ => rfl)
        (renders_styled style ih) (show Shows slots text (spans.map id) by rwa [List.map_id])
      rw [List.map_id] at hpassed
      obtain ⟨hmore, hdone⟩ := ih hpassed
      rw [Slots.emphasize_cons]
      exact ⟨hgrown.trans hmore, hdone⟩

theorem renders_codeSlot :
    Renders codeSlot fun slots found span =>
      ∃ body : List Char, Shows slots found (body.map .char) ∧ span = .ofPiece (.code body) := by
  rintro slots found span ⟨body, hfound, rfl⟩ more hmore
  have hchars : body.map Span.char = (body.map Piece.char).map Span.ofPiece := by
    simp [Span.ofPiece]
  have hbody : more.resolve id found = body := by
    rw [hchars] at hfound
    rw [(hfound.mono hmore).resolve_url]
    simp [List.flatMap_map, Piece.urlLatex]
  exact ⟨rfl, by simp [codeSlot_eq, hbody, Span.ofPiece, Span.latex], .refl more⟩

theorem renders_linkSlot :
    Renders linkSlot fun slots found span =>
      ∃ parts : List Piece × List Piece,
        (Shows slots found.1 (parts.1.map Span.ofPiece) ∧
          Shows slots found.2 (parts.2.map Span.ofPiece)) ∧ span = id (Span.ofLink parts) := by
  rintro slots found span ⟨parts, ⟨hlabel, hurl⟩, rfl⟩ more hmore
  obtain ⟨hgrown, hinner⟩ := Slots.emphasize_shows Style.all (hlabel.mono hmore)
  refine ⟨rfl, ?_, hgrown⟩
  simp only [linkSlot_eq, hinner.resolve_escape, (hurl.mono hmore).resolve_url]
  simp [Span.ofLink, Span.latex]

theorem Slots.codePass_shows {slots : Slots} {text chars : List Char}
    (hchars : Shows slots text (chars.map .char)) :
    Shows (slots.pass codePattern codeSlot text).2 (slots.pass codePattern codeSlot text).1
      ((Piece.ofText chars).map Span.ofPiece) :=
  (reads_codePattern.pass
    (show ∀ c, Span.ofPiece (.char c) = .char c from fun _ => rfl) renders_codeSlot hchars).2

theorem Piece.isChar_eq (c : Char) (piece : Piece) :
    piece.isChar c = (Span.ofPiece piece).isChar c := by
  cases piece <;> rfl

theorem Slots.linkPass_shows {slots : Slots} {text : List Char} {pieces : List Piece}
    (hpieces : Shows slots text (pieces.map Span.ofPiece)) :
    Shows (slots.pass (linkPattern sameChar) linkSlot text).2
      (slots.pass (linkPattern sameChar) linkSlot text).1 (Span.ofPieces pieces) := by
  obtain ⟨_, hlinks⟩ := (reads_linkPattern Piece.isChar_eq).pass
    (show ∀ piece, id (Span.ofPiece piece) = Span.ofPiece piece from fun _ => rfl) renders_linkSlot
    hpieces
  rwa [List.map_id] at hlinks

/-- What the passes over a working text print is the LaTeX of the tree that the text is read as. -/
theorem inlineLatex_eq (text : List Char) :
    inlineLatex text = Span.allLatex (Span.ofText text) := by
  obtain ⟨_, hchars⟩ := Slots.protect_shows #[] text
  have hlinks := Slots.linkPass_shows (Slots.codePass_shows hchars)
  obtain ⟨_, hspans⟩ := Slots.emphasize_shows Style.all hlinks
  exact hspans.resolve_escape

end Bindery.Markdown
