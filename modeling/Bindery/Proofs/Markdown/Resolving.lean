import Bindery.Proofs.Markdown.Passes

namespace Bindery.Markdown

open Latex

variable {α β γ δ : Type}

/-! Each of the texts that are resolved on the way from running text to LaTeX is well marked: what
stands in it for a slot is the number of a slot that is there. A resolver that notes what it is
asked for shows all of them. -/

/-- The marks of a text stand in pairs, and between two of them stands the number of a slot. -/
structure Slots.WellMarked (slots : Slots) (text : List Char) : Prop where
  opened {front behind : List Char} : text = front ++ slotOpen :: behind →
    ∃ digits rest, behind = digits ++ slotClose :: rest ∧ digits ≠ [] ∧
      (∀ c ∈ digits, c.isDigit = true) ∧ Nat.ofDigitChars 10 digits 0 < slots.size
  closed {front behind : List Char} : text = front ++ slotClose :: behind →
    ∃ before digits, front = before ++ slotOpen :: digits ∧ digits ≠ [] ∧
      ∀ c ∈ digits, c.isDigit = true

section Digits

variable {digits : List Char} (hdigits : ∀ c ∈ digits, c.isDigit = true)

include hdigits

theorem slotOpen_not_mem_closed : slotOpen ∉ digits ++ [slotClose] := by
  intro hmem
  rcases List.mem_append.1 hmem with hmem | hmem
  · exact absurd (hdigits _ hmem) (by decide)
  · exact absurd hmem (by decide)

theorem slotClose_not_mem_opened : slotClose ∉ slotOpen :: digits := by
  intro hmem
  rcases List.mem_cons.1 hmem with hmem | hmem
  · exact absurd hmem (by decide)
  · exact absurd (hdigits _ hmem) (by decide)

end Digits

/-- A character behind a stretch without it. -/
theorem exists_of_append_eq_append_cons {front stretch rest behind : List Char} {c : Char}
    (hstretch : c ∉ stretch) (htext : stretch ++ rest = front ++ c :: behind) :
    ∃ inner, front = stretch ++ inner ∧ rest = inner ++ c :: behind := by
  rcases List.append_eq_append_iff.1 htext with ⟨inner, rfl, hrest⟩ | ⟨inner, rfl, hbehind⟩
  · exact ⟨inner, rfl, hrest⟩
  · cases inner with
    | nil => exact ⟨[], by simp, by simpa using hbehind.symm⟩
    | cons d inner =>
        obtain ⟨rfl, -⟩ := List.cons.inj hbehind
        simp at hstretch

section WellMarked

variable {slots : Slots} {text : List Char}

theorem Slots.WellMarked.nil (slots : Slots) : slots.WellMarked [] where
  opened htext := by simp at htext
  closed htext := by simp at htext

theorem Slots.WellMarked.cons {c : Char} (hplain : isSlotMark c = false)
    (hmarked : slots.WellMarked text) : slots.WellMarked (c :: text) where
  opened {front behind} htext := by
    have hc : slotOpen ∉ [c] := by
      rintro hmem
      rw [← List.mem_singleton.1 hmem] at hplain
      contradiction
    obtain ⟨inner, -, hrest⟩ := exists_of_append_eq_append_cons hc htext
    exact hmarked.opened hrest
  closed {front behind} htext := by
    have hc : slotClose ∉ [c] := by
      rintro hmem
      rw [← List.mem_singleton.1 hmem] at hplain
      contradiction
    obtain ⟨inner, rfl, hrest⟩ := exists_of_append_eq_append_cons hc htext
    obtain ⟨before, digits, rfl, hdigits⟩ := hmarked.closed hrest
    exact ⟨c :: before, digits, rfl, hdigits⟩

theorem Slots.WellMarked.placeholder {index : Nat} (hindex : index < slots.size)
    (hmarked : slots.WellMarked text) : slots.WellMarked (placeholder index ++ text) where
  opened {front behind} htext := by
    have hdigits : ∀ c ∈ Nat.toDigits 10 index, c.isDigit = true := fun c hc =>
      Nat.isDigit_of_mem_toDigits (by decide) (by decide) hc
    cases front with
    | nil =>
        refine ⟨_, text, ?_, Nat.toDigits_ne_nil, hdigits, by simpa using hindex⟩
        simpa [Markdown.placeholder] using (List.cons.inj htext).2.symm
    | cons c front =>
        obtain ⟨inner, -, hrest⟩ :=
          exists_of_append_eq_append_cons (slotOpen_not_mem_closed hdigits) (List.cons.inj htext).2
        exact hmarked.opened hrest
  closed {front behind} htext := by
    have hdigits : ∀ c ∈ Nat.toDigits 10 index, c.isDigit = true := fun c hc =>
      Nat.isDigit_of_mem_toDigits (by decide) (by decide) hc
    have hsplit : Markdown.placeholder index ++ text =
        (slotOpen :: Nat.toDigits 10 index) ++ slotClose :: text := by
      simp [Markdown.placeholder]
    obtain ⟨inner, rfl, hrest⟩ :=
      exists_of_append_eq_append_cons (slotClose_not_mem_opened hdigits) (hsplit.symm.trans htext)
    cases inner with
    | nil => exact ⟨[], _, List.append_nil _, Nat.toDigits_ne_nil, hdigits⟩
    | cons c inner =>
        obtain ⟨rfl, hinner⟩ := List.cons.inj hrest
        obtain ⟨before, digits, rfl, hbefore⟩ := hmarked.closed hinner
        refine ⟨Markdown.placeholder index ++ before, digits, ?_, hbefore⟩
        simp [Markdown.placeholder]

theorem Shows.wellMarked {spans : List Span} (hshows : Shows slots text spans) :
    slots.WellMarked text := by
  induction hshows with
  | nil => exact .nil slots
  | char hplain _ ih => exact ih.cons hplain
  | slot _ hlatex _ ih => exact ih.placeholder (Array.getElem?_eq_some_iff.1 hlatex).1

/-- What stands behind a mark that closes is well marked by itself. -/
theorem Slots.WellMarked.behind {before : List Char}
    (hmarked : slots.WellMarked (before ++ slotClose :: text)) : slots.WellMarked text where
  opened {front behind} htext := by
    have hwhole : before ++ slotClose :: text =
        (before ++ slotClose :: front) ++ slotOpen :: behind := by simp [htext]
    exact hmarked.opened hwhole
  closed {front behind} htext := by
    have hwhole : before ++ slotClose :: text =
        (before ++ slotClose :: front) ++ slotClose :: behind := by simp [htext]
    obtain ⟨first, digits, hfront, hsome, hdigits⟩ := hmarked.closed hwhole
    rcases List.append_eq_append_iff.1 hfront with ⟨inner, -, hinner⟩ | ⟨inner, -, hinner⟩
    · cases inner with
      | nil => exact absurd (List.cons.inj hinner).1 (by decide)
      | cons c inner => exact ⟨inner, digits, (List.cons.inj hinner).2, hsome, hdigits⟩
    · have hwithin : slotClose ∈ slotOpen :: digits := by simp [hinner]
      exact absurd hwithin (slotClose_not_mem_opened hdigits)

end WellMarked

/-! Resolving that gives up where a mark is not closed or a number has no slot. -/

def Slots.resolve? (slots : Slots) (literal : List Char → List Char) (text : List Char) :
    Option (List Char) :=
  match _ : slotPattern.find? text with
  | none => if slotOpen ∈ text then none else some (literal text)
  | some ((front, number), rest) =>
      ((slotIndex? number).bind (slots[·]?)).bind fun markup =>
        (slots.resolve? literal rest).map (literal front ++ markup ++ ·)
  termination_by text.length
  decreasing_by exact slotPattern.shortens (by assumption)

section Resolve

variable {slots : Slots} {literal : List Char → List Char} {text : List Char}

theorem Slots.resolve?_of_not_mem (hnone : slotOpen ∉ text) :
    slots.resolve? literal text = some (literal text) := by
  have hfind : slotPattern.find? text = none := findSlot?_of_not_mem hnone
  rw [Slots.resolve?]
  split <;> simp_all

theorem Slots.resolve?_of_some {front number rest markup : List Char}
    (hslot : findSlot? text = some ((front, number), rest))
    (hmarkup : (slotIndex? number).bind (slots[·]?) = some markup) :
    slots.resolve? literal text =
      (slots.resolve? literal rest).map (literal front ++ markup ++ ·) := by
  have hfind : slotPattern.find? text = some ((front, number), rest) := hslot
  rw [Slots.resolve?]
  split <;> simp_all

/-- The first slot of a text that is well marked, if there is any. -/
theorem Slots.WellMarked.first (hmarked : slots.WellMarked text) :
    slotOpen ∉ text ∨ ∃ front number rest markup, findSlot? text = some ((front, number), rest) ∧
      (slotIndex? number).bind (slots[·]?) = some markup ∧ slots.WellMarked rest := by
  by_cases hmem : slotOpen ∈ text
  · obtain ⟨front, behind, rfl, hfront⟩ := List.eq_append_cons_of_mem hmem
    obtain ⟨digits, rest, rfl, hsome, hdigits, hindex⟩ := hmarked.opened rfl
    refine .inr ⟨front, digits, rest, slots[Nat.ofDigitChars 10 digits 0],
      findSlot?_of_marked hfront hdigits rest, ?_, ?_⟩
    · rw [slotIndex?_digits hsome hdigits, Option.bind_some, Array.getElem?_eq_getElem hindex]
    · rw [← List.cons_append, ← List.append_assoc] at hmarked
      exact hmarked.behind
  · exact .inl hmem

/-- In a well marked text no slot is dropped and no search is given up. -/
theorem Slots.WellMarked.resolve? (hmarked : slots.WellMarked text) :
    slots.resolve? literal text = some (slots.resolve literal text) := by
  induction text using Slots.resolve.induct with
  | case1 text hnone =>
      obtain hmem | ⟨front, number, rest, markup, hslot, -⟩ := hmarked.first
      · rw [resolve?_of_not_mem hmem, resolve_of_none hnone]
      · cases hnone.symm.trans hslot
  | case2 text front number rest hfound ih =>
      obtain hmem | ⟨_, _, _, markup, hslot, hmarkup, hrest⟩ := hmarked.first
      · cases hfound.symm.trans (findSlot?_of_not_mem hmem)
      · cases hfound.symm.trans hslot
        rw [resolve?_of_some hslot hmarkup, ih hrest, resolve_of_some hslot, hmarkup,
          Option.map_some, Option.getD_some]

end Resolve

/-! Every call of the resolving on the way. -/

structure Resolving where
  slots : Slots
  literal : List Char → List Char
  text : List Char

/-- Notes what it is asked for. -/
def noteResolving : Resolver (StateM (List Resolving)) := fun slots literal text => do
  modify (· ++ [⟨slots, literal, text⟩])
  return slots.resolve literal text

/-- The step has the given result, and each call that it notes is for a text that is well marked. -/
def NotesMarked (step : StateM (List Resolving) α) (result : α) : Prop :=
  ∀ earlier, ∃ calls : List Resolving, step.run earlier = (result, earlier ++ calls) ∧
    ∀ call ∈ calls, call.slots.WellMarked call.text

theorem NotesMarked.pure (result : α) : NotesMarked (pure result) result :=
  fun earlier => ⟨[], by rw [List.append_nil]; rfl, List.forall_mem_nil _⟩

theorem NotesMarked.bind {step : StateM (List Resolving) α} {value : α}
    {next : α → StateM (List Resolving) β} {result : β} (hstep : NotesMarked step value)
    (hnext : NotesMarked (next value) result) : NotesMarked (step >>= next) result := by
  intro earlier
  obtain ⟨calls, hrun, hcalls⟩ := hstep earlier
  obtain ⟨later, hlater, hmarked⟩ := hnext (earlier ++ calls)
  refine ⟨calls ++ later, ?_, List.forall_mem_append.2 ⟨hcalls, hmarked⟩⟩
  rw [StateT.run_bind, hrun, ← List.append_assoc]
  exact hlater

theorem Slots.WellMarked.notesMarked {slots : Slots} {text : List Char}
    (hmarked : slots.WellMarked text) (literal : List Char → List Char) :
    NotesMarked (noteResolving slots literal text) (slots.resolve literal text) :=
  fun _ => ⟨[⟨slots, literal, text⟩], rfl, List.forall_mem_singleton.2 hmarked⟩

/-- What is made of a match, with the calls on the way. -/
def NotesMatch (latexM : γ → Slots → StateM (List Resolving) (List Char × Slots))
    (latex : γ → Slots → List Char × Slots) (captured : Slots → γ → Span → Prop) : Prop :=
  ∀ slots found span, captured slots found span → ∀ more : Slots, slots.Extends more →
    NotesMarked (latexM found more) (latex found more)

section Passes

variable {captured : Slots → γ → Span → Prop}
  {latexM : γ → Slots → StateM (List Resolving) (List Char × Slots)}
  {latex : γ → Slots → List Char × Slots}

theorem Slots.writeM_kept (slots : Slots) {front : List Char} {cuts : List (Cut γ)}
    (hcuts : NotesMarked (slots.writeM latexM cuts) (slots.write latex cuts)) :
    NotesMarked (slots.writeM latexM (front.map .kept ++ cuts))
      (slots.write latex (front.map .kept ++ cuts)) := by
  induction front with
  | nil => exact hcuts
  | cons c front ih => exact ih.bind (.pure _)

theorem CutsShow.notesMarked (hlatex : Renders latex captured)
    (hnotes : NotesMatch latexM latex captured) {slots : Slots} {cuts : List (Cut γ)}
    {spans : List Span} (hcuts : CutsShow captured slots cuts spans) {more : Slots}
    (hmore : slots.Extends more) :
    NotesMarked (more.writeM latexM cuts) (more.write latex cuts) := by
  induction hcuts generalizing more with
  | nil => exact .pure _
  | char _ _ ih => exact (ih hmore).bind (.pure _)
  | slot _ _ _ ih => exact more.writeM_kept (ih hmore)
  | @found found span _ _ hfound _ ih =>
      obtain ⟨-, -, hadded⟩ := hlatex _ _ _ hfound more hmore
      have hstored := hadded.trans ((latex found more).2.extends_push (latex found more).1)
      exact (hnotes _ _ _ hfound more hmore).bind
        ((ih (hmore.trans hstored)).bind (.pure _))

theorem Reads.notesMarked {embed : α → Span} {read : Slots → γ → δ → Prop}
    {pattern : Pattern Char γ} {reading : Pattern α δ}
    (hreads : Reads embed read pattern reading) {build : δ → β} {other : α → β}
    {place : β → Span} (hother : ∀ a, place (other a) = embed a)
    (hlatex : Renders latex fun slots found span =>
      ∃ unit, read slots found unit ∧ span = place (build unit))
    (hnotes : NotesMatch latexM latex fun slots found span =>
      ∃ unit, read slots found unit ∧ span = place (build unit))
    {slots : Slots} {text : List Char} {units : List α}
    (hshows : Shows slots text (units.map embed)) :
    NotesMarked (slots.passM pattern latexM text) (slots.pass pattern latex text) :=
  (hreads.cuts hother hshows).notesMarked hlatex hnotes (.refl slots)

end Passes

theorem notesMatch_styled (style : Style) {styles : List Style}
    (hstyles : ∀ {slots : Slots} {text : List Char} {spans : List Span}, Shows slots text spans →
      NotesMarked (slots.emphasizeM noteResolving styles text) (slots.emphasize styles text)) :
    NotesMatch
      (fun body slots => do
        let (body, slots) ← slots.emphasizeM noteResolving styles body
        return (style.latex (← noteResolving slots escape body), slots))
      (fun body slots =>
        (style.latex ((slots.emphasize styles body).2.resolve escape
          (slots.emphasize styles body).1), (slots.emphasize styles body).2))
      (fun slots found span => ∃ body : List Span, Shows slots found (body.map id) ∧
        span = id (Span.styled style (Markdown.emphasize styles body))) := by
  rintro slots found span ⟨body, hfound, rfl⟩ more hmore
  rw [List.map_id] at hfound
  have hbody := hfound.mono hmore
  obtain ⟨_, hinner⟩ := Slots.emphasize_shows styles hbody
  exact (hstyles hbody).bind ((hinner.wellMarked.notesMarked escape).bind (.pure _))

theorem Slots.emphasizeM_notesMarked (styles : List Style) {slots : Slots} {text : List Char}
    {spans : List Span} (hshows : Shows slots text spans) :
    NotesMarked (slots.emphasizeM noteResolving styles text) (slots.emphasize styles text) := by
  induction styles generalizing slots text spans with
  | nil => exact .pure _
  | cons style styles ih =>
      have hrenders := renders_styled style (Slots.emphasize_shows styles)
      have hunits : Shows slots text (spans.map id) := by rwa [List.map_id]
      obtain ⟨_, hpassed⟩ := (reads_stylePattern style).pass (fun _ => rfl) hrenders hunits
      rw [List.map_id] at hpassed
      have hpass := (reads_stylePattern style).notesMarked (fun _ => rfl) hrenders
        (notesMatch_styled style ih) hunits
      exact hpass.bind (ih hpassed)

theorem notesMatch_codeSlot :
    NotesMatch (codeSlotM noteResolving) codeSlot fun slots found span =>
      ∃ body : List Char, Shows slots found (body.map .char) ∧ span = .ofPiece (.code body) := by
  rintro slots found span ⟨body, hfound, rfl⟩ more hmore
  exact ((hfound.mono hmore).wellMarked.notesMarked id).bind (.pure _)

theorem notesMatch_linkSlot :
    NotesMatch (linkSlotM noteResolving) linkSlot fun slots found span =>
      ∃ parts : List Piece × List Piece,
        (Shows slots found.1 (parts.1.map Span.ofPiece) ∧
          Shows slots found.2 (parts.2.map Span.ofPiece)) ∧ span = id (Span.ofLink parts) := by
  rintro slots found span ⟨parts, ⟨hlabel, hurl⟩, rfl⟩ more hmore
  have htext := hlabel.mono hmore
  obtain ⟨_, hinner⟩ := Slots.emphasize_shows Style.all htext
  exact ((hurl.mono hmore).wellMarked.notesMarked id).bind <|
    (Slots.emphasizeM_notesMarked Style.all htext).bind <|
      (hinner.wellMarked.notesMarked escape).bind (.pure _)

theorem inlineLatexM_notesMarked (text : List Char) :
    NotesMarked (inlineLatexM noteResolving text) (inlineLatex text) := by
  obtain ⟨_, hchars⟩ := Slots.protect_shows #[] text
  have hpieces := Slots.codePass_shows hchars
  have hlinks := Slots.linkPass_shows hpieces
  obtain ⟨_, hspans⟩ := Slots.emphasize_shows Style.all hlinks
  have hcode := reads_codePattern.notesMarked
    (show ∀ c, Span.ofPiece (.char c) = .char c from fun _ => rfl) renders_codeSlot
    notesMatch_codeSlot hchars
  have hlink := (reads_linkPattern Piece.isChar_eq).notesMarked
    (show ∀ piece, id (Span.ofPiece piece) = Span.ofPiece piece from fun _ => rfl) renders_linkSlot
    notesMatch_linkSlot hpieces
  have hstyles := Slots.emphasizeM_notesMarked Style.all hlinks
  exact hcode.bind (hlink.bind (hstyles.bind (hspans.wellMarked.notesMarked escape)))

/-- All that is resolved while running text is converted, in its order. -/
def resolvings (text : List Char) : List Resolving :=
  ((inlineLatexM noteResolving text).run []).2

/-- The transformer only resolves texts that are well marked, so it never drops a slot and never
gives up the search for one. -/
theorem resolvings_wellMarked (text : List Char) :
    inlineLatexM (m := Id) Slots.resolve text = inlineLatex text ∧
      ((inlineLatexM noteResolving text).run []).1 = inlineLatex text ∧
      ∀ call ∈ resolvings text, call.slots.WellMarked call.text ∧
        call.slots.resolve? call.literal call.text =
          some (call.slots.resolve call.literal call.text) := by
  obtain ⟨calls, hrun, hmarked⟩ := inlineLatexM_notesMarked text []
  have hcalls : resolvings text = calls := congrArg Prod.snd hrun
  refine ⟨rfl, congrArg Prod.fst hrun, fun call hcall => ?_⟩
  rw [hcalls] at hcall
  exact ⟨hmarked call hcall, (hmarked call hcall).resolve?⟩

end Bindery.Markdown
