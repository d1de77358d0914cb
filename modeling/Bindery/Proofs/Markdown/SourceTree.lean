import Bindery.Proofs.Markdown.Passes

namespace Bindery.Markdown

/-! The tree that a text is read as, written back as markdown, is the text. What stays literal in it
is what no marker could pair with. -/

def Piece.markdown : Piece → List Char
  | .char c => [c]
  | .code body => '\x60' :: body ++ ['\x60']

mutual
def Span.markdown : Span → List Char
  | .char c => [c]
  | .code body => '\x60' :: body ++ ['\x60']
  | .link label url =>
      '[' :: Span.allMarkdown label ++ ']' :: '(' :: url.flatMap Piece.markdown ++ [')']
  | .styled style body => style.marker ++ Span.allMarkdown body ++ style.marker

def Span.allMarkdown : List Span → List Char
  | [] => []
  | span :: spans => span.markdown ++ Span.allMarkdown spans
end

theorem Span.allMarkdown_eq_flatMap (spans : List Span) :
    Span.allMarkdown spans = spans.flatMap Span.markdown := by
  induction spans with
  | nil => simp [Span.allMarkdown]
  | cons span spans ih => simp [Span.allMarkdown, ih]

@[simp] theorem Span.allMarkdown_append (first second : List Span) :
    Span.allMarkdown (first ++ second) = Span.allMarkdown first ++ Span.allMarkdown second := by
  simp [Span.allMarkdown_eq_flatMap]

@[simp] theorem Span.allMarkdown_chars (text : List Char) :
    Span.allMarkdown (text.map .char) = text := by
  induction text with
  | nil => rfl
  | cons c text ih => simp [Span.allMarkdown, Span.markdown, ih]

theorem Span.markdown_ofPiece (piece : Piece) : (Span.ofPiece piece).markdown = piece.markdown := by
  cases piece <;> simp [Span.ofPiece, Span.markdown, Piece.markdown]

theorem Span.allMarkdown_ofPieces (pieces : List Piece) :
    Span.allMarkdown (pieces.map Span.ofPiece) = pieces.flatMap Piece.markdown := by
  simp only [Span.allMarkdown_eq_flatMap, List.flatMap_map, Span.markdown_ofPiece]

/-! What the patterns find is what stands in the text. -/

theorem sameChar_eq {c d : Char} (hsame : sameChar c d = true) : d = c := by
  simpa [sameChar] using hsame

theorem codePattern_sound {text body rest : List Char}
    (hfound : codePattern.find? text = some (body, rest)) :
    text = '\x60' :: body ++ '\x60' :: rest := by
  cases text with
  | nil => simp [codePattern, findCode?] at hfound
  | cons c text =>
      simp only [codePattern, findCode?] at hfound
      split at hfound
      · rename_i hopen
        obtain ⟨_, _, d, hclose, rfl⟩ := upTo?_sound hfound
        rw [sameChar_eq hopen, sameChar_eq hclose]
        rfl
      · contradiction

theorem Piece.eq_char_of_isChar {c : Char} {piece : Piece} (hchar : piece.isChar c = true) :
    piece = .char c := by
  cases piece with
  | char d => simpa [Piece.isChar] using hchar
  | code _ => simp [Piece.isChar] at hchar

theorem linkPattern_sound {pieces label url rest : List Piece}
    (hfound : (linkPattern Piece.isChar).find? pieces = some ((label, url), rest)) :
    pieces = .char '[' :: label ++ .char ']' :: .char '(' :: url ++ .char ')' :: rest := by
  cases pieces with
  | nil => simp [linkPattern, findLink?] at hfound
  | cons piece pieces =>
      simp only [linkPattern, findLink?] at hfound
      split at hfound
      · rename_i hopen
        obtain ⟨⟨first, target⟩, hlabel, hurl⟩ := Option.bind_eq_some_iff.1 hfound
        obtain ⟨_, _, bracket, hbracket, rfl⟩ := upTo?_sound hlabel
        cases target with
        | nil => simp [findUrl?] at hurl
        | cons paren target =>
            simp only [findUrl?] at hurl
            split at hurl
            · rename_i hparen
              obtain ⟨⟨second, after⟩, hsecond, hpair⟩ := Option.map_eq_some_iff.1 hurl
              simp only [Prod.mk.injEq] at hpair
              obtain ⟨⟨rfl, rfl⟩, rfl⟩ := hpair
              obtain ⟨_, _, close, hclose, rfl⟩ := upTo?_sound hsecond
              rw [Piece.eq_char_of_isChar hopen, Piece.eq_char_of_isChar hbracket,
                Piece.eq_char_of_isChar hparen, Piece.eq_char_of_isChar hclose]
              simp
            · contradiction
      · contradiction

theorem afterMarker?_sound {marker : List Char} {spans rest : List Span}
    (hmarker : afterMarker? Span.isChar marker spans = some rest) :
    spans = marker.map .char ++ rest := by
  induction marker generalizing spans with
  | nil => simpa [afterMarker?] using hmarker
  | cons c marker ih =>
      cases spans with
      | nil => simp [afterMarker?] at hmarker
      | cons span spans =>
          simp only [afterMarker?] at hmarker
          split at hmarker
          · rename_i hchar
            rw [Span.eq_char_of_isChar hchar, ih hmarker]
            rfl
          · contradiction

theorem upToMarker?_sound {marker : List Char} {spans body rest : List Span}
    (hbody : upToMarker? Span.isChar marker spans = some (body, rest)) :
    spans = body ++ marker.map .char ++ rest := by
  induction spans generalizing body with
  | nil => simp [upToMarker?] at hbody
  | cons span spans ih =>
      simp only [upToMarker?] at hbody
      split at hbody
      · contradiction
      · split at hbody
        · rename_i hafter
          simp only [Option.some.injEq, Prod.mk.injEq] at hbody
          obtain ⟨rfl, rfl⟩ := hbody
          rw [afterMarker?_sound hafter]
          rfl
        · obtain ⟨⟨inner, tail⟩, hinner, hpair⟩ := Option.map_eq_some_iff.1 hbody
          simp only [Prod.mk.injEq] at hpair
          obtain ⟨rfl, rfl⟩ := hpair
          rw [ih hinner]
          simp

theorem stylePattern_sound {style : Style} {spans body rest : List Span}
    (hfound : (style.pattern Span.isChar).find? spans = some (body, rest)) :
    spans = style.marker.map .char ++ body ++ style.marker.map .char ++ rest := by
  obtain ⟨inner, hopen, hbody⟩ := Option.bind_eq_some_iff.1 hfound
  rw [afterMarker?_sound hopen, upToMarker?_sound hbody]
  simp

/-! No pass changes what is written. -/

theorem Pattern.flatMap_replace {α β γ : Type} {pattern : Pattern α γ} {write : γ → β}
    {other : α → β} {source : α → List Char} {print : β → List Char}
    (hfound : ∀ units found rest, pattern.find? units = some (found, rest) →
      units.flatMap source = print (write found) ++ rest.flatMap source)
    (hother : ∀ a, print (other a) = source a) (units : List α) :
    (pattern.replace write other units).flatMap print = units.flatMap source := by
  induction units using Pattern.induction pattern with
  | nil => simp
  | found a units found rest hread ih =>
      rw [Pattern.replace_cons_some hread, List.flatMap_cons, ih, hfound _ _ _ hread]
  | kept a units hread ih =>
      rw [Pattern.replace_cons_none hread, List.flatMap_cons, ih, hother, List.flatMap_cons]

theorem Piece.markdown_ofText (text : List Char) :
    (Piece.ofText text).flatMap Piece.markdown = text := by
  have hprinted : (Piece.ofText text).flatMap Piece.markdown = text.flatMap ([·]) := by
    apply Pattern.flatMap_replace
    · intro units body rest hfound
      rw [codePattern_sound hfound]
      simp [Piece.markdown]
    · intro c
      rfl
  rw [hprinted]
  simp

theorem allMarkdown_emphasize (styles : List Style) (spans : List Span) :
    Span.allMarkdown (emphasize styles spans) = Span.allMarkdown spans := by
  induction styles generalizing spans with
  | nil => rfl
  | cons style styles ih =>
      rw [emphasize, ih]
      simp only [Span.allMarkdown_eq_flatMap]
      apply Pattern.flatMap_replace
      · intro units body rest hfound
        rw [← Span.allMarkdown_eq_flatMap, ← Span.allMarkdown_eq_flatMap, stylePattern_sound hfound]
        simp [Span.markdown, ih]
      · intro span
        rfl

theorem Span.allMarkdown_ofText (text : List Char) :
    Span.allMarkdown (Span.ofText text) = text := by
  have hlinks : (Span.ofPieces (Piece.ofText text)).flatMap Span.markdown =
      (Piece.ofText text).flatMap Piece.markdown := by
    apply Pattern.flatMap_replace
    · rintro pieces ⟨label, url⟩ rest hfound
      rw [linkPattern_sound hfound]
      simp [Span.ofLink, Span.markdown, allMarkdown_emphasize, Span.allMarkdown_ofPieces,
        Piece.markdown]
    · exact Span.markdown_ofPiece
  rw [Span.ofText, allMarkdown_emphasize, Span.allMarkdown_eq_flatMap, hlinks,
    Piece.markdown_ofText]

/-! Emphasis that can pair does pair: of a marker of one character, no two are left with anything
between them. -/

def Unpaired (c : Char) (spans : List Span) : Prop :=
  ∀ front middle back, spans = front ++ .char c :: (middle ++ .char c :: back) → middle = []

/-- Where an emphasis pass leaves a character, the pass got there with that character next. -/
theorem Style.replace_split {style : Style} {write : List Span → Span}
    (hwrite : ∀ c body, write body ≠ .char c) {spans front back : List Span} {c : Char}
    (hreplace : (style.pattern Span.isChar).replace write id spans = front ++ .char c :: back) :
    ∃ before after, spans = before ++ .char c :: after ∧
      (style.pattern Span.isChar).replace write id after = back ∧ (before = [] → front = []) := by
  induction spans using Pattern.induction (style.pattern Span.isChar) generalizing front with
  | nil => simp at hreplace
  | found span spans body rest hread ih =>
      rw [Pattern.replace_cons_some hread] at hreplace
      cases front with
      | nil => exact absurd (List.cons.inj hreplace).1 (hwrite c body)
      | cons other front =>
          obtain ⟨before, after, rfl, hafter, _⟩ := ih (List.cons.inj hreplace).2
          refine ⟨style.marker.map .char ++ body ++ style.marker.map .char ++ before, after, ?_,
            hafter, ?_⟩
          · simpa using stylePattern_sound hread
          · intro hnil
            obtain ⟨d, marker, hmarker, _⟩ := style.marker_cons
            simp [hmarker] at hnil
  | kept span spans hread ih =>
      rw [Pattern.replace_cons_none hread] at hreplace
      cases front with
      | nil =>
          obtain ⟨hspan, hafter⟩ := List.cons.inj hreplace
          exact ⟨[], spans, by rw [← hspan]; rfl, hafter, fun _ => rfl⟩
      | cons other front =>
          obtain ⟨before, after, rfl, hafter, _⟩ := ih (List.cons.inj hreplace).2
          exact ⟨span :: before, after, rfl, hafter, by simp⟩

theorem Unpaired.replace {c : Char} {spans : List Span} (hspans : Unpaired c spans) {style : Style}
    {write : List Span → Span} (hwrite : ∀ c body, write body ≠ .char c) :
    Unpaired c ((style.pattern Span.isChar).replace write id spans) := by
  intro front middle back hreplace
  obtain ⟨before, rest, rfl, hrest, _⟩ := Style.replace_split hwrite hreplace
  obtain ⟨between, after, rfl, _, hmiddle⟩ := Style.replace_split hwrite hrest
  exact hmiddle (hspans before between after rfl)

theorem eq_nil_of_upToMarker?_none {c : Char} {spans before after : List Span}
    (hline : ∀ span ∈ spans, span.isChar '\n' = false)
    (hnone : upToMarker? Span.isChar [c] spans = none)
    (hspans : spans = before ++ .char c :: after) : before = [] := by
  induction before generalizing spans with
  | nil => rfl
  | cons span before ih =>
      subst hspans
      have hspan := hline span (by simp)
      simp only [List.cons_append, upToMarker?, hspan] at hnone
      cases hafter : afterMarker? Span.isChar [c] (before ++ .char c :: after) with
      | some rest => simp [hafter] at hnone
      | none =>
          simp only [hafter, Bool.false_eq_true, if_false, Option.map_eq_none_iff] at hnone
          have hnil := ih (fun other hother => hline other (by simp_all)) hnone rfl
          subst hnil
          simp [afterMarker?, Span.isChar] at hafter

/-- The pass for a marker of one character leaves no two of them apart. -/
theorem Style.unpaired_replace {style : Style} {c : Char} (hmarker : style.marker = [c])
    {write : List Span → Span} (hwrite : ∀ c body, write body ≠ .char c) {spans : List Span}
    (hline : ∀ span ∈ spans, span.isChar '\n' = false) :
    Unpaired c ((style.pattern Span.isChar).replace write id spans) := by
  induction spans using Pattern.induction (style.pattern Span.isChar) with
  | nil =>
      intro front middle back hreplace
      simp at hreplace
  | found span spans body rest hread ih =>
      have hrest : ∀ other ∈ rest, other.isChar '\n' = false := by
        intro other hother
        apply hline
        rw [stylePattern_sound hread]
        exact List.mem_append_right _ hother
      rw [Pattern.replace_cons_some hread]
      intro front middle back hreplace
      cases front with
      | nil => exact absurd (List.cons.inj hreplace).1 (hwrite c body)
      | cons other front => exact ih hrest front middle back (List.cons.inj hreplace).2
  | kept span spans hread ih =>
      have htail : ∀ other ∈ spans, other.isChar '\n' = false := fun other hother =>
        hline other (by simp [hother])
      rw [Pattern.replace_cons_none hread]
      intro front middle back hreplace
      cases front with
      | nil =>
          obtain ⟨rfl, hmiddle⟩ := List.cons.inj hreplace
          obtain ⟨before, after, hspans, _, hfront⟩ := Style.replace_split hwrite hmiddle
          have hnone : upToMarker? Span.isChar [c] spans = none := by
            simpa [Style.pattern, hmarker, afterMarker?, Span.isChar] using hread
          exact hfront (eq_nil_of_upToMarker?_none htail hnone hspans)
      | cons other front => exact ih htail front middle back (List.cons.inj hreplace).2

theorem Span.isChar_of_not_mem {c : Char} {spans : List Span} (hc : c ∉ Span.allMarkdown spans)
    {span : Span} (hspan : span ∈ spans) : span.isChar c = false := by
  refine Bool.eq_false_iff.2 fun hchar => hc ?_
  rw [Span.allMarkdown_eq_flatMap]
  apply List.mem_flatMap.2
  exact ⟨span, hspan, by simp [Span.eq_char_of_isChar hchar, Span.markdown]⟩

theorem unpaired_emphasize {spans : List Span} (hline : '\n' ∉ Span.allMarkdown spans) :
    Unpaired '*' (emphasize Style.all spans) ∧ Unpaired '_' (emphasize Style.all spans) := by
  have hwrite : ∀ (style : Style) (styles : List Style) (c : Char) (body : List Span),
      Span.styled style (emphasize styles body) ≠ .char c := by
    intro style styles c body heq
    contradiction
  obtain ⟨bold, hbold, hstar⟩ : ∃ bold, Span.allMarkdown bold = Span.allMarkdown spans ∧
      emphasize Style.all spans = emphasize [.star, .underscore] bold :=
    ⟨_, (allMarkdown_emphasize [.star, .underscore] _).symm.trans
      (allMarkdown_emphasize Style.all spans), rfl⟩
  obtain ⟨starred, hstarred, hunderscore, hpaired⟩ : ∃ starred,
      Span.allMarkdown starred = Span.allMarkdown bold ∧
        emphasize [.star, .underscore] bold = emphasize [.underscore] starred ∧
          Unpaired '*' starred :=
    ⟨_, (allMarkdown_emphasize [.underscore] _).symm.trans
      (allMarkdown_emphasize [.star, .underscore] bold), rfl,
      Style.unpaired_replace rfl (hwrite .star [.underscore]) fun _ =>
        Span.isChar_of_not_mem (hbold ▸ hline)⟩
  have hlast := hline
  rw [← hbold, ← hstarred] at hlast
  rw [hstar, hunderscore]
  exact ⟨hpaired.replace (hwrite .underscore []),
    Style.unpaired_replace rfl (hwrite .underscore []) fun _ => Span.isChar_of_not_mem hlast⟩

/-- Every text has a tree that is the text when written as markdown and what is printed for it when
written as LaTeX, and in which no two markers on one line stay literal with text between them. -/
theorem inlineLatex_preserves_source (text : List Char) :
    ∃ tree : List Span, Span.allMarkdown tree = text ∧ inlineLatex text = Span.allLatex tree ∧
      ('\n' ∉ text → Unpaired '*' tree ∧ Unpaired '_' tree) := by
  refine ⟨Span.ofText text, Span.allMarkdown_ofText text, inlineLatex_eq text, fun hline => ?_⟩
  have hwritten : Span.allMarkdown (Span.ofPieces (Piece.ofText text)) = text :=
    (allMarkdown_emphasize Style.all _).symm.trans (Span.allMarkdown_ofText text)
  exact unpaired_emphasize (hwritten.symm ▸ hline)

theorem inlineLatex_preserves_source_stars :
    ∃ tree : List Span, Span.allMarkdown tree = "2 * 3 * x_".toList ∧
      inlineLatex "2 * 3 * x_".toList = Span.allLatex tree ∧ Unpaired '*' tree ∧
        Unpaired '_' tree := by
  obtain ⟨tree, hmarkdown, hlatex, hunpaired⟩ := inlineLatex_preserves_source "2 * 3 * x_".toList
  exact ⟨tree, hmarkdown, hlatex, hunpaired (by decide)⟩

end Bindery.Markdown
