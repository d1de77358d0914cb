import Bindery.Proofs.Markdown.SourceTree

namespace Bindery.Markdown

open Latex

/-! Code spans and links come out whole. Each is read as one unit of the text, and a pass after that
can only put it into a wrapper as it is, since no marker is found inside a unit. -/

theorem Span.infix_allLatex {span : Span} {spans : List Span} (hspan : span ∈ spans) :
    span.latex <:+: Span.allLatex spans := by
  rw [Span.allLatex_eq_flatMap]
  exact List.infix_of_mem_flatten (List.mem_map_of_mem hspan)

theorem infix_group (text : List Char) : text <:+: group text :=
  ⟨['\x7b'], ['\x7d'], rfl⟩

theorem infix_command (name : String) (argument : List Char) :
    argument <:+: command name argument :=
  (infix_group argument).trans (List.suffix_append ('\\' :: name.toList) _).isInfix

theorem Style.infix_latex (style : Style) (body : List Char) : body <:+: style.latex body := by
  cases style with
  | boldItalic => exact (infix_command "textit" body).trans (infix_command "textbf" _)
  | bold => exact infix_command "textbf" body
  | star | underscore => exact infix_command "textit" body

/-- An element of the text is either carried over or in something that the pattern finds. -/
theorem Pattern.exists_mem_replace {α β γ : Type} {pattern : Pattern α γ} {write : γ → β}
    {other : α → β} {P : β → Prop} {a : α} (hother : P (other a))
    (hfound : ∀ units found rest, pattern.find? units = some (found, rest) → a ∈ units →
      a ∈ rest ∨ P (write found))
    {units : List α} (ha : a ∈ units) : ∃ b ∈ pattern.replace write other units, P b := by
  induction units using Pattern.induction pattern with
  | nil => simp at ha
  | found b units found rest hread ih =>
      rw [Pattern.replace_cons_some hread]
      rcases hfound _ _ _ hread ha with hrest | hwritten
      · obtain ⟨holder, hholder, hP⟩ := ih hrest
        exact ⟨holder, List.mem_cons_of_mem _ hholder, hP⟩
      · exact ⟨write found, List.mem_cons_self, hwritten⟩
  | kept b units hread ih =>
      rw [Pattern.replace_cons_none hread]
      rcases List.mem_cons.1 ha with rfl | htail
      · exact ⟨other a, List.mem_cons_self, hother⟩
      · obtain ⟨holder, hholder, hP⟩ := ih htail
        exact ⟨holder, List.mem_cons_of_mem _ hholder, hP⟩

/-- Where an element is missing that every match contains, nothing is found. -/
theorem Pattern.replace_of_not_mem {α β γ : Type} {pattern : Pattern α γ} {write : γ → β}
    {other : α → β} {a : α}
    (hneeds : ∀ units found rest, pattern.find? units = some (found, rest) → a ∈ units)
    {units : List α} (ha : a ∉ units) : pattern.replace write other units = units.map other := by
  induction units using Pattern.induction pattern with
  | nil => exact Pattern.replace_nil
  | found b units found rest hread ih => exact absurd (hneeds _ _ _ hread) ha
  | kept b units hread ih =>
      rw [Pattern.replace_cons_none hread, ih fun hmem => ha (List.mem_cons_of_mem b hmem),
        List.map_cons]

/-- A unit that no pattern looks into, and that prints the markup as it is. -/
structure Span.Carries (markup : List Char) (span : Span) : Prop where
  unit : ∀ c, span ≠ .char c
  prints : markup <:+: span.latex

section Carries

variable {markup : List Char} {span : Span} (hcarries : span.Carries markup)

include hcarries

theorem Span.Carries.styled {body : List Span} (hspan : span ∈ body) (style : Style) :
    (Span.styled style body).Carries markup := by
  refine ⟨by simp, ?_⟩
  rw [Span.latex]
  exact (hcarries.prints.trans (Span.infix_allLatex hspan)).trans (style.infix_latex _)

theorem Span.Carries.mem_of_emphasis {style : Style} {spans body rest : List Span}
    (hread : (style.pattern Span.isChar).find? spans = some (body, rest)) (hspan : span ∈ spans) :
    span ∈ rest ∨ span ∈ body := by
  have hmarker : span ∉ style.marker.map .char := by
    intro hchar
    obtain ⟨c, _, heq⟩ := List.mem_map.1 hchar
    exact hcarries.unit c heq.symm
  rw [stylePattern_sound hread] at hspan
  have hinside : span ∈ body ∨ span ∈ rest := by
    simpa [hmarker] using hspan
  exact hinside.symm

/-- Emphasis leaves a unit where it is or wraps what it stands in. -/
theorem Span.Carries.emphasize (styles : List Style) {spans : List Span} (hspan : span ∈ spans) :
    ∃ holder ∈ Markdown.emphasize styles spans, holder.Carries markup := by
  induction styles generalizing span spans with
  | nil => exact ⟨span, hspan, hcarries⟩
  | cons style styles ih =>
      -- A match hands its body to the later styles, so the induction is needed twice: inside the
      -- wrapper, and for the text that this pass leaves.
      obtain ⟨holder, hholder, hwrapped⟩ : ∃ holder ∈ (style.pattern Span.isChar).replace
          (fun body => .styled style (Markdown.emphasize styles body)) id spans,
          holder.Carries markup := by
        refine Pattern.exists_mem_replace hcarries (fun units body rest hread hmem => ?_) hspan
        refine (hcarries.mem_of_emphasis hread hmem).imp_right fun hbody => ?_
        obtain ⟨inner, hinner, hin⟩ := ih hcarries hbody
        exact hin.styled hinner style
      exact ih hwrapped hholder

theorem Span.Carries.infix_allLatex (styles : List Style) {spans : List Span}
    (hspan : span ∈ spans) : markup <:+: Span.allLatex (Markdown.emphasize styles spans) := by
  obtain ⟨holder, hholder, hprints⟩ := hcarries.emphasize styles hspan
  exact hprints.prints.trans (Span.infix_allLatex hholder)

end Carries

/-- A code span may stand beside the links, in the label of one, or in its url. -/
theorem Span.Carries.ofPieces {code : List Char} {pieces : List Piece}
    (hcode : Piece.code code ∈ pieces) :
    ∃ span ∈ Span.ofPieces pieces, span.Carries (codeLatex code) := by
  have hpiece : (Span.ofPiece (.code code)).Carries (codeLatex code) :=
    ⟨by simp [Span.ofPiece], by simp [Span.ofPiece, Span.latex]⟩
  refine Pattern.exists_mem_replace hpiece ?_ hcode
  rintro units ⟨label, url⟩ rest hread hmem
  rw [linkPattern_sound hread] at hmem
  have hinside : Piece.code code ∈ rest ∨ Piece.code code ∈ label ∨ Piece.code code ∈ url := by
    simp only [List.mem_append, List.mem_cons, reduceCtorEq, false_or] at hmem
    exact hmem.symm
  refine hinside.imp_right fun hlink => ⟨by simp [Span.ofLink], ?_⟩
  rw [Span.ofLink, Span.latex]
  rcases hlink with hlabel | hurl
  · have hshown := hpiece.infix_allLatex Style.all (List.mem_map_of_mem hlabel)
    exact (hshown.trans (infix_group _)).trans (List.suffix_append _ _).isInfix
  · have hshown : (Piece.code code).urlLatex <:+: url.flatMap Piece.urlLatex :=
      List.infix_of_mem_flatten (List.mem_map_of_mem hurl)
    exact (hshown.trans (infix_command "href" _)).trans (List.prefix_append _ _).isInfix

/-! Where the units stand in the text. -/

theorem codePattern_none {c : Char} (hc : c ≠ '\x60') (text : List Char) :
    codePattern.find? (c :: text) = none := by
  simp [codePattern, findCode?, hc]

theorem codePattern_complete {code : List Char} (rest : List Char) (hsome : code ≠ [])
    (hcode : '\x60' ∉ code) :
    codePattern.find? ('\x60' :: (code ++ '\x60' :: rest)) = some (code, rest) := by
  have hbody : ∀ c ∈ code, sameChar '\x60' c = false := by
    intro c hc
    exact beq_false_of_ne fun heq => hcode (heq ▸ hc)
  simpa [codePattern, findCode?] using upTo?_complete rest hsome hbody rfl

theorem Piece.mem_ofText {before code : List Char} (after : List Char) (hbefore : '\x60' ∉ before)
    (hsome : code ≠ []) (hcode : '\x60' ∉ code) :
    .code code ∈ Piece.ofText (before ++ '\x60' :: (code ++ '\x60' :: after)) := by
  have hplain : ∀ c ∈ before, ∀ text, codePattern.find? (c :: text) = none := by
    intro c hc text
    exact codePattern_none (fun heq => hbefore (heq ▸ hc)) text
  rw [Piece.ofText, Pattern.replace_append hplain,
    Pattern.replace_cons_some (codePattern_complete after hsome hcode)]
  simp

theorem Piece.ofText_eq_map {text : List Char} (htext : '\x60' ∉ text) :
    Piece.ofText text = text.map .char := by
  refine Pattern.replace_of_not_mem (fun text code rest hread => ?_) htext
  rw [codePattern_sound hread]
  exact List.mem_cons_self

theorem Piece.isChar_of_not_mem {c : Char} {pieces : List Piece} (hc : .char c ∉ pieces) :
    ∀ piece ∈ pieces, piece.isChar c = false := by
  intro piece hpiece
  exact Bool.eq_false_iff.2 fun hchar => hc (Piece.eq_char_of_isChar hchar ▸ hpiece)

theorem linkPattern_complete {label url : List Piece} (rest : List Piece) (hlabel : label ≠ [])
    (hbracket : .char ']' ∉ label) (hurl : url ≠ []) (hparen : .char ')' ∉ url) :
    (linkPattern Piece.isChar).find?
      (.char '[' :: (label ++ .char ']' :: .char '(' :: (url ++ .char ')' :: rest))) =
        some ((label, url), rest) := by
  have hfirst := upTo?_complete (.char '(' :: (url ++ .char ')' :: rest)) hlabel
    (Piece.isChar_of_not_mem hbracket) (show Piece.isChar ']' (.char ']') = true from rfl)
  have hsecond := upTo?_complete rest hurl (Piece.isChar_of_not_mem hparen)
    (show Piece.isChar ')' (.char ')') = true from rfl)
  simp [linkPattern, findLink?, Piece.isChar, hfirst, findUrl?, hsecond]

theorem Span.mem_ofPieces_link {before label url : List Piece} (after : List Piece)
    (hbefore : .char '[' ∉ before) (hlabel : label ≠ []) (hbracket : .char ']' ∉ label)
    (hurl : url ≠ []) (hparen : .char ')' ∉ url) :
    Span.ofLink (label, url) ∈ Span.ofPieces (before ++
      .char '[' :: (label ++ .char ']' :: .char '(' :: (url ++ .char ')' :: after))) := by
  have hplain : ∀ piece ∈ before, ∀ pieces,
      (linkPattern Piece.isChar).find? (piece :: pieces) = none := by
    intro piece hpiece pieces
    simp [linkPattern, findLink?, Piece.isChar_of_not_mem hbefore piece hpiece]
  rw [Span.ofPieces, Pattern.replace_append hplain,
    Pattern.replace_cons_some (linkPattern_complete after hlabel hbracket hurl hparen)]
  simp

theorem Span.ofPieces_eq_map {pieces : List Piece} (hbracket : .char ']' ∉ pieces) :
    Span.ofPieces pieces = pieces.map Span.ofPiece := by
  refine Pattern.replace_of_not_mem (fun pieces found rest hread => ?_) hbracket
  rw [linkPattern_sound hread]
  simp

/-- Without code and without a closing bracket a text only takes emphasis, as a label does. -/
theorem inlineLatex_label {label : List Char} (hcode : '\x60' ∉ label) (hbracket : ']' ∉ label) :
    inlineLatex label =
      Span.allLatex (emphasize Style.all ((label.map Piece.char).map Span.ofPiece)) := by
  rw [inlineLatex_eq, Span.ofText, Piece.ofText_eq_map hcode, Span.ofPieces_eq_map]
  simpa using hbracket

theorem Span.Carries.ofLink {label : List Char} (url : List Char) (hcode : '\x60' ∉ label)
    (hbracket : ']' ∉ label) :
    (Span.ofLink (label.map .char, url.map .char)).Carries
      (command "href" url ++ group (inlineLatex label)) := by
  refine ⟨by simp [Span.ofLink], ?_⟩
  rw [inlineLatex_label hcode hbracket]
  simp [Span.ofLink, Span.latex, List.flatMap_map, Piece.urlLatex]

/-- A code span and a link are printed as one stretch each, whatever stands around them: the code
escaped, the url as it is, and the label converted as it would be on its own. -/
theorem inlineLatex_keeps_units :
    (∀ before code after : List Char, '\x60' ∉ before → code ≠ [] → '\x60' ∉ code →
      command "texttt" (escape code) <:+:
        inlineLatex (before ++ '\x60' :: code ++ '\x60' :: after)) ∧
    (∀ before label url after : List Char, '[' ∉ before → label ≠ [] → ']' ∉ label →
      url ≠ [] → ')' ∉ url → (∀ part ∈ [before, label, url, after], '\x60' ∉ part) →
      command "href" url ++ group (inlineLatex label) <:+:
        inlineLatex (before ++ '[' :: label ++ ']' :: '(' :: url ++ ')' :: after)) := by
  refine ⟨fun before code after hbefore hsome hcode => ?_,
    fun before label url after hbefore hlabel hbracket hurl hparen hplain => ?_⟩
  · obtain ⟨span, hspan, hcarries⟩ :=
      Span.Carries.ofPieces (Piece.mem_ofText after hbefore hsome hcode)
    have hprinted := hcarries.infix_allLatex Style.all hspan
    simpa [inlineLatex_eq, Span.ofText, codeLatex] using hprinted
  · have hpieces : Piece.ofText (before ++ '[' :: label ++ ']' :: '(' :: url ++ ')' :: after) =
        before.map .char ++ .char '[' :: (label.map .char ++
          .char ']' :: .char '(' :: (url.map .char ++ .char ')' :: after.map .char)) := by
      rw [Piece.ofText_eq_map (by simp_all)]
      simp
    have hlink := Span.Carries.ofLink url (hplain label (by simp)) hbracket
    rw [inlineLatex_eq (before ++ _ ++ _ ++ _), Span.ofText, hpieces]
    refine hlink.infix_allLatex Style.all (Span.mem_ofPieces_link _ ?_ ?_ ?_ ?_ ?_)
    all_goals simpa

theorem inlineLatex_keeps_units_unpaired :
    command "texttt" (escape "a_*b".toList) <:+:
        inlineLatex ("**_x [y](z".toList ++ '\x60' :: "a_*b".toList ++ '\x60' :: ")**]".toList) ∧
      command "href" "u_*v\ue000".toList ++ group (inlineLatex "*l [_".toList) <:+:
        inlineLatex ("**x _".toList ++ '[' :: "*l [_".toList ++ ']' :: '(' :: "u_*v\ue000".toList ++
          ')' :: "]*_".toList) :=
  ⟨inlineLatex_keeps_units.1 _ _ _ (by decide) (by decide) (by decide),
    inlineLatex_keeps_units.2 _ _ _ _ (by decide) (by decide) (by decide) (by decide) (by decide)
      (by decide)⟩

end Bindery.Markdown
