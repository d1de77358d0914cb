import Bindery.Proofs.Markdown.Shown

namespace Bindery.Markdown

/-! Patterns read the same in a working text as in the spans that it shows. None of them asks for a
character that placeholders are written with. -/

theorem Shows.split_spans {slots : Slots} {text : List Char} {first second : List Span}
    (hshows : Shows slots text (first ++ second)) :
    ∃ front back, text = front ++ back ∧ Shows slots front first ∧ Shows slots back second := by
  induction first generalizing text with
  | nil => exact ⟨[], text, rfl, .nil, hshows⟩
  | cons span first ih =>
      cases hshows with
      | char hplain htail =>
          obtain ⟨front, back, rfl, hfront, hback⟩ := ih htail
          exact ⟨_ :: front, back, rfl, .char hplain hfront, hback⟩
      | slot hheld hlatex htail =>
          obtain ⟨front, back, rfl, hfront, hback⟩ := ih htail
          exact ⟨_ ++ front, back, by simp, .slot hheld hlatex hfront, hback⟩

theorem Shows.split_char {slots : Slots} {c : Char} (hc : isPlaceholderChar c = false)
    {front back : List Char} {spans : List Span} (hshows : Shows slots (front ++ c :: back) spans) :
    ∃ first second, spans = first ++ .char c :: second ∧
      Shows slots front first ∧ Shows slots back second := by
  generalize htext : front ++ c :: back = text at hshows
  induction hshows generalizing front with
  | nil => simp at htext
  | @char d text spans hplain htail ih =>
      cases front with
      | nil =>
          simp only [List.nil_append, List.cons.injEq] at htext
          obtain ⟨rfl, rfl⟩ := htext
          exact ⟨[], spans, rfl, .nil, htail⟩
      | cons e front =>
          simp only [List.cons_append, List.cons.injEq] at htext
          obtain ⟨rfl, htext⟩ := htext
          obtain ⟨first, second, rfl, hfirst, hsecond⟩ := ih htext
          exact ⟨.char e :: first, second, rfl, .char hplain hfirst, hsecond⟩
  | @slot index span text spans hheld hlatex htail ih =>
      have hinside : ∃ inner, front = placeholder index ++ inner ∧ inner ++ c :: back = text := by
        rcases List.append_eq_append_iff.1 htext with ⟨inner, hplace, htail⟩ | ⟨inner, rfl, htail⟩
        · cases inner with
          | nil => exact ⟨[], by simpa using hplace.symm, by simpa using htail⟩
          | cons d inner =>
              simp only [List.cons_append, List.cons.injEq] at htail
              have hmem : c ∈ placeholder index := by simp [hplace, htail.1]
              rw [mem_placeholder hmem] at hc
              contradiction
        · exact ⟨inner, rfl, htail.symm⟩
      obtain ⟨inner, rfl, hinner⟩ := hinside
      obtain ⟨first, second, rfl, hfirst, hsecond⟩ := ih hinner
      exact ⟨span :: first, second, rfl, .slot hheld hlatex hfirst, hsecond⟩

theorem Shows.eq_nil_iff {slots : Slots} {text : List Char} {spans : List Span}
    (hshows : Shows slots text spans) : text = [] ↔ spans = [] := by
  cases hshows with
  | nil => simp
  | char _ _ => simp
  | slot _ _ _ => simp [placeholder_ne_nil]

theorem isPlaceholderChar_of_isSlotMark {c : Char} (hmark : isSlotMark c = true) :
    isPlaceholderChar c = true := by
  simp [isPlaceholderChar, hmark]

theorem Span.eq_char_of_isChar {c : Char} {span : Span} (hchar : span.isChar c = true) :
    span = .char c := by
  cases span with
  | char d => simpa [Span.isChar] using hchar
  | code _ | link _ _ | styled _ _ => simp [Span.isChar] at hchar

theorem Span.isChar_of_isHeld {c : Char} (hc : isPlaceholderChar c = false) {span : Span}
    (hheld : span.isHeld = true) : span.isChar c = false := by
  cases span with
  | char d =>
      refine beq_false_of_ne fun heq => ?_
      rw [heq] at hheld
      rw [isPlaceholderChar_of_isSlotMark hheld] at hc
      contradiction
  | code _ | link _ _ | styled _ _ => rfl

theorem Shows.mem_iff {slots : Slots} {c : Char} (hc : isPlaceholderChar c = false)
    {text : List Char} {spans : List Span} (hshows : Shows slots text spans) :
    c ∈ text ↔ .char c ∈ spans := by
  constructor
  · intro hmem
    obtain ⟨front, back, rfl⟩ := List.append_of_mem hmem
    obtain ⟨first, second, rfl, _, _⟩ := hshows.split_char hc
    simp
  · intro hmem
    obtain ⟨first, second, rfl⟩ := List.append_of_mem hmem
    obtain ⟨front, tail, rfl, _, htail⟩ := hshows.split_spans
    cases htail with
    | char _ _ => simp
    | slot hheld _ _ =>
        have hchar := Span.isChar_of_isHeld hc hheld
        simp [Span.isChar] at hchar

/-- A text and the spans that it shows begin with a given character together. -/
theorem Shows.head_cases {slots : Slots} {c : Char} (hc : isPlaceholderChar c = false)
    {text : List Char} {span : Span} {spans : List Span}
    (hshows : Shows slots text (span :: spans)) :
    (∃ tail, span = .char c ∧ text = c :: tail ∧ Shows slots tail spans) ∨
      (∃ d tail, span.isChar c = false ∧ text = d :: tail ∧ sameChar c d = false) := by
  cases hshows with
  | @char d tail _ hplain htail =>
      by_cases hd : d = c
      · subst hd
        exact .inl ⟨tail, rfl, rfl, htail⟩
      · exact .inr ⟨d, tail, beq_false_of_ne hd, rfl, beq_false_of_ne hd⟩
  | @slot index _ tail _ hheld _ htail =>
      refine .inr ⟨slotOpen, _, Span.isChar_of_isHeld hc hheld, rfl, beq_false_of_ne ?_⟩
      intro heq
      rw [← heq] at hc
      exact absurd hc (by decide)

theorem rel_bind {first : α → β → Prop} {second : γ → δ → Prop} {found : Option α}
    {read : Option β} {next : α → Option γ} {other : β → Option δ}
    (hrel : Option.Rel first found read)
    (hnext : ∀ a b, first a b → Option.Rel second (next a) (other b)) :
    Option.Rel second (found.bind next) (read.bind other) := by
  cases hrel with
  | none => exact .none
  | some hfirst => exact hnext _ _ hfirst

theorem rel_map {first : α → β → Prop} {second : γ → δ → Prop} {found : Option α}
    {read : Option β} {next : α → γ} {other : β → δ} (hrel : Option.Rel first found read)
    (hnext : ∀ a b, first a b → second (next a) (other b)) :
    Option.Rel second (found.map next) (read.map other) := by
  cases hrel with
  | none => exact .none
  | some hfirst => exact .some (hnext _ _ hfirst)

section Units

variable {α : Type} {embed : α → Span} {is : Char → α → Bool}

theorem Shows.ne_nil_iff {slots : Slots} {front : List Char} {body : List α}
    (hfront : Shows slots front (body.map embed)) : front ≠ [] ↔ body ≠ [] := by
  rw [ne_eq, hfront.eq_nil_iff, List.map_eq_nil_iff]

theorem Shows.free_iff (his : ∀ c a, is c a = (embed a).isChar c) {slots : Slots} {c : Char}
    (hc : isPlaceholderChar c = false) {front : List Char} {body : List α}
    (hfront : Shows slots front (body.map embed)) :
    (∀ d ∈ front, sameChar c d = false) ↔ ∀ a ∈ body, is c a = false := by
  have hmem := hfront.mem_iff hc
  constructor
  · intro hall a ha
    refine Bool.eq_false_iff.2 fun hstop => ?_
    have hspan : embed a = .char c := Span.eq_char_of_isChar (by simpa [his] using hstop)
    have hfound := hall c (hmem.2 (hspan ▸ List.mem_map_of_mem ha))
    simp [sameChar] at hfound
  · intro hall d hd
    refine beq_false_of_ne fun heq => ?_
    subst heq
    obtain ⟨a, ha, hspan⟩ := List.mem_map.1 (hmem.1 hd)
    have hstop := hall a ha
    simp [his, hspan, Span.isChar] at hstop

theorem Shows.upTo? (his : ∀ c a, is c a = (embed a).isChar c) {slots : Slots} {c : Char}
    (hc : isPlaceholderChar c = false) {text : List Char} {units : List α}
    (hshows : Shows slots text (units.map embed)) :
    Option.Rel
      (fun found read => Shows slots found.1 (read.1.map embed) ∧
        Shows slots found.2 (read.2.map embed))
      (Markdown.upTo? (sameChar c) text) (Markdown.upTo? (is c) units) := by
  cases hread : Markdown.upTo? (is c) units with
  | some read =>
      obtain ⟨body, rest⟩ := read
      obtain ⟨hne, hbody, a, ha, rfl⟩ := upTo?_sound hread
      have hspan : embed a = .char c := Span.eq_char_of_isChar (by simpa [his] using ha)
      simp only [List.map_append, List.map_cons, hspan] at hshows
      obtain ⟨front, tail, rfl, hfront, htail⟩ := hshows.split_spans
      cases htail with
      | @char d back _ _ hback =>
          have hfound : Markdown.upTo? (sameChar c) (front ++ c :: back) = some (front, back) :=
            upTo?_complete back (hfront.ne_nil_iff.2 hne) ((hfront.free_iff his hc).2 hbody)
              (beq_self_eq_true c)
          rw [hfound]
          exact .some ⟨hfront, hback⟩
      | slot hheld _ _ =>
          have hchar := Span.isChar_of_isHeld hc hheld
          simp [Span.isChar] at hchar
  | none =>
      cases hfound : Markdown.upTo? (sameChar c) text with
      | none => exact .none
      | some found =>
          obtain ⟨front, back⟩ := found
          obtain ⟨hne, hfront, d, hd, rfl⟩ := upTo?_sound hfound
          obtain rfl : d = c := by simpa [sameChar] using hd
          obtain ⟨first, second, hspans, hfirst, hsecond⟩ := hshows.split_char hc
          obtain ⟨body, tail, rfl, rfl, htail⟩ := List.map_eq_append_iff.1 hspans
          obtain ⟨a, rest, rfl, ha, rfl⟩ := List.map_eq_cons_iff.1 htail
          have hstop : is d a = true := by simp [his, ha, Span.isChar]
          have hbody := (hfirst.free_iff his hc).1 hfront
          rw [upTo?_complete rest (hfirst.ne_nil_iff.1 hne) hbody hstop] at hread
          contradiction

/-- A pattern finds the same in a text and in the units that the text shows, and what it captures is
related by `captured`. It never begins inside a placeholder. -/
structure Reads (embed : α → Span) (captured : Slots → γ → δ → Prop) (pattern : Pattern Char γ)
    (reading : Pattern α δ) : Prop where
  starts : ∀ c text, isPlaceholderChar c = true → pattern.find? (c :: text) = none
  agrees : ∀ {slots text units}, Shows slots text (units.map embed) →
    Option.Rel
      (fun found read => captured slots found.1 read.1 ∧ Shows slots found.2 (read.2.map embed))
      (pattern.find? text) (reading.find? units)

theorem sameChar_placeholderChar {c d : Char} (hc : isPlaceholderChar c = false)
    (hd : isPlaceholderChar d = true) : sameChar c d = false := by
  refine beq_false_of_ne fun heq => ?_
  rw [heq, hc] at hd
  contradiction

theorem reads_codePattern :
    Reads Span.char (fun slots found body => Shows slots found (body.map .char)) codePattern
      codePattern where
  starts := by
    intro c text hc
    have htick : (c == '\x60') = false := sameChar_placeholderChar (by decide) hc
    simp [codePattern, findCode?, htick]
  agrees := by
    intro slots text units hshows
    cases units with
    | nil =>
        obtain rfl := hshows.eq_nil_iff.2 rfl
        exact .none
    | cons c units =>
        have htick : isPlaceholderChar '\x60' = false := by decide
        rcases hshows.head_cases htick with ⟨tail, hspan, rfl, htail⟩ | ⟨d, tail, hspan, rfl, hd⟩
        · obtain rfl := Span.char.inj hspan
          exact htail.upTo? (fun _ _ => rfl) htick
        · have hc : (c == '\x60') = false := hspan
          have hd : (d == '\x60') = false := hd
          simp only [codePattern, findCode?, hc, hd]
          exact .none

theorem Shows.findUrl? (his : ∀ c a, is c a = (embed a).isChar c) {slots : Slots}
    {front text : List Char} {label units : List α} (hshows : Shows slots text (units.map embed))
    (hlabel : Shows slots front (label.map embed)) :
    Option.Rel
      (fun found read =>
        (Shows slots found.1.1 (read.1.1.map embed) ∧ Shows slots found.1.2 (read.1.2.map embed)) ∧
          Shows slots found.2 (read.2.map embed))
      (Markdown.findUrl? sameChar front text) (Markdown.findUrl? is label units) := by
  cases units with
  | nil =>
      obtain rfl := hshows.eq_nil_iff.2 rfl
      exact .none
  | cons a units =>
      have hparen : isPlaceholderChar '(' = false := by decide
      rcases hshows.head_cases hparen with ⟨tail, hspan, rfl, htail⟩ | ⟨d, tail, hspan, rfl, hd⟩
      · have hurl := htail.upTo? his (show isPlaceholderChar ')' = false by decide)
        have ha : is '(' a = true := by simp [his, hspan, Span.isChar]
        simp only [Markdown.findUrl?, ha, sameChar, beq_self_eq_true, if_true]
        exact rel_map hurl fun found read hrel => ⟨⟨hlabel, hrel.1⟩, hrel.2⟩
      · have ha : is '(' a = false := by rw [his, hspan]
        simp only [Markdown.findUrl?, ha, hd]
        exact .none

theorem reads_linkPattern (his : ∀ c a, is c a = (embed a).isChar c) :
    Reads embed
      (fun slots found parts => Shows slots found.1 (parts.1.map embed) ∧
        Shows slots found.2 (parts.2.map embed))
      (linkPattern sameChar) (linkPattern is) where
  starts := by
    intro c text hc
    have hopen : sameChar '[' c = false := sameChar_placeholderChar (by decide) hc
    simp [linkPattern, findLink?, hopen]
  agrees := by
    intro slots text units hshows
    cases units with
    | nil =>
        obtain rfl := hshows.eq_nil_iff.2 rfl
        exact .none
    | cons a units =>
        have hbracket : isPlaceholderChar '[' = false := by decide
        rcases hshows.head_cases hbracket with ⟨tail, hspan, rfl, htail⟩ | ⟨d, tail, hspan, rfl, hd⟩
        · have hfound := htail.upTo? his (show isPlaceholderChar ']' = false by decide)
          have ha : is '[' a = true := by simp [his, hspan, Span.isChar]
          simp only [linkPattern, findLink?, ha, sameChar, beq_self_eq_true, if_true]
          exact rel_bind hfound fun found read hrel => hrel.2.findUrl? his hrel.1
        · have ha : is '[' a = false := by rw [his, hspan]
          simp only [linkPattern, findLink?, ha, hd]
          exact .none

end Units

theorem Shows.afterMarker? {slots : Slots} {marker : List Char}
    (hmarker : ∀ c ∈ marker, isPlaceholderChar c = false) {text : List Char} {spans : List Span}
    (hshows : Shows slots text spans) :
    Option.Rel (Shows slots) (Markdown.afterMarker? sameChar marker text)
      (Markdown.afterMarker? Span.isChar marker spans) := by
  induction marker generalizing text spans with
  | nil => exact .some hshows
  | cons c marker ih =>
      have hc := hmarker c (by simp)
      cases spans with
      | nil =>
          obtain rfl := hshows.eq_nil_iff.2 rfl
          exact .none
      | cons span spans =>
          rcases hshows.head_cases hc with ⟨tail, rfl, rfl, htail⟩ | ⟨d, tail, hspan, rfl, hd⟩
          · simp only [Markdown.afterMarker?, sameChar, Span.isChar, beq_self_eq_true, if_true]
            exact ih (fun d hd => hmarker d (by simp [hd])) htail
          · simp only [Markdown.afterMarker?, hspan, hd]
            exact .none

theorem afterMarker?_placeholderChar {c d : Char} (hc : isPlaceholderChar c = false)
    (hd : isPlaceholderChar d = true) (marker text : List Char) :
    Markdown.afterMarker? sameChar (c :: marker) (d :: text) = none := by
  simp [Markdown.afterMarker?, sameChar_placeholderChar hc hd]

theorem upToMarker?_run {c : Char} (hc : isPlaceholderChar c = false) (marker text : List Char)
    {front : List Char} (hfront : ∀ d ∈ front, isPlaceholderChar d = true) :
    Markdown.upToMarker? sameChar (c :: marker) (front ++ slotClose :: text) =
      match Markdown.afterMarker? sameChar (c :: marker) text with
      | some rest => some (front ++ [slotClose], rest)
      | none =>
          (Markdown.upToMarker? sameChar (c :: marker) text).map fun (body, rest) =>
            (front ++ slotClose :: body, rest) := by
  have hline : ∀ d, isPlaceholderChar d = true → sameChar '\n' d = false := fun d hd =>
    sameChar_placeholderChar (by decide) hd
  have hclose : isPlaceholderChar slotClose = true := by decide
  induction front with
  | nil =>
      simp only [List.nil_append, Markdown.upToMarker?, hline slotClose hclose]
      cases Markdown.afterMarker? sameChar (c :: marker) text <;> rfl
  | cons d front ih =>
      have hd := hfront d (by simp)
      have hafter :
          Markdown.afterMarker? sameChar (c :: marker) (front ++ slotClose :: text) = none := by
        cases front with
        | nil => exact afterMarker?_placeholderChar hc hclose marker text
        | cons e front => exact afterMarker?_placeholderChar hc (hfront e (by simp)) marker _
      have htail := ih fun e he => hfront e (by simp [he])
      simp only [List.cons_append, Markdown.upToMarker?, hline d hd, hafter, htail]
      cases Markdown.afterMarker? sameChar (c :: marker) text with
      | some rest => rfl
      | none => simp [Function.comp_def]

/-- A body passes over a whole placeholder at once. -/
theorem upToMarker?_placeholder {c : Char} (hc : isPlaceholderChar c = false) (marker : List Char)
    (index : Nat) (text : List Char) :
    Markdown.upToMarker? sameChar (c :: marker) (placeholder index ++ text) =
      match Markdown.afterMarker? sameChar (c :: marker) text with
      | some rest => some (placeholder index, rest)
      | none =>
          (Markdown.upToMarker? sameChar (c :: marker) text).map fun (body, rest) =>
            (placeholder index ++ body, rest) := by
  have hfront : ∀ d ∈ slotOpen :: Nat.toDigits 10 index, isPlaceholderChar d = true := by
    intro d hd
    apply mem_placeholder
    rw [placeholder, ← List.cons_append]
    exact List.mem_append_left _ hd
  simpa [placeholder] using upToMarker?_run hc marker text hfront

theorem Shows.upToMarker? {slots : Slots} {c : Char} {marker : List Char}
    (hmarker : ∀ d ∈ c :: marker, isPlaceholderChar d = false) {text : List Char}
    {spans : List Span} (hshows : Shows slots text spans) :
    Option.Rel (fun found read => Shows slots found.1 read.1 ∧ Shows slots found.2 read.2)
      (Markdown.upToMarker? sameChar (c :: marker) text)
      (Markdown.upToMarker? Span.isChar (c :: marker) spans) := by
  induction hshows with
  | nil => exact .none
  | @char d text spans hplain htail ih =>
      have hafter := htail.afterMarker? hmarker
      cases hline : d == '\n' with
      | true =>
          simp only [Markdown.upToMarker?, sameChar, Span.isChar, hline, if_true]
          exact .none
      | false =>
          simp only [Markdown.upToMarker?, show sameChar '\n' d = false from hline,
            show (Span.char d).isChar '\n' = false from hline]
          generalize Markdown.afterMarker? sameChar (c :: marker) text = found at hafter
          generalize Markdown.afterMarker? Span.isChar (c :: marker) spans = read at hafter
          cases hafter with
          | some hrest => exact .some ⟨.char hplain .nil, hrest⟩
          | none => exact rel_map ih fun found read hrel => ⟨.char hplain hrel.1, hrel.2⟩
  | @slot index span text spans hheld hlatex htail ih =>
      have hafter := htail.afterMarker? hmarker
      have hline : span.isChar '\n' = false := Span.isChar_of_isHeld (by decide) hheld
      rw [upToMarker?_placeholder (hmarker c (by simp))]
      simp only [Markdown.upToMarker?, hline]
      generalize Markdown.afterMarker? sameChar (c :: marker) text = found at hafter
      generalize Markdown.afterMarker? Span.isChar (c :: marker) spans = read at hafter
      cases hafter with
      | some hrest =>
          have hone := Shows.slot hheld hlatex (.nil : Shows slots [] [])
          exact .some ⟨by simpa using hone, hrest⟩
      | none =>
          exact rel_map ih fun found read hrel => ⟨.slot hheld hlatex hrel.1, hrel.2⟩

theorem Style.marker_cons (style : Style) :
    ∃ c marker, style.marker = c :: marker ∧ ∀ d ∈ c :: marker, isPlaceholderChar d = false := by
  have hstar : isPlaceholderChar '*' = false := by decide
  have hunderscore : isPlaceholderChar '_' = false := by decide
  cases style with
  | boldItalic => exact ⟨'*', ['*', '*'], rfl, by simp [hstar]⟩
  | bold => exact ⟨'*', ['*'], rfl, by simp [hstar]⟩
  | star => exact ⟨'*', [], rfl, by simp [hstar]⟩
  | underscore => exact ⟨'_', [], rfl, by simp [hunderscore]⟩

theorem reads_stylePattern (style : Style) :
    Reads (id : Span → Span) (fun slots found body => Shows slots found (body.map id))
      (style.pattern sameChar) (style.pattern Span.isChar) := by
  obtain ⟨c, marker, hmarker, hplain⟩ := style.marker_cons
  constructor
  · intro d text hd
    have hopen := afterMarker?_placeholderChar (hplain c (by simp)) hd marker text
    simp [Style.pattern, hmarker, hopen]
  · intro slots text spans hshows
    simp only [List.map_id] at hshows ⊢
    simp only [Style.pattern, hmarker]
    exact rel_bind (hshows.afterMarker? hplain) fun found read hinner =>
      hinner.upToMarker? hplain

end Bindery.Markdown
