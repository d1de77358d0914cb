import Bindery.Markdown.Inline

namespace Bindery.Markdown

open Latex

/-! A working text shows a list of spans: a character that patterns may read stands for itself, and
every other span stands in a slot that holds its LaTeX. -/

theorem isSlotMark_escapeChar {c : Char} (hmark : isSlotMark c = true) : escapeChar c = [c] := by
  simp only [isSlotMark, Bool.or_eq_true, beq_iff_eq] at hmark
  rcases hmark with rfl | rfl <;> rfl

def isPlaceholderChar (c : Char) : Bool :=
  isSlotMark c || c.isDigit

theorem mem_placeholder {c : Char} {index : Nat} (hc : c ∈ placeholder index) :
    isPlaceholderChar c = true := by
  simp only [placeholder, List.mem_cons, List.mem_append, List.not_mem_nil, or_false] at hc
  rcases hc with rfl | hdigit | rfl
  · rfl
  · simp [isPlaceholderChar, Nat.isDigit_of_mem_toDigits (by decide) (by decide) hdigit]
  · rfl

theorem placeholder_ne_nil (index : Nat) : placeholder index ≠ [] := by
  simp [placeholder]

theorem slotIndex?_digits {digits : List Char} (hsome : digits ≠ [])
    (hdigits : ∀ c ∈ digits, c.isDigit = true) :
    slotIndex? digits = some (Nat.ofDigitChars 10 digits 0) := by
  have hhead : digits.head? ≠ some '+' := by
    intro hplus
    have hdigit := hdigits '+' (List.mem_of_head? hplus)
    contradiction
  have hall : digits.all Char.isDigit = true := List.all_eq_true.2 hdigits
  simp [slotIndex?, hhead, hall, hsome]

@[simp] theorem slotIndex?_toDigits (index : Nat) :
    slotIndex? (Nat.toDigits 10 index) = some index := by
  have hdigits : ∀ c ∈ Nat.toDigits 10 index, c.isDigit = true := fun c hc =>
    Nat.isDigit_of_mem_toDigits (by decide) (by decide) hc
  simp [slotIndex?_digits Nat.toDigits_ne_nil hdigits]

theorem findSlot?_cons {c : Char} (text : List Char) (hc : isSlotMark c = false) :
    findSlot? (c :: text) =
      (findSlot? text).map fun ((front, number), rest) => ((c :: front, number), rest) := by
  have hopen : (c == slotOpen) = false := by
    simp only [isSlotMark, Bool.or_eq_false_iff] at hc
    exact hc.1
  simp only [findSlot?, cutAt?, hopen]
  cases cutAt? (· == slotOpen) text with
  | none => rfl
  | some cut =>
      cases hclose : cutAt? (· == slotClose) cut.2 with
      | none => simp [hclose]
      | some slot => simp [hclose]

theorem findSlot?_of_not_mem {text : List Char} (hnone : slotOpen ∉ text) :
    findSlot? text = none := by
  rw [findSlot?, Option.bind_eq_none_iff]
  rintro ⟨front, behind⟩ hcut
  obtain ⟨-, c, hc, rfl⟩ := cutAt?_sound hcut
  simp [eq_of_beq hc] at hnone

theorem findSlot?_of_marked {front digits : List Char} (hfront : slotOpen ∉ front)
    (hdigits : ∀ c ∈ digits, c.isDigit = true) (rest : List Char) :
    findSlot? (front ++ slotOpen :: (digits ++ slotClose :: rest)) =
      some ((front, digits), rest) := by
  have hopen : cutAt? (· == slotOpen) (front ++ slotOpen :: (digits ++ slotClose :: rest)) =
      some (front, digits ++ slotClose :: rest) :=
    cutAt?_complete _ (fun c hc => beq_false_of_ne (ne_of_mem_of_not_mem hc hfront))
      (beq_self_eq_true slotOpen)
  have hclose : cutAt? (· == slotClose) (digits ++ slotClose :: rest) = some (digits, rest) := by
    refine cutAt?_complete _ (fun c hc => beq_false_of_ne fun hmark => ?_)
      (beq_self_eq_true slotClose)
    have hdigit := hdigits c hc
    rw [hmark] at hdigit
    contradiction
  simp [findSlot?, hopen, hclose]

theorem findSlot?_placeholder (index : Nat) (text : List Char) :
    findSlot? (placeholder index ++ text) = some (([], Nat.toDigits 10 index), text) := by
  have hdigits : ∀ c ∈ Nat.toDigits 10 index, c.isDigit = true := fun c hc =>
    Nat.isDigit_of_mem_toDigits (by decide) (by decide) hc
  simpa [placeholder] using findSlot?_of_marked List.not_mem_nil hdigits text

theorem Slots.resolve_nil (slots : Slots) (write : Char → List Char) :
    slots.resolve (·.flatMap write) [] = [] :=
  Slots.resolve_of_none rfl

theorem Slots.resolve_cons (slots : Slots) (write : Char → List Char) {c : Char}
    (text : List Char) (hc : isSlotMark c = false) :
    slots.resolve (·.flatMap write) (c :: text) =
      write c ++ slots.resolve (·.flatMap write) text := by
  have hcons := findSlot?_cons text hc
  cases hslot : findSlot? text with
  | none =>
      rw [Slots.resolve_of_none hslot, Slots.resolve_of_none (by rw [hcons, hslot]; rfl)]
      rfl
  | some slot =>
      obtain ⟨⟨front, number⟩, rest⟩ := slot
      rw [hslot] at hcons
      rw [Slots.resolve_of_some hslot, Slots.resolve_of_some hcons]
      simp

theorem Slots.resolve_placeholder (slots : Slots) (write : Char → List Char) (index : Nat)
    (text : List Char) :
    slots.resolve (·.flatMap write) (placeholder index ++ text) =
      slots[index]?.getD [] ++ slots.resolve (·.flatMap write) text := by
  rw [Slots.resolve_of_some (findSlot?_placeholder index text)]
  simp

/-! Slots are only ever added. -/

def Slots.Extends (slots more : Slots) : Prop :=
  ∀ (index : Nat) (latex : List Char), slots[index]? = some latex → more[index]? = some latex

theorem Slots.Extends.refl (slots : Slots) : slots.Extends slots :=
  fun _ _ hheld => hheld

theorem Slots.Extends.trans {first second third : Slots} (hfirst : first.Extends second)
    (hsecond : second.Extends third) : first.Extends third :=
  fun index latex hheld => hsecond index latex (hfirst index latex hheld)

theorem Slots.extends_push (slots : Slots) (latex : List Char) :
    slots.Extends (slots.push latex) := by
  intro index held hheld
  have hindex : index < slots.size := (Array.getElem?_eq_some_iff.1 hheld).1
  rw [Array.getElem?_push_lt hindex]
  simpa [Array.getElem?_eq_getElem hindex] using hheld

/-- Whether a span stands in a slot. Of the characters, those that mark slots do. -/
def Span.isHeld : Span → Bool
  | .char c => isSlotMark c
  | _ => true

inductive Shows (slots : Slots) : List Char → List Span → Prop
  | nil : Shows slots [] []
  | char {c : Char} {text : List Char} {spans : List Span} (hplain : isSlotMark c = false)
      (htail : Shows slots text spans) : Shows slots (c :: text) (.char c :: spans)
  | slot {index : Nat} {span : Span} {text : List Char} {spans : List Span}
      (hheld : span.isHeld = true) (hlatex : slots[index]? = some span.latex)
      (htail : Shows slots text spans) :
      Shows slots (placeholder index ++ text) (span :: spans)

theorem Shows.mono {slots more : Slots} (hmore : slots.Extends more) {text : List Char}
    {spans : List Span} (hshows : Shows slots text spans) : Shows more text spans := by
  induction hshows with
  | nil => exact .nil
  | char hplain _ ih => exact .char hplain ih
  | slot hheld hlatex _ ih => exact .slot hheld (hmore _ _ hlatex) ih

theorem Shows.append {slots : Slots} {front back : List Char} {first second : List Span}
    (hfront : Shows slots front first) (hback : Shows slots back second) :
    Shows slots (front ++ back) (first ++ second) := by
  induction hfront with
  | nil => exact hback
  | char hplain _ ih => exact .char hplain ih
  | slot hheld hlatex _ ih =>
      rw [List.append_assoc]
      exact .slot hheld hlatex ih

theorem Shows.stored (slots : Slots) {span : Span} (hheld : span.isHeld = true) :
    Shows (slots.push span.latex) (placeholder slots.size) [span] := by
  have hslot : Shows (slots.push span.latex) (placeholder slots.size ++ []) [span] :=
    .slot hheld (by simp) .nil
  simpa using hslot

/-- What is printed for a span where characters are written as `write` says. -/
def Span.printed (write : Char → List Char) : Span → List Char
  | .char c => if isSlotMark c then [c] else write c
  | span => span.latex

theorem Shows.resolve {slots : Slots} (write : Char → List Char) {text : List Char}
    {spans : List Span} (hshows : Shows slots text spans) :
    slots.resolve (·.flatMap write) text = spans.flatMap (Span.printed write) := by
  induction hshows with
  | nil => exact slots.resolve_nil write
  | char hplain _ ih =>
      rw [slots.resolve_cons write _ hplain, ih]
      simp [Span.printed, hplain]
  | @slot index span _ _ hheld hlatex _ ih =>
      have hprinted : span.printed write = span.latex := by
        cases span with
        | char c =>
            have hmark : isSlotMark c = true := hheld
            simp [Span.printed, hmark, isSlotMark_escapeChar hmark]
        | code _ | link _ _ | styled _ _ => rfl
      rw [slots.resolve_placeholder, ih, hlatex]
      simp [hprinted]

theorem Shows.resolve_escape {slots : Slots} {text : List Char} {spans : List Span}
    (hshows : Shows slots text spans) : slots.resolve escape text = Span.allLatex spans := by
  have hprinted : Span.printed escapeChar = Span.latex := by
    funext span
    cases span with
    | char c =>
        simp only [Span.printed, Span.latex_char]
        split
        · rename_i hmark
          rw [isSlotMark_escapeChar hmark]
        · rfl
    | code _ | link _ _ | styled _ _ => rfl
  rw [Span.allLatex_eq_flatMap, ← hprinted]
  exact hshows.resolve escapeChar

theorem Shows.resolve_url {slots : Slots} {text : List Char} {pieces : List Piece}
    (hshows : Shows slots text (pieces.map Span.ofPiece)) :
    slots.resolve id text = pieces.flatMap Piece.urlLatex := by
  have hid : (id : List Char → List Char) = (·.flatMap ([·])) := by
    funext text
    simp
  have hprinted : ∀ piece : Piece,
      (Span.ofPiece piece).printed ([·]) = piece.urlLatex := by
    intro piece
    cases piece with
    | char c => simp [Span.ofPiece, Span.printed, Piece.urlLatex]
    | code body => simp [Span.ofPiece, Span.printed, Span.latex, Piece.urlLatex]
  rw [hid, hshows.resolve, List.flatMap_map]
  simp only [hprinted]

end Bindery.Markdown
