import Bindery.Markdown.Pattern

namespace Bindery.Markdown

/-! Finished LaTeX held out of a working text. A slot stands in the text as its number between two
private-use characters, so that a pattern can match around it and never inside it. -/

def slotOpen : Char := '\ue000'

def slotClose : Char := '\ue001'

def isSlotMark (c : Char) : Bool :=
  c == slotOpen || c == slotClose

/-- The LaTeX of the slots, in the order of their numbers. -/
abbrev Slots := Array (List Char)

def placeholder (index : Nat) : List Char :=
  slotOpen :: (Nat.toDigits 10 index ++ [slotClose])

def Slots.store (slots : Slots) (latex : List Char) : List Char × Slots :=
  (placeholder slots.size, slots.push latex)

/-- The number in decimal digits between two slot marks; a plus sign may stand before it. -/
def slotIndex? (text : List Char) : Option Nat :=
  let digits := if text.head? = some '+' then text.tail else text
  if digits.isEmpty || !digits.all Char.isDigit then none
  else some (Nat.ofDigitChars 10 digits 0)

/-- The text in front of the first slot and what stands between its marks, and the text behind. -/
def findSlot? (text : List Char) : Option ((List Char × List Char) × List Char) :=
  (cutAt? (· == slotOpen) text).bind fun (front, behind) =>
    (cutAt? (· == slotClose) behind).map fun (number, rest) => ((front, number), rest)

def slotPattern : Pattern Char (List Char × List Char) where
  find? := findSlot?
  shortens hfound := by
    obtain ⟨⟨front, behind⟩, hopen, hslot⟩ := Option.bind_eq_some_iff.1 hfound
    obtain ⟨⟨number, rest⟩, hclose, hpair⟩ := Option.map_eq_some_iff.1 hslot
    obtain ⟨_, rfl⟩ := Prod.mk.inj hpair
    exact Nat.lt_trans (cutAt?_length hclose) (cutAt?_length hopen)

/-- Puts the LaTeX of the slots back and passes the text between them through `literal`. A slot that
is not closed ends the search, and a number without a slot leaves nothing. -/
def Slots.resolve (slots : Slots) (literal : List Char → List Char) (text : List Char) :
    List Char :=
  match _ : slotPattern.find? text with
  | none => literal text
  | some ((front, number), rest) =>
      literal front ++ ((slotIndex? number).bind (slots[·]?)).getD []
        ++ slots.resolve literal rest
  termination_by text.length
  decreasing_by exact slotPattern.shortens (by assumption)

theorem Slots.resolve_of_none {slots : Slots} {literal : List Char → List Char} {text : List Char}
    (hslot : findSlot? text = none) : slots.resolve literal text = literal text := by
  rw [Slots.resolve]
  split <;> simp_all [slotPattern]

theorem Slots.resolve_of_some {slots : Slots} {literal : List Char → List Char}
    {text front number rest : List Char} (hslot : findSlot? text = some ((front, number), rest)) :
    slots.resolve literal text =
      literal front ++ ((slotIndex? number).bind (slots[·]?)).getD []
        ++ slots.resolve literal rest := by
  rw [Slots.resolve]
  split <;> simp_all [slotPattern]

/-- A match of a pattern, or a character outside all of them. -/
inductive Cut (α : Type)
  | found (capture : α)
  | kept (c : Char)

def cuts (pattern : Pattern Char α) (text : List Char) : List (Cut α) :=
  pattern.replace .found .kept text

/-- Writes each match as one slot. Finding its LaTeX may take slots of its own, and may have effects
besides. -/
def Slots.writeM [Monad m] (latex : α → Slots → m (List Char × Slots)) (slots : Slots) :
    List (Cut α) → m (List Char × Slots)
  | [] => pure ([], slots)
  | .kept c :: cuts => do
      let (text, slots) ← slots.writeM latex cuts
      return (c :: text, slots)
  | .found capture :: cuts => do
      let (markup, slots) ← latex capture slots
      let (mark, slots) := slots.store markup
      let (text, slots) ← slots.writeM latex cuts
      return (mark ++ text, slots)

def Slots.passM [Monad m] (slots : Slots) (pattern : Pattern Char α)
    (latex : α → Slots → m (List Char × Slots)) (text : List Char) : m (List Char × Slots) :=
  slots.writeM latex (cuts pattern text)

def Slots.write (latex : α → Slots → List Char × Slots) (slots : Slots) (cuts : List (Cut α)) :
    List Char × Slots :=
  Id.run (slots.writeM latex cuts)

def Slots.pass (slots : Slots) (pattern : Pattern Char α)
    (latex : α → Slots → List Char × Slots) (text : List Char) : List Char × Slots :=
  Id.run (slots.passM pattern latex text)

@[simp] theorem Slots.write_nil (slots : Slots) (latex : α → Slots → List Char × Slots) :
    slots.write latex [] = ([], slots) := rfl

@[simp] theorem Slots.write_cons_kept (slots : Slots) (latex : α → Slots → List Char × Slots)
    (c : Char) (cuts : List (Cut α)) :
    slots.write latex (.kept c :: cuts) =
      (c :: (slots.write latex cuts).1, (slots.write latex cuts).2) := rfl

theorem Slots.write_cons_found (slots : Slots) (latex : α → Slots → List Char × Slots)
    (capture : α) (cuts : List (Cut α)) :
    slots.write latex (.found capture :: cuts) =
      let markup := latex capture slots
      let stored := markup.2.store markup.1
      let written := stored.2.write latex cuts
      (stored.1 ++ written.1, written.2) := rfl

def findSlotMark? : List Char → Option (Char × List Char)
  | [] => none
  | c :: text => if isSlotMark c then some (c, text) else none

def slotMarkPattern : Pattern Char Char where
  find? := findSlotMark?
  shortens {text} _ _ hfound := by
    cases text with
    | nil => simp [findSlotMark?] at hfound
    | cons c text =>
        simp only [findSlotMark?] at hfound
        split at hfound
        · cases hfound
          simp
        · contradiction

/-- Moves the slot marks of a text into slots of their own. -/
def Slots.protect (slots : Slots) (text : List Char) : List Char × Slots :=
  slots.pass slotMarkPattern (fun c slots => ([c], slots)) text

end Bindery.Markdown
