import Bindery.Markdown.Slots

namespace Bindery.Markdown

open Latex

/-! Running text as LaTeX: code spans first, then links, then emphasis from the longest marker down.
Whatever a pass has found is a single slot to the later ones, and literal text is escaped once. The
slots are put back by a resolver, which is `Slots.resolve` where only the LaTeX is asked for. -/

/-- Puts the LaTeX of slots back into a text. -/
abbrev Resolver (m : Type → Type) :=
  Slots → (List Char → List Char) → List Char → m (List Char)

section Resolver

variable {m : Type → Type} [Monad m] (resolve : Resolver m)

/-- The styles are tried one after the other over the whole text, and the body of an emphasis takes
the styles after its own. -/
def Slots.emphasizeM (slots : Slots) : List Style → List Char → m (List Char × Slots)
  | [], text => pure (text, slots)
  | style :: styles, text => do
      let (text, slots) ← slots.passM (style.pattern sameChar)
        (fun body slots => do
          let (body, slots) ← slots.emphasizeM styles body
          return (style.latex (← resolve slots escape body), slots))
        text
      slots.emphasizeM styles text

def codeSlotM (body : List Char) (slots : Slots) : m (List Char × Slots) := do
  return (codeLatex (← resolve slots id body), slots)

/-- The url goes in as it is; the label takes emphasis. -/
def linkSlotM (parts : List Char × List Char) (slots : Slots) : m (List Char × Slots) := do
  let url ← resolve slots id parts.2
  let (label, slots) ← slots.emphasizeM resolve Style.all parts.1
  return (command "href" url ++ group (← resolve slots escape label), slots)

def inlineLatexM (text : List Char) : m (List Char) := do
  let slots : Slots := #[]
  let (text, slots) := slots.protect text
  let (text, slots) ← slots.passM codePattern (codeSlotM resolve) text
  let (text, slots) ← slots.passM (linkPattern sameChar) (linkSlotM resolve) text
  let (text, slots) ← slots.emphasizeM resolve Style.all text
  resolve slots escape text

end Resolver

def Slots.emphasize (slots : Slots) (styles : List Style) (text : List Char) :
    List Char × Slots :=
  Id.run (slots.emphasizeM Slots.resolve styles text)

@[simp] theorem Slots.emphasize_nil (slots : Slots) (text : List Char) :
    slots.emphasize [] text = (text, slots) := rfl

theorem Slots.emphasize_cons (slots : Slots) (style : Style) (styles : List Style)
    (text : List Char) :
    slots.emphasize (style :: styles) text =
      let passed := slots.pass (style.pattern sameChar)
        (fun body slots =>
          let inner := slots.emphasize styles body
          (style.latex (inner.2.resolve escape inner.1), inner.2))
        text
      passed.2.emphasize styles passed.1 := rfl

def codeSlot (body : List Char) (slots : Slots) : List Char × Slots :=
  Id.run (codeSlotM Slots.resolve body slots)

theorem codeSlot_eq (body : List Char) (slots : Slots) :
    codeSlot body slots = (codeLatex (slots.resolve id body), slots) := rfl

def linkSlot (parts : List Char × List Char) (slots : Slots) : List Char × Slots :=
  Id.run (linkSlotM Slots.resolve parts slots)

theorem linkSlot_eq (parts : List Char × List Char) (slots : Slots) :
    linkSlot parts slots =
      (command "href" (slots.resolve id parts.2)
        ++ group ((slots.emphasize Style.all parts.1).2.resolve escape
          (slots.emphasize Style.all parts.1).1),
        (slots.emphasize Style.all parts.1).2) := rfl

def inlineLatex (text : List Char) : List Char :=
  Id.run (inlineLatexM Slots.resolve text)

end Bindery.Markdown
