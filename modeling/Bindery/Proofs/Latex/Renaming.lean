import Bindery.Proofs.Latex.Composition
import Bindery.Text.Classes

namespace Bindery

open Latex Text

/-! Characters outside ASCII under other names. All that a text is read for in such a character is
whether it is white space and whether it belongs to a word. -/

def isAscii (c : Char) : Bool :=
  c.toNat < 128

structure IsRenaming (r : Char → Char) : Prop where
  ascii : ∀ c, isAscii c = true → r c = c
  foreign : ∀ c, isAscii c = false → isAscii (r c) = false
  blank : ∀ c, isBlank (r c) = isBlank c
  word : ∀ c, isWord (r c) = isWord c

/-- Characters of which a text is told nothing; the private-use ones are among them. -/
structure IsMute (c : Char) : Prop where
  foreign : isAscii c = false
  blank : isBlank c = false
  word : isWord c = false

theorem isRenaming_of_isMute {r : Char → Char} (hr : ∀ c, r c = c ∨ IsMute c ∧ IsMute (r c)) :
    IsRenaming r where
  ascii c hc := by
    rcases hr c with hsame | ⟨hmute, _⟩
    · exact hsame
    · exact absurd hc (Bool.eq_false_iff.1 hmute.foreign)
  foreign c hc := by
    rcases hr c with hsame | ⟨_, hmute⟩
    · rwa [hsame]
    · exact hmute.foreign
  blank c := by
    rcases hr c with hsame | ⟨hbefore, hafter⟩
    · rw [hsame]
    · rw [hbefore.blank, hafter.blank]
  word c := by
    rcases hr c with hsame | ⟨hbefore, hafter⟩
    · rw [hsame]
    · rw [hbefore.word, hafter.word]

theorem isAscii_of_isReserved {c : Char} (hc : isReserved c = true) : isAscii c = true := by
  have hall : reservedChars.all isAscii = true := by decide
  exact List.all_eq_true.1 hall c (isReserved_eq_true.1 hc)

theorem all_isAscii_escapeChar {c : Char} (hc : isAscii c = true) :
    (escapeChar c).all isAscii = true := by
  unfold escapeChar
  split
  · decide
  · decide
  · decide
  · have hbackslash : isAscii '\\' = true := by decide
    split <;> simp [hc, hbackslash]

theorem all_isAscii_escapeCodeChar {c : Char} (hc : isAscii c = true) :
    (escapeCodeChar c).all isAscii = true := by
  by_cases hcode : c ∈ codeReserved
  · rw [escapeCodeChar_eq_escapeChar hcode]
    exact all_isAscii_escapeChar hc
  · rw [escapeCodeChar_of_not_mem hcode]
    simp [hc]

section Renaming

variable {r : Char → Char} (hr : IsRenaming r)

include hr

theorem IsRenaming.eq_iff {c : Char} (hc : isAscii c = true) (d : Char) : r d = c ↔ d = c := by
  constructor
  · rintro rfl
    cases hd : isAscii d with
    | true => exact (hr.ascii d hd).symm
    | false => exact absurd hc (Bool.eq_false_iff.1 (hr.foreign d hd))
  · rintro rfl
    exact hr.ascii d hc

theorem IsRenaming.beq {c : Char} (hc : isAscii c = true) (d : Char) : (r d == c) = (d == c) := by
  rw [Bool.eq_iff_iff, beq_iff_eq, beq_iff_eq, hr.eq_iff hc]

theorem IsRenaming.map_ascii {text : List Char} (htext : text.all isAscii = true) :
    text.map r = text := by
  have hsame : ∀ c ∈ text, r c = id c := fun c hc => hr.ascii c (List.all_eq_true.1 htext c hc)
  rw [List.map_congr_left hsame, List.map_id]

theorem IsRenaming.map_front (front : List Char) (hfront : front.all isAscii = true)
    (text : List Char) : (front ++ text).map r = front ++ text.map r := by
  rw [List.map_append, hr.map_ascii hfront]

/-- A text begins in ASCII under other names where it does so under its own. -/
theorem IsRenaming.map_eq_append (front : List Char) (hfront : front.all isAscii = true)
    {text rest : List Char} :
    text.map r = front ++ rest ↔ ∃ tail, text = front ++ tail ∧ tail.map r = rest := by
  constructor
  · intro htext
    induction front generalizing text with
    | nil => exact ⟨text, rfl, htext⟩
    | cons c front ih =>
        rw [List.all_cons, Bool.and_eq_true] at hfront
        obtain ⟨d, text, rfl, hd, hrest⟩ := List.map_eq_cons_iff.1 htext
        obtain rfl := (hr.eq_iff hfront.1 d).1 hd
        obtain ⟨tail, rfl, htail⟩ := ih hfront.2 hrest
        exact ⟨tail, rfl, htail⟩
  · rintro ⟨tail, rfl, rfl⟩
    exact hr.map_front front hfront tail

theorem IsRenaming.map_eq_ascii {text found : List Char} (hfound : found.all isAscii = true) :
    text.map r = found ↔ text = found := by
  rw [← List.append_nil found, hr.map_eq_append found hfound]
  simp

theorem IsRenaming.blank_comp : isBlank ∘ r = isBlank :=
  funext hr.blank

theorem IsRenaming.word_comp : isWord ∘ r = isWord :=
  funext hr.word

theorem IsRenaming.beq_comp {c : Char} (hc : isAscii c = true) : (· == c) ∘ r = (· == c) :=
  funext (hr.beq hc)

theorem IsRenaming.trimStart_map (text : List Char) :
    trimStart (text.map r) = (trimStart text).map r := by
  rw [trimStart, List.dropWhile_map, hr.blank_comp, trimStart]

theorem IsRenaming.trim_map (text : List Char) : trim (text.map r) = (trim text).map r := by
  simp only [trim, hr.trimStart_map, ← List.map_reverse]

/-! LaTeX. -/

/-- Where ASCII is written in ASCII, and any other character as it is. -/
theorem IsRenaming.flatMap_map {write : Char → List Char}
    (hascii : ∀ c, isAscii c = true → (write c).all isAscii = true)
    (hforeign : ∀ c, isAscii c = false → write c = [c]) (text : List Char) :
    (text.map r).flatMap write = (text.flatMap write).map r := by
  rw [List.flatMap_map, List.map_flatMap]
  congr 1
  funext c
  cases hc : isAscii c with
  | true => rw [hr.ascii c hc, hr.map_ascii (hascii c hc)]
  | false => rw [hforeign c hc, hforeign (r c) (hr.foreign c hc), List.map_singleton]

theorem IsRenaming.escape_map (text : List Char) : escape (text.map r) = (escape text).map r := by
  refine hr.flatMap_map (fun c => all_isAscii_escapeChar) (fun c hc => ?_) text
  refine escapeChar_of_not_isReserved (Bool.eq_false_iff.2 fun hreserved => ?_)
  exact Bool.eq_false_iff.1 hc (isAscii_of_isReserved hreserved)

theorem IsRenaming.escapeCode_map (code : List Char) :
    escapeCode (code.map r) = (escapeCode code).map r := by
  refine hr.flatMap_map (fun c => all_isAscii_escapeCodeChar) (fun c hc => ?_) code
  refine escapeCodeChar_of_not_mem fun hcode => Bool.eq_false_iff.1 hc ?_
  exact isAscii_of_isReserved (isReserved_of_mem_codeReserved hcode)

theorem IsRenaming.group_map (text : List Char) : group (text.map r) = (group text).map r := by
  have hopen : r '\x7b' = '\x7b' := hr.ascii _ (by decide)
  have hclose : r '\x7d' = '\x7d' := hr.ascii _ (by decide)
  simp [group, hopen, hclose]

theorem IsRenaming.command_map {name : String} (hname : name.toList.all isAscii = true)
    (argument : List Char) :
    command name (argument.map r) = (command name argument).map r := by
  have hbackslash : r '\\' = '\\' := hr.ascii _ (by decide)
  rw [command, hr.group_map, command, List.map_append, List.map_cons, hbackslash,
    hr.map_ascii hname]

end Renaming

end Bindery
