import Bindery.Latex.Text
import Bindery.Proofs.Latex.Escapes

namespace Bindery.Latex

open Markdown (Pattern)

/-! Escaped code read back. The second character of an escape sequence tells which one it is, and a
backslash stands nowhere else in escaped code. -/

def codeReserved : List Char :=
  ['\\', '\x7b', '\x7d']

def codeEscapeMark (c : Char) : Char :=
  if c = '\\' then 't' else c

theorem escapeCodeChar_of_not_mem {c : Char} (hc : c ∉ codeReserved) : escapeCodeChar c = [c] := by
  unfold escapeCodeChar
  split
  · exact absurd (by decide) hc
  · exact absurd (by decide) hc
  · exact absurd (by decide) hc
  · rfl

theorem isReserved_of_mem_codeReserved {c : Char} (hc : c ∈ codeReserved) :
    isReserved c = true := by
  have hall : codeReserved.all isReserved = true := by decide
  exact List.all_eq_true.1 hall c hc

theorem escapeCodeChar_eq_escapeChar {c : Char} (hc : c ∈ codeReserved) :
    escapeCodeChar c = escapeChar c := by
  simp only [codeReserved, List.mem_cons, List.not_mem_nil, or_false] at hc
  rcases hc with rfl | rfl | rfl <;> rfl

theorem escapeCodeChar_of_mem {c : Char} (hc : c ∈ codeReserved) :
    ∃ rest, escapeCodeChar c = '\\' :: codeEscapeMark c :: rest ∧
      '\\' ∉ codeEscapeMark c :: rest := by
  simp only [codeReserved, List.mem_cons, List.not_mem_nil, or_false] at hc
  rcases hc with rfl | rfl | rfl <;> exact ⟨_, rfl, by decide⟩

theorem escapesCode : Escapes codeReserved escapeCodeChar where
  plain _ hc := escapeCodeChar_of_not_mem hc
  backslash := by decide
  begins := List.all_iff_forall_prop.1 (by decide)
  prefixFree := by decide

def findCodeEscape? (text : List Char) : Option (Char × List Char) :=
  (codeReserved.find? fun c => (escapeCodeChar c).isPrefixOf text).map fun c =>
    (c, text.drop (escapeCodeChar c).length)

def codeEscapePattern : Pattern Char Char where
  find? := findCodeEscape?
  shortens := escapesCode.shortens

def unescapeCode (text : List Char) : List Char :=
  codeEscapePattern.replace id id text

theorem unescapeCode_escapeCode (code : List Char) : unescapeCode (escapeCode code) = code :=
  escapesCode.replace_flatMap code

/-! What escaped code cannot hold. -/

theorem mem_of_mem_escapeCode {c : Char} {code : List Char}
    (hc : c ∉ codeReserved.flatMap escapeCodeChar) (hmem : c ∈ escapeCode code) : c ∈ code := by
  obtain ⟨d, hd, hdc⟩ := List.mem_flatMap.1 hmem
  by_cases hreserved : d ∈ codeReserved
  · exact absurd (List.mem_flatMap.2 ⟨d, hreserved, hdc⟩) hc
  · rw [escapeCodeChar_of_not_mem hreserved, List.mem_singleton] at hdc
    rwa [hdc]

theorem infix_of_infix_append {c d : Char} {front rest : List Char} (hfront : c ∉ front)
    (hinside : [c, d] <:+: front ++ rest) : [c, d] <:+: rest := by
  induction front with
  | nil => exact hinside
  | cons b front ih =>
      rw [List.mem_cons, not_or] at hfront
      rcases List.infix_cons_iff.1 hinside with hstart | hinside
      · exact absurd (List.cons_prefix_cons.1 hstart).1 hfront.1
      · exact ih hfront.2 hinside

/-- Behind a backslash in escaped code stands the mark of an escape sequence. -/
theorem escapeCode_backslash {d : Char} {code : List Char}
    (hinside : ['\\', d] <:+: escapeCode code) : d ∈ codeReserved.map codeEscapeMark := by
  induction code with
  | nil => simp at hinside
  | cons c code ih =>
      rw [escapeCode_cons] at hinside
      by_cases hc : c ∈ codeReserved
      · obtain ⟨rest, hescaped, hrest⟩ := escapeCodeChar_of_mem hc
        rw [hescaped] at hinside
        rcases List.infix_cons_iff.1 hinside with hstart | hinside
        · obtain rfl := (List.cons_prefix_cons.1 (List.cons_prefix_cons.1 hstart).2).1
          exact List.mem_map_of_mem hc
        · exact ih (infix_of_infix_append hrest hinside)
      · rw [escapeCodeChar_of_not_mem hc] at hinside
        have hne : c ≠ '\\' := by
          rintro rfl
          exact hc (by decide)
        exact ih (infix_of_infix_append (by simpa using hne.symm) hinside)

end Bindery.Latex
