import Bindery.Latex.Text
import Bindery.Proofs.Latex.CodeEscape

namespace Bindery.Latex

/-! Properties that LaTeX has because the pieces have it that it is put together from: commands and
environments, groups, escape sequences, and characters that are written as they are. -/

/-- What stands behind the backslash in a command of a fragment. -/
def textCommands : List String :=
  ["textbf", "textit", "texttt", "href", "chapter", "chapter*", "section", "subsection",
    "subsubsection", "hrulefill", "item "]

def textEnvironments : List String :=
  ["itemize", "lstlisting"]

def reservedChars : List Char :=
  ['\\', '&', '%', '$', '#', '_', '\x7b', '\x7d', '~', '^']

theorem isReserved_eq_true {c : Char} : isReserved c = true ↔ c ∈ reservedChars := by
  simp [isReserved, reservedChars]

/-- The pieces that are the same in every fragment. -/
def fixedPieces : List (List Char) :=
  reservedChars.map escapeChar ++ textCommands.map (fun name => '\\' :: name.toList) ++
    textEnvironments.map beginEnvironment ++ textEnvironments.map endEnvironment

/-- A property that is passed on to a whole text, provided that no special character is written as
it is. The special characters are among those that are escaped everywhere. -/
structure Composes (special : List Char) (holds : List Char → Prop) : Prop where
  special_subset : special ⊆ codeReserved
  nil : holds []
  append : ∀ {front back}, holds front → holds back → holds (front ++ back)
  group : ∀ {text}, holds text → holds (group text)
  plain : ∀ {c}, c ∉ special → holds [c]
  fixed : ∀ piece ∈ fixedPieces, holds piece

section Pieces

variable {special : List Char} {holds : List Char → Prop} (hholds : Composes special holds)

include hholds

theorem Composes.escaped {c : Char} (hc : isReserved c = true) : holds (escapeChar c) := by
  refine hholds.fixed _ ?_
  simp only [fixedPieces, List.append_assoc]
  exact List.mem_append_left _ (List.mem_map_of_mem (isReserved_eq_true.1 hc))

theorem Composes.name {name : String} (hname : name ∈ textCommands) :
    holds ('\\' :: name.toList) := by
  refine hholds.fixed _ ?_
  simp only [fixedPieces, List.append_assoc]
  exact List.mem_append_right _ (List.mem_append_left _ (List.mem_map_of_mem hname))

theorem Composes.environment {name : String} (hname : name ∈ textEnvironments) :
    holds (beginEnvironment name) ∧ holds (endEnvironment name) := by
  constructor
  · exact hholds.fixed _ (List.mem_append_left _ (List.mem_append_right _
      (List.mem_map_of_mem hname)))
  · exact hholds.fixed _ (List.mem_append_right _ (List.mem_map_of_mem hname))

theorem Composes.flatMap {α : Type} {write : α → List Char} {pieces : List α}
    (hpieces : ∀ piece ∈ pieces, holds (write piece)) : holds (pieces.flatMap write) := by
  induction pieces with
  | nil => exact hholds.nil
  | cons piece pieces ih =>
      obtain ⟨hpiece, hrest⟩ := List.forall_mem_cons.1 hpieces
      rw [List.flatMap_cons]
      exact hholds.append hpiece (ih hrest)

theorem Composes.intercalate {separator : List Char} {pieces : List (List Char)}
    (hseparator : holds separator) (hpieces : ∀ piece ∈ pieces, holds piece) :
    holds (separator.intercalate pieces) := by
  induction pieces with
  | nil => exact hholds.nil
  | cons piece pieces ih =>
      obtain ⟨hpiece, hrest⟩ := List.forall_mem_cons.1 hpieces
      cases pieces with
      | nil => rwa [List.intercalate_singleton]
      | cons next pieces =>
          rw [List.intercalate_cons_cons]
          exact hholds.append (hholds.append hpiece hseparator) (ih hrest)

theorem Composes.unreserved {c : Char} (hc : c ∉ codeReserved) : holds [c] :=
  hholds.plain fun hspecial => hc (hholds.special_subset hspecial)

/-- Characters of a class that has none of those that are escaped everywhere. -/
theorem Composes.ofClass {isMember : Char → Bool} (hclass : codeReserved.any isMember = false)
    {text : List Char} (htext : ∀ c ∈ text, isMember c = true) : holds text := by
  have hchars := hholds.flatMap fun c hc =>
    hholds.unreserved fun hcode => List.any_eq_false.1 hclass c hcode (htext c hc)
  simpa using hchars

theorem Composes.chars {text : List Char} (htext : text.all (!codeReserved.contains ·) = true) :
    holds text :=
  hholds.ofClass (by decide) (List.all_eq_true.1 htext)

theorem Composes.escape (text : List Char) : holds (escape text) := by
  refine hholds.flatMap fun c _ => ?_
  cases hreserved : isReserved c with
  | true => exact hholds.escaped hreserved
  | false =>
      rw [escapeChar_of_not_isReserved hreserved]
      refine hholds.unreserved fun hcode => ?_
      rw [isReserved_of_mem_codeReserved hcode] at hreserved
      contradiction

theorem Composes.escapeCode (code : List Char) : holds (escapeCode code) := by
  refine hholds.flatMap fun c _ => ?_
  by_cases hc : c ∈ codeReserved
  · rw [escapeCodeChar_eq_escapeChar hc]
    exact hholds.escaped (isReserved_of_mem_codeReserved hc)
  · rw [escapeCodeChar_of_not_mem hc]
    exact hholds.unreserved hc

theorem Composes.command {name : String} (hname : name ∈ textCommands) {argument : List Char}
    (hargument : holds argument) : holds (command name argument) :=
  hholds.append (hholds.name hname) (hholds.group hargument)

end Pieces

end Bindery.Latex
