import Bindery.Proofs.Latex.Composition
import Mathlib.Data.List.Infix

namespace Bindery.Latex

/-! Where marks stand in a text. A mark begins with a backslash, so a piece of text that does not
end in the beginning of a mark adds the same marks in front of whatever follows it. -/

/-- The marks that stand in a text, one after the other by their places. -/
def occurrences (marks : List String) : List Char → List String
  | [] => []
  | c :: text => marks.filter (·.toList.isPrefixOf (c :: text)) ++ occurrences marks text

/-- Whatever follows the text, it adds these marks in front. -/
def Adds (marks : List String) (text : List Char) (found : List String) : Prop :=
  ∀ rest, occurrences marks (text ++ rest) = found ++ occurrences marks rest

theorem occurrences_filter (marks : List String) (keep : String → Bool) (text : List Char) :
    occurrences (marks.filter keep) text = (occurrences marks text).filter keep := by
  induction text with
  | nil => rfl
  | cons c text ih =>
      rw [occurrences, occurrences, List.filter_append, ih, List.filter_filter, List.filter_filter]
      simp only [Bool.and_comm]

theorem Adds.nil (marks : List String) : Adds marks [] [] :=
  fun _ => rfl

theorem Adds.append {marks : List String} {front back : List Char} {first second : List String}
    (hfront : Adds marks front first) (hback : Adds marks back second) :
    Adds marks (front ++ back) (first ++ second) := by
  intro rest
  rw [List.append_assoc, hfront, hback, List.append_assoc]

theorem Adds.occurrences_eq {marks : List String} {text : List Char} {found : List String}
    (htext : Adds marks text found) : occurrences marks text = found := by
  have hall := htext []
  rwa [List.append_nil, occurrences, List.append_nil] at hall

/-- The ends of a text that begin with a backslash. -/
def commandTails (text : List Char) : List (List Char) :=
  text.tails.filter (·.head? = some '\\')

/-- The marks of a text by its commands, none of which is the beginning of a longer mark. -/
def Settles (marks : List String) (text : List Char) (found : List String) : Prop :=
  (∀ tail ∈ commandTails text, ∀ mark ∈ marks, tail <+: mark.toList → tail = mark.toList) ∧
    (commandTails text).flatMap (fun tail => marks.filter (·.toList.isPrefixOf tail)) = found

instance (marks : List String) (text : List Char) (found : List String) :
    Decidable (Settles marks text found) :=
  inferInstanceAs (Decidable ((∀ tail ∈ commandTails text, _) ∧ _))

theorem commandTails_cons_backslash (text : List Char) :
    commandTails ('\\' :: text) = ('\\' :: text) :: commandTails text := by
  simp [commandTails]

theorem commandTails_cons {c : Char} (hc : c ≠ '\\') (text : List Char) :
    commandTails (c :: text) = commandTails text := by
  simp [commandTails, hc]

section Marks

variable {marks : List String} (hmarks : ∀ mark ∈ marks, mark.toList.head? = some '\\')

include hmarks

theorem adds_char {c : Char} (hc : c ≠ '\\') : Adds marks [c] [] := by
  intro rest
  have hnone : marks.filter (·.toList.isPrefixOf (c :: rest)) = [] := by
    refine List.filter_eq_nil_iff.2 fun mark hmark hstart => ?_
    obtain ⟨name, hname⟩ := List.head?_eq_some_iff.1 (hmarks mark hmark)
    rw [hname, List.isPrefixOf_iff_prefix, List.cons_prefix_cons] at hstart
    exact hc hstart.1.symm
  rw [List.singleton_append, occurrences, hnone]

omit hmarks in
theorem isPrefixOf_append {text : List Char}
    (htext : ∀ mark ∈ marks, text <+: mark.toList → text = mark.toList) {mark : String}
    (hmark : mark ∈ marks) (rest : List Char) :
    mark.toList.isPrefixOf (text ++ rest) = mark.toList.isPrefixOf text := by
  rw [Bool.eq_iff_iff, List.isPrefixOf_iff_prefix, List.isPrefixOf_iff_prefix]
  constructor
  · intro hlonger
    rcases List.prefix_or_prefix_of_prefix hlonger (List.prefix_append text rest) with hin | hpast
    · exact hin
    · rw [← htext mark hmark hpast]
  · exact fun hin => hin.trans (List.prefix_append text rest)

theorem Settles.adds {text : List Char} {found : List String}
    (htext : Settles marks text found) : Adds marks text found := by
  obtain ⟨htails, rfl⟩ := htext
  induction text with
  | nil => exact Adds.nil marks
  | cons c text ih =>
      by_cases hc : c = '\\'
      · subst hc
        rw [commandTails_cons_backslash] at htails ⊢
        obtain ⟨hfirst, hrest⟩ := List.forall_mem_cons.1 htails
        intro rest
        have hhere := List.filter_congr fun mark hmark => isPrefixOf_append hfirst hmark rest
        have hbehind := ih hrest rest
        rw [List.cons_append] at hhere ⊢
        rw [occurrences, hhere, hbehind, List.flatMap_cons, List.append_assoc]
      · rw [commandTails_cons hc] at htails ⊢
        exact (adds_char hmarks hc).append (ih htails)

end Marks

end Bindery.Latex
