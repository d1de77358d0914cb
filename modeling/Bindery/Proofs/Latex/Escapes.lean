import Bindery.Markdown.Scan
import Mathlib.Data.Bool.AllAny
import Mathlib.Data.List.Pairwise

namespace Bindery.Latex

open Markdown (Pattern)

/-! Escape sequences read back. Every sequence begins with a backslash, no character that is written
as it is does, and no sequence begins another one, so what is written has one reading. -/

/-- The reserved characters are written as sequences, all others as they are. -/
structure Escapes (reserved : List Char) (write : Char → List Char) : Prop where
  plain : ∀ c ∉ reserved, write c = [c]
  backslash : '\\' ∈ reserved
  begins : ∀ c ∈ reserved, (write c).head? = some '\\'
  prefixFree : reserved.Pairwise fun c d => ¬ write c <+: write d ∧ ¬ write d <+: write c

/-- The character whose sequence the text begins with, and the text behind the sequence. -/
def findSequence? (reserved : List Char) (write : Char → List Char) (text : List Char) :
    Option (Char × List Char) :=
  (reserved.find? fun c => (write c).isPrefixOf text).map fun c =>
    (c, text.drop (write c).length)

section Escapes

variable {reserved : List Char} {write : Char → List Char} (hescapes : Escapes reserved write)

include hescapes

theorem Escapes.exists_cons {c : Char} (hc : c ∈ reserved) : ∃ rest, write c = '\\' :: rest :=
  List.head?_eq_some_iff.1 (hescapes.begins c hc)

theorem Escapes.eq_of_prefix {c d : Char} (hc : c ∈ reserved) (hd : d ∈ reserved)
    {text : List Char} (hstart : write c <+: write d ++ text) : c = d := by
  have hsymm : Std.Symm fun c d => ¬ write c <+: write d ∧ ¬ write d <+: write c :=
    ⟨fun _ _ hpair => hpair.symm⟩
  by_contra hne
  obtain ⟨hcd, hdc⟩ := hescapes.prefixFree.forall hc hd hne
  have hwhole : write d <+: write d ++ text := List.prefix_append (write d) text
  exact (List.prefix_or_prefix_of_prefix hstart hwhole).elim hcd hdc

omit hescapes in
theorem findSequence?_sound {text rest : List Char} {c : Char}
    (hfound : findSequence? reserved write text = some (c, rest)) :
    c ∈ reserved ∧ text = write c ++ rest := by
  obtain ⟨d, hd, hpair⟩ := Option.map_eq_some_iff.1 hfound
  obtain ⟨rfl, rfl⟩ := Prod.mk.inj hpair
  have hstart := List.find?_some hd
  obtain ⟨rest, rfl⟩ := List.isPrefixOf_iff_prefix.1 hstart
  exact ⟨List.mem_of_find?_eq_some hd, by simp⟩

theorem Escapes.findSequence?_write {c : Char} (hc : c ∈ reserved) (text : List Char) :
    findSequence? reserved write (write c ++ text) = some (c, text) := by
  have hself : (write c).isPrefixOf (write c ++ text) = true :=
    List.isPrefixOf_iff_prefix.2 (List.prefix_append _ _)
  cases hfound : findSequence? reserved write (write c ++ text) with
  | none =>
      have hnone := List.find?_eq_none.1 (Option.map_eq_none_iff.1 hfound) c hc
      contradiction
  | some found =>
      obtain ⟨d, rest⟩ := found
      obtain ⟨hd, htext⟩ := findSequence?_sound hfound
      obtain rfl := hescapes.eq_of_prefix hd hc ⟨rest, htext.symm⟩
      rw [List.append_cancel_left htext]

theorem Escapes.findSequence?_plain {c : Char} (hc : c ∉ reserved) (text : List Char) :
    findSequence? reserved write (c :: text) = none := by
  rw [findSequence?, Option.map_eq_none_iff, List.find?_eq_none]
  intro d hd hstart
  obtain ⟨rest, hsequence⟩ := hescapes.exists_cons hd
  rw [List.isPrefixOf_iff_prefix, hsequence, List.cons_prefix_cons] at hstart
  exact hc (hstart.1 ▸ hescapes.backslash)

theorem Escapes.shortens {text rest : List Char} {c : Char}
    (hfound : findSequence? reserved write text = some (c, rest)) : rest.length < text.length := by
  obtain ⟨hc, rfl⟩ := findSequence?_sound hfound
  obtain ⟨behind, hsequence⟩ := hescapes.exists_cons hc
  rw [hsequence, List.length_append, List.length_cons]
  omega

def Escapes.pattern : Pattern Char Char where
  find? := findSequence? reserved write
  shortens := hescapes.shortens

theorem Escapes.replace_write (c : Char) (text : List Char) :
    hescapes.pattern.replace id id (write c ++ text) =
      c :: hescapes.pattern.replace id id text := by
  by_cases hc : c ∈ reserved
  · obtain ⟨rest, hsequence⟩ := hescapes.exists_cons hc
    have hfound := hescapes.findSequence?_write hc text
    rw [hsequence] at hfound ⊢
    exact Pattern.replace_cons_some hfound
  · rw [hescapes.plain c hc]
    exact Pattern.replace_cons_none (hescapes.findSequence?_plain hc text)

theorem Escapes.replace_flatMap (text : List Char) :
    hescapes.pattern.replace id id (text.flatMap write) = text := by
  induction text with
  | nil => exact Pattern.replace_nil
  | cons c text ih => rw [List.flatMap_cons, hescapes.replace_write, ih]

end Escapes

end Bindery.Latex
