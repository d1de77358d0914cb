import Bindery.Proofs.Latex.Composition

namespace Bindery.Latex

/-! Escaped text read back. Every concatenation of unreserved characters and escape sequences is the
escaped form of exactly one text. -/

/-- What stands for a reserved character, in the order of `reservedChars`. -/
def escapeSequences : List String :=
  ["\\textbackslash\x7b\x7d", "\\&", "\\%", "\\$", "\\#", "\\_", "\\\x7b", "\\\x7d",
    "\\textasciitilde\x7b\x7d", "\\textasciicircum\x7b\x7d"]

inductive IsEscaped : List Char → Prop
  | nil : IsEscaped []
  | char {c : Char} {latex : List Char} (hc : isReserved c = false) (htail : IsEscaped latex) :
      IsEscaped (c :: latex)
  | sequence {name : String} {latex : List Char} (hname : name ∈ escapeSequences)
      (htail : IsEscaped latex) : IsEscaped (name.toList ++ latex)

theorem isReserved_eq_false {c : Char} : isReserved c = false ↔ c ∉ reservedChars := by
  rw [← isReserved_eq_true, Bool.not_eq_true]

theorem escapesText : Escapes reservedChars escapeChar where
  plain _ hc := escapeChar_of_not_isReserved (isReserved_eq_false.2 hc)
  backslash := by decide
  begins := List.all_iff_forall_prop.1 (by decide)
  prefixFree := by decide

def unescape (latex : List Char) : List Char :=
  escapesText.pattern.replace id id latex

theorem unescape_escapeChar (c : Char) (latex : List Char) :
    unescape (escapeChar c ++ latex) = c :: unescape latex :=
  escapesText.replace_write c latex

theorem unescape_escape (text : List Char) : unescape (escape text) = text :=
  escapesText.replace_flatMap text

/-! The escaped texts. -/

theorem escapeSequences_eq : escapeSequences.map String.toList = reservedChars.map escapeChar := by
  decide

theorem mem_escapeSequences {c : Char} (hc : isReserved c = true) :
    ∃ name ∈ escapeSequences, name.toList = escapeChar c := by
  have hmem : escapeChar c ∈ escapeSequences.map String.toList := by
    rw [escapeSequences_eq]
    exact List.mem_map_of_mem (isReserved_eq_true.1 hc)
  exact List.mem_map.1 hmem

theorem exists_of_mem_escapeSequences {name : String} (hname : name ∈ escapeSequences) :
    ∃ c, escapeChar c = name.toList := by
  have hmem : name.toList ∈ reservedChars.map escapeChar := by
    rw [← escapeSequences_eq]
    exact List.mem_map_of_mem hname
  obtain ⟨c, -, hsequence⟩ := List.mem_map.1 hmem
  exact ⟨c, hsequence⟩

theorem isEscaped_escape (text : List Char) : IsEscaped (escape text) := by
  induction text with
  | nil => exact .nil
  | cons c text ih =>
      rw [escape_cons]
      cases hreserved : isReserved c with
      | true =>
          obtain ⟨name, hname, hsequence⟩ := mem_escapeSequences hreserved
          rw [← hsequence]
          exact .sequence hname ih
      | false =>
          rw [escapeChar_of_not_isReserved hreserved]
          exact .char hreserved ih

theorem IsEscaped.escape_unescape {latex : List Char} (hlatex : IsEscaped latex) :
    escape (unescape latex) = latex := by
  have hone : ∀ (c : Char) {tail : List Char}, escape (unescape tail) = tail →
      escape (unescape (escapeChar c ++ tail)) = escapeChar c ++ tail := by
    intro c tail htail
    rw [unescape_escapeChar, escape_cons, htail]
  induction hlatex with
  | nil =>
      rw [show unescape [] = [] from unescape_escape []]
      rfl
  | @char c latex hc _ ih =>
      have hstep := hone c ih
      rwa [escapeChar_of_not_isReserved hc] at hstep
  | @sequence name latex hname _ ih =>
      obtain ⟨c, hsequence⟩ := exists_of_mem_escapeSequences hname
      rw [← hsequence]
      exact hone c ih

/-! Only a text without reserved characters is its own escaped form. -/

theorem one_lt_length_escapeChar {c : Char} (hc : isReserved c = true) :
    1 < (escapeChar c).length := by
  have hall : ∀ d ∈ reservedChars, 1 < (escapeChar d).length :=
    List.all_iff_forall_prop.1 (by decide)
  exact hall c (isReserved_eq_true.1 hc)

theorem length_le_escape (text : List Char) : text.length ≤ (escape text).length := by
  induction text with
  | nil => exact Nat.le_refl 0
  | cons c text ih =>
      have hone : 1 ≤ (escapeChar c).length := by
        cases hreserved : isReserved c with
        | true => exact Nat.le_of_lt (one_lt_length_escapeChar hreserved)
        | false => simp [escapeChar_of_not_isReserved hreserved]
      rw [escape_cons, List.length_append, List.length_cons]
      omega

theorem escape_eq_self_iff {text : List Char} :
    escape text = text ↔ ∀ c ∈ text, isReserved c = false := by
  constructor
  · intro hsame c hc
    refine Bool.eq_false_iff.2 fun hreserved => ?_
    obtain ⟨front, back, rfl⟩ := List.append_of_mem hc
    have hlength := congrArg List.length hsame
    have hlonger := one_lt_length_escapeChar hreserved
    have hfront := length_le_escape front
    have hback := length_le_escape back
    rw [escape_append, escape_cons, List.length_append, List.length_append, List.length_append,
      List.length_cons] at hlength
    omega
  · intro hplain
    induction text with
    | nil => rfl
    | cons c text ih =>
        obtain ⟨hc, htext⟩ := List.forall_mem_cons.1 hplain
        rw [escape_cons, escapeChar_of_not_isReserved hc, ih htext, List.singleton_append]

/-- Escaping loses nothing and reaches exactly the concatenations of unreserved characters and
escape sequences, from which `unescape` reads the text back. -/
theorem escape_uniquely_decodable :
    (∀ text, unescape (escape text) = text) ∧
      (∀ latex, IsEscaped latex ↔ ∃ text, escape text = latex) ∧
        (∀ latex, IsEscaped latex ↔ escape (unescape latex) = latex) ∧
          (∀ first second, escape (first ++ second) = escape first ++ escape second) ∧
            ∀ text, escape (escape text) = escape text ↔ ∀ c ∈ text, isReserved c = false := by
  refine ⟨unescape_escape, fun latex => ⟨fun hlatex => ?_, ?_⟩, fun latex => ⟨?_, fun hback => ?_⟩,
    escape_append, fun text => ?_⟩
  · exact ⟨unescape latex, hlatex.escape_unescape⟩
  · rintro ⟨text, rfl⟩
    exact isEscaped_escape text
  · exact IsEscaped.escape_unescape
  · rw [← hback]
    exact isEscaped_escape (unescape latex)
  · rw [← escape_eq_self_iff]
    constructor
    · intro htwice
      have hback := congrArg unescape htwice
      rwa [unescape_escape, unescape_escape] at hback
    · intro hsame
      rw [hsame, hsame]

end Bindery.Latex
