import Bindery.Json.Record
import Bindery.Proofs.Chain

namespace Bindery.Json

/-! Natural numbers in decimal digits read back as themselves. -/

/-- What can stand behind a number so that it ends there. -/
def endsNumber (rest : List Char) : Prop :=
  ∀ c ∈ rest.head?, c.isDigit = false ∧ c ≠ '.' ∧ c ≠ 'e' ∧ c ≠ 'E'

theorem endsNumber.span {rest : List Char} (hrest : endsNumber rest) :
    rest.takeWhile Char.isDigit = [] ∧ rest.dropWhile Char.isDigit = rest := by
  cases rest with
  | nil => exact ⟨rfl, rfl⟩
  | cons c rest => simp [(hrest c rfl).1]

theorem skipSpace_cons {c : Char} (hc : isSpace c = false) (text : List Char) :
    skipSpace (c :: text) = c :: text := by
  rw [skipSpace, List.dropWhile_cons_of_neg (by simp [hc])]

theorem isSpace_of_isDigit {c : Char} (hc : c.isDigit = true) : isSpace c = false := by
  simp only [isSpace, Bool.or_eq_false_iff, beq_eq_false_iff_ne]
  refine ⟨⟨⟨?_, ?_⟩, ?_⟩, ?_⟩ <;> rintro rfl <;> contradiction

theorem le_ofDigitChars (digits : List Char) (first : Nat) :
    first ≤ Nat.ofDigitChars 10 digits first := by
  induction digits generalizing first with
  | nil => simp
  | cons c digits ih =>
      rw [Nat.ofDigitChars_cons]
      exact Nat.le_trans (by omega) (ih _)

theorem Magnitude.ofDigits_eq {digits : List Char} {first : Nat}
    (hsize : Nat.ofDigitChars 10 digits first ≤ maxSignificand) :
    Magnitude.ofDigits first digits = ⟨Nat.ofDigitChars 10 digits first, 0⟩ := by
  induction digits generalizing first with
  | nil => simp [ofDigits]
  | cons c digits ih =>
      rw [Nat.ofDigitChars_cons] at hsize ⊢
      have hnext : 10 * first + digitValue c ≤ maxSignificand :=
        Nat.le_trans (le_ofDigitChars digits _) hsize
      rw [ofDigits, if_pos hnext]
      exact ih hsize

theorem exists_toDigits_cons (number : Nat) :
    ∃ c digits, Nat.toDigits 10 number = c :: digits ∧ c.isDigit = true := by
  obtain ⟨c, digits, htext⟩ := List.exists_cons_of_ne_nil
    (Nat.toDigits_ne_nil : Nat.toDigits 10 number ≠ [])
  have hc := Nat.isDigit_of_mem_toDigits (by decide) (by decide) (htext ▸ List.mem_cons_self)
  exact ⟨c, digits, htext, hc⟩

theorem head?_toDigits {number : Nat} (hnumber : number ≠ 0) :
    (Nat.toDigits 10 number).head? ≠ some '0' := by
  induction number using Nat.strongRecOn with
  | ind number ih =>
      have hsmall : ∀ digit < 10, digit ≠ 0 → Nat.digitChar digit ≠ '0' := by decide
      by_cases hdigit : number < 10
      · rw [Nat.toDigits_of_lt_base hdigit]
        simpa using hsmall number hdigit hnumber
      · have hfront := ih (number / 10) (by omega) (by omega)
        obtain ⟨c, digits, htext, -⟩ := exists_toDigits_cons (number / 10)
        rw [Nat.toDigits_of_base_le (by decide) (by omega)]
        rw [htext] at hfront ⊢
        exact hfront

theorem readNumberEnd_natural (number : Nat) {rest : List Char} (hrest : endsNumber rest) :
    readNumberEnd false ⟨number, 0⟩ rest = .ok (.natural number, rest) := by
  rw [readNumberEnd.eq_def]
  split
  · exact absurd rfl (hrest '.' rfl).2.1
  · exact absurd rfl (hrest 'e' rfl).2.2.1
  · exact absurd rfl (hrest 'E' rfl).2.2.2
  · rfl

/-- A number of at most sixty-four bits is read as it is. -/
theorem readUnsigned_toDigits {number : Nat} (hnumber : number ≤ maxSignificand) {rest : List Char}
    (hrest : endsNumber rest) :
    readUnsigned false (Nat.toDigits 10 number ++ rest) = .ok (.natural number, rest) := by
  -- A zero stands alone and is read by a branch of its own.
  by_cases hzero : number = 0
  · subst hzero
    have hhead : ¬ (rest.head?.map Char.isDigit).getD false = true := by
      cases rest with
      | nil => simp
      | cons c rest => simp [(hrest c rfl).1]
    have hstep : readUnsigned false ('0' :: rest) = readNumberEnd false ⟨0, 0⟩ rest :=
      if_neg hhead
    exact hstep.trans (readNumberEnd_natural 0 hrest)
  · have hdigits : ∀ c ∈ Nat.toDigits 10 number, c.isDigit = true := fun c hc =>
      Nat.isDigit_of_mem_toDigits (by decide) (by decide) hc
    have hvalue := @Nat.ofDigitChars_ten_toDigits number
    have hhead := head?_toDigits hzero
    cases htext : Nat.toDigits 10 number with
    | nil => exact absurd htext Nat.toDigits_ne_nil
    | cons c digits =>
        rw [htext] at hdigits hvalue hhead
        obtain ⟨hc, hdigits⟩ := List.forall_mem_cons.1 hdigits
        have hne : c ≠ '0' := fun hc => hhead (congrArg some hc)
        have htake : (digits ++ rest).takeWhile Char.isDigit = digits := by
          rw [List.takeWhile_append_of_pos hdigits, hrest.span.1, List.append_nil]
        have hdrop : (digits ++ rest).dropWhile Char.isDigit = rest := by
          rw [List.dropWhile_append_of_pos hdigits, hrest.span.2]
        have hmagnitude : Magnitude.ofDigits (digitValue c) digits = ⟨number, 0⟩ := by
          rw [Nat.ofDigitChars_cons] at hvalue
          have hfirst : 10 * 0 + (c.toNat - '0'.toNat) = digitValue c := Nat.zero_add _
          rw [hfirst] at hvalue
          rw [Magnitude.ofDigits_eq (hvalue ▸ hnumber), hvalue]
        rw [List.cons_append, readUnsigned, hc, if_neg (by simp), if_neg hne, htake, hdrop,
          hmagnitude]
        exact readNumberEnd_natural number hrest

theorem readWord_toDigits (number : UInt32) {rest : List Char} (hrest : endsNumber rest) :
    readWord (Nat.toDigits 10 number.toNat ++ rest) = .ok (number, rest) := by
  have hsize : number.toNat < UInt32.size := number.toNat_lt
  have hmax : number.toNat ≤ maxSignificand := by
    have hword : UInt32.size ≤ maxSignificand := by decide
    omega
  have hread := readUnsigned_toDigits hmax hrest
  obtain ⟨c, digits, htext, hc⟩ := exists_toDigits_cons number.toNat
  have hminus : c ≠ '-' := by
    rintro rfl
    contradiction
  have hword : (Number.natural number.toNat).word = .ok number := by
    rw [Number.word, if_pos hsize]
    simp
  rw [htext, List.cons_append] at hread
  rw [readWord, htext, List.cons_append, skipSpace_cons (isSpace_of_isDigit hc)]
  simp only [hc, Bool.true_or, if_true]
  rw [readNumber, hread, ok_bind]
  · simp only [hword]
  · simpa using hminus

end Bindery.Json
