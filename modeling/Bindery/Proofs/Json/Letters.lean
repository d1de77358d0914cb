import Bindery.Proofs.Json.Grammar
import Bindery.Proofs.Json.Text

namespace Bindery.Json

/-! Strings letter by letter: one that is asked for is read as what its letters mean, one that
nobody asks for is passed over. -/

theorem exists_digits_of_hexUnit? {digits : List Char} {value : Nat}
    (hunit : hexUnit? digits = some value) : ∃ a b c d, digits = [a, b, c, d] := by
  rw [hexUnit?.eq_def] at hunit
  split at hunit
  · exact ⟨_, _, _, _, rfl⟩
  · contradiction

section Unit

variable {digits : List Char} {value : Nat} (hunit : hexUnit? digits = some value)

include hunit

theorem take_unit (text : List Char) : (digits ++ text).take 4 = digits := by
  obtain ⟨a, b, c, d, rfl⟩ := exists_digits_of_hexUnit? hunit
  rfl

theorem drop_unit (text : List Char) : (digits ++ text).drop 4 = text := by
  obtain ⟨a, b, c, d, rfl⟩ := exists_digits_of_hexUnit? hunit
  rfl

theorem readEscape_unit (hlow : isLowSurrogate value = false)
    (hhigh : isHighSurrogate value = false) (text : List Char) :
    ∃ rest, rest.1 = text ∧
      readEscape ('u' :: (digits ++ text)) = .ok (Char.ofNat value, rest) := by
  refine ⟨⟨text, by simp only [List.length_cons, List.length_append]; omega⟩, rfl, ?_⟩
  rw [readEscape]
  simp only [take_unit hunit, drop_unit hunit, hunit, hlow, hhigh]
  rfl

theorem readEscape_low (hlow : isLowSurrogate value = true) (text : List Char) :
    ∃ fault, readEscape ('u' :: (digits ++ text)) = .error fault := by
  rw [readEscape]
  simp only [take_unit hunit, hunit, hlow]
  exact ⟨_, rfl⟩

variable (hhigh : isHighSurrogate value = true)

include hhigh

omit hunit in
theorem not_low_of_high : isLowSurrogate value = false := by
  simp only [isHighSurrogate, Bool.and_eq_true, decide_eq_true_eq] at hhigh
  simp only [isLowSurrogate, Bool.and_eq_false_iff, decide_eq_false_iff_not]
  omega

theorem readEscape_pair {lowDigits : List Char} {low : Nat}
    (hsecond : hexUnit? lowDigits = some low) (hlow : isLowSurrogate low = true)
    (text : List Char) :
    ∃ rest, rest.1 = text ∧
      readEscape ('u' :: (digits ++ '\\' :: 'u' :: (lowDigits ++ text))) =
        .ok (joinSurrogates value low, rest) := by
  refine ⟨⟨text, by simp only [List.length_cons, List.length_append]; omega⟩, rfl, ?_⟩
  rw [readEscape]
  simp only [take_unit hunit, hunit, not_low_of_high hhigh, hhigh, Bool.not_true,
    Bool.false_eq_true, if_false]
  split
  · rename_i behind hbehind
    rw [drop_unit hunit] at hbehind
    cases hbehind
    simp only [take_unit hsecond, hsecond, drop_unit hsecond, hlow, if_true]
  · rename_i hnone
    exact absurd (drop_unit hunit _) (hnone _)

theorem readEscape_no_pair {lowDigits : List Char} {low : Nat}
    (hsecond : hexUnit? lowDigits = some low) (hlow : isLowSurrogate low = false)
    (text : List Char) :
    ∃ fault, readEscape ('u' :: (digits ++ '\\' :: 'u' :: (lowDigits ++ text))) =
      .error fault := by
  rw [readEscape]
  simp only [take_unit hunit, hunit, not_low_of_high hhigh, hhigh, Bool.not_true,
    Bool.false_eq_true, if_false]
  split
  · rename_i behind hbehind
    rw [drop_unit hunit] at hbehind
    cases hbehind
    simp only [take_unit hsecond, hsecond, hlow, Bool.false_eq_true, if_false]
    exact ⟨_, rfl⟩
  · exact ⟨_, rfl⟩

theorem readEscape_lone {text : List Char} (htext : ∀ behind, text ≠ '\\' :: 'u' :: behind) :
    ∃ fault, readEscape ('u' :: (digits ++ text)) = .error fault := by
  rw [readEscape]
  simp only [take_unit hunit, hunit, not_low_of_high hhigh, hhigh, Bool.not_true,
    Bool.false_eq_true, if_false]
  split
  · rename_i behind hbehind
    rw [drop_unit hunit] at hbehind
    exact absurd hbehind (htext behind)
  · exact ⟨_, rfl⟩

end Unit

theorem readChars_of_escape_error {escape : List Char}
    (hescape : ∃ fault, readEscape escape = .error fault) :
    (readChars ('\\' :: escape)).toOption = none := by
  obtain ⟨fault, hfault⟩ := hescape
  rw [readChars, hfault]
  rfl

theorem toOption_consChar (c : Char) (result : Except Fault (List Char × List Char)) :
    (result >>= fun (chars, rest) => .ok (c :: chars, rest)).toOption =
      result.toOption.map fun (chars, rest) => (c :: chars, rest) := by
  cases result <;> rfl

theorem short_ne_unit {letter meant : Char} (hshort : shortEscapes.lookup letter = some meant) :
    letter ≠ 'u' := by
  rintro rfl
  contradiction

theorem decodeLetters_single {digits : List Char} {value : Nat}
    (hunit : hexUnit? digits = some value) (hlow : ¬ isLowSurrogate value = true)
    (hhigh : ¬ isHighSurrogate value = true) (letters : List Letter) :
    decodeLetters (.unit digits value hunit :: letters) =
      (decodeLetters letters).map (Char.ofNat value :: ·) := by
  rw [decodeLetters.eq_def]
  simp only [if_neg hlow, if_neg hhigh]

theorem decodeLetters_lone {digits : List Char} {value : Nat} (hunit : hexUnit? digits = some value)
    (hhigh : isHighSurrogate value = true) {letters : List Letter}
    (hlone : ∀ digits low hlow rest, letters = Letter.unit digits low hlow :: rest → False) :
    decodeLetters (.unit digits value hunit :: letters) = none := by
  rw [decodeLetters, if_pos hhigh, ite_self]
  exact hlone

/-- What stands behind an opening quotation mark. -/
def openString (letters : List Letter) (rest : List Char) : List Char :=
  letters.flatMap Letter.chars ++ '"' :: rest

section Front

variable (letters : List Letter) (rest : List Char)

theorem stringToken_append : stringToken letters ++ rest = '"' :: openString letters rest := by
  simp [stringToken, openString]

theorem openString_plain (c : Char) (hplain : c ≠ '"' ∧ c ≠ '\\' ∧ isControl c = false) :
    openString (.plain c hplain :: letters) rest = c :: openString letters rest := rfl

theorem openString_short (letter meant : Char)
    (hshort : shortEscapes.lookup letter = some meant) :
    openString (.short letter meant hshort :: letters) rest =
      '\\' :: letter :: openString letters rest := rfl

theorem openString_unit (digits : List Char) (value : Nat)
    (hunit : hexUnit? digits = some value) :
    openString (.unit digits value hunit :: letters) rest =
      '\\' :: 'u' :: (digits ++ openString letters rest) := by
  simp [openString, Letter.chars]

theorem readChars_map {escape text : List Char} {c : Char}
    (hescape : ∃ behind, behind.1 = text ∧ readEscape escape = .ok (c, behind)) :
    (readChars ('\\' :: escape)).toOption =
      (readChars text).toOption.map fun (chars, rest) => (c :: chars, rest) := by
  obtain ⟨behind, hbehind, hescape⟩ := hescape
  rw [readChars_escape hescape hbehind, toOption_consChar]

/-- The letters of a string are read up to its closing quotation mark. -/
theorem readChars_letters :
    (readChars (openString letters rest)).toOption = (decodeLetters letters).map (·, rest) := by
  induction letters using decodeLetters.induct with
  | case1 => rw [openString, List.flatMap_nil, List.nil_append, readChars]; rfl
  | case2 c hplain letters ih =>
      obtain ⟨hquote, hslash, hcontrol⟩ := hplain
      rw [openString_plain, readChars_plain hquote hslash hcontrol, toOption_consChar, ih,
        decodeLetters]
      simp [Option.map_map, Function.comp_def]
  | case3 letter meant hshort letters ih =>
      rw [openString_short, readChars_shortEscape (short_ne_unit hshort) hshort, toOption_consChar,
        ih, decodeLetters]
      simp [Option.map_map, Function.comp_def]
  | case4 digits value hunit letters hlow =>
      rw [openString_unit, readChars_of_escape_error (readEscape_low hunit hlow _),
        decodeLetters.eq_def]
      simp [hlow]
  | case5 digits value hunit hlow hhigh lowDigits low hsecond letters hpair ih =>
      rw [openString_unit, openString_unit,
        readChars_map (readEscape_pair hunit hhigh hsecond hpair _), ih, decodeLetters, if_neg hlow,
        if_pos hhigh]
      simp [hpair, Option.map_map, Function.comp_def]
  | case6 digits value hunit hlow hhigh lowDigits low hsecond letters hpair =>
      have hfalse := Bool.eq_false_iff.2 hpair
      rw [openString_unit, openString_unit,
        readChars_of_escape_error (readEscape_no_pair hunit hhigh hsecond hfalse _), decodeLetters,
        if_neg hlow, if_pos hhigh]
      simp [hpair]
  | case7 digits value hunit letters hlow hhigh hlone =>
      -- A pair would have to come from the next letter, which is none of the other kinds.
      have hbehind (behind : List Char) :
          openString letters rest ≠ '\\' :: 'u' :: behind := by
        intro hopen
        rcases letters with _ | ⟨letter, letters⟩
        · cases hopen
        · cases letter with
          | plain c hplain => exact hplain.2.1 (List.cons.inj hopen).1
          | short letter meant hshort =>
              exact short_ne_unit hshort (List.cons.inj (List.cons.inj hopen).2).1
          | unit lowDigits low hsecond => exact hlone lowDigits low hsecond letters rfl
      rw [openString_unit, readChars_of_escape_error (readEscape_lone hunit hhigh hbehind),
        decodeLetters_lone hunit hhigh hlone]
      rfl
  | case8 digits value hunit letters hlow hhigh ih =>
      have hsingle := readEscape_unit hunit (Bool.eq_false_iff.2 hlow) (Bool.eq_false_iff.2 hhigh)
      rw [openString_unit, readChars_map (hsingle _), ih, decodeLetters_single hunit hlow hhigh]
      simp [Option.map_map, Function.comp_def]

theorem skipChars_letters : skipChars (openString letters rest) = .ok rest := by
  induction letters with
  | nil => rw [openString, List.flatMap_nil, List.nil_append, skipChars]
  | cons letter letters ih =>
      cases letter with
      | plain c hplain =>
          obtain ⟨hquote, hslash, hcontrol⟩ := hplain
          rw [openString_plain, skipChars, hcontrol]
          · exact ih
          · exact hquote
          · exact fun hc _ => hslash hc
          · exact fun _ _ _ _ _ hc _ => hslash hc
          · exact fun _ hc _ => hslash hc
          · exact fun _ _ hc _ => hslash hc
      | short letter meant hshort =>
          have hletter := short_ne_unit hshort
          rw [openString_short, skipChars, hshort]
          · exact ih
          · exact fun _ _ _ _ _ hc _ => hletter hc
          · exact hletter
      | unit digits value hunit =>
          obtain ⟨a, b, c, d, rfl⟩ := exists_digits_of_hexUnit? hunit
          rw [openString_unit]
          simp only [List.cons_append, List.nil_append]
          rw [skipChars, if_pos (by rw [hunit]; rfl), ih]

end Front

end Bindery.Json
