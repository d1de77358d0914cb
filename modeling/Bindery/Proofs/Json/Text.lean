import Bindery.Json.Text
import Bindery.Proofs.Chain

namespace Bindery.Json

/-! Escaped strings read back as what was written. -/

theorem hexValue?_digitChar {digit : Nat} (hdigit : digit < 16) :
    hexValue? digit.digitChar = some digit := by
  have hall : ∀ digit < 16, hexValue? (Nat.digitChar digit) = some digit := by decide
  exact hall digit hdigit

theorem hexUnit?_control {c : Char} (hc : isControl c = true) :
    hexUnit? ['0', '0', (c.toNat / 16).digitChar, (c.toNat % 16).digitChar] = some c.toNat := by
  have hsmall : c.toNat < 0x20 := by simpa [isControl] using hc
  have hzero : hexValue? '0' = some 0 := by decide
  simp only [hexUnit?, hzero, hexValue?_digitChar (show c.toNat / 16 < 16 by omega),
    hexValue?_digitChar (show c.toNat % 16 < 16 by omega)]
  change some _ = some _
  congr 1
  omega

theorem readEscape_control {c : Char} (hc : isControl c = true) (text : List Char) :
    ∃ rest, rest.1 = text ∧
      readEscape
        ('u' :: '0' :: '0' :: (c.toNat / 16).digitChar :: (c.toNat % 16).digitChar :: text) =
          .ok (c, rest) := by
  have hsmall : c.toNat < 0x20 := by simpa [isControl] using hc
  have hhigh : isHighSurrogate c.toNat = false := by
    simp only [isHighSurrogate, Bool.and_eq_false_iff, decide_eq_false_iff_not]
    omega
  have hlow : isLowSurrogate c.toNat = false := by
    simp only [isLowSurrogate, Bool.and_eq_false_iff, decide_eq_false_iff_not]
    omega
  refine ⟨⟨text, by simp only [List.length_cons]; omega⟩, rfl, ?_⟩
  rw [readEscape]
  simp only [List.take_succ_cons, List.take_zero, hexUnit?_control hc, hhigh, hlow,
    Char.ofNat_toNat]
  rfl

theorem readChars_escape {escape text : List Char} {c : Char} {rest : Rest escape}
    (hescape : readEscape escape = .ok (c, rest)) (hrest : rest.1 = text) :
    readChars ('\\' :: escape) =
      readChars text >>= fun (chars, behind) => .ok (c :: chars, behind) := by
  rw [readChars, hescape, ← hrest]
  rfl

theorem readChars_shortEscape {letter c : Char} (hletter : letter ≠ 'u')
    (hmeant : shortEscapes.lookup letter = some c) (text : List Char) :
    readChars ('\\' :: letter :: text) =
      readChars text >>= fun (chars, behind) => .ok (c :: chars, behind) := by
  have hescape : readEscape (letter :: text) = .ok (c, ⟨text, Nat.lt_succ_self _⟩) := by
    rw [readEscape]
    · simp only [hmeant]
    · simpa using hletter
  exact readChars_escape hescape rfl

theorem readChars_plain {c : Char} (hquote : c ≠ '"') (hslash : c ≠ '\\')
    (hcontrol : isControl c = false) (text : List Char) :
    readChars (c :: text) =
      readChars text >>= fun (chars, behind) => .ok (c :: chars, behind) := by
  rw [readChars]
  · rw [hcontrol]
    rfl
  · simpa using hquote
  · simpa using hslash

theorem readChars_escapedChar (c : Char) (text : List Char) :
    readChars (escapedChar c ++ text) =
      readChars text >>= fun (chars, behind) => .ok (c :: chars, behind) := by
  rw [escapedChar.eq_def]
  split
  -- What has a short escape is left by a look at the table; the rest is not among these characters.
  any_goals exact readChars_shortEscape (by decide) rfl text
  rename_i hquote hslash _ _ _ _ _
  cases hcontrol : isControl c with
  | true =>
      obtain ⟨rest, hrest, hescape⟩ := readEscape_control hcontrol text
      exact readChars_escape hescape hrest
  | false => exact readChars_plain hquote hslash hcontrol text

/-- A string is read up to its closing quotation mark. -/
theorem readChars_flatMap (chars rest : List Char) :
    readChars (chars.flatMap escapedChar ++ '"' :: rest) = .ok (chars, rest) := by
  induction chars with
  | nil => rw [List.flatMap_nil, List.nil_append, readChars]
  | cons c chars ih =>
      rw [List.flatMap_cons, List.append_assoc, readChars_escapedChar, ih]
      rfl

end Bindery.Json
