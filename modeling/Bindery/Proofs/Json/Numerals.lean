import Mathlib.Tactic.SplitIfs
import Bindery.Proofs.Json.Grammar

namespace Bindery.Json

/-! Number literals: where one is passed over, and which of them are words. -/

/-- The word that a literal stands for: its digits, as long as there is nothing else and they are
not too many. -/
def Numeral.word? (numeral : Numeral) : Option UInt32 :=
  if numeral.negative ∨ numeral.fraction?.isSome ∨ numeral.exponent?.isSome then none
  else
    let value := Nat.ofDigitChars 10 numeral.whole 0
    if value < UInt32.size then some value.toUInt32 else none

section Digits

variable {digits rest : List Char} (hdigits : IsDigits digits)

include hdigits

theorem IsDigits.exists_cons :
    ∃ c more, digits = c :: more ∧ c.isDigit = true ∧ ∀ d ∈ more, d.isDigit = true := by
  obtain ⟨c, more, rfl⟩ := List.exists_cons_of_ne_nil hdigits.ne_nil
  obtain ⟨hc, hmore⟩ := List.forall_mem_cons.1 hdigits.isDigit
  exact ⟨c, more, rfl, hc, hmore⟩

variable (hrest : ∀ c ∈ rest.head?, c.isDigit = false)

include hrest

omit hdigits in
theorem takeWhile_isDigit {more : List Char} (hmore : ∀ c ∈ more, c.isDigit = true) :
    (more ++ rest).takeWhile Char.isDigit = more ∧
      (more ++ rest).dropWhile Char.isDigit = rest := by
  rw [List.takeWhile_append_of_pos hmore, List.dropWhile_append_of_pos hmore]
  cases rest with
  | nil => simp
  | cons c rest => simp [hrest c rfl]

theorem skipDigits_digits : skipDigits (digits ++ rest) = .ok rest := by
  obtain ⟨c, more, rfl, hc, hmore⟩ := hdigits.exists_cons
  rw [skipDigits, List.cons_append]
  simp only [List.head?_cons, Option.map_some, Option.getD_some, hc, if_true,
    List.dropWhile_cons_of_pos, (takeWhile_isDigit hrest hmore).2]

end Digits

/-! What stands behind the digits in front of the point. -/

section Tail

variable {rest : List Char} (hrest : endsNumber rest)

include hrest

theorem endsNumber.notDigit : ∀ c ∈ rest.head?, c.isDigit = false :=
  fun c hc => (hrest c hc).1

omit hrest in
theorem exponentSign_chars (exponent : Exponent) :
    (exponentSign (exponent.sign?.toList ++ exponent.digits ++ rest)).2 =
      exponent.digits ++ rest := by
  obtain ⟨c, more, hdigits, hc, -⟩ := exponent.isDigits.exists_cons
  cases hsign : exponent.sign? with
  | none =>
      rw [hdigits, Option.toList_none, List.nil_append, List.cons_append, exponentSign.eq_def]
      split
      · rename_i htext
        rw [(List.cons.inj htext).1] at hc
        contradiction
      · rename_i htext
        rw [(List.cons.inj htext).1] at hc
        contradiction
      · rfl
  | some sign =>
      obtain rfl | rfl := exponent.sign_eq sign hsign
      · rfl
      · rfl

theorem skipExponent_chars (exponent? : Option Exponent) :
    skipExponent (exponentChars exponent? ++ rest) = .ok rest := by
  cases exponent? with
  | none =>
      change skipExponent rest = _
      rw [skipExponent.eq_def]
      split
      · exact absurd rfl (hrest 'e' rfl).2.2.1
      · exact absurd rfl (hrest 'E' rfl).2.2.2
      · rfl
  | some exponent =>
      have hdigits := skipDigits_digits exponent.isDigits hrest.notDigit
      rw [← exponentSign_chars exponent] at hdigits
      change skipExponent (exponent.mark ::
        (exponent.sign?.toList ++ exponent.digits ++ rest)) = .ok rest
      obtain hmark | hmark := exponent.mark_eq <;> rw [hmark] <;> exact hdigits

theorem notDigit_exponentChars (exponent? : Option Exponent) :
    ∀ c ∈ (exponentChars exponent? ++ rest).head?, c.isDigit = false ∧ c ≠ '.' := by
  cases exponent? with
  | none => exact fun c hc => ⟨(hrest c hc).1, (hrest c hc).2.1⟩
  | some exponent =>
      intro c hc
      obtain rfl : exponent.mark = c := Option.some.inj hc
      obtain hmark | hmark := exponent.mark_eq <;> rw [hmark] <;> decide

theorem notDigit_fractionChars (fraction? : Option { digits : List Char // IsDigits digits })
    (exponent? : Option Exponent) :
    ∀ c ∈ (fractionChars fraction? ++ (exponentChars exponent? ++ rest)).head?,
      c.isDigit = false := by
  cases fraction? with
  | none => exact fun c hc => (notDigit_exponentChars hrest exponent? c hc).1
  | some fraction =>
      intro c hc
      obtain rfl : '.' = c := Option.some.inj hc
      decide

theorem skipFraction_chars (fraction? : Option { digits : List Char // IsDigits digits })
    (exponent? : Option Exponent) :
    skipFraction (fractionChars fraction? ++ (exponentChars exponent? ++ rest)) = .ok rest := by
  have hexponent := skipExponent_chars hrest exponent?
  have hfollows := notDigit_exponentChars hrest exponent?
  cases fraction? with
  | none =>
      change skipFraction (exponentChars exponent? ++ rest) = _
      rw [skipFraction.eq_def]
      split
      · rename_i htext
        rw [htext] at hfollows
        exact absurd rfl (hfollows '.' rfl).2
      · exact hexponent
  | some fraction =>
      have hdigits := skipDigits_digits fraction.2 fun c hc => (hfollows c hc).1
      change (skipDigits (fraction.1 ++ (exponentChars exponent? ++ rest)) >>= skipExponent) = _
      rw [hdigits, ok_bind, hexponent]

end Tail

section Numeral

variable (numeral : Numeral) {rest : List Char} (hrest : endsNumber rest)

/-- What stands behind the sign and the digits in front of the point. -/
def Numeral.tail (numeral : Numeral) (rest : List Char) : List Char :=
  fractionChars numeral.fraction? ++ (exponentChars numeral.exponent? ++ rest)

theorem Numeral.chars_append :
    numeral.chars ++ rest = numeral.sign ++ (numeral.whole ++ numeral.tail rest) := by
  simp [chars, tail]

theorem head?_tail (hrest : endsNumber rest) :
    ∀ c ∈ (numeral.tail rest).head?, c.isDigit = false :=
  notDigit_fractionChars hrest numeral.fraction? numeral.exponent?

/-- A literal begins with its sign or with a digit; only a single zero begins with a zero. -/
theorem Numeral.exists_whole :
    ∃ c more, numeral.whole = c :: more ∧ c.isDigit = true ∧ (∀ d ∈ more, d.isDigit = true) ∧
      (c = '0' → more = []) := by
  obtain ⟨c, more, hwhole, hc, hmore⟩ := numeral.isDigits.exists_cons
  refine ⟨c, more, hwhole, hc, hmore, ?_⟩
  rintro rfl
  have hzero := numeral.noZero (by rw [hwhole]; rfl)
  rw [hwhole] at hzero
  exact (List.cons.inj hzero).2

theorem Numeral.tail_of_whole
    (hwhole : ¬ (numeral.fraction?.isSome = true ∨ numeral.exponent?.isSome = true))
    (rest : List Char) : numeral.tail rest = rest := by
  simp only [not_or, Bool.not_eq_true, Option.isSome_eq_false_iff, Option.isNone_iff_eq_none]
    at hwhole
  rw [tail, hwhole.1, hwhole.2]
  rfl

theorem minus_of_isDigit {c : Char} (hc : c.isDigit = true) : c ≠ '-' := by
  rintro rfl
  contradiction

theorem not_isDigit_head {text : List Char} (htext : ∀ c ∈ text.head?, c.isDigit = false) :
    ¬ (text.head?.map Char.isDigit).getD false = true := by
  cases hhead : text.head? with
  | none => simp
  | some c => simp [htext c hhead]

theorem skipNumber_chars (hrest : endsNumber rest) :
    skipNumber (numeral.chars ++ rest) = .ok rest := by
  have htail := head?_tail numeral hrest
  have hskip : skipFraction (numeral.tail rest) = .ok rest :=
    skipFraction_chars hrest numeral.fraction? numeral.exponent?
  obtain ⟨c, more, hwhole, hc, hmore, hzero⟩ := numeral.exists_whole
  rw [numeral.chars_append, Numeral.sign]
  by_cases hfirst : c = '0'
  · have hnone := not_isDigit_head htail
    rw [hwhole, hzero hfirst, hfirst, List.singleton_append]
    split_ifs
    · rw [List.singleton_append, skipNumber, if_neg hnone, hskip]
    · rw [List.nil_append, skipNumber, if_neg hnone, hskip]
  · have hdigits := skipDigits_digits numeral.isDigits htail
    have hother (text : List Char) : numeral.whole ++ numeral.tail rest ≠ '0' :: text := by
      rw [hwhole]
      exact fun htext => hfirst (List.cons.inj htext).1
    have hminus (text : List Char) : numeral.whole ++ numeral.tail rest ≠ '-' :: text := by
      rw [hwhole]
      exact fun htext => minus_of_isDigit hc (List.cons.inj htext).1
    split_ifs
    · rw [List.singleton_append, skipNumber, hdigits, ok_bind, hskip]
      exact hother
    · rw [List.nil_append, skipNumber, hdigits, ok_bind, hskip]
      · exact hminus
      · exact hother

/-! A result that is no word, and the parts of a literal after which there is none. -/

def Wordless (result : Except Fault (Number × List Char)) : Prop :=
  ∀ number behind, result = .ok (number, behind) → ∃ cause, number.word = .error cause

theorem wordless_error (fault : Fault) : Wordless (.error fault) :=
  fun _ _ hresult => by contradiction

theorem wordless_floating (value : Float) (behind : List Char) :
    Wordless (.ok (.floating value, behind)) := by
  intro number behind hresult
  obtain ⟨rfl, -⟩ := Prod.mk.inj (Except.ok.inj hresult)
  exact ⟨_, rfl⟩

theorem wordless_readFloat (isNegative : Bool) (magnitude : Magnitude) (text : List Char) :
    Wordless (readFloat isNegative magnitude text) := by
  rw [readFloat]
  split
  · exact wordless_floating _ _
  · exact wordless_error _

theorem wordless_readExponent (isNegative : Bool) (magnitude : Magnitude) (text : List Char) :
    Wordless (readExponent isNegative magnitude text) := by
  rw [readExponent]
  simp only
  split
  · split
    · exact wordless_error _
    · exact wordless_error _
  · split
    · exact wordless_readFloat _ _ _
    · split_ifs
      · exact wordless_error _
      · exact wordless_floating _ _

theorem wordless_readFraction (isNegative : Bool) (magnitude : Magnitude) (text : List Char) :
    Wordless (readFraction isNegative magnitude text) := by
  rw [readFraction]
  split
  · exact wordless_error _
  · split
    · exact wordless_readExponent _ _ _
    · exact wordless_readExponent _ _ _
    · exact wordless_readFloat _ _ _

theorem wordless_ofInteger (significand : Nat) (behind : List Char) :
    Wordless (.ok (Number.ofInteger true significand, behind)) := by
  intro number behind hresult
  obtain ⟨rfl, -⟩ := Prod.mk.inj (Except.ok.inj hresult)
  rw [Number.ofInteger]
  split_ifs
  · contradiction
  · exact ⟨_, rfl⟩
  · exact ⟨_, rfl⟩

theorem Magnitude.ofDigits_of_exponent {digits : List Char} {first : Nat}
    (hexponent : (Magnitude.ofDigits first digits).exponent = 0) :
    (Magnitude.ofDigits first digits).significand = Nat.ofDigitChars 10 digits first := by
  induction digits generalizing first with
  | nil => simp [ofDigits]
  | cons c digits ih =>
      rw [ofDigits] at hexponent ⊢
      split_ifs at hexponent ⊢ with hnext
      · rw [Nat.ofDigitChars_cons]
        exact ih hexponent
      · simp at hexponent
        omega

theorem readNumber_chars :
    readNumber (numeral.chars ++ rest) =
      readUnsigned numeral.negative (numeral.whole ++ numeral.tail rest) := by
  obtain ⟨c, more, hwhole, hc, -⟩ := numeral.exists_whole
  rw [numeral.chars_append, hwhole, Numeral.sign]
  cases numeral.negative with
  | true => rfl
  | false =>
      rw [if_neg (by simp), List.nil_append, List.cons_append, readNumber]
      intro text htext
      exact minus_of_isDigit hc (List.cons.inj htext).1

theorem readUnsigned_whole (hrest : endsNumber rest) :
    ∃ magnitude : Magnitude,
      readUnsigned numeral.negative (numeral.whole ++ numeral.tail rest) =
          readNumberEnd numeral.negative magnitude (numeral.tail rest) ∧
        (magnitude.exponent = 0 →
          magnitude.significand = Nat.ofDigitChars 10 numeral.whole 0) ∧
        (Nat.ofDigitChars 10 numeral.whole 0 ≤ maxSignificand → magnitude.exponent = 0) := by
  have htail := head?_tail numeral hrest
  obtain ⟨c, more, hwhole, hc, hmore, hzero⟩ := numeral.exists_whole
  have hvalue : Nat.ofDigitChars 10 numeral.whole 0 = Nat.ofDigitChars 10 more (digitValue c) := by
    rw [hwhole, Nat.ofDigitChars_cons, Nat.mul_zero, Nat.zero_add]
    rfl
  refine ⟨Magnitude.ofDigits (digitValue c) more, ?_, fun hexponent => ?_, fun hsize => ?_⟩
  · rw [hwhole, List.cons_append, readUnsigned, hc]
    simp only [Bool.not_true, Bool.false_eq_true, if_false]
    split_ifs with hfirst hdigit
    · rw [hzero hfirst, List.nil_append] at hdigit
      exact absurd hdigit (not_isDigit_head htail)
    · rw [hzero hfirst, hfirst]
      rfl
    · rw [(takeWhile_isDigit htail hmore).1, (takeWhile_isDigit htail hmore).2]
  · rw [hvalue]
    exact Magnitude.ofDigits_of_exponent hexponent
  · rw [Magnitude.ofDigits_eq (hvalue ▸ hsize)]

theorem wordless_tail {isNegative : Bool} {magnitude : Magnitude}
    (hsome : numeral.fraction?.isSome = true ∨ numeral.exponent?.isSome = true) :
    Wordless (readNumberEnd isNegative magnitude (numeral.tail rest)) := by
  rw [Numeral.tail]
  cases hfraction : numeral.fraction? with
  | some fraction => exact wordless_readFraction isNegative magnitude _
  | none =>
      cases hexponent : numeral.exponent? with
      | none => simp [hfraction, hexponent] at hsome
      | some exponent =>
          change Wordless (readNumberEnd isNegative magnitude (exponent.mark ::
            (exponent.sign?.toList ++ exponent.digits ++ rest)))
          obtain hmark | hmark := exponent.mark_eq
          · rw [hmark]
            exact wordless_readExponent isNegative magnitude _
          · rw [hmark]
            exact wordless_readExponent isNegative magnitude _

omit numeral in
theorem readNumberEnd_of_endsNumber (isNegative : Bool) (magnitude : Magnitude)
    (hrest : endsNumber rest) :
    readNumberEnd isNegative magnitude rest =
      if magnitude.exponent = 0 then
        .ok (Number.ofInteger isNegative magnitude.significand, rest)
      else readFloat isNegative magnitude rest := by
  rw [readNumberEnd.eq_def]
  split
  · exact absurd rfl (hrest '.' rfl).2.1
  · exact absurd rfl (hrest 'e' rfl).2.2.1
  · exact absurd rfl (hrest 'E' rfl).2.2.2
  · rfl

/-- A literal is read as the word that it is. -/
theorem readNumber_of_word? (hrest : endsNumber rest) {word : UInt32}
    (hword : numeral.word? = some word) :
    ∃ number, readNumber (numeral.chars ++ rest) = .ok (number, rest) ∧
      number.word = .ok word := by
  rw [Numeral.word?] at hword
  dsimp only at hword
  split_ifs at hword with hmore hsize
  obtain ⟨hsign, hwhole⟩ := not_or.1 hmore
  have hnegative : numeral.negative = false := Bool.eq_false_iff.2 hsign
  obtain ⟨magnitude, hread, hvalue, hzero⟩ := readUnsigned_whole numeral hrest
  have hmax : Nat.ofDigitChars 10 numeral.whole 0 ≤ maxSignificand := by
    have hword : UInt32.size ≤ maxSignificand := by decide
    omega
  have htail := numeral.tail_of_whole hwhole rest
  rw [hnegative, htail, readNumberEnd_of_endsNumber false magnitude hrest, if_pos (hzero hmax),
    hvalue (hzero hmax)] at hread
  refine ⟨.natural (Nat.ofDigitChars 10 numeral.whole 0), ?_, ?_⟩
  · rw [readNumber_chars, hnegative, htail, hread]
    rfl
  · rw [Number.word, if_pos hsize, ← Option.some.inj hword]

/-- What any other literal is read as is no word. -/
theorem wordless_of_word? (hrest : endsNumber rest) (hword : numeral.word? = none) :
    Wordless (readNumber (numeral.chars ++ rest)) := by
  obtain ⟨magnitude, hread, hvalue, hzero⟩ := readUnsigned_whole numeral hrest
  rw [readNumber_chars, hread]
  by_cases hsome : numeral.fraction?.isSome = true ∨ numeral.exponent?.isSome = true
  · exact wordless_tail numeral hsome
  rw [numeral.tail_of_whole hsome, readNumberEnd_of_endsNumber _ magnitude hrest]
  -- Nothing but a sign and digits is left: they are negative, too large, or too many.
  split_ifs with hexponent
  · cases hnegative : numeral.negative with
    | true => exact wordless_ofInteger _ _
    | false =>
        rw [Numeral.word?, if_neg (by simpa [hnegative] using hsome)] at hword
        have hlarge : ¬ magnitude.significand < UInt32.size := by
          rw [hvalue hexponent]
          intro hsize
          simp [hsize] at hword
        intro number behind hresult
        obtain ⟨rfl, -⟩ := Prod.mk.inj (Except.ok.inj hresult)
        exact ⟨_, if_neg hlarge⟩
  · exact wordless_readFloat _ _ _

end Numeral

/-! A literal without sign, point and exponent is its digits, and such a literal is a word unless
its digits are too many. -/

def Numeral.IsPlain (numeral : Numeral) : Prop :=
  ¬ (numeral.negative = true ∨ numeral.fraction?.isSome = true ∨ numeral.exponent?.isSome = true)

theorem Numeral.IsPlain.chars {numeral : Numeral} (hplain : numeral.IsPlain) :
    numeral.chars = numeral.whole := by
  obtain ⟨hsign, hwhole⟩ := not_or.1 hplain
  have htail := numeral.tail_of_whole hwhole []
  rw [← List.append_nil numeral.chars, numeral.chars_append, htail, Numeral.sign, if_neg hsign]
  simp

theorem Numeral.isPlain_iff (numeral : Numeral) :
    numeral.IsPlain ↔ ∀ c ∈ numeral.chars, c.isDigit = true := by
  constructor
  · intro hplain
    rw [hplain.chars]
    exact numeral.isDigits.isDigit
  · rintro hdigits (hnegative | hfraction | hexponent)
    · have hminus := hdigits '-' (by simp [Numeral.chars, Numeral.sign, hnegative])
      contradiction
    · obtain ⟨fraction, hsome⟩ := Option.isSome_iff_exists.1 hfraction
      have hpoint := hdigits '.' (by simp [Numeral.chars, fractionChars, hsome])
      contradiction
    · obtain ⟨exponent, hsome⟩ := Option.isSome_iff_exists.1 hexponent
      have hmark := hdigits exponent.mark
        (by simp [Numeral.chars, exponentChars, Exponent.chars, hsome])
      obtain hmark' | hmark' := exponent.mark_eq <;> rw [hmark'] at hmark <;> contradiction

theorem Numeral.word?_eq_some {numeral : Numeral} {word : UInt32} :
    numeral.word? = some word ↔
      (∀ c ∈ numeral.chars, c.isDigit = true) ∧
        word.toNat = Nat.ofDigitChars 10 numeral.chars 0 := by
  rw [← numeral.isPlain_iff, word?]
  by_cases hplain : numeral.IsPlain
  · rw [if_neg hplain, hplain.chars, and_iff_right hplain]
    dsimp only
    split_ifs with hsize
    · have hvalue : (Nat.ofDigitChars 10 numeral.whole 0).toUInt32.toNat =
          Nat.ofDigitChars 10 numeral.whole 0 := UInt32.toNat_ofNat_of_lt hsize
      rw [Option.some.injEq, ← UInt32.toNat_inj, hvalue]
      exact eq_comm
    · refine iff_of_false (by simp) fun hword => hsize ?_
      rw [← hword]
      exact word.toNat_lt_size
  · rw [if_pos (Decidable.not_not.1 hplain)]
    exact iff_of_false (by simp) fun hword => hplain hword.1

end Bindery.Json
