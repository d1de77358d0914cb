import Bindery.Proofs.Json.Letters
import Bindery.Proofs.Json.Numerals

namespace Bindery.Json

/-! The tokens of a text, taken off it one after the other. -/

/-- The same white space in front of every token. -/
theorem Spaced.flatMap {space : List Char} (hspace : ∀ c ∈ space, isSpace c = true)
    (tokens : List Token) : Spaced tokens (tokens.flatMap (space ++ ·)) := by
  induction tokens with
  | nil => exact .nil (by simp)
  | cons token tokens ih =>
      rw [List.flatMap_cons, List.append_assoc]
      exact .cons hspace ih

theorem Spaced.flatten (tokens : List Token) : Spaced tokens tokens.flatten := by
  have hspaced := Spaced.flatMap (List.forall_mem_nil _) tokens
  simpa [List.flatMap_id] using hspaced

section Spaced

variable {tokens : List Token} {text : List Char}

theorem Spaced.length_le (hspaced : Spaced tokens text) :
    tokens.flatten.length ≤ text.length := by
  induction hspaced with
  | nil hspace => simp
  | cons hspace hrest ih =>
      simp only [List.flatten_cons, List.length_append]
      omega

theorem skipSpace_append {space : List Char} (hspace : ∀ c ∈ space, isSpace c = true)
    (text : List Char) : skipSpace (space ++ text) = skipSpace text :=
  List.dropWhile_append_of_pos hspace

theorem Spaced.skipSpace_nil (hspaced : Spaced [] text) : skipSpace text = [] := by
  obtain @⟨space, hspace⟩ := hspaced
  rw [← List.append_nil text, skipSpace_append hspace]
  rfl

/-- The first token is what stands behind the white space. -/
theorem Spaced.skipSpace_cons {c : Char} {letters : List Char} (hc : isSpace c = false)
    (hspaced : Spaced ((c :: letters) :: tokens) text) :
    ∃ rest, Spaced tokens rest ∧ skipSpace text = c :: (letters ++ rest) := by
  obtain _ | @⟨space, rest, _, _, hspace, hrest⟩ := hspaced
  exact ⟨rest, hrest, by rw [skipSpace_append hspace, List.cons_append, Json.skipSpace_cons hc]⟩

/-- What may follow a value: the end, or a token that ends the value there. -/
def EndsTree (more : List Token) : Prop :=
  ∀ token ∈ more.head?, token = [','] ∨ token = [']'] ∨ token = ['\x7d']

theorem endsNumber_of_isSpace {c : Char} (hc : isSpace c = true) :
    c.isDigit = false ∧ c ≠ '.' ∧ c ≠ 'e' ∧ c ≠ 'E' := by
  simp only [isSpace, Bool.or_eq_true, beq_iff_eq] at hc
  obtain ((rfl | rfl) | rfl) | rfl := hc <;> decide

theorem Spaced.endsNumber (htokens : EndsTree tokens) (hspaced : Spaced tokens text) :
    endsNumber text := by
  intro c hc
  -- The next character is white space, or else begins the next token.
  cases hspaced with
  | nil hspace => exact endsNumber_of_isSpace (hspace c (List.mem_of_head? hc))
  | @cons space rest token tokens hspace hrest =>
      cases space with
      | nil =>
          obtain rfl | rfl | rfl := htokens token rfl <;>
            obtain rfl := Option.some.inj hc <;> decide
      | cons first space =>
          obtain rfl := Option.some.inj hc
          exact endsNumber_of_isSpace (hspace first List.mem_cons_self)

theorem endsTree_nil : EndsTree [] :=
  fun _ htoken => by contradiction

theorem endsTree_elementTokens (elements : List Tree) (more : List Token) :
    EndsTree (Tree.elementTokens false elements ++ more) := by
  intro token htoken
  cases elements with
  | nil => exact .inr (.inl (Option.some.inj htoken).symm)
  | cons element elements => exact .inl (Option.some.inj htoken).symm

theorem endsTree_memberTokens (members : List (List Letter × Tree)) (more : List Token) :
    EndsTree (Tree.memberTokens false members ++ more) := by
  intro token htoken
  cases members with
  | nil => exact .inr (.inr (Option.some.inj htoken).symm)
  | cons member members => exact .inl (Option.some.inj htoken).symm

/-- White space in front may be left out. -/
theorem Spaced.again {c : Char} {letters rest : List Char} (hrest : Spaced tokens rest) :
    Spaced ((c :: letters) :: tokens) (c :: (letters ++ rest)) :=
  @Spaced.cons [] rest _ tokens (by simp) hrest

theorem Spaced.skipSpace_string {letters : List Letter}
    (hspaced : Spaced (stringToken letters :: tokens) text) :
    ∃ rest, Spaced tokens rest ∧ skipSpace text = '"' :: openString letters rest := by
  obtain ⟨rest, hrest, htext⟩ := hspaced.skipSpace_cons (by decide)
  refine ⟨rest, hrest, htext.trans ?_⟩
  rw [← stringToken_append]
  rfl

theorem Spaced.again_string {letters : List Letter} {rest : List Char}
    (hrest : Spaced tokens rest) :
    Spaced (stringToken letters :: tokens) ('"' :: openString letters rest) := by
  rw [← stringToken_append]
  exact hrest.again

end Spaced

/-! The character that a value begins with tells its kind. -/

def Numeral.opening (numeral : Numeral) : Char :=
  if numeral.negative then '-' else numeral.whole.headD '0'

def Tree.opening : Tree → Char
  | .null => 'n'
  | .boolean true => 't'
  | .boolean false => 'f'
  | .number numeral => numeral.opening
  | .text _ => '"'
  | .array _ => '['
  | .object _ => '\x7b'

theorem Numeral.opening_eq (numeral : Numeral) :
    numeral.opening.isDigit = true ∨ numeral.opening = '-' := by
  obtain ⟨c, more, hwhole, hc, -⟩ := numeral.exists_whole
  rw [opening, hwhole]
  split_ifs
  · exact .inr rfl
  · exact .inl hc

theorem Numeral.exists_chars (numeral : Numeral) :
    ∃ letters, numeral.chars = numeral.opening :: letters := by
  obtain ⟨c, more, hwhole, -⟩ := numeral.exists_whole
  have hchars : numeral.chars = numeral.sign ++ (numeral.whole ++ numeral.tail []) := by
    rw [← numeral.chars_append, List.append_nil]
  rw [hchars, hwhole, sign, opening, hwhole]
  split_ifs
  · exact ⟨_, rfl⟩
  · exact ⟨_, rfl⟩

theorem Numeral.opening_ne (numeral : Numeral) {c : Char} (hc : ¬ (c.isDigit = true ∨ c = '-')) :
    numeral.opening ≠ c := by
  rintro rfl
  exact hc numeral.opening_eq

theorem Tree.exists_tokens (tree : Tree) :
    ∃ letters tokens, tree.tokens = (tree.opening :: letters) :: tokens := by
  cases tree with
  | null => exact ⟨_, _, rfl⟩
  | boolean value => cases value <;> exact ⟨_, _, rfl⟩
  | number numeral =>
      obtain ⟨letters, hchars⟩ := numeral.exists_chars
      exact ⟨letters, [], congrArg (· :: []) hchars⟩
  | text letters => exact ⟨_, _, rfl⟩
  | array elements => exact ⟨_, _, rfl⟩
  | object members => exact ⟨_, _, rfl⟩

theorem Tree.opening_cases (tree : Tree) :
    isSpace tree.opening = false ∧ tree.opening ≠ ']' := by
  cases tree with
  | boolean value => cases value <;> decide
  | number numeral =>
      refine ⟨?_, numeral.opening_ne (by decide)⟩
      obtain hdigit | hminus := numeral.opening_eq
      · exact isSpace_of_isDigit hdigit
      · rw [Tree.opening, hminus]
        decide
  | null | text _ | array _ | object _ =>
      simp only [opening]
      decide

/-- The text from its first value on. -/
theorem Spaced.skipSpace_tree {tokens : List Token} {text : List Char} {tree : Tree}
    (hspaced : Spaced (tree.tokens ++ tokens) text) :
    ∃ rest, skipSpace text = tree.opening :: rest ∧
      Spaced (tree.tokens ++ tokens) (tree.opening :: rest) := by
  obtain ⟨letters, behind, htokens⟩ := tree.exists_tokens
  rw [htokens, List.cons_append] at hspaced ⊢
  obtain ⟨rest, hrest, htext⟩ := hspaced.skipSpace_cons tree.opening_cases.1
  exact ⟨_, htext, hrest.again⟩

theorem Spaced.skipSpace_number {tokens : List Token} {text : List Char} {numeral : Numeral}
    (hspaced : Spaced (numeral.chars :: tokens) text) :
    ∃ rest, Spaced tokens rest ∧ skipSpace text = numeral.chars ++ rest := by
  obtain ⟨letters, hchars⟩ := numeral.exists_chars
  rw [hchars] at hspaced ⊢
  exact hspaced.skipSpace_cons (Tree.number numeral).opening_cases.1

end Bindery.Json
