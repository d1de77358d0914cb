import Bindery.Proofs.Json.Skipping

namespace Bindery.Json

variable {α β : Type}

/-! What a reader makes of a value depends on the value alone: not on the white space around its
tokens, nor on what follows it. -/

/-- How a text is left: with a value and the tokens that are to follow, or with a fault. -/
inductive Leaves (more : List Token) : Option α → Except Fault (α × List Char) → Prop
  | made (value : α) {rest : List Char} (hrest : Spaced more rest) :
      Leaves more (some value) (.ok (value, rest))
  | refused (fault : Fault) : Leaves more none (.error fault)

/-- The meaning of a tree, where the reader has one for it. -/
def Makes (read : Reader α) (tree : Tree) (value? : Option α) : Prop :=
  ∀ more text, EndsTree more → Spaced (tree.tokens ++ more) text → Leaves more value? (read text)

def Means (read : Reader α) (meaning : Tree → Option α) : Prop :=
  ∀ tree, Makes read tree (meaning tree)

/-- What is read of a tree without any white space. -/
def valueOf (read : Reader α) (tree : Tree) : Option α :=
  (read tree.tokens.flatten).toOption.map (·.1)

section Leaves

variable {more later : List Token} {value? : Option α} {result : Except Fault (α × List Char)}

theorem Leaves.of_error (hfault : ∃ fault, result = .error fault) : Leaves more none result := by
  obtain ⟨fault, rfl⟩ := hfault
  exact .refused fault

theorem Leaves.bind {meaning : α → Option β} {next : α × List Char → Except Fault (β × List Char)}
    (hleaves : Leaves more value? result)
    (hnext : ∀ value rest, Spaced more rest → Leaves later (meaning value) (next (value, rest))) :
    Leaves later (value?.bind meaning) (result >>= next) := by
  cases hleaves with
  | made value hrest => exact hnext value _ hrest
  | refused fault => exact .refused fault

theorem Leaves.map {f : α → β} (hleaves : Leaves more value? result) :
    Leaves more (value?.map f) (result >>= fun (value, rest) => .ok (f value, rest)) := by
  cases hleaves with
  | made value hrest => exact .made (f value) hrest
  | refused fault => exact .refused fault

theorem Leaves.pass {skip : List Char → Except Fault (List Char)} {tokens : List Token}
    (hleaves : Leaves (tokens ++ more) value? result) (hpasses : Passes skip tokens more) :
    Leaves more value?
      (result >>= fun (value, rest) => skip rest >>= fun rest => .ok (value, rest)) := by
  cases hleaves with
  | made value hrest =>
      obtain ⟨last, hlast, hskip⟩ := hpasses _ hrest
      simp only [ok_bind, hskip]
      exact .made value hlast
  | refused fault => exact .refused fault

theorem Leaves.toOption (hleaves : Leaves more value? result) :
    result.toOption.map (·.1) = value? := by
  cases hleaves <;> rfl

end Leaves

theorem Makes.valueOf_eq {read : Reader α} {tree : Tree} {value? : Option α}
    (hmakes : Makes read tree value?) : valueOf read tree = value? :=
  (hmakes [] _ endsTree_nil (by rw [List.append_nil]; exact .flatten _)).toOption

theorem Means.makes_valueOf {read : Reader α} {meaning : Tree → Option α}
    (hmeans : Means read meaning) : Means read (valueOf read) := by
  intro tree
  rw [(hmeans tree).valueOf_eq]
  exact hmeans tree

/-- A value of a kind that the reader refuses by its first character. -/
theorem makes_none {read : Reader α} {tree : Tree}
    (hread : ∀ text rest, skipSpace text = tree.opening :: rest →
      ∃ fault, read text = .error fault) : Makes read tree none := by
  intro more text _ hspaced
  obtain ⟨rest, htext, -⟩ := hspaced.skipSpace_tree
  exact .of_error (hread text rest htext)

/-! Strings. -/

def Tree.text? : Tree → Option String
  | .text letters => decodeText letters
  | _ => none

def Tree.textOrNull? : Tree → Option (Option String)
  | .null => some none
  | tree => tree.text?.map some

theorem readChars_leaves (letters : List Letter) {more : List Token} {rest : List Char}
    (hrest : Spaced more rest) :
    Leaves more (decodeText letters)
      (readChars (openString letters rest) >>= fun (chars, rest) =>
        .ok (String.ofList chars, rest)) := by
  have hread := readChars_letters letters rest
  rw [decodeText]
  cases hletters : decodeLetters letters with
  | none =>
      rw [hletters] at hread
      cases hchars : readChars (openString letters rest) with
      | error fault => exact .refused fault
      | ok result => simp [hchars, Except.toOption] at hread
  | some chars =>
      rw [hletters] at hread
      cases hchars : readChars (openString letters rest) with
      | error fault => simp [hchars, Except.toOption] at hread
      | ok result =>
          obtain rfl : result = (chars, rest) := by simpa [hchars, Except.toOption] using hread
          exact .made _ hrest

theorem readText_of_ne {text rest : List Char} {c : Char} (htext : skipSpace text = c :: rest)
    (hc : c ≠ '"') : ∃ fault, readText text = .error fault := by
  rw [readText, htext]
  split
  · rename_i hquote
    exact absurd (List.cons.inj hquote).1 hc
  · exact ⟨_, rfl⟩

theorem readText_means : Means readText Tree.text? := by
  intro tree
  cases tree with
  | text letters =>
      intro more text _ hspaced
      obtain ⟨rest, hrest, htext⟩ := Spaced.skipSpace_string hspaced
      rw [readText, htext]
      exact readChars_leaves letters hrest
  | boolean value =>
      cases value <;> exact makes_none fun text rest htext => readText_of_ne htext (by decide)
  | number numeral =>
      exact makes_none fun text rest htext =>
        readText_of_ne htext (numeral.opening_ne (by decide))
  | null | array _ | object _ =>
      exact makes_none fun text rest htext => readText_of_ne htext (by simp [Tree.opening])

theorem readTextOrNull_makes {tree : Tree} (hnull : tree.opening ≠ 'n') :
    Makes readTextOrNull tree (tree.text?.map some) := by
  intro more text hmore hspaced
  obtain ⟨rest, htext, hagain⟩ := hspaced.skipSpace_tree
  have hread := readText_means tree more _ hmore hagain
  rw [readTextOrNull, htext]
  split
  · rename_i hopening
    exact absurd (List.cons.inj hopening).1 hnull
  · exact hread.map

theorem readTextOrNull_means : Means readTextOrNull Tree.textOrNull? := by
  intro tree
  cases tree with
  | null =>
      intro more text _ hspaced
      obtain ⟨rest, hrest, htext⟩ := Spaced.skipSpace_cons (by decide) hspaced
      rw [readTextOrNull, htext]
      exact .made none hrest
  | boolean value => cases value <;> exact readTextOrNull_makes (by decide)
  | number numeral => exact readTextOrNull_makes (numeral.opening_ne (by decide))
  | text _ | array _ | object _ => exact readTextOrNull_makes (by simp [Tree.opening])

/-! Numbers. -/

def Tree.word? : Tree → Option UInt32
  | .number numeral => numeral.word?
  | _ => none

theorem readWord_of_ne {text rest : List Char} {c : Char} (htext : skipSpace text = c :: rest)
    (hc : (c.isDigit || c == '-') = false) : ∃ fault, readWord text = .error fault := by
  rw [readWord, htext]
  simp only [hc, Bool.false_eq_true, if_false]
  exact ⟨_, rfl⟩

theorem readWord_number {text rest : List Char} {numeral : Numeral}
    (htext : skipSpace text = numeral.chars ++ rest) :
    readWord text = readNumber (numeral.chars ++ rest) >>= fun (number, rest) =>
      match number.word with
      | .ok value => .ok (value, rest)
      | .error cause => .error (faultBefore cause rest) := by
  obtain ⟨letters, hchars⟩ := numeral.exists_chars
  have hopening : (numeral.opening.isDigit || numeral.opening == '-') = true := by
    simpa using numeral.opening_eq
  rw [readWord, htext, hchars, List.cons_append]
  exact if_pos hopening

theorem readWord_means : Means readWord Tree.word? := by
  intro tree
  cases tree with
  | number numeral =>
      intro more text hmore hspaced
      obtain ⟨rest, hrest, htext⟩ := Spaced.skipSpace_number hspaced
      have hends := hrest.endsNumber hmore
      rw [readWord_number htext, Tree.word?]
      cases hword : numeral.word? with
      | some word =>
          obtain ⟨number, hread, hnumber⟩ := readNumber_of_word? numeral hends hword
          rw [hread, ok_bind]
          simp only [hnumber]
          exact .made word hrest
      | none =>
          have hwordless := wordless_of_word? numeral hends hword
          cases hread : readNumber (numeral.chars ++ rest) with
          | error fault => exact .refused fault
          | ok result =>
              obtain ⟨cause, hcause⟩ := hwordless _ _ hread
              simp only [ok_bind, hcause]
              exact .refused _
  | boolean value =>
      cases value <;> exact makes_none fun text rest htext => readWord_of_ne htext (by decide)
  | null | text _ | array _ | object _ =>
      exact makes_none fun text rest htext => readWord_of_ne htext (by rw [Tree.opening]; decide)

/-! Lists. -/

def Tree.list? (meaning : Tree → Option α) : Tree → Option (List α)
  | .array elements => elements.mapM meaning
  | _ => none

section Elements

variable {tokens more : List Token} {text : List Char}

theorem nextElement?_none (hspaced : Spaced ([']'] :: tokens) text) (isFirst : Bool) :
    nextElement? isFirst text = .ok none := by
  obtain ⟨rest, -, htext⟩ := hspaced.skipSpace_cons (by decide)
  rw [nextElement?, htext]
  rfl

theorem nextElement?_some {isFirst : Bool} {tree : Tree}
    (hspaced : Spaced (separator isFirst ++ (tree.tokens ++ tokens)) text) :
    ∃ element, Spaced (tree.tokens ++ tokens) element ∧
      nextElement? isFirst text = .ok (some element) := by
  have hclose := tree.opening_cases.2
  cases isFirst with
  | true =>
      obtain ⟨rest, htext, hagain⟩ := Spaced.skipSpace_tree hspaced
      refine ⟨_, hagain, ?_⟩
      rw [nextElement?, htext]
      simp
  | false =>
      obtain ⟨behind, hbehind, hcomma⟩ := Spaced.skipSpace_cons (by decide) hspaced
      obtain ⟨rest, htext, hagain⟩ := Spaced.skipSpace_tree hbehind
      refine ⟨_, hagain, ?_⟩
      rw [nextElement?, hcomma]
      simp [htext, hclose]

theorem closeList_passes (more : List Token) : Passes closeList [[']']] more := by
  intro text hspaced
  obtain ⟨rest, hrest, htext⟩ := hspaced.skipSpace_cons (by decide)
  refine ⟨rest, hrest, ?_⟩
  rw [closeList, htext]
  rfl

theorem readElements_leaves {read : Reader α} {meaning : Tree → Option α}
    (hread : Means read meaning) {elements : List Tree} {isFirst : Bool} {bound : Nat}
    (hbound : elements.length < bound)
    (hspaced : Spaced (Tree.elementTokens isFirst elements ++ more) text) :
    Leaves ([']'] :: more) (elements.mapM meaning) (readElements read bound isFirst text) := by
  induction elements generalizing isFirst bound text with
  | nil =>
      obtain _ | bound := bound
      · contradiction
      rw [readElements, nextElement?_none hspaced, ok_bind]
      exact .made [] hspaced
  | cons tree elements ih =>
      obtain _ | bound := bound
      · contradiction
      rw [Tree.elementTokens, List.append_assoc, List.append_assoc] at hspaced
      obtain ⟨element, helement, hnext⟩ := nextElement?_some hspaced
      rw [readElements, hnext, ok_bind, List.mapM_cons]
      refine (hread tree _ element (endsTree_elementTokens elements more) helement).bind ?_
      intro value rest hrest
      exact (ih (Nat.lt_of_succ_lt_succ hbound) hrest).bind fun values _ hlast =>
        .made (value :: values) hlast

theorem Tree.tokens_length_pos (tree : Tree) : 0 < tree.tokens.flatten.length := by
  obtain ⟨letters, behind, htokens⟩ := tree.exists_tokens
  simp [htokens]

theorem Tree.length_le_elementTokens (elements : List Tree) (isFirst : Bool) :
    elements.length ≤ (Tree.elementTokens isFirst elements).flatten.length := by
  induction elements generalizing isFirst with
  | nil => simp
  | cons element elements ih =>
      have hfirst := element.tokens_length_pos
      have hmore := ih false
      simp only [Tree.elementTokens, List.flatten_append, List.length_append, List.length_cons]
      omega

theorem readList_of_ne {read : Reader α} {rest : List Char} {c : Char}
    (htext : skipSpace text = c :: rest) (hc : c ≠ '[') :
    ∃ fault, readList read text = .error fault := by
  rw [readList, htext]
  split
  · rename_i hopen
    exact absurd (List.cons.inj hopen).1 hc
  · exact ⟨_, rfl⟩

theorem readList_means {read : Reader α} {meaning : Tree → Option α}
    (hread : Means read meaning) : Means (readList read) (Tree.list? meaning) := by
  intro tree
  cases tree with
  | array elements =>
      intro more text _ hspaced
      rw [Tree.tokens, List.cons_append] at hspaced
      obtain ⟨behind, hbehind, htext⟩ := Spaced.skipSpace_cons (by decide) hspaced
      have hbound := Tree.length_le_elementTokens elements true
      have hlength := hbehind.length_le
      rw [List.flatten_append, List.length_append] at hlength
      have hmore : elements.length < behind.length + 1 := by omega
      rw [readList, htext]
      exact (readElements_leaves hread hmore hbehind).pass (closeList_passes more)
  | boolean value =>
      cases value <;> exact makes_none fun text rest htext => readList_of_ne htext (by decide)
  | number numeral =>
      exact makes_none fun text rest htext =>
        readList_of_ne htext (numeral.opening_ne (by decide))
  | null | text _ | object _ =>
      exact makes_none fun text rest htext => readList_of_ne htext (by simp [Tree.opening])

end Elements

/-- A whole text that spells a tree is read as what the tree means. -/
theorem Means.readWhole_eq_ok {read : Reader α} {meaning : Tree → Option α}
    (hread : Means read meaning) {tree : Tree} {text : List Char} (htext : tree.Spells text)
    (value : α) : readWhole read text = .ok value ↔ meaning tree = some value := by
  have hleaves := hread tree [] text endsTree_nil (by rwa [List.append_nil])
  rw [readWhole]
  generalize meaning tree = value? at hleaves ⊢
  generalize read text = result at hleaves ⊢
  cases hleaves with
  | refused fault => simp
  | made value hrest =>
      simp only [ok_bind, hrest.skipSpace_nil]
      exact ⟨fun hvalue => congrArg some (Except.ok.inj hvalue),
        fun hvalue => congrArg Except.ok (Option.some.inj hvalue)⟩

end Bindery.Json
