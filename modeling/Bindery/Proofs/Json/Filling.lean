import Bindery.Proofs.Json.Meaning

namespace Bindery.Json

variable {α β δ : Type}

/-! What is made of a record: of an object by filling the field that each member's key names, of a
list by filling the fields in turn. -/

/-- No field is filled twice. -/
def RecordField.fill (field : RecordField δ) (draft : δ) (tree : Tree) : Option δ :=
  if field.isRead draft then none else valueOf (field.read draft) tree

/-- Members that the shape does not know change nothing. -/
def Shape.fillKey (shape : Shape δ α) (draft : δ) (key : String) (tree : Tree) : Option δ :=
  match shape.field? key with
  | none => some draft
  | some field => field.fill draft tree

def Shape.fill (shape : Shape δ α) (draft : δ) (member : List Letter × Tree) : Option δ :=
  (decodeText member.1).bind (shape.fillKey draft · member.2)

def fillInOrder : List (RecordField δ) → δ → List Tree → Option δ
  | [], draft, [] => some draft
  | [], _, _ :: _ => none
  | field :: fields, draft, [] => if field.hasDefault then fillInOrder fields draft [] else none
  | field :: fields, draft, element :: elements =>
      (valueOf (field.read draft) element).bind (fillInOrder fields · elements)

def Shape.draft? (shape : Shape δ α) : Tree → Option δ
  | .object members => members.foldlM shape.fill shape.blank
  | .array elements => fillInOrder shape.fields shape.blank elements
  | _ => none

def Shape.record? (shape : Shape δ α) (tree : Tree) : Option α :=
  (shape.draft? tree).bind fun draft => (shape.finish draft).toOption

/-- A field whose values are read by what they mean, and that shows when one was read. -/
structure RecordField.Lawful (field : RecordField δ) : Prop where
  means (draft : δ) : Means (field.read draft) (valueOf (field.read draft))
  fills {draft later : δ} {tree : Tree} :
    valueOf (field.read draft) tree = some later → field.isRead later = true

section Field

variable (key : String) (hasDefault : Bool) (read : Reader β) (get : δ → Option β)
  (set : δ → β → δ)

theorem valueOf_field (draft : δ) (tree : Tree) :
    valueOf ((RecordField.of key hasDefault read get set).read draft) tree =
      (valueOf read tree).map (set draft) := by
  change Option.map _ (Except.toOption (read tree.tokens.flatten >>= fun result =>
    .ok (set draft result.1, result.2))) = _
  rw [valueOf]
  cases read tree.tokens.flatten <;> rfl

theorem RecordField.Lawful.of {read : Reader β} {meaning : Tree → Option β}
    (hread : Means read meaning) (hget : ∀ draft value, (get (set draft value)).isSome = true) :
    (RecordField.of key hasDefault read get set).Lawful where
  means draft := by
    have hfield : Means ((RecordField.of key hasDefault read get set).read draft)
        fun tree => (meaning tree).map (set draft) :=
      fun tree more text hmore hspaced => (hread tree more text hmore hspaced).map
    exact hfield.makes_valueOf
  fills {draft later tree} hlater := by
    rw [valueOf_field] at hlater
    obtain ⟨value, -, rfl⟩ := Option.map_eq_some_iff.1 hlater
    exact hget draft value

end Field

def Shape.Lawful (shape : Shape δ α) : Prop :=
  ∀ field ∈ shape.fields, field.Lawful

section Members

variable {more tokens : List Token} {text : List Char}

theorem nextKey?_leaves {isFirst : Bool} {letters : List Letter}
    (hspaced : Spaced (separator isFirst ++ stringToken letters :: tokens) text) :
    ∃ result, Leaves tokens (decodeText letters) result ∧
      nextKey? isFirst text = result.map some := by
  suffices hopen : ∃ rest, Spaced tokens rest ∧
      nextKey? isFirst text = readChars (openString letters rest) >>= fun result =>
        .ok (some (String.ofList result.1, result.2)) by
    obtain ⟨rest, hrest, hnext⟩ := hopen
    refine ⟨_, readChars_leaves letters hrest, hnext.trans ?_⟩
    cases readChars (openString letters rest) <;> rfl
  cases isFirst with
  | true =>
      obtain ⟨rest, hrest, htext⟩ := Spaced.skipSpace_string hspaced
      refine ⟨rest, hrest, ?_⟩
      rw [nextKey?, htext]
      rfl
  | false =>
      obtain ⟨behind, hbehind, hcomma⟩ := Spaced.skipSpace_cons (by decide) hspaced
      obtain ⟨rest, hrest, htext⟩ := Spaced.skipSpace_string hbehind
      refine ⟨rest, hrest, ?_⟩
      rw [nextKey?, hcomma]
      simp [htext]
      rfl

theorem nextKey?_none (hspaced : Spaced (['\x7d'] :: tokens) text) (isFirst : Bool) :
    nextKey? isFirst text = .ok none := by
  obtain ⟨rest, -, htext⟩ := hspaced.skipSpace_cons (by decide)
  rw [nextKey?, htext]
  rfl

theorem Tree.length_le_memberTokens (members : List (List Letter × Tree)) (isFirst : Bool) :
    members.length ≤ (Tree.memberTokens isFirst members).flatten.length := by
  induction members generalizing isFirst with
  | nil => simp
  | cons member members ih =>
      obtain ⟨key, value⟩ := member
      have hfirst := value.tokens_length_pos
      have hmore := ih false
      simp only [Tree.memberTokens, List.flatten_append, List.flatten_cons, List.length_append,
        List.length_cons]
      omega

theorem closeObject_passes (more : List Token) : Passes closeObject [['\x7d']] more := by
  intro text hspaced
  obtain ⟨rest, hrest, htext⟩ := hspaced.skipSpace_cons (by decide)
  refine ⟨rest, hrest, ?_⟩
  rw [closeObject, htext]
  rfl

/-- One member after the other fills the draft, or is passed over, up to the closing brace. -/
theorem Shape.Lawful.readMembers {shape : Shape δ α} (hlawful : shape.Lawful)
    {members : List (List Letter × Tree)} {isFirst : Bool} {bound : Nat}
    (hbound : members.length < bound) (draft : δ)
    (hspaced : Spaced (Tree.memberTokens isFirst members ++ more) text) :
    Leaves (['\x7d'] :: more) (members.foldlM shape.fill draft)
      (shape.readMembers bound isFirst draft text) := by
  induction members generalizing isFirst bound draft text with
  | nil =>
      obtain _ | bound := bound
      · contradiction
      rw [Shape.readMembers, nextKey?_none hspaced, ok_bind]
      exact .made draft hspaced
  | cons member members ih =>
      obtain ⟨letters, value⟩ := member
      obtain _ | bound := bound
      · contradiction
      have hmore := Nat.lt_of_succ_lt_succ hbound
      rw [Tree.memberTokens, List.append_assoc, List.cons_append, List.cons_append,
        List.append_assoc] at hspaced
      obtain ⟨result, hleaves, hnext⟩ := nextKey?_leaves hspaced
      rw [Shape.readMembers, hnext, List.foldlM_cons, Shape.fill]
      generalize decodeText letters = key? at hleaves
      cases hleaves with
      | refused fault => exact .refused fault
      | made key hrest =>
          obtain ⟨behind, hbehind, hcolon⟩ := skipColon_passes _ _ hrest
          have hends := endsTree_memberTokens members more
          cases hfield : shape.field? key with
          | none =>
              obtain ⟨later, hlater, hskip⟩ := skipValue_passes value hends behind hbehind
              simp only [Except.map, ok_bind, Option.bind_some, fillKey, hfield, hcolon, hskip]
              exact ih hmore draft hlater
          | some field =>
              have hmem : field ∈ shape.fields := List.mem_of_find?_eq_some hfield
              simp only [Except.map, ok_bind, Option.bind_some, fillKey, RecordField.fill, hfield]
              split_ifs
              · exact .refused _
              · simp only [hcolon, ok_bind]
                exact ((hlawful field hmem).means draft value _ behind hends hbehind).bind
                  fun draft rest hlater => ih hmore draft hlater

end Members

section Elements

variable {more : List Token} {text : List Char}

theorem closeList_of_cons {element : Tree} {elements : List Tree} {isFirst : Bool}
    (hspaced : Spaced (Tree.elementTokens isFirst (element :: elements) ++ more) text) :
    ∃ fault, closeList text = .error fault := by
  cases isFirst with
  | true =>
      rw [Tree.elementTokens_first, List.append_assoc] at hspaced
      obtain ⟨rest, htext, -⟩ := hspaced.skipSpace_tree
      rw [closeList, htext]
      split
      · contradiction
      · rename_i hbracket
        exact absurd (List.cons.inj hbracket).1 element.opening_cases.2
      · split <;> exact ⟨_, rfl⟩
      · exact ⟨_, rfl⟩
  | false =>
      obtain ⟨rest, -, htext⟩ := Spaced.skipSpace_cons (by decide) hspaced
      rw [closeList, htext]
      simp only
      split <;> exact ⟨_, rfl⟩

/-- The fields take the elements in turn. A list that goes on behind the last field is refused at
its end. -/
theorem Shape.readFields_leaves (shape : Shape δ α) {fields : List (RecordField δ)}
    (hfields : ∀ field ∈ fields, field.Lawful)
    {elements : List Tree} (count : Nat) (draft : δ)
    (hspaced : Spaced (Tree.elementTokens (count == 0) elements ++ more) text) :
    Leaves more (fillInOrder fields draft elements)
      (shape.readFields fields count draft text >>= fun (draft, rest) =>
        closeList rest >>= fun rest => .ok (draft, rest)) := by
  induction fields generalizing elements count draft text with
  | nil =>
      rw [readFields, ok_bind]
      cases elements with
      | nil =>
          obtain ⟨rest, hrest, hclose⟩ := closeList_passes more text hspaced
          simp only [hclose, ok_bind]
          exact .made draft hrest
      | cons element elements =>
          obtain ⟨fault, hfault⟩ := closeList_of_cons hspaced
          simp only [hfault, error_bind]
          exact .refused fault
  | cons field fields ih =>
      obtain ⟨hfield, hfields⟩ := List.forall_mem_cons.1 hfields
      cases elements with
      | nil =>
          rw [readFields, nextElement?_none hspaced, ok_bind, fillInOrder]
          simp only
          split_ifs
          · exact ih hfields _ draft hspaced
          · obtain ⟨rest, hrest, hclose⟩ := closeList_passes more text hspaced
            simp only [hclose, ok_bind, error_bind]
            exact .refused _
      | cons tree elements =>
          rw [Tree.elementTokens, List.append_assoc, List.append_assoc] at hspaced
          obtain ⟨element, helement, hnext⟩ := nextElement?_some hspaced
          rw [readFields, hnext, ok_bind, fillInOrder]
          simp only [bind_assoc]
          have hends := endsTree_elementTokens elements more
          refine (hfield.means draft tree _ element hends helement).bind ?_
          intro draft rest hrest
          exact ih hfields _ draft hrest

end Elements

/-! A whole record. -/

theorem Shape.read_of_ne {shape : Shape δ α} {text rest : List Char} {c : Char}
    (htext : skipSpace text = c :: rest) (hobject : c ≠ '\x7b') (hlist : c ≠ '[') :
    ∃ fault, shape.read text = .error fault := by
  rw [Shape.read, htext]
  split
  · rename_i hopen
    exact absurd (List.cons.inj hopen).1 hobject
  · rename_i hopen
    exact absurd (List.cons.inj hopen).1 hlist
  · exact ⟨_, rfl⟩

theorem Shape.complete_leaves (shape : Shape δ α) (draft : δ) {more : List Token}
    {rest : List Char} (hrest : Spaced more rest) :
    Leaves more (shape.finish draft).toOption (shape.complete draft rest) := by
  rw [Shape.complete]
  cases shape.finish draft with
  | ok record => exact .made record hrest
  | error key => exact .refused _

theorem Shape.Lawful.read_means {shape : Shape δ α} (hlawful : shape.Lawful) :
    Means shape.read shape.record? := by
  intro tree
  cases tree with
  | object members =>
      intro more text _ hspaced
      rw [Tree.tokens, List.cons_append] at hspaced
      obtain ⟨behind, hbehind, htext⟩ := Spaced.skipSpace_cons (by decide) hspaced
      have hcount := Tree.length_le_memberTokens members true
      have hlength := hbehind.length_le
      rw [List.flatten_append, List.length_append] at hlength
      have hbound : members.length < behind.length + 1 := by omega
      rw [Shape.read, htext]
      refine (hlawful.readMembers hbound shape.blank hbehind).bind fun draft rest hrest => ?_
      obtain ⟨last, hlast, hclose⟩ := closeObject_passes more rest hrest
      simp only [hclose, ok_bind]
      exact shape.complete_leaves draft hlast
  | array elements =>
      intro more text _ hspaced
      obtain ⟨behind, hbehind, htext⟩ := Spaced.skipSpace_cons (by decide) hspaced
      have hfields := shape.readFields_leaves hlawful 0 shape.blank hbehind
      have hread : shape.read text =
          (shape.readFields shape.fields 0 shape.blank behind >>= fun (draft, rest) =>
            closeList rest >>= fun rest => .ok (draft, rest)) >>= fun (draft, rest) =>
              shape.complete draft rest := by
        rw [Shape.read, htext]
        simp only [bind_assoc, ok_bind]
        rfl
      rw [hread]
      exact hfields.bind fun draft rest hrest => shape.complete_leaves draft hrest
  | boolean value =>
      cases value <;>
        exact makes_none fun text rest htext => read_of_ne htext (by decide) (by decide)
  | number numeral =>
      exact makes_none fun text rest htext =>
        read_of_ne htext (numeral.opening_ne (by decide)) (numeral.opening_ne (by decide))
  | null | text _ =>
      exact makes_none fun text rest htext =>
        read_of_ne htext (by simp [Tree.opening]) (by simp [Tree.opening])

end Bindery.Json
