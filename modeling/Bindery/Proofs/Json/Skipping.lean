import Bindery.Proofs.Json.Tokens

namespace Bindery.Json

/-! Whole values passed over. Of any text that goes on with a value exactly that value is taken off,
whatever it is made of and however deep it is. -/

/-- The tokens in front are passed over, up to those that are to follow. -/
def Passes (skip : List Char → Except Fault (List Char)) (tokens more : List Token) : Prop :=
  ∀ text, Spaced (tokens ++ more) text → ∃ rest, Spaced more rest ∧ skip text = .ok rest

theorem skipColon_passes (more : List Token) : Passes skipColon [[':']] more := by
  intro text hspaced
  obtain ⟨rest, hrest, htext⟩ := hspaced.skipSpace_cons (by decide)
  refine ⟨rest, hrest, ?_⟩
  rw [skipColon, htext]
  rfl

/-- The depth that is left bounds the size of the value. -/
def Tree.Skips (tree : Tree) : Prop :=
  ∀ depth more, tree.tokens.flatten.length < depth → EndsTree more →
    Passes (skipValueWithin depth) tree.tokens more

theorem skipValueWithin_number {text letters : List Char} {c : Char}
    (hc : c.isDigit = true ∨ c = '-') (htext : skipSpace text = c :: letters) (depth : Nat) :
    skipValueWithin (depth + 1) text = skipNumber (c :: letters) := by
  rw [skipValueWithin, htext]
  split
  any_goals
    rename_i hother
    cases hother
  -- No other value begins with a digit or a minus.
  all_goals first
    | exact if_pos (by simpa using hc)
    | exact absurd hc (by decide)

theorem skips_number (numeral : Numeral) : (Tree.number numeral).Skips := by
  intro depth more hdepth hmore text hspaced
  obtain _ | depth := depth
  · contradiction
  obtain ⟨rest, hrest, htext⟩ := Spaced.skipSpace_number hspaced
  have hskip := skipNumber_chars numeral (hrest.endsNumber hmore)
  obtain ⟨letters, hchars⟩ := numeral.exists_chars
  rw [hchars] at htext hskip
  exact ⟨rest, hrest, (skipValueWithin_number numeral.opening_eq htext depth).trans hskip⟩

theorem skips_text (letters : List Letter) : (Tree.text letters).Skips := by
  intro depth more hdepth _ text hspaced
  obtain _ | depth := depth
  · contradiction
  obtain ⟨rest, hrest, htext⟩ := Spaced.skipSpace_string hspaced
  refine ⟨rest, hrest, ?_⟩
  rw [skipValueWithin, htext]
  exact skipChars_letters letters rest

theorem skips_null : Tree.null.Skips := by
  intro depth more hdepth _ text hspaced
  obtain _ | depth := depth
  · contradiction
  obtain ⟨rest, hrest, htext⟩ := Spaced.skipSpace_cons (by decide) hspaced
  refine ⟨rest, hrest, ?_⟩
  rw [skipValueWithin, htext]
  rfl

theorem skips_boolean (value : Bool) : (Tree.boolean value).Skips := by
  intro depth more hdepth _ text hspaced
  obtain _ | depth := depth
  · contradiction
  cases value with
  | true =>
      obtain ⟨rest, hrest, htext⟩ := Spaced.skipSpace_cons (by decide) hspaced
      refine ⟨rest, hrest, ?_⟩
      rw [skipValueWithin, htext]
      rfl
  | false =>
      obtain ⟨rest, hrest, htext⟩ := Spaced.skipSpace_cons (by decide) hspaced
      refine ⟨rest, hrest, ?_⟩
      rw [skipValueWithin, htext]
      rfl

/-- The first value of several, wherever what is left goes on to. -/
theorem Tree.Skips.skip_bind {tree : Tree} (htree : tree.Skips) (depth : Nat)
    (hdepth : tree.tokens.flatten.length < depth) {more : List Token} (hmore : EndsTree more)
    {text : List Char} (hspaced : Spaced (tree.tokens ++ more) text) :
    ∃ behind, Spaced more behind ∧ ∀ next : List Char → Except Fault (List Char),
      skipValueWithin depth text >>= next = next behind := by
  obtain ⟨behind, hbehind, hskip⟩ := htree depth more hdepth hmore text hspaced
  exact ⟨behind, hbehind, fun next => by rw [hskip, ok_bind]⟩

/-- A key, a colon and a value. -/
theorem Tree.Skips.skipMember_bind {value : Tree} (hvalue : value.Skips) (depth : Nat)
    (hdepth : value.tokens.flatten.length < depth) (key : List Letter) {more : List Token}
    (hmore : EndsTree more) {text : List Char}
    (hspaced : Spaced (stringToken key :: [':'] :: (value.tokens ++ more)) text) :
    ∃ letters behind, skipSpace text = '"' :: letters ∧ Spaced more behind ∧
      ∀ next : List Char → Except Fault (List Char),
        (do next (← skipValueWithin depth (← skipColon (← skipChars letters)))) = next behind := by
  obtain ⟨front, hfront, hkey⟩ := Spaced.skipSpace_string hspaced
  obtain ⟨inner, hinner, hcolon⟩ := skipColon_passes _ front hfront
  obtain ⟨behind, hbehind, hskip⟩ := hvalue.skip_bind depth hdepth hmore hinner
  refine ⟨_, behind, hkey, hbehind, fun next => ?_⟩
  rw [skipChars_letters, ok_bind, hcolon, ok_bind, hskip]

theorem skipElements_passes {elements : List Tree}
    (helements : ∀ element ∈ elements, element.Skips) {element : Tree} (helement : element.Skips)
    (depth : Nat) {more : List Token}
    (hdepth : (element.tokens ++ Tree.elementTokens false elements).flatten.length < depth) :
    Passes (skipElementsWithin depth) (element.tokens ++ Tree.elementTokens false elements)
      more := by
  intro text hspaced
  induction elements generalizing element depth text with
  | nil =>
      simp only [Tree.elementTokens, List.flatten_append, List.flatten_cons, List.length_append,
        List.length_cons] at hdepth
      obtain _ | depth := depth
      · contradiction
      rw [List.append_assoc] at hspaced
      obtain ⟨behind, hbehind, hskip⟩ :=
        helement.skip_bind depth (by omega) (endsTree_elementTokens [] more) hspaced
      obtain ⟨rest, hrest, htext⟩ := Spaced.skipSpace_cons (by decide) hbehind
      refine ⟨rest, hrest, ?_⟩
      rw [skipElementsWithin, hskip, htext]
      rfl
  | cons next elements ih =>
      obtain ⟨hnext, helements⟩ := List.forall_mem_cons.1 helements
      simp only [Tree.elementTokens, flatten_separator, List.flatten_append, List.length_append,
        List.length_singleton] at hdepth
      obtain _ | depth := depth
      · contradiction
      rw [List.append_assoc] at hspaced
      obtain ⟨behind, hbehind, hskip⟩ :=
        helement.skip_bind depth (by omega) (endsTree_elementTokens (next :: elements) more) hspaced
      obtain ⟨rest, hrest, htext⟩ := Spaced.skipSpace_cons (by decide) hbehind
      obtain ⟨last, hlast, hagain⟩ := ih helements hnext depth
        (by simp only [List.flatten_append, List.length_append]; omega) rest hrest
      refine ⟨last, hlast, ?_⟩
      rw [skipElementsWithin, hskip, htext]
      exact hagain

theorem skipMembers_passes {members : List (List Letter × Tree)}
    (hmembers : ∀ member ∈ members, member.2.Skips) (key : List Letter) {value : Tree}
    (hvalue : value.Skips) (depth : Nat) {more : List Token}
    (hdepth : (value.tokens ++ Tree.memberTokens false members).flatten.length < depth) :
    Passes (skipMembersWithin depth)
      (stringToken key :: [':'] :: (value.tokens ++ Tree.memberTokens false members)) more := by
  intro text hspaced
  induction members generalizing key value depth text with
  | nil =>
      simp only [Tree.memberTokens, List.flatten_append, List.flatten_cons, List.length_append,
        List.length_cons] at hdepth
      obtain _ | depth := depth
      · contradiction
      rw [List.cons_append, List.cons_append, List.append_assoc] at hspaced
      obtain ⟨letters, behind, hkey, hbehind, hskip⟩ :=
        hvalue.skipMember_bind depth (by omega) key (endsTree_memberTokens [] more) hspaced
      obtain ⟨rest, hrest, htext⟩ := Spaced.skipSpace_cons (by decide) hbehind
      refine ⟨rest, hrest, ?_⟩
      rw [skipMembersWithin, hkey]
      simp only
      rw [hskip, htext]
      rfl
  | cons next members ih =>
      obtain ⟨nextKey, nextValue⟩ := next
      obtain ⟨hnext, hmembers⟩ := List.forall_mem_cons.1 hmembers
      simp only [Tree.memberTokens, flatten_separator, List.flatten_append, List.flatten_cons,
        List.length_append, List.length_singleton] at hdepth
      obtain _ | depth := depth
      · contradiction
      rw [List.cons_append, List.cons_append, List.append_assoc] at hspaced
      obtain ⟨letters, behind, hkey, hbehind, hskip⟩ :=
        hvalue.skipMember_bind depth (by omega) key
          (endsTree_memberTokens ((nextKey, nextValue) :: members) more) hspaced
      obtain ⟨rest, hrest, htext⟩ := Spaced.skipSpace_cons (by decide) hbehind
      obtain ⟨last, hlast, hagain⟩ := ih hmembers nextKey hnext depth
        (by simp only [List.flatten_append, List.length_append]; omega) rest hrest
      refine ⟨last, hlast, ?_⟩
      rw [skipMembersWithin, hkey]
      simp only
      rw [hskip, htext]
      exact hagain

theorem skips_array {elements : List Tree} (helements : ∀ element ∈ elements, element.Skips) :
    (Tree.array elements).Skips := by
  intro depth more hdepth _ text hspaced
  obtain _ | depth := depth
  · contradiction
  cases elements with
  | nil =>
      obtain ⟨front, hfront, hopen⟩ := Spaced.skipSpace_cons (by decide) hspaced
      obtain ⟨rest, hrest, hclose⟩ := Spaced.skipSpace_cons (by decide) hfront
      refine ⟨rest, hrest, ?_⟩
      rw [skipValueWithin, hopen]
      simp only [List.nil_append, hclose]
  | cons element elements =>
      obtain ⟨helement, helements⟩ := List.forall_mem_cons.1 helements
      simp only [Tree.tokens, List.flatten_cons, List.length_append, List.length_singleton]
        at hdepth
      rw [Tree.elementTokens_first] at hdepth
      rw [Tree.tokens, Tree.elementTokens_first, List.cons_append, List.append_assoc] at hspaced
      obtain ⟨front, hfront, hopen⟩ := Spaced.skipSpace_cons (by decide) hspaced
      obtain ⟨inner, hfirst, hinner⟩ := hfront.skipSpace_tree
      rw [← List.append_assoc] at hinner
      obtain ⟨rest, hrest, hskip⟩ :=
        skipElements_passes helements helement depth (by omega) _ hinner
      refine ⟨rest, hrest, ?_⟩
      rw [skipValueWithin, hopen]
      simp only [List.nil_append, hfirst]
      split
      · contradiction
      · rename_i hbracket
        exact absurd (List.cons.inj hbracket).1 element.opening_cases.2
      · exact hskip

theorem skips_object {members : List (List Letter × Tree)}
    (hmembers : ∀ member ∈ members, member.2.Skips) : (Tree.object members).Skips := by
  intro depth more hdepth _ text hspaced
  obtain _ | depth := depth
  · contradiction
  cases members with
  | nil =>
      obtain ⟨front, hfront, hopen⟩ := Spaced.skipSpace_cons (by decide) hspaced
      obtain ⟨rest, hrest, hclose⟩ := Spaced.skipSpace_cons (by decide) hfront
      refine ⟨rest, hrest, ?_⟩
      rw [skipValueWithin, hopen]
      simp only [List.nil_append, hclose]
  | cons member members =>
      obtain ⟨key, value⟩ := member
      obtain ⟨(hvalue : value.Skips), hmembers⟩ := List.forall_mem_cons.1 hmembers
      simp only [Tree.tokens, Tree.memberTokens_first, List.flatten_cons, List.length_append,
        List.length_singleton] at hdepth
      obtain ⟨front, hfront, hopen⟩ := Spaced.skipSpace_cons (by decide) hspaced
      obtain ⟨behind, hbehind, hkey⟩ := Spaced.skipSpace_string hfront
      obtain ⟨rest, hrest, hskip⟩ := skipMembers_passes hmembers key hvalue depth (by omega) _
        hbehind.again_string
      refine ⟨rest, hrest, ?_⟩
      rw [skipValueWithin, hopen]
      simp only [List.nil_append, hkey]
      exact hskip

theorem Tree.skips (tree : Tree) : tree.Skips := by
  induction tree using Tree.induction with
  | null => exact skips_null
  | boolean value => exact skips_boolean value
  | number numeral => exact skips_number numeral
  | text letters => exact skips_text letters
  | array elements ih => exact skips_array ih
  | object members ih => exact skips_object ih

/-- The length of the text is depth enough. -/
theorem skipValue_passes (tree : Tree) {more : List Token} (hmore : EndsTree more) :
    Passes skipValue tree.tokens more := by
  intro text hspaced
  have hlength := hspaced.length_le
  rw [List.flatten_append, List.length_append] at hlength
  exact tree.skips _ more (by omega) hmore text hspaced

end Bindery.Json
