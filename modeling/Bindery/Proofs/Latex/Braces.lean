import Bindery.Proofs.Latex.Composition

namespace Bindery.Latex

/-! The nesting of braces in LaTeX. A backslash takes the character behind it out of the count. -/

/-- How many braces are open behind a text, if none is closed that was not opened and no backslash
is left at the end. -/
def braceDepth? (depth : Nat) : List Char → Option Nat
  | [] => some depth
  | ['\\'] => none
  | '\\' :: _ :: text => braceDepth? depth text
  | '\x7b' :: text => braceDepth? (depth + 1) text
  | '\x7d' :: text => if depth = 0 then none else braceDepth? (depth - 1) text
  | _ :: text => braceDepth? depth text

def IsBalanced (text : List Char) : Prop :=
  braceDepth? 0 text = some 0

instance (text : List Char) : Decidable (IsBalanced text) :=
  inferInstanceAs (Decidable (_ = _))

theorem braceDepth?_cons {c : Char} (hc : c ∉ codeReserved) (depth : Nat) (text : List Char) :
    braceDepth? depth (c :: text) = braceDepth? depth text := by
  have hne : c ≠ '\\' ∧ c ≠ '\x7b' ∧ c ≠ '\x7d' := by simpa [codeReserved] using hc
  rw [braceDepth?]
  · exact fun hlast _ => hne.1 hlast
  · exact fun _ _ hescape _ => hne.1 hescape
  · exact hne.2.1
  · exact hne.2.2

theorem braceDepth?_append {depth after : Nat} {text : List Char}
    (htext : braceDepth? depth text = some after) (rest : List Char) :
    braceDepth? depth (text ++ rest) = braceDepth? after rest := by
  fun_induction braceDepth? depth text with
  | case1 depth =>
      obtain rfl := Option.some.inj htext
      rfl
  | case2 => contradiction
  | case3 depth c text ih => exact ih htext
  | case4 depth text ih => exact ih htext
  | case5 => contradiction
  | case6 depth text hdepth ih =>
      rw [List.cons_append, braceDepth?, if_neg hdepth]
      exact ih htext
  | case7 depth c text hlast hescape hopen hclose ih =>
      have hc : c ∉ codeReserved := by cases text <;> simp_all [codeReserved]
      rw [List.cons_append, braceDepth?_cons hc]
      exact ih htext

/-- The same text inside further braces. -/
theorem braceDepth?_add {depth after : Nat} {text : List Char}
    (htext : braceDepth? depth text = some after) (extra : Nat) :
    braceDepth? (depth + extra) text = some (after + extra) := by
  fun_induction braceDepth? depth text with
  | case1 depth =>
      obtain rfl := Option.some.inj htext
      rfl
  | case2 => contradiction
  | case3 depth c text ih => exact ih htext
  | case4 depth text ih =>
      rw [braceDepth?, Nat.add_right_comm]
      exact ih htext
  | case5 => contradiction
  | case6 depth text hdepth ih =>
      have hmore : depth + extra ≠ 0 := by omega
      have hless : depth + extra - 1 = depth - 1 + extra := by omega
      rw [braceDepth?, if_neg hmore, hless]
      exact ih htext
  | case7 depth c text hlast hescape hopen hclose ih =>
      have hc : c ∉ codeReserved := by cases text <;> simp_all [codeReserved]
      rw [braceDepth?_cons hc]
      exact ih htext

theorem IsBalanced.append {front back : List Char} (hfront : IsBalanced front)
    (hback : IsBalanced back) : IsBalanced (front ++ back) :=
  (braceDepth?_append hfront back).trans hback

theorem IsBalanced.group {text : List Char} (htext : IsBalanced text) :
    IsBalanced (group text) :=
  braceDepth?_append (braceDepth?_add htext 1) ['\x7d']

theorem composes_isBalanced : Composes codeReserved IsBalanced where
  special_subset := List.Subset.refl codeReserved
  nil := rfl
  append := IsBalanced.append
  group := IsBalanced.group
  plain hc := braceDepth?_cons hc 0 []
  fixed := by decide

end Bindery.Latex
