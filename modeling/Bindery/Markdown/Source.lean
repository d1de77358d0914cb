import Bindery.Markdown.Scan

namespace Bindery.Markdown

/-! A fragment before it is cut into lines: every line end is a single line feed, and draft comments
are gone. -/

def unifyLineEnds : List Char → List Char
  | [] => []
  | '\r' :: '\n' :: text => '\n' :: unifyLineEnds text
  | c :: text => c :: unifyLineEnds text

theorem unifyLineEnds_cons (c : Char) (text : List Char) :
    (∃ behind, c = '\r' ∧ text = '\n' :: behind ∧
        unifyLineEnds (c :: text) = unifyLineEnds text) ∨
      unifyLineEnds (c :: text) = c :: unifyLineEnds text := by
  by_cases hpair : ∃ behind, c = '\r' ∧ text = '\n' :: behind
  · obtain ⟨behind, rfl, rfl⟩ := hpair
    exact .inl ⟨behind, rfl, rfl, by simp [unifyLineEnds]⟩
  · refine .inr (unifyLineEnds.eq_3 c text fun behind hc htext => ?_)
    exact hpair ⟨behind, hc, htext⟩

theorem unifyLineEnds_append {front behind : List Char}
    (hseam : front.getLast? = some '\r' → behind.head? ≠ some '\n') :
    unifyLineEnds (front ++ behind) = unifyLineEnds front ++ unifyLineEnds behind := by
  fun_induction unifyLineEnds front with
  | case1 => rfl
  | case2 text ih =>
      have htext := ih fun hlast => hseam (by simp [List.getLast?_cons, hlast])
      simp [unifyLineEnds, htext]
  | case3 c text hpair ih =>
      have htext := ih fun hlast => hseam (by simp [List.getLast?_cons, hlast])
      rw [List.cons_append, unifyLineEnds, htext, List.cons_append]
      rintro after rfl hafter
      cases text with
      | nil => exact hseam rfl (congrArg List.head? hafter)
      | cons d text =>
          obtain ⟨rfl, rfl⟩ := List.cons.inj hafter
          exact hpair text rfl rfl

theorem unifyLineEnds_marks {marks : List Char} (hmarks : '\r' ∉ marks) (behind : List Char) :
    unifyLineEnds (marks ++ behind) = marks ++ unifyLineEnds behind := by
  induction marks with
  | nil => rfl
  | cons c marks ih =>
      obtain ⟨hc, hmarks⟩ := List.ne_and_not_mem_of_not_mem_cons hmarks
      obtain ⟨_, rfl, -⟩ | hkept := unifyLineEnds_cons c (marks ++ behind)
      · contradiction
      · rw [List.cons_append, hkept, ih hmarks, List.cons_append]

def afterCommentEnd? : List Char → Option (List Char)
  | [] => none
  | '-' :: '-' :: '>' :: text => some text
  | _ :: text => afterCommentEnd? text

theorem afterCommentEnd?_length {text rest : List Char}
    (hend : afterCommentEnd? text = some rest) : rest.length < text.length := by
  fun_induction afterCommentEnd? text with
  | case1 => contradiction
  | case2 text =>
      obtain rfl := Option.some.inj hend
      simp only [List.length_cons]
      omega
  | case3 c text _ ih => exact Nat.lt_succ_of_lt (ih hend)

def findComment? : List Char → Option (Unit × List Char)
  | '<' :: '!' :: '-' :: '-' :: body => (afterCommentEnd? body).map ((), ·)
  | _ => none

def commentPattern : Pattern Char Unit where
  find? := findComment?
  shortens {text} _ _ hfound := by
    fun_cases findComment? text with
    | case1 body =>
        obtain ⟨after, hafter, hpair⟩ := Option.map_eq_some_iff.1 hfound
        obtain ⟨_, rfl⟩ := Prod.mk.inj hpair
        have hlength := afterCommentEnd?_length hafter
        simp only [List.length_cons]
        omega
    | case2 => simp_all [findComment?]

/-- A comment leaves nothing behind; one that nothing closes is ordinary text. -/
def stripComments (text : List Char) : List Char :=
  (commentPattern.replace (fun _ => []) ([·]) text).flatten

def sourceLines (markdown : List Char) : List (List Char) :=
  (stripComments (unifyLineEnds markdown)).splitOn '\n'

end Bindery.Markdown
