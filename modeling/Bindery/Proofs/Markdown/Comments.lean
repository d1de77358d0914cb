import Mathlib.Data.List.Infix
import Bindery.Markdown.Itemize

namespace Bindery.Markdown

/-! A draft comment leaves no trace in the LaTeX of a fragment: whatever its body says, it is gone
before the text is cut into lines. -/

def commentStart : List Char :=
  ['<', '!', '-', '-']

def commentEnd : List Char :=
  ['-', '-', '>']

/-- Marks without a line feed stand in the unified text where they stand in the text. -/
theorem eq_append_of_unifyLineEnds {text marks behind : List Char} (hmarks : '\n' ∉ marks)
    (htext : unifyLineEnds text = marks ++ behind) :
    ∃ after, text = marks ++ after ∧ unifyLineEnds after = behind := by
  induction marks generalizing text with
  | nil => exact ⟨text, rfl, htext⟩
  | cons c marks ih =>
      obtain ⟨hc, hrest⟩ := List.ne_and_not_mem_of_not_mem_cons hmarks
      cases text with
      | nil => contradiction
      | cons d text =>
          obtain ⟨after, rfl, rfl, hunified⟩ | hkept := unifyLineEnds_cons d text
          · rw [unifyLineEnds] at htext
            exact absurd (List.cons.inj htext).1 hc
          · obtain ⟨rfl, htail⟩ := List.cons.inj (hkept.symm.trans htext)
            obtain ⟨after, rfl, hafter⟩ := ih hrest htail
            exact ⟨after, rfl, hafter⟩

/-! Where a comment ends. -/

theorem afterCommentEnd?_append {body : List Char} (hbody : ¬ commentEnd <:+: body)
    (behind : List Char) : afterCommentEnd? (body ++ (commentEnd ++ behind)) = some behind := by
  induction body with
  | nil => rfl
  | cons c body ih =>
      have hrest : ¬ commentEnd <:+: body := fun hwithin => hbody (List.infix_cons hwithin)
      rw [List.cons_append, afterCommentEnd?, ih hrest]
      rintro after rfl hafter
      match body with
      | [] => simp [commentEnd] at hafter
      | [d] => simp [commentEnd] at hafter
      | d :: e :: body =>
          simp only [List.cons_append, List.cons.injEq] at hafter
          obtain ⟨rfl, rfl, -⟩ := hafter
          exact hbody ⟨[], body, rfl⟩

theorem afterCommentEnd?_sound {body rest : List Char} (hend : afterCommentEnd? body = some rest) :
    ∃ inner, body = inner ++ (commentEnd ++ rest) ∧ ¬ commentEnd <:+: inner := by
  fun_induction afterCommentEnd? body with
  | case1 => contradiction
  | case2 text =>
      obtain rfl := Option.some.inj hend
      exact ⟨[], rfl, by decide⟩
  | case3 c text hother ih =>
      obtain ⟨inner, rfl, hinner⟩ := ih hend
      refine ⟨c :: inner, rfl, fun hwithin => ?_⟩
      obtain ⟨behind, hbegins⟩ | hwithin := List.infix_cons_iff.1 hwithin
      · obtain ⟨rfl, rfl⟩ := List.cons.inj hbegins
        exact hother _ rfl rfl
      · exact hinner hwithin

theorem afterCommentEnd?_unifyLineEnds (body : List Char) :
    afterCommentEnd? (unifyLineEnds body) = (afterCommentEnd? body).map unifyLineEnds := by
  fun_induction afterCommentEnd? body with
  | case1 => rfl
  | case2 text =>
      have hend : '\r' ∉ commentEnd := by decide
      change afterCommentEnd? (unifyLineEnds (commentEnd ++ text)) = _
      rw [unifyLineEnds_marks hend]
      rfl
  | case3 c text hother ih =>
      obtain ⟨_, -, -, hunified⟩ | hkept := unifyLineEnds_cons c text
      · rw [hunified, ih]
      · rw [hkept, afterCommentEnd?, ih]
        intro behind hc hbehind
        have hmarks : '\n' ∉ ['-', '>'] := by decide
        obtain ⟨after, hafter, -⟩ := eq_append_of_unifyLineEnds hmarks hbehind
        exact hother after hc hafter

/-! Where a comment stands. -/

theorem findComment?_iff {text rest : List Char} :
    findComment? text = some ((), rest) ↔
      ∃ body, text = commentStart ++ body ∧ afterCommentEnd? body = some rest := by
  constructor
  · intro hfound
    fun_cases findComment? text with
    | case1 body =>
        obtain ⟨after, hafter, hpair⟩ := Option.map_eq_some_iff.1 hfound
        obtain ⟨-, rfl⟩ := Prod.mk.inj hpair
        exact ⟨body, rfl, hafter⟩
    | case2 => simp_all [findComment?]
  · rintro ⟨body, rfl, hend⟩
    change (afterCommentEnd? body).map _ = _
    rw [hend]
    rfl

theorem findComment?_append {text rest : List Char} (hfound : findComment? text = some ((), rest))
    (behind : List Char) : findComment? (text ++ behind) = some ((), rest ++ behind) := by
  obtain ⟨body, rfl, hend⟩ := findComment?_iff.1 hfound
  obtain ⟨inner, rfl, hinner⟩ := afterCommentEnd?_sound hend
  refine findComment?_iff.2 ⟨inner ++ (commentEnd ++ (rest ++ behind)), by simp, ?_⟩
  exact afterCommentEnd?_append hinner (rest ++ behind)

theorem findComment?_unifyLineEnds {text rest : List Char} :
    findComment? (unifyLineEnds text) = some ((), rest) ↔
      ∃ after, findComment? text = some ((), after) ∧ unifyLineEnds after = rest := by
  have hmarks : '\n' ∉ commentStart := by decide
  have hstart : '\r' ∉ commentStart := by decide
  constructor
  · intro hfound
    obtain ⟨body, htext, hend⟩ := findComment?_iff.1 hfound
    obtain ⟨inner, rfl, rfl⟩ := eq_append_of_unifyLineEnds hmarks htext
    rw [afterCommentEnd?_unifyLineEnds] at hend
    obtain ⟨after, hafter, hrest⟩ := Option.map_eq_some_iff.1 hend
    exact ⟨after, findComment?_iff.2 ⟨inner, rfl, hafter⟩, hrest⟩
  · rintro ⟨after, hfound, rfl⟩
    obtain ⟨body, rfl, hend⟩ := findComment?_iff.1 hfound
    refine findComment?_iff.2 ⟨unifyLineEnds body, unifyLineEnds_marks hstart body, ?_⟩
    rw [afterCommentEnd?_unifyLineEnds, hend]
    rfl

/-! What is left of a text once its comments are taken out. -/

@[simp] theorem stripComments_nil : stripComments [] = [] := by
  simp [stripComments]

theorem stripComments_found {text rest : List Char} (hfound : findComment? text = some ((), rest)) :
    stripComments text = stripComments rest := by
  cases text with
  | nil => contradiction
  | cons c text =>
      have hfind : commentPattern.find? (c :: text) = some ((), rest) := hfound
      rw [stripComments, Pattern.replace_cons_some hfind]
      rfl

theorem stripComments_kept {c : Char} {text : List Char} (hnone : findComment? (c :: text) = none) :
    stripComments (c :: text) = c :: stripComments text := by
  have hfind : commentPattern.find? (c :: text) = none := hnone
  rw [stripComments, Pattern.replace_cons_none hfind]
  rfl

theorem stripComments_unclosed {body : List Char} (hbody : afterCommentEnd? body = none) :
    stripComments (commentStart ++ body) = commentStart ++ stripComments body := by
  have hstart : findComment? ('<' :: '!' :: '-' :: '-' :: body) = none := by
    simp [findComment?, hbody]
  change stripComments ('<' :: '!' :: '-' :: '-' :: body) = _
  rw [stripComments_kept hstart, stripComments_kept rfl, stripComments_kept rfl,
    stripComments_kept rfl]
  rfl

/-- Where the text behind does not begin in the middle of the marks that open a comment, no comment
opens across the seam. -/
theorem findComment?_append_none {front behind : List Char} (hfront : front ≠ [])
    (hstart : ¬ commentStart <+: front) (hseam : ∀ c ∈ behind.head?, c ∉ ['!', '-']) :
    findComment? (front ++ behind) = none := by
  rw [Option.eq_none_iff_forall_ne_some]
  rintro ⟨⟨⟩, rest⟩ hfound
  obtain ⟨body, htext, -⟩ := findComment?_iff.1 hfound
  obtain ⟨marks, hmarks, rfl⟩ | ⟨inner, rfl, -⟩ := List.append_eq_append_iff.1 htext
  · cases marks with
    | nil => exact hstart ⟨[], by simp [hmarks]⟩
    | cons d marks =>
        obtain ⟨c, front, rfl⟩ := List.exists_cons_of_ne_nil hfront
        have hd : d ∈ ['!', '-', '-'] := by
          rw [(List.cons.inj hmarks).2]
          simp
        exact hseam d rfl (by simpa using hd)
  · exact hstart ⟨inner, rfl⟩

theorem stripComments_append {front behind : List Char}
    (hfront : ¬ commentStart <:+: stripComments front)
    (hseam : ∀ c ∈ behind.head?, c ∉ ['!', '-']) :
    stripComments (front ++ behind) = stripComments front ++ stripComments behind := by
  induction front using Pattern.induction commentPattern with
  | nil => simp
  | found c text found rest hfound ih =>
      rw [stripComments_found hfound] at hfront ⊢
      rw [stripComments_found (findComment?_append hfound _), ih hfront]
  | kept c text hnone ih =>
      -- An opening that the front does not close would be left in it, and swallow what follows.
      have hstart : ¬ commentStart <+: c :: text := by
        rintro ⟨body, hbody⟩
        have hopen : afterCommentEnd? body = none := by
          rw [Option.eq_none_iff_forall_ne_some]
          intro rest hend
          cases hnone.symm.trans (findComment?_iff.2 ⟨body, hbody.symm, hend⟩)
        rw [← hbody, stripComments_unclosed hopen] at hfront
        exact hfront (List.prefix_append commentStart _).isInfix
      have hbehind : findComment? (c :: (text ++ behind)) = none :=
        findComment?_append_none (List.cons_ne_nil c text) hstart hseam
      rw [stripComments_kept hnone] at hfront ⊢
      rw [List.cons_append, stripComments_kept hbehind,
        ih fun hwithin => hfront (List.infix_cons hwithin), List.cons_append]

/-! Unified line ends bring out no new marks: what they drop is never between two of them. -/

theorem stripComments_unifyLineEnds_kept {c : Char} {text : List Char}
    (hnone : findComment? (c :: text) = none) :
    (∃ behind, stripComments (unifyLineEnds (c :: text)) = '\n' :: behind ∧
        stripComments (unifyLineEnds (c :: text)) = stripComments (unifyLineEnds text)) ∨
      stripComments (unifyLineEnds (c :: text)) = c :: stripComments (unifyLineEnds text) := by
  obtain ⟨behind, -, rfl, hunified⟩ | hkept := unifyLineEnds_cons c text
  · refine .inl ⟨stripComments (unifyLineEnds behind), ?_, by rw [hunified]⟩
    rw [hunified, unifyLineEnds.eq_3 _ _ (by simp), stripComments_kept rfl]
  · refine .inr ?_
    have hunified : findComment? (c :: unifyLineEnds text) = none := by
      rw [← hkept, Option.eq_none_iff_forall_ne_some]
      rintro ⟨⟨⟩, rest⟩ hfound
      obtain ⟨after, hafter, -⟩ := findComment?_unifyLineEnds.1 hfound
      cases hnone.symm.trans hafter
    rw [hkept, stripComments_kept hunified]

theorem stripComments_unifyLineEnds_found {text rest : List Char}
    (hfound : findComment? text = some ((), rest)) :
    stripComments (unifyLineEnds text) = stripComments (unifyLineEnds rest) :=
  stripComments_found (findComment?_unifyLineEnds.2 ⟨rest, hfound, rfl⟩)

theorem prefix_stripComments {marks text : List Char} (hmarks : '\n' ∉ marks)
    (hbegins : marks <+: stripComments (unifyLineEnds text)) : marks <+: stripComments text := by
  induction text using Pattern.induction commentPattern generalizing marks with
  | nil => exact hbegins
  | found c text found rest hfound ih =>
      rw [stripComments_unifyLineEnds_found hfound] at hbegins
      rw [stripComments_found hfound]
      exact ih hmarks hbegins
  | kept c text hnone ih =>
      cases marks with
      | nil => exact List.nil_prefix
      | cons d marks =>
          obtain ⟨hd, hrest⟩ := List.ne_and_not_mem_of_not_mem_cons hmarks
          obtain ⟨behind, hfeed, -⟩ | hkept := stripComments_unifyLineEnds_kept hnone
          · rw [hfeed] at hbegins
            exact absurd (List.cons_prefix_cons.1 hbegins).1.symm hd
          · rw [hkept] at hbegins
            rw [stripComments_kept hnone]
            obtain ⟨rfl, hafter⟩ := List.cons_prefix_cons.1 hbegins
            exact List.cons_prefix_cons.2 ⟨rfl, ih hrest hafter⟩

theorem infix_stripComments {marks text : List Char} (hmarks : '\n' ∉ marks)
    (hwithin : marks <:+: stripComments (unifyLineEnds text)) : marks <:+: stripComments text := by
  induction text using Pattern.induction commentPattern with
  | nil => exact hwithin
  | found c text found rest hfound ih =>
      rw [stripComments_unifyLineEnds_found hfound] at hwithin
      rw [stripComments_found hfound]
      exact ih hwithin
  | kept c text hnone ih =>
      obtain ⟨_, -, hdropped⟩ | hkept := stripComments_unifyLineEnds_kept hnone
      · rw [hdropped] at hwithin
        rw [stripComments_kept hnone]
        exact List.infix_cons (ih hwithin)
      · obtain hbegins | hbehind := List.infix_cons_iff.1 (hkept ▸ hwithin)
        · rw [← hkept] at hbegins
          exact (prefix_stripComments hmarks hbegins).isInfix
        · rw [stripComments_kept hnone]
          exact List.infix_cons (ih hbehind)

/-! A whole fragment. -/

theorem sourceLines_comment {front body : List Char}
    (hfront : ¬ commentStart <:+: stripComments front) (hbody : ¬ commentEnd <:+: body)
    (behind : List Char) :
    sourceLines (front ++ commentStart ++ body ++ commentEnd ++ behind) =
      (stripComments (unifyLineEnds front) ++
        stripComments (unifyLineEnds behind)).splitOn '\n' := by
  have hmarks : '\n' ∉ commentStart := by decide
  have hstart : '\r' ∉ commentStart := by decide
  have hunified : ¬ commentStart <:+: stripComments (unifyLineEnds front) :=
    fun hwithin => hfront (infix_stripComments hmarks hwithin)
  have hend := afterCommentEnd?_append hbody behind
  have hcomment := stripComments_unifyLineEnds_found (findComment?_iff.2 ⟨_, rfl, hend⟩)
  rw [sourceLines]
  simp only [List.append_assoc]
  rw [unifyLineEnds_append (by simp [commentStart]), unifyLineEnds_marks hstart,
    stripComments_append hunified (by simp [commentStart]), ← unifyLineEnds_marks hstart, hcomment]

/-- A comment that the text before it leaves whole may say anything that does not close it: the
LaTeX of the fragment is the same. -/
theorem comments_hidden (mode : HeadingMode) {front body other : List Char}
    (hfront : ¬ commentStart <:+: stripComments front) (hbody : ¬ commentEnd <:+: body)
    (hother : ¬ commentEnd <:+: other) (behind : List Char) :
    fragmentLatex mode (front ++ commentStart ++ body ++ commentEnd ++ behind) =
      fragmentLatex mode (front ++ commentStart ++ other ++ commentEnd ++ behind) := by
  have hlines := (sourceLines_comment hfront hbody behind).trans
    (sourceLines_comment hfront hother behind).symm
  rw [fragmentLatex, fragmentLatex, fragmentLines, fragmentLines, hlines]

/-- Without the comment, what stands around it on its line is a fence. -/
theorem comments_hidden_fence :
    let front := "<!-- 1 -->a\r\n``".toList
    let body := "\r\n``` <!-- --\r".toList
    let behind := "`\r\n<!--\n```".toList
    ¬ commentStart <:+: stripComments front ∧ ¬ commentEnd <:+: body ∧ ¬ commentEnd <:+: [] ∧
      fragmentLatex .numbered (front ++ commentStart ++ body ++ commentEnd ++ behind) =
        fragmentLatex .numbered (front ++ commentStart ++ [] ++ commentEnd ++ behind) := by
  intro front body behind
  have hcomment : findComment? front = some ((), "a\r\n``".toList) := by decide
  have hstripped : stripComments front = "a\r\n``".toList := by
    rw [stripComments_found hcomment]
    simp [stripComments_kept, findComment?]
  have hfront : ¬ commentStart <:+: stripComments front := by
    rw [hstripped]
    decide
  have hbody : ¬ commentEnd <:+: body := by decide
  have hempty : ¬ commentEnd <:+: [] := by decide
  exact ⟨hfront, hbody, hempty, comments_hidden .numbered hfront hbody hempty behind⟩

end Bindery.Markdown
