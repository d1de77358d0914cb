import Bindery.Proofs.Markdown.OneLine
import Mathlib.Data.List.Infix

namespace Bindery.Markdown

open Latex Text

/-! The environments of a converted fragment. An automaton reads the lines and refuses a line that
opens or closes an environment out of turn. -/

inductive Environment
  | outside (afterList : Bool)
  | list (hasItem : Bool)
  | listing
  deriving DecidableEq, Repr

/-- A list holds one item at least, and no list begins right behind another one. A listing holds no
items and nothing that could begin or end an environment. -/
def Environment.next? : Environment → List Char → Option Environment
  | .outside afterList, line =>
      if line = listBegin then
        if afterList then none else some (.list false)
      else if (listingLanguage? line).isSome then some .listing
      else if line = listEnd ∨ line = listingEnd ∨ isItemLine line then none
      else some (.outside false)
  | .list hasItem, line =>
      if line = listEnd then
        if hasItem then some (.outside true) else none
      else if isItemLine line then some (.list true)
      else none
  | .listing, line =>
      if line = listingEnd then some (.outside false)
      else if "\\begin\x7b".toList <:+: line ∨ "\\end\x7b".toList <:+: line ∨ isItemLine line then
        none
      else some .listing

def Environment.run (environment : Environment) (lines : List (List Char)) : Option Environment :=
  lines.foldlM Environment.next? environment

@[simp] theorem Environment.run_nil (environment : Environment) :
    environment.run [] = some environment := rfl

@[simp] theorem Environment.run_cons (environment : Environment) (line : List Char)
    (lines : List (List Char)) :
    environment.run (line :: lines) = (environment.next? line).bind (·.run lines) :=
  List.foldlM_cons

theorem Environment.run_append (environment : Environment) (first second : List (List Char)) :
    environment.run (first ++ second) = (environment.run first).bind (·.run second) :=
  List.foldlM_append

/-! What one line does. -/

theorem Environment.next?_plain {line : List Char} (hplain : IsPlain line) (afterList : Bool) :
    (outside afterList).next? line = some (.outside false) := by
  have hb : ¬ Opens 'b' line := fun hopens => hplain 'b' hopens (by decide)
  have he : ¬ Opens 'e' line := fun hopens => hplain 'e' hopens (by decide)
  have hi : ¬ Opens 'i' line := fun hopens => hplain 'i' hopens (by decide)
  have hbegin : line ≠ listBegin := by
    rintro rfl
    exact hb opens_listBegin
  have hend : line ≠ listEnd := by
    rintro rfl
    exact he opens_listEnd
  have hlisting : line ≠ listingEnd := by
    rintro rfl
    exact he opens_listingEnd
  have hitem : ¬ isItemLine line = true := fun hitem => hi (opens_of_isItemLine hitem)
  simp [next?, hbegin, hend, hlisting, hitem, listingLanguage?_of_not_opens hb]

theorem Environment.next?_item {line : List Char} (hitem : isItemLine line = true)
    (hasItem : Bool) : (list hasItem).next? line = some (.list true) := by
  have hend : line ≠ listEnd := by
    rintro rfl
    exact absurd (opens_listEnd.unique (opens_of_isItemLine hitem)) (by decide)
  simp [next?, hend, hitem]

theorem Environment.next?_listingBegin {language : List Char} (hlanguage : IsLanguage language)
    (afterList : Bool) : (outside afterList).next? (listingBegin language) = some .listing := by
  have hlist : listingBegin language ≠ listBegin := (listBegin_ne_listingBegin language).symm
  have hread := listingLanguage?_eq_some.2 ⟨hlanguage, rfl⟩
  simp [next?, hlist, hread]

theorem not_isInfix_escapeCode {c : Char} (hc : c ∉ codeReserved.map codeEscapeMark)
    (name code : List Char) : ¬ '\\' :: c :: name <:+: escapeCode code := by
  intro hinside
  have hstart : ['\\', c] <+: '\\' :: c :: name := ⟨name, rfl⟩
  exact hc (escapeCode_backslash (hstart.isInfix.trans hinside))

theorem Environment.next?_code (code : List Char) :
    listing.next? (escapeCode code) = some .listing := by
  have hbegin : ¬ "\\begin\x7b".toList <:+: escapeCode code :=
    not_isInfix_escapeCode (by decide) _ code
  have hend : ¬ "\\end\x7b".toList <:+: escapeCode code :=
    not_isInfix_escapeCode (by decide) _ code
  simp only [next?, escapeCode_ne_listingEnd, hbegin, hend, isItemLine_escapeCode, if_false]
  rfl

/-! What the lines of a whole environment do. -/

theorem Environment.run_items {items : List (List Char)}
    (hitems : ∀ item ∈ items, isItemLine item = true) (hsome : items ≠ []) (hasItem : Bool) :
    (list hasItem).run items = some (.list true) := by
  induction items generalizing hasItem with
  | nil => contradiction
  | cons item items ih =>
      obtain ⟨hitem, hrest⟩ := List.forall_mem_cons.1 hitems
      rw [run_cons, next?_item hitem, Option.bind_some]
      cases items with
      | nil => rfl
      | cons next items => exact ih hrest (by simp) true

theorem Environment.run_list {items : List (List Char)}
    (hitems : ∀ item ∈ items, isItemLine item = true) (hsome : items ≠ []) :
    (outside false).run (listBegin :: (items ++ [listEnd])) = some (.outside true) := by
  have hbegin : (outside false).next? listBegin = some (.list false) := by simp [next?]
  have hend : (list true).next? listEnd = some (.outside true) := by simp [next?]
  rw [run_cons, hbegin, Option.bind_some, run_append, run_items hitems hsome, Option.bind_some,
    run_cons, hend, Option.bind_some, run_nil]

theorem Environment.run_code (code : List (List Char)) :
    listing.run (code.map escapeCode) = some .listing := by
  induction code with
  | nil => rfl
  | cons line code ih => rw [List.map_cons, run_cons, next?_code, Option.bind_some, ih]

theorem Environment.run_listing {listing : Listing} (hlanguage : IsLanguage listing.language)
    (afterList : Bool) : (outside afterList).run listing.lines = some (.outside false) := by
  have hend : Environment.listing.next? listingEnd = some (.outside false) := by simp [next?]
  rw [Listing.lines, run_cons, next?_listingBegin hlanguage, Option.bind_some, run_append,
    run_code, Option.bind_some, run_cons, hend, Option.bind_some, run_nil]

/-! What a whole fragment does, and what that says about each of its lines. -/

theorem Environment.run_outline {lines : List (List Char)} {listings : List Listing}
    (houtline : Outline lines listings) (afterList : Bool)
    (hnext : afterList = true → lines.head? ≠ some listBegin) :
    ∃ afterList', (outside afterList).run lines = some (.outside afterList') := by
  induction houtline generalizing afterList with
  | nil => exact ⟨afterList, rfl⟩
  | @plain line lines listings hplain _ ih =>
      rw [run_cons, next?_plain hplain, Option.bind_some]
      exact ih false (by simp)
  | @list items lines listings hsome hitems hbehind _ ih =>
      have hfirst : afterList = false := by
        cases afterList with
        | false => rfl
        | true => exact absurd rfl (hnext rfl)
      have hsplit : listBegin :: (items ++ listEnd :: lines) =
          listBegin :: (items ++ [listEnd]) ++ lines := by simp
      rw [hfirst, hsplit, run_append, run_list hitems hsome, Option.bind_some]
      exact ih true fun _ => hbehind
  | @listing listing lines listings hlanguage _ ih =>
      rw [run_append, run_listing hlanguage, Option.bind_some]
      exact ih false (by simp)

theorem Environment.isItemLine_of_next? {environment next : Environment} {line : List Char}
    (hnext : environment.next? line = some next) :
    isItemLine line = true ↔ (∃ hasItem, environment = .list hasItem) ∧ line ≠ listEnd := by
  cases environment with
  | outside afterList =>
      have hitem : isItemLine line = false := by
        simp only [next?] at hnext
        split at hnext
        · rename_i hbegin
          rw [hbegin]
          exact isItemLine_of_opens opens_listBegin (by decide)
        · split at hnext
          · rename_i hlisting
            obtain ⟨language, hlanguage⟩ := Option.isSome_iff_exists.1 hlisting
            obtain ⟨_, rfl⟩ := listingLanguage?_eq_some.1 hlanguage
            exact isItemLine_of_opens (opens_listingBegin language) (by decide)
          · split at hnext
            · contradiction
            · simp_all
      simp [hitem]
  | list hasItem =>
      constructor
      · intro hitem
        refine ⟨⟨hasItem, rfl⟩, ?_⟩
        rintro rfl
        exact absurd hitem (by decide)
      · rintro ⟨_, hend⟩
        simp only [next?, hend, if_false] at hnext
        exact (Option.ite_none_right_eq_some.1 hnext).1
  | listing =>
      have hitem : isItemLine line = false := by
        simp only [next?] at hnext
        split at hnext
        · rename_i hend
          rw [hend]
          exact isItemLine_of_opens opens_listingEnd (by decide)
        · split at hnext
          · contradiction
          · simp_all
      simp [hitem]

/-- Every environment is closed in turn, whatever the text, and the items are exactly the lines that
lists hold. -/
theorem fragmentLatex_environments (mode : HeadingMode) (markdown : List Char) :
    (∃ afterList, (Environment.outside false).run ((fragmentLatex mode markdown).splitOn '\n') =
        some (.outside afterList)) ∧
      ∀ before line after, (fragmentLatex mode markdown).splitOn '\n' = before ++ line :: after →
        ∃ environment, (Environment.outside false).run before = some environment ∧
          (isItemLine line = true ↔
            (∃ hasItem, environment = .list hasItem) ∧ line ≠ listEnd) := by
  obtain ⟨listings, _, houtline⟩ := outline_fragmentLatex mode markdown
  obtain ⟨afterList, hrun⟩ := Environment.run_outline houtline false (by simp)
  refine ⟨⟨afterList, hrun⟩, ?_⟩
  intro before line after hsplit
  rw [hsplit, Environment.run_append] at hrun
  obtain ⟨environment, hbefore, hrest⟩ := Option.bind_eq_some_iff.1 hrun
  rw [Environment.run_cons] at hrest
  obtain ⟨next, hnext, _⟩ := Option.bind_eq_some_iff.1 hrest
  exact ⟨environment, hbefore, Environment.isItemLine_of_next? hnext⟩

theorem fragmentLatex_environments_item :
    (fragmentLatex .numbered "- a".toList).splitOn '\n' =
        [listBegin] ++ "\\item a".toList :: [listEnd] ∧
      ∃ environment, (Environment.outside false).run [listBegin] = some environment ∧
        (isItemLine "\\item a".toList = true ↔
          (∃ hasItem, environment = .list hasItem) ∧ "\\item a".toList ≠ listEnd) := by
  have hlines : (fragmentLatex .numbered "- a".toList).splitOn '\n' =
      [listBegin] ++ "\\item a".toList :: [listEnd] := by decide +kernel
  exact ⟨hlines, (fragmentLatex_environments .numbered "- a".toList).2 _ _ _ hlines⟩

end Bindery.Markdown
