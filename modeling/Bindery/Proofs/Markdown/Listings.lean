import Bindery.Proofs.Markdown.OneLine

namespace Bindery.Markdown

open Latex

/-! Listings read back from a converted fragment. Behind a line that begins a listing stands its
code, up to the first line that ends one. -/

def findWritten? : List (List Char) → Option (Listing × List (List Char))
  | [] => none
  | line :: lines =>
      (listingLanguage? line).bind fun language =>
        (cutAt? (· == listingEnd) lines).map fun (code, rest) =>
          (⟨language, code.map unescapeCode⟩, rest)

def writtenPattern : Pattern (List Char) Listing where
  find? := findWritten?
  shortens {lines} _ _ hfound := by
    cases lines with
    | nil => simp [findWritten?] at hfound
    | cons line lines =>
        obtain ⟨language, _, hcode⟩ := Option.bind_eq_some_iff.1 hfound
        obtain ⟨⟨code, rest⟩, hcut, hpair⟩ := Option.map_eq_some_iff.1 hcode
        obtain ⟨_, rfl⟩ := Prod.mk.inj hpair
        exact Nat.lt_succ_of_lt (cutAt?_length hcut)

def listingsOf (lines : List (List Char)) : List Listing :=
  (writtenPattern.replace ([·]) (fun _ => []) lines).flatten

def readListings (latex : List Char) : List Listing :=
  listingsOf (latex.splitOn '\n')

/-! The three kinds of stretches an outline is made of. -/

theorem listingsOf_cons_other {line : List Char} (hline : listingLanguage? line = none)
    (lines : List (List Char)) : listingsOf (line :: lines) = listingsOf lines := by
  have hfound : writtenPattern.find? (line :: lines) = none := by
    simp [writtenPattern, findWritten?, hline]
  rw [listingsOf, Pattern.replace_cons_none hfound]
  rfl

theorem listingsOf_items {items : List (List Char)}
    (hitems : ∀ item ∈ items, isItemLine item = true) (lines : List (List Char)) :
    listingsOf (items ++ lines) = listingsOf lines := by
  induction items with
  | nil => rfl
  | cons item items ih =>
      obtain ⟨hitem, hrest⟩ := List.forall_mem_cons.1 hitems
      have hother : ¬ Opens 'b' item := by
        intro hopens
        exact absurd (hopens.unique (opens_of_isItemLine hitem)) (by decide)
      rw [List.cons_append, listingsOf_cons_other (listingLanguage?_of_not_opens hother)]
      exact ih hrest

theorem listingsOf_listing {listing : Listing} (hlanguage : IsLanguage listing.language)
    (lines : List (List Char)) :
    listingsOf (listing.lines ++ lines) = listing :: listingsOf lines := by
  have hread := listingLanguage?_eq_some.2 ⟨hlanguage, rfl⟩
  have hcode : ∀ line ∈ listing.code.map escapeCode, (line == listingEnd) = false := by
    intro line hline
    obtain ⟨code, _, rfl⟩ := List.mem_map.1 hline
    exact beq_false_of_ne (escapeCode_ne_listingEnd code)
  have hcut : cutAt? (· == listingEnd) (listing.code.map escapeCode ++ listingEnd :: lines) =
      some (listing.code.map escapeCode, lines) :=
    cutAt?_complete lines hcode (beq_self_eq_true listingEnd)
  have hback : (listing.code.map escapeCode).map unescapeCode = listing.code := by
    rw [List.map_map]
    exact List.map_id'' unescapeCode_escapeCode listing.code
  have hfound : writtenPattern.find? (listingBegin listing.language ::
      (listing.code.map escapeCode ++ listingEnd :: lines)) = some (listing, lines) := by
    simp only [writtenPattern, findWritten?, hread, hcut, hback, Option.bind_some, Option.map_some]
  have hlines : listing.lines ++ lines = listingBegin listing.language ::
      (listing.code.map escapeCode ++ listingEnd :: lines) := by simp [Listing.lines]
  rw [hlines, listingsOf, Pattern.replace_cons_some hfound]
  rfl

theorem listingsOf_outline {lines : List (List Char)} {listings : List Listing}
    (houtline : Outline lines listings) : listingsOf lines = listings := by
  induction houtline with
  | nil => rw [listingsOf, Pattern.replace_nil, List.flatten_nil]
  | @plain line lines listings hplain _ ih =>
      have hother : ¬ Opens 'b' line := fun hopens => hplain 'b' hopens (by decide)
      rw [listingsOf_cons_other (listingLanguage?_of_not_opens hother), ih]
  | @list items lines listings _ hitems _ _ ih =>
      have hbegin : listingLanguage? listBegin = none := by
        cases hline : listingLanguage? listBegin with
        | none => rfl
        | some language =>
            exact absurd (listingLanguage?_eq_some.1 hline).2 (listBegin_ne_listingBegin language)
      have hend : ¬ Opens 'b' listEnd := by
        intro hopens
        exact absurd (hopens.unique opens_listEnd) (by decide)
      rw [listingsOf_cons_other hbegin, listingsOf_items hitems,
        listingsOf_cons_other (listingLanguage?_of_not_opens hend), ih]
  | listing hlanguage _ ih => rw [listingsOf_listing hlanguage, ih]

/-- Whatever the text, what is read back from its LaTeX are its fenced blocks and nothing else. -/
theorem readListings_fragmentLatex (mode : HeadingMode) (markdown : List Char)
    (listings : List Listing) :
    FencedBlocks (sourceLines markdown) listings ↔
      readListings (fragmentLatex mode markdown) = listings := by
  obtain ⟨written, hfenced, houtline⟩ := outline_fragmentLatex mode markdown
  have hread : readListings (fragmentLatex mode markdown) = written := listingsOf_outline houtline
  constructor
  · intro hlistings
    rw [hread]
    exact hfenced.unique hlistings
  · intro hsame
    rw [← hsame, hread]
    exact hfenced

end Bindery.Markdown
