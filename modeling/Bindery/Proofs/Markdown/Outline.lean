import Bindery.Markdown.Itemize
import Bindery.Proofs.Latex.CodeEscape
import Bindery.Proofs.Markdown.Printed

namespace Bindery.Markdown

open Latex Text

/-! The outline of a converted fragment: plain lines, lists whose lines are items, and listings, in
any order. The listings are the closed fenced blocks of the source. -/

structure Listing where
  language : List Char
  code : List (List Char)
  deriving DecidableEq, Repr

def listingEnd : List Char :=
  endEnvironment "lstlisting"

def Listing.lines (listing : Listing) : List (List Char) :=
  listingBegin listing.language :: (listing.code.map escapeCode ++ [listingEnd])

def IsLanguage (language : List Char) : Prop :=
  language ≠ [] ∧ ∀ c ∈ language, isWord c = true

def listingOpening : List Char :=
  beginEnvironment "lstlisting" ++ "[language=".toList

def listingLanguage? (line : List Char) : Option (List Char) :=
  let language := (line.drop listingOpening.length).dropLast
  if line = listingBegin language ∧ language ≠ [] ∧ language.all isWord then some language
  else none

theorem listingBegin_eq {language : List Char} (hsome : language ≠ []) :
    listingBegin language = listingOpening ++ language ++ [']'] := by
  cases language with
  | nil => contradiction
  | cons c language => rfl

theorem listingLanguage?_eq_some {line language : List Char} :
    listingLanguage? line = some language ↔
      IsLanguage language ∧ line = listingBegin language := by
  have hread (hsome : language ≠ []) :
      ((listingBegin language).drop listingOpening.length).dropLast = language := by
    rw [listingBegin_eq hsome, List.append_assoc, List.drop_left, List.dropLast_concat]
  unfold listingLanguage?
  constructor
  · intro hline
    obtain ⟨⟨hbegin, hsome, hword⟩, hlanguage⟩ := Option.ite_none_right_eq_some.1 hline
    obtain rfl := Option.some.inj hlanguage
    exact ⟨⟨hsome, List.all_eq_true.1 hword⟩, hbegin⟩
  · rintro ⟨⟨hsome, hword⟩, rfl⟩
    rw [hread hsome]
    exact if_pos ⟨rfl, hsome, List.all_eq_true.2 hword⟩

def isItemLine (line : List Char) : Bool :=
  "\\item ".toList.isPrefixOf (trimStart line)

/-- A line outside all environments, which neither begins nor ends one and is no item. -/
def IsPlain (line : List Char) : Prop :=
  ∀ c, Opens c line → c ∉ ['b', 'e', 'i']

/-! The letter behind the first backslash tells the lines of environments apart. -/

theorem Opens.unique {c d : Char} {line : List Char} (hc : Opens c line) (hd : Opens d line) :
    c = d := by
  obtain ⟨_, hc⟩ := hc
  obtain ⟨_, hd⟩ := hd
  rw [hc] at hd
  exact (List.cons.inj (List.cons.inj hd).2).1

theorem opens_listBegin : Opens 'b' listBegin :=
  ⟨_, rfl⟩

theorem opens_listEnd : Opens 'e' listEnd :=
  ⟨_, rfl⟩

theorem opens_listingBegin (language : List Char) : Opens 'b' (listingBegin language) :=
  ⟨_, rfl⟩

theorem opens_listingEnd : Opens 'e' listingEnd :=
  ⟨_, rfl⟩

theorem opens_of_isItemLine {line : List Char} (hitem : isItemLine line = true) :
    Opens 'i' line := by
  obtain ⟨rest, hrest⟩ := List.isPrefixOf_iff_prefix.1 hitem
  exact ⟨_, hrest.symm⟩

theorem isItemLine_of_opens {c : Char} {line : List Char} (hopens : Opens c line) (hc : c ≠ 'i') :
    isItemLine line = false := by
  cases hitem : isItemLine line with
  | false => rfl
  | true => exact absurd (hopens.unique (opens_of_isItemLine hitem)) hc

theorem Opens.isInfix {c : Char} {line : List Char} (hopens : Opens c line) :
    ['\\', c] <:+: line := by
  obtain ⟨rest, htrim⟩ := hopens
  have hstart : ['\\', c] <+: trimStart line := ⟨rest, htrim.symm⟩
  exact hstart.isInfix.trans (List.dropWhile_suffix isBlank).isInfix

theorem not_opens_escapeCode {c : Char} (hc : c ∉ codeReserved.map codeEscapeMark)
    (code : List Char) : ¬ Opens c (escapeCode code) :=
  fun hopens => hc (escapeCode_backslash hopens.isInfix)

theorem isItemLine_escapeCode (code : List Char) : isItemLine (escapeCode code) = false := by
  cases hitem : isItemLine (escapeCode code) with
  | false => rfl
  | true => exact absurd (opens_of_isItemLine hitem) (not_opens_escapeCode (by decide) code)

theorem escapeCode_ne_listingEnd (code : List Char) : escapeCode code ≠ listingEnd := by
  intro hsame
  have hopens : Opens 'e' (escapeCode code) := hsame ▸ opens_listingEnd
  exact not_opens_escapeCode (by decide) code hopens

theorem listBegin_ne_listingBegin (language : List Char) : listBegin ≠ listingBegin language := by
  intro hsame
  have hletter := congrArg (fun line : List Char => line.take 8) hsame
  simp [listingBegin, listBegin, beginEnvironment, command, group] at hletter

theorem listingLanguage?_of_not_opens {line : List Char} (hopens : ¬ Opens 'b' line) :
    listingLanguage? line = none := by
  cases hline : listingLanguage? line with
  | none => rfl
  | some language =>
      obtain ⟨_, rfl⟩ := listingLanguage?_eq_some.1 hline
      exact absurd (opens_listingBegin language) hopens

/-- The lines of a fragment before its items are put into lists. -/
inductive Sequence : List Line → List Listing → Prop
  | nil : Sequence [] []
  | item {content : List Char} {lines : List Line} {listings : List Listing}
      (hitem : isItemLine content = true) (htail : Sequence lines listings) :
      Sequence (.item content :: lines) listings
  | text {content : List Char} {lines : List Line} {listings : List Listing}
      (hplain : IsPlain content) (htail : Sequence lines listings) :
      Sequence (.text content :: lines) listings
  | listing {listing : Listing} {lines : List Line} {listings : List Listing}
      (hlanguage : IsLanguage listing.language) (htail : Sequence lines listings) :
      Sequence (listing.lines.map .text ++ lines) (listing :: listings)

inductive Outline : List (List Char) → List Listing → Prop
  | nil : Outline [] []
  | plain {line : List Char} {lines : List (List Char)} {listings : List Listing}
      (hplain : IsPlain line) (htail : Outline lines listings) : Outline (line :: lines) listings
  | list {items lines : List (List Char)} {listings : List Listing} (hsome : items ≠ [])
      (hitems : ∀ item ∈ items, isItemLine item = true) (hnext : lines.head? ≠ some listBegin)
      (htail : Outline lines listings) :
      Outline (listBegin :: (items ++ listEnd :: lines)) listings
  | listing {listing : Listing} {lines : List (List Char)} {listings : List Listing}
      (hlanguage : IsLanguage listing.language) (htail : Outline lines listings) :
      Outline (listing.lines ++ lines) (listing :: listings)

/-! Putting the items of a sequence into lists gives an outline. -/

theorem isPlain_nil : IsPlain [] :=
  fun c hopens => absurd hopens (not_opens_nil c)

theorem itemizeFrom_texts (contents : List (List Char)) (lines : List Line) :
    itemizeFrom false (contents.map .text ++ lines) = contents ++ itemizeFrom false lines := by
  induction contents with
  | nil => rfl
  | cons content contents ih => simp [itemizeFrom, ih]

theorem Listing.head?_lines_append (listing : Listing) (lines : List (List Char)) :
    (listing.lines ++ lines).head? ≠ some listBegin := by
  intro hhead
  exact listBegin_ne_listingBegin listing.language (Option.some.inj hhead).symm

theorem outline_itemizeFrom {lines : List Line} {listings : List Listing}
    (hlines : Sequence lines listings) :
    Outline (itemizeFrom false lines) listings ∧
      ∃ items rest, itemizeFrom true lines = items ++ listEnd :: rest ∧
        (∀ item ∈ items, isItemLine item = true) ∧ rest.head? ≠ some listBegin ∧
          Outline rest listings := by
  induction hlines with
  | nil => exact ⟨.nil, [], [], rfl, by simp, by simp, .nil⟩
  | @item content lines listings hitem _ ih =>
      obtain ⟨_, items, rest, hitems, hall, hnext, hrest⟩ := ih
      have hmore : ∀ item ∈ content :: items, isItemLine item = true := by
        simpa using ⟨hitem, hall⟩
      constructor
      · rw [itemizeFrom, hitems]
        exact .list (by simp) hmore hnext hrest
      · exact ⟨content :: items, rest, by rw [itemizeFrom, hitems]; rfl, hmore, hnext, hrest⟩
  | @text content lines listings hplain _ ih =>
      have hnext : content ≠ listBegin := by
        rintro rfl
        exact hplain 'b' opens_listBegin (by decide)
      refine ⟨.plain hplain ih.1, [], content :: itemizeFrom false lines, rfl, by simp, ?_,
        .plain hplain ih.1⟩
      simpa using hnext
  | @listing listing lines listings hlanguage _ ih =>
      have hinside : itemizeFrom true (listing.lines.map .text ++ lines) =
          listEnd :: (listing.lines ++ itemizeFrom false lines) := by
        rw [← itemizeFrom_texts]
        rfl
      rw [itemizeFrom_texts]
      exact ⟨.listing hlanguage ih.1, [], _, hinside, by simp,
        listing.head?_lines_append _, .listing hlanguage ih.1⟩

end Bindery.Markdown
