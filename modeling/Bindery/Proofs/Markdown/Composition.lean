import Bindery.Proofs.Latex.Composition
import Bindery.Proofs.Markdown.Fences
import Mathlib.Data.List.Infix

namespace Bindery.Markdown

open Latex Text

/-! A converted fragment is put together from commands, groups, escape sequences and harmless
characters. Only the characters of a url are written as they are, so it is enough that none of them
is special. -/

def Avoids (special text : List Char) : Prop :=
  ∀ c ∈ text, c ∉ special

/-- The characters of the text are tried, not all the characters there are. -/
instance (special text : List Char) : Decidable (Avoids special text) :=
  List.decidableBAll (· ∉ special) text

/-- No special character stands to the right of a `](`, so no url of the line can have one. -/
def UrlsAvoid (special line : List Char) : Prop :=
  ∀ tail ∈ line.tails, "](".toList <+: tail → Avoids special tail

instance (special line : List Char) : Decidable (UrlsAvoid special line) :=
  inferInstanceAs (Decidable (∀ tail ∈ line.tails, _))

theorem UrlsAvoid.of_isInfix {special line part : List Char} (hline : UrlsAvoid special line)
    (hpart : part <:+: line) : UrlsAvoid special part := by
  obtain ⟨before, after, rfl⟩ := hpart
  intro tail htail hopening c hc
  obtain ⟨front, rfl⟩ := (List.mem_tails _ _).1 htail
  have hlonger : tail ++ after ∈ (before ++ (front ++ tail) ++ after).tails :=
    (List.mem_tails _ _).2 ⟨before ++ front, by simp⟩
  exact hline _ hlonger (hopening.trans (List.prefix_append tail after)) c (by simp [hc])

theorem UrlsAvoid.behind {special front url : List Char}
    (hline : UrlsAvoid special (front ++ ']' :: '(' :: url)) : Avoids special url := by
  intro c hc
  have htail : ']' :: '(' :: url ∈ (front ++ ']' :: '(' :: url).tails :=
    (List.mem_tails _ _).2 (List.suffix_append _ _)
  exact hline _ htail ⟨url, rfl⟩ c (by simp [hc])

/-- The lines that no closed fenced block takes. -/
def proseLines (lines : List (List Char)) : List (List Char) :=
  (listingPattern.replace (fun _ => []) ([·]) lines).flatten

/-- No url of a fragment has a special character. Fenced code may hold anything. -/
def SafeUrls (special markdown : List Char) : Prop :=
  ∀ line ∈ proseLines (sourceLines markdown), UrlsAvoid special line

instance (special markdown : List Char) : Decidable (SafeUrls special markdown) :=
  inferInstanceAs (Decidable (∀ line ∈ proseLines (sourceLines markdown), _))

section Composition

variable {special : List Char} {holds : List Char → Prop} (hholds : Composes special holds)

include hholds

/-! Running text. -/

theorem composes_codeLatex (body : List Char) : holds (codeLatex body) :=
  hholds.command (by decide) (hholds.escape body)

theorem composes_urlLatex {url : List Piece}
    (hurl : Avoids special (url.flatMap Piece.markdown)) :
    holds (url.flatMap Piece.urlLatex) := by
  refine hholds.flatMap fun piece hpiece => ?_
  cases piece with
  | char c =>
      have hwritten : c ∈ url.flatMap Piece.markdown :=
        List.mem_flatMap.2 ⟨.char c, hpiece, List.mem_singleton_self c⟩
      exact hholds.plain (hurl c hwritten)
  | code body => exact composes_codeLatex hholds body

theorem Style.composes_latex (style : Style) {body : List Char} (hbody : holds body) :
    holds (style.latex body) := by
  cases style with
  | boldItalic => exact hholds.command (by decide) (hholds.command (by decide) hbody)
  | bold | star | underscore => exact hholds.command (by decide) hbody

mutual
theorem Span.composes_latex : ∀ span : Span, UrlsAvoid special span.markdown → holds span.latex
  | .char c, _ => by
      have hone := hholds.escape [c]
      simpa [Span.latex] using hone
  | .code body, _ => by
      rw [Span.latex]
      exact composes_codeLatex hholds body
  | .link label url, hurls => by
      have hlabel : UrlsAvoid special (Span.allMarkdown label) :=
        hurls.of_isInfix ⟨['['], ']' :: '(' :: url.flatMap Piece.markdown ++ [')'], by
          simp [Span.markdown]⟩
      have htarget : UrlsAvoid special
          ('[' :: Span.allMarkdown label ++ ']' :: '(' :: url.flatMap Piece.markdown) :=
        hurls.of_isInfix ⟨[], [')'], by simp [Span.markdown]⟩
      rw [Span.latex]
      have hurl := composes_urlLatex hholds htarget.behind
      exact hholds.append (hholds.command (by decide) hurl)
        (hholds.group (Span.composes_allLatex label hlabel))
  | .styled style body, hurls => by
      have hbody : UrlsAvoid special (Span.allMarkdown body) :=
        hurls.of_isInfix ⟨style.marker, style.marker, by rw [Span.markdown]⟩
      rw [Span.latex]
      exact style.composes_latex hholds (Span.composes_allLatex body hbody)

theorem Span.composes_allLatex :
    ∀ spans : List Span, UrlsAvoid special (Span.allMarkdown spans) → holds (Span.allLatex spans)
  | [], _ => by
      rw [Span.allLatex_nil]
      exact hholds.nil
  | span :: spans, hurls => by
      rw [Span.allMarkdown] at hurls
      have hfirst := hurls.of_isInfix (List.prefix_append _ _).isInfix
      have hrest := hurls.of_isInfix (List.suffix_append _ _).isInfix
      rw [Span.allLatex_cons]
      exact hholds.append (Span.composes_latex span hfirst) (Span.composes_allLatex spans hrest)
end

theorem composes_inlineLatex {text : List Char} (htext : UrlsAvoid special text) :
    holds (inlineLatex text) := by
  rw [inlineLatex_eq]
  rw [← Span.allMarkdown_ofText text] at htext
  exact Span.composes_allLatex hholds _ htext

/-! The lines of a block. -/

theorem composes_heading (mode : HeadingMode) (level : HeadingLevel) {title : List Char}
    (htitle : holds title) : holds (command (level.command mode) title) := by
  have hname : level.command mode ∈ textCommands := by
    cases level <;> cases mode <;> decide
  exact hholds.command hname htitle

theorem composes_indent {indent : List Char} (hindent : ∀ c ∈ indent, isBlank c = true) :
    holds indent :=
  hholds.ofClass (by decide) hindent

theorem composes_rule : holds "\\hrulefill".toList :=
  hholds.name (show "hrulefill" ∈ textCommands by decide)

theorem composes_item {indent text : List Char} (hindent : ∀ c ∈ indent, isBlank c = true)
    (htext : UrlsAvoid special text) : holds (indent ++ "\\item ".toList ++ inlineLatex text) := by
  have hname : holds "\\item ".toList := hholds.name (show "item " ∈ textCommands by decide)
  have hfront := hholds.append (composes_indent hholds hindent) hname
  exact hholds.append hfront (composes_inlineLatex hholds htext)

theorem composes_ofLine (mode : HeadingMode) {line : List Char} (hline : UrlsAvoid special line) :
    ∀ written ∈ (Block.ofLine line).lines mode, holds written.content := by
  unfold Block.ofLine
  cases hheading : heading? line with
  | some heading =>
      have htitle : UrlsAvoid special heading.2 := hline.of_isInfix (heading?_some hheading).isInfix
      intro written hwritten
      obtain rfl := List.mem_singleton.1 hwritten
      exact composes_heading hholds mode heading.1 (composes_inlineLatex hholds htitle)
  | none =>
      cases isRule line with
      | true =>
          intro written hwritten
          simp only [Block.lines, if_true, List.mem_cons, List.not_mem_nil, or_false] at hwritten
          rcases hwritten with rfl | rfl
          · exact composes_rule hholds
          · exact hholds.nil
      | false =>
          cases hitem : item? line with
          | some item =>
              obtain ⟨hindent, _, htext⟩ := item?_some hitem
              intro written hwritten
              obtain rfl := List.mem_singleton.1 hwritten
              exact composes_item hholds hindent (hline.of_isInfix htext.isInfix)
          | none =>
              intro written hwritten
              obtain rfl := List.mem_singleton.1 hwritten
              exact composes_inlineLatex hholds hline

theorem composes_listingBegin {tag : List Char} (htag : ∀ c ∈ tag, isWord c = true) :
    holds (listingBegin tag) := by
  obtain ⟨hsome, hword⟩ := isLanguage_ofFence htag []
  have hopening : holds listingOpening :=
    hholds.append (hholds.environment (by decide)).1 (hholds.chars (by decide))
  have hlanguage := hholds.ofClass (by decide +kernel) hword
  rw [← listingBegin_ofFence tag [], listingBegin_eq hsome]
  exact hholds.append (hholds.append hopening hlanguage) (hholds.chars (by decide))

theorem composes_listing (mode : HeadingMode) {tag : List Char} (code : List (List Char))
    (htag : ∀ c ∈ tag, isWord c = true) :
    ∀ written ∈ (Block.listing tag code).lines mode, holds written.content := by
  intro written hwritten
  simp only [Block.lines, List.mem_append, List.mem_cons, List.mem_map, List.not_mem_nil, or_false]
    at hwritten
  rcases hwritten with ((rfl | rfl) | ⟨line, _, rfl⟩) | rfl | rfl
  · exact hholds.nil
  · exact composes_listingBegin hholds htag
  · exact hholds.escapeCode line
  · exact (hholds.environment (by decide)).2
  · exact hholds.nil

/-! A whole fragment. -/

theorem composes_ofLines (mode : HeadingMode) {lines : List (List Char)}
    (hlines : ∀ line ∈ proseLines lines, UrlsAvoid special line) :
    ∀ written ∈ (Block.ofLines lines).flatMap (Block.lines mode), holds written.content := by
  unfold Block.ofLines
  unfold proseLines at hlines
  induction lines using Pattern.induction listingPattern with
  | nil => simp
  | found line lines block rest hfound ih =>
      obtain ⟨tag, code⟩ := block
      obtain ⟨hopening, -⟩ := listingPattern_some hfound
      rw [Pattern.replace_cons_some hfound, List.flatten_cons, List.nil_append] at hlines
      rw [Pattern.replace_cons_some hfound, List.flatMap_cons]
      intro written hwritten
      rcases List.mem_append.1 hwritten with hwritten | hwritten
      · exact composes_listing hholds mode code hopening.tag.1 written hwritten
      · exact ih hlines written hwritten
  | kept line lines hnone ih =>
      rw [Pattern.replace_cons_none hnone, List.flatten_cons, List.singleton_append] at hlines
      obtain ⟨hline, hrest⟩ := List.forall_mem_cons.1 hlines
      rw [Pattern.replace_cons_none hnone, List.flatMap_cons]
      intro written hwritten
      rcases List.mem_append.1 hwritten with hwritten | hwritten
      · exact composes_ofLine hholds mode hline written hwritten
      · exact ih hrest written hwritten

theorem composes_itemizeFrom {lines : List Line} (inside : Bool)
    (hlines : ∀ line ∈ lines, holds line.content) :
    ∀ written ∈ itemizeFrom inside lines, holds written := by
  obtain ⟨hbegin, hend⟩ : holds listBegin ∧ holds listEnd := hholds.environment (by decide)
  induction lines generalizing inside with
  | nil => cases inside <;> simp [itemizeFrom, hend]
  | cons line lines ih =>
      obtain ⟨hline, hrest⟩ := List.forall_mem_cons.1 hlines
      cases line <;> cases inside <;> simpa [itemizeFrom, hbegin, hend] using ⟨hline, ih _ hrest⟩

theorem composes_fragmentLatex (mode : HeadingMode) {markdown : List Char}
    (hmarkdown : SafeUrls special markdown) : holds (fragmentLatex mode markdown) :=
  hholds.intercalate (hholds.unreserved (by decide))
    (composes_itemizeFrom hholds false (composes_ofLines hholds mode hmarkdown))

end Composition

end Bindery.Markdown
