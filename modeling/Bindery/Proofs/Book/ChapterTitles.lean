import Bindery.Proofs.Book.Composition
import Bindery.Proofs.Markdown.Blankness

namespace Bindery

open Latex Markdown

/-! The titles of chapters that print no text of their own. A chapter falls back to its title when
its file is missing or empty, and not when its file has a text that shows nothing. -/

def chapterHeading (title : String) : List Char :=
  command "chapter" (escape title.toList)

/-- The chapter's file cannot be read, or it is converted to white space. -/
def FragmentSource.Bodiless (source : FragmentSource) (chapter : Chapter) : Prop :=
  ∀ text, source.fetch .chapters chapter.file = .ok (some text) →
    IsBlankText (fragmentLatex .numbered text.toList)

/-- The chapter's file has a text, and nothing of it outside its comments can be seen. -/
def FragmentSource.HasBlankText (source : FragmentSource) (chapter : Chapter) : Prop :=
  ∃ text, source.fetch .chapters chapter.file = .ok (some text) ∧ text ≠ "" ∧
    IsBlankText (stripComments (unifyLineEnds text.toList))

/-! The place of a chapter in the document. -/

/-- What is written up to a chapter, without the header of a part that it opens. -/
def Manifest.textBefore (settings : PageSettings) (manifest : Manifest) (source : FragmentSource)
    (index : Nat) : String :=
  settings.preamble manifest ++
    ("\\frontmatter\n\\maketitle\n\\tableofcontents\n\n" ++ (manifest.frontPortion source).text) ++
    "\\mainmatter\n\n" ++
    (Portion.total ((manifest.chapterPortions source).take index)).text

/-- What is written behind a chapter, from the next chapter on. -/
def Manifest.textBehind (manifest : Manifest) (source : FragmentSource) (index : Nat) : String :=
  (Portion.total ((manifest.chapterPortions source).drop (index + 1))).text ++
    ("\\backmatter\n\n\\appendix\n\n" ++ (manifest.backPortion source).text) ++
    "\n\\end\x7bdocument\x7d\n"

theorem Portion.total_append (portions behind : List Portion) :
    (total (portions ++ behind)).text = (total portions).text ++ (total behind).text := by
  rw [total, List.map_append, String.join_append]
  rfl

theorem Portion.total_focus {portions : List Portion} {index : Nat} {portion : Portion}
    (hportion : portions[index]? = some portion) :
    (total portions).text =
      (total (portions.take index)).text ++ portion.text ++
        (total (portions.drop (index + 1))).text := by
  obtain ⟨hindex, rfl⟩ := List.getElem?_eq_some_iff.1 hportion
  have hcut : portions = portions.take index ++ portions[index] :: portions.drop (index + 1) := by
    rw [← List.drop_eq_getElem_cons hindex, List.take_append_drop]
  conv => lhs; rw [hcut]
  rw [total_append, total_cons, String.append_assoc]

section Titled

variable {manifest : Manifest} {index : Nat} {chapter : Chapter} {source : FragmentSource}

theorem Manifest.text_at_chapter (settings : PageSettings)
    (hchapter : manifest.chapters[index]? = some chapter) :
    (assemble settings manifest source).text =
      manifest.textBefore settings source index ++
        manifest.partMap.heading (manifest.chapters.take index) chapter ++
        (source.chapterPortion chapter).text ++ manifest.textBehind source index := by
  have hportion : (manifest.chapterPortions source)[index]? =
      some ((source.chapterPortion chapter).under
        (manifest.partMap.heading (manifest.chapters.take index) chapter)) := by
    rw [chapterPortions, List.getElem?_map, List.getElem?_zipIdx, hchapter]
    simp
  rw [text_assemble, mainPortion, Portion.total_focus hportion]
  simp only [textBefore, textBehind, Portion.under, String.append_assoc]

theorem FragmentSource.textOf?_eq_some {place : Section} {file : String} {text : List Char} :
    source.textOf? place file = some text ↔
      ∃ found, source.fetch place file = .ok (some found) ∧ found ≠ "" ∧ found.toList = text := by
  constructor
  · intro htext
    obtain ⟨found, hfetch, rfl⟩ := source.fetch_of_textOf? htext
    refine ⟨found, hfetch, ?_, rfl⟩
    rintro rfl
    rw [textOf?, hfetch] at htext
    contradiction
  · rintro ⟨found, hfetch, hsome, rfl⟩
    rw [textOf?, hfetch]
    exact if_neg hsome

theorem FragmentSource.chapterPortion_of_some {text : List Char}
    (htext : source.textOf? .chapters chapter.file = some text) :
    (source.chapterPortion chapter).text.toList =
      fragmentLatex .numbered text ++ "\n\n".toList := by
  simp [chapterPortion, portion, htext]

theorem FragmentSource.chapterPortion_of_none {title : String} (htitle : chapter.title = some title)
    (hnone : source.textOf? .chapters chapter.file = none) :
    (source.chapterPortion chapter).text.toList = chapterHeading title ++ "\n\n".toList := by
  simp [chapterPortion, portion, hnone, htitle, chapterHeading]

end Titled

theorem not_isBlankText_chapterHeading (title : String) (behind : List Char) :
    ¬ IsBlankText (chapterHeading title ++ behind) :=
  fun hblank => not_isBlankText_command _ _ (isBlankText_append.1 hblank).1

/-- A titled chapter without a body has its title at its place exactly when its file has no text. Of
a text that shows nothing only white space is left there. -/
theorem chapterTitle_kept_iff (settings : PageSettings) {manifest : Manifest} {index : Nat}
    {chapter : Chapter} {title : String} (hchapter : manifest.chapters[index]? = some chapter)
    (htitle : chapter.title = some title) {source : FragmentSource}
    (hbodiless : source.Bodiless chapter) :
    let own := (source.chapterPortion chapter).text
    (assemble settings manifest source).text =
        manifest.textBefore settings source index ++
          manifest.partMap.heading (manifest.chapters.take index) chapter ++ own ++
          manifest.textBehind source index ∧
      (own.toList = chapterHeading title ++ "\n\n".toList ↔ ¬ source.HasBlankText chapter) ∧
      (IsBlankText own.toList ↔ source.HasBlankText chapter) := by
  intro own
  refine ⟨manifest.text_at_chapter settings hchapter, ?_⟩
  cases htext : source.textOf? .chapters chapter.file with
  | none =>
      have hown : own.toList = chapterHeading title ++ "\n\n".toList :=
        source.chapterPortion_of_none htitle htext
      have hnot : ¬ source.HasBlankText chapter := by
        rintro ⟨text, hfetch, hsome, -⟩
        have hfound := FragmentSource.textOf?_eq_some.2 ⟨text, hfetch, hsome, rfl⟩
        rw [htext] at hfound
        contradiction
      rw [hown]
      exact ⟨iff_of_true rfl hnot, iff_of_false (not_isBlankText_chapterHeading title _) hnot⟩
  | some text =>
      obtain ⟨found, hfetch, hsome, rfl⟩ := FragmentSource.textOf?_eq_some.1 htext
      have hlatex := hbodiless found hfetch
      have hblank : IsBlankText own.toList := by
        have hown : own.toList = fragmentLatex .numbered found.toList ++ "\n\n".toList :=
          FragmentSource.chapterPortion_of_some htext
        rw [hown]
        exact isBlankText_append.2 ⟨hlatex, by decide⟩
      have hhas : source.HasBlankText chapter :=
        ⟨found, hfetch, hsome, (isBlankText_fragmentLatex _ _).1 hlatex⟩
      refine ⟨iff_of_false (fun hown => ?_) (not_not_intro hhas), iff_of_true hblank hhas⟩
      exact not_isBlankText_chapterHeading title _ (hown ▸ hblank)

/-- Behind the header of its part, from a file that is not there. -/
theorem chapterTitle_kept_iff_missing :
    let chapter : Chapter := ⟨1, "a.md", some "A & B"⟩
    let manifest : Manifest :=
      { title := "T", author := "", version := "", frontMatter := [], parts := [⟨1, "P", [1]⟩]
        chapters := [chapter, ⟨2, "b.md", none⟩], backMatter := [] }
    let source : FragmentSource :=
      ⟨fun _ file => .ok (if file = "b.md" then some "# Second" else none)⟩
    manifest.chapters[0]? = some chapter ∧ chapter.title = some "A & B" ∧
      source.Bodiless chapter ∧ ¬ source.HasBlankText chapter ∧
      (assemble {} manifest source).text =
        manifest.textBefore {} source 0 ++ "\\part\x7bP\x7d\n\n" ++
          "\\chapter\x7bA \\& B\x7d\n\n" ++ manifest.textBehind source 0 := by
  intro chapter manifest source
  have hmissing (text : String) : source.fetch .chapters chapter.file ≠ .ok (some text) := by
    change (.ok none : Fetched) ≠ .ok (some text)
    simp
  have hbodiless : source.Bodiless chapter := fun text hfetch => absurd hfetch (hmissing text)
  have hnot : ¬ source.HasBlankText chapter := fun ⟨text, hfetch, _⟩ => hmissing text hfetch
  have hchapter : manifest.chapters[0]? = some chapter := rfl
  obtain ⟨htext, hkept, -⟩ := chapterTitle_kept_iff {} hchapter rfl hbodiless
  have hown : (source.chapterPortion chapter).text = "\\chapter\x7bA \\& B\x7d\n\n" :=
    String.toList_inj.1 ((hkept.2 hnot).trans (by decide))
  have hpart : manifest.partMap.heading (manifest.chapters.take 0) chapter =
      "\\part\x7bP\x7d\n\n" := by decide
  rw [hown, hpart] at htext
  exact ⟨rfl, rfl, hbodiless, hnot, htext⟩

/-- A comment in the file of a titled chapter, and the title is nowhere in the document. -/
theorem chapterTitle_lost :
    let chapter : Chapter := ⟨1, "a.md", some "First"⟩
    let manifest : Manifest :=
      { title := "T", author := "", version := "", frontMatter := [], parts := []
        chapters := [chapter, ⟨2, "b.md", none⟩], backMatter := [] }
    let source : FragmentSource :=
      ⟨fun _ file => .ok (some (if file = "b.md" then "# Second" else "<!-- draft -->\n"))⟩
    manifest.chapters[0]? = some chapter ∧ chapter.title = some "First" ∧
      source.Bodiless chapter ∧
      ¬ chapterHeading "First" <:+: (assemble {} manifest source).text.toList := by
  intro chapter manifest source
  have hbodiless : source.Bodiless chapter := by
    rintro text ⟨⟩
    decide +kernel
  refine ⟨rfl, rfl, hbodiless, ?_⟩
  rw [text_assemble]
  simp only [String.toList_append, toList_preamble]
  decide +kernel

end Bindery
