import Bindery.Proofs.Book.Description
import Bindery.Proofs.Book.Preamble
import Bindery.Proofs.Markdown.Composition

namespace Bindery

open Latex Markdown

/-! What the files of a manuscript bring into a document is put together from harmless pieces, and
so is the preamble around the manifest's own text. -/

def FragmentSource.SafeUrls (source : FragmentSource) (special : List Char) : Prop :=
  ∀ place file text, source.fetch place file = .ok (some text) →
    Markdown.SafeUrls special text.toList

theorem FragmentSource.fetch_of_textOf? {source : FragmentSource} {place : Section} {file : String}
    {text : List Char} (htext : source.textOf? place file = some text) :
    ∃ found : String, source.fetch place file = .ok (some found) ∧ found.toList = text := by
  unfold textOf? at htext
  split at htext
  · rename_i found hfetch
    split at htext
    · contradiction
    · exact ⟨found, hfetch, Option.some.inj htext⟩
  · contradiction

/-- The text of a document is that of its regions, each under its marker. -/
theorem text_assemble (settings : PageSettings) (manifest : Manifest) (source : FragmentSource) :
    (assemble settings manifest source).text =
      settings.preamble manifest ++
        ("\\frontmatter\n\\maketitle\n\\tableofcontents\n\n" ++
          (manifest.frontPortion source).text) ++
        ("\\mainmatter\n\n" ++ (manifest.mainPortion source).text) ++
        ("\\backmatter\n\n\\appendix\n\n" ++ (manifest.backPortion source).text) ++
        "\n\\end\x7bdocument\x7d\n" := by
  rw [(assemble_gains settings manifest source).text]
  simp [Manifest.portion, Portion.under, String.append_assoc]

section Portions

variable {special : List Char} {holds : List Char → Prop} (hholds : Composes special holds)
  {source : FragmentSource} (hsource : source.SafeUrls special)

include hholds

theorem composes_braced_escapeText (text : String) : holds (braced (escapeText text)).toList := by
  have hgroup := hholds.group (hholds.escape text.toList)
  simpa [braced, group] using hgroup

theorem composes_writtenLines {lines : List String} (hlines : ∀ line ∈ lines, holds line.toList) :
    holds (writtenLines lines) :=
  hholds.flatMap fun line hline => hholds.append (hlines line hline) (hholds.unreserved (by decide))

theorem composes_metadataLines (manifest : Manifest) :
    holds (writtenLines (metadataLines manifest)) := by
  refine composes_writtenLines hholds fun line hline => ?_
  simp only [metadataLines, List.mem_cons, List.not_mem_nil, or_false] at hline
  rcases hline with rfl | rfl
  · have hname : holds "  pdftitle=".toList := hholds.chars (by decide)
    have hbehind : holds ",".toList := hholds.chars (by decide)
    rw [String.toList_append, String.toList_append]
    exact hholds.append (hholds.append hname (composes_braced_escapeText hholds manifest.title))
      hbehind
  · have hname : holds "  pdfauthor=".toList := hholds.chars (by decide)
    rw [String.toList_append]
    exact hholds.append hname (composes_braced_escapeText hholds manifest.author)

theorem composes_total {portions : List Portion}
    (hportions : ∀ portion ∈ portions, holds portion.text.toList) :
    holds (Portion.total portions).text.toList := by
  rw [Portion.total, String.toList_join, List.flatMap_map]
  exact hholds.flatMap hportions

theorem composes_portion (place : Section) (file : String) {latex? : Option (List Char)}
    (hlatex : ∀ latex ∈ latex?, holds latex) :
    holds (source.portion place file latex?).text.toList := by
  have hbreak : holds "\n\n".toList := hholds.chars (by decide)
  cases latex? with
  | none => exact hholds.nil
  | some latex =>
      have hwritten := hholds.append (hlatex latex rfl) hbreak
      simpa [FragmentSource.portion] using hwritten

include hsource

theorem composes_textOf? (mode : HeadingMode) {place : Section} {file : String} {text : List Char}
    (htext : source.textOf? place file = some text) : holds (fragmentLatex mode text) := by
  obtain ⟨found, hfetch, rfl⟩ := source.fetch_of_textOf? htext
  exact composes_fragmentLatex hholds mode (hsource place file found hfetch)

theorem composes_matterPortion (place : Section) (item : MatterItem) :
    holds (source.matterPortion place item).text.toList := by
  refine composes_portion hholds place item.file fun latex hlatex => ?_
  obtain ⟨text, htext, rfl⟩ := Option.map_eq_some_iff.1 hlatex
  exact composes_textOf? hholds hsource .unnumbered htext

theorem composes_matter (place : Section) (items : List MatterItem) :
    holds (Portion.total (items.map (source.matterPortion place))).text.toList := by
  refine composes_total hholds fun portion hportion => ?_
  obtain ⟨item, _, rfl⟩ := List.mem_map.1 hportion
  exact composes_matterPortion hholds hsource place item

theorem composes_chapterPortion (chapter : Chapter) :
    holds (source.chapterPortion chapter).text.toList := by
  refine composes_portion hholds .chapters chapter.file fun latex hlatex => ?_
  split at hlatex
  · rename_i text htext
    obtain rfl := Option.some.inj hlatex
    exact composes_textOf? hholds hsource .numbered htext
  · obtain ⟨title, _, rfl⟩ := Option.map_eq_some_iff.1 hlatex
    exact hholds.command (by decide) (hholds.escape title.toList)

end Portions

end Bindery
