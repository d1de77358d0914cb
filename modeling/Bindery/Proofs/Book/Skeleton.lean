import Bindery.Proofs.Book.Composition
import Bindery.Proofs.Latex.Marks

namespace Bindery

open Latex Markdown

/-! The commands that a document is built around stand in it once each and in one order, and as many
parts begin as have been opened. No text of the manuscript can bring in one of these commands. -/

/-- What opens and closes the document and its regions, in order. -/
def skeleton : List String :=
  [ "\\documentclass", "\\title\x7b", "\\author\x7b", "\\date\x7b", "\\begin\x7bdocument\x7d",
    "\\frontmatter", "\\maketitle", "\\tableofcontents", "\\mainmatter", "\\backmatter",
    "\\appendix", "\\end\x7bdocument\x7d" ]

def partMark : String :=
  "\\part\x7b"

def documentMarks : List String :=
  partMark :: skeleton

theorem documentMarks_head : ∀ mark ∈ documentMarks, mark.toList.head? = some '\\' := by
  decide

theorem adds_fixed {text : List Char} {found : List String}
    (htext : Settles documentMarks text found) : Adds documentMarks text found :=
  htext.adds documentMarks_head

theorem composes_adds_none : Composes ['\\'] (Adds documentMarks · []) where
  special_subset := by decide
  nil := Adds.nil documentMarks
  append hfront hback := hfront.append hback
  group htext := by
    have hopen := adds_char documentMarks_head (show '\x7b' ≠ '\\' by decide)
    have hclose := adds_char documentMarks_head (show '\x7d' ≠ '\\' by decide)
    exact (hopen.append htext).append hclose
  plain hc := adds_char documentMarks_head (by simpa using hc)
  fixed piece hpiece := by
    have hall : ∀ piece ∈ fixedPieces, Settles documentMarks piece [] := by decide +kernel
    exact adds_fixed (hall piece hpiece)

/-! The preamble. -/

theorem adds_titleLines (manifest : Manifest) :
    Adds documentMarks (writtenLines (titleLines manifest))
      ["\\title\x7b", "\\author\x7b", "\\date\x7b"] := by
  have hbehind (text : String) : Adds documentMarks (escape text.toList ++ ['\x7d', '\n']) [] :=
    composes_adds_none.append (composes_adds_none.escape text.toList)
      (adds_fixed (by decide +kernel))
  have htitle : Adds documentMarks "\\title\x7b".toList ["\\title\x7b"] :=
    adds_fixed (by decide +kernel)
  have hauthor : Adds documentMarks "\\author\x7b".toList ["\\author\x7b"] :=
    adds_fixed (by decide +kernel)
  have hdate : Adds documentMarks "\\date\x7bVersion ".toList ["\\date\x7b"] :=
    adds_fixed (by decide +kernel)
  have hlines := ((htitle.append (hbehind manifest.title)).append
    (hauthor.append (hbehind manifest.author))).append (hdate.append (hbehind manifest.version))
  simpa [writtenLines, titleLines, braced] using hlines

theorem adds_preamble (manifest : Manifest) :
    Adds documentMarks (({} : PageSettings).preamble manifest).toList (skeleton.take 5) := by
  have hpackages : Adds documentMarks (writtenLines packageLines) ["\\documentclass"] :=
    adds_fixed (by decide +kernel)
  have hlisting : Adds documentMarks (writtenLines listingLines) [] :=
    adds_fixed (by decide +kernel)
  have hopening : Adds documentMarks (writtenLines openingLines) ["\\begin\x7bdocument\x7d"] :=
    adds_fixed (by decide +kernel)
  have hmetadata := composes_metadataLines composes_adds_none manifest
  rw [toList_preamble]
  exact (((hpackages.append hmetadata).append hlisting).append (adds_titleLines manifest)).append
    hopening

/-! One step after the other. -/

theorem adds_under {heading : String} {portion : Portion} {found : List String}
    (hheading : Adds documentMarks heading.toList found)
    (hportion : Adds documentMarks portion.text.toList []) :
    Adds documentMarks (portion.under heading).text.toList found := by
  rw [Portion.under, String.toList_append]
  simpa using hheading.append hportion

theorem Document.Gains.adds {document later : Document} {portion : Portion}
    {found more : List String} (hgains : document.Gains portion later)
    (hfound : Adds documentMarks document.text.toList found)
    (hmore : Adds documentMarks portion.text.toList more) :
    Adds documentMarks later.text.toList (found ++ more) := by
  rw [hgains.text, String.toList_append]
  exact hfound.append hmore

/-- The marks of a document in the making are those of its frame and one for each opened part. -/
def Document.Marked (document : Document) (frame : List String) : Prop :=
  Adds documentMarks document.text.toList
    (frame ++ List.replicate document.openedParts.length partMark)

theorem Document.marked_iff {document : Document} (hopened : document.openedParts = [])
    {frame : List String} :
    document.Marked frame ↔ Adds documentMarks document.text.toList frame := by
  unfold Marked
  rw [hopened, List.length_nil, List.replicate_zero, List.append_nil]

theorem adds_partHeader (part : Part) :
    Adds documentMarks (partHeader part).toList [partMark] := by
  have hmark : Adds documentMarks partMark.toList [partMark] :=
    adds_fixed (by decide +kernel)
  have htitle := composes_adds_none.escape part.title.toList
  have hend : Adds documentMarks "\x7d\n\n".toList [] :=
    adds_fixed (by decide +kernel)
  have hheader := hmark.append (htitle.append hend)
  simpa [partHeader, partMark, command, group] using hheader

theorem Document.openPart_marked {document : Document} {frame : List String}
    (hmarked : document.Marked frame) (part : Part) : (document.openPart part).Marked frame := by
  unfold openPart
  split
  · exact hmarked
  · have hheader := hmarked.append (adds_partHeader part)
    unfold Marked
    rw [String.toList_append, List.length_cons, List.replicate_succ']
    rwa [List.append_assoc] at hheader

theorem Document.openFor_marked {document : Document} {frame : List String}
    (hmarked : document.Marked frame) (parts : PartMap) (chapter : Chapter) :
    (document.openFor parts chapter).Marked frame := by
  unfold openFor
  split
  · exact openPart_marked hmarked _
  · exact hmarked

section Source

variable {source : FragmentSource} (hsource : source.SafeUrls ['\\'])

include hsource

theorem Document.addChapter_marked {document : Document} {frame : List String}
    (hmarked : document.Marked frame) (parts : PartMap) (chapter : Chapter) :
    (document.addChapter parts source chapter).Marked frame := by
  have hopened := openFor_marked hmarked parts chapter
  have hgains := (document.openFor parts chapter).addChapterText_gains source chapter
  have htext := hgains.adds hopened (composes_chapterPortion composes_adds_none hsource chapter)
  unfold Marked addChapter
  rwa [addChapterText_openedParts, ← List.append_nil (frame ++ _)]

theorem Document.foldl_addChapter_marked {document : Document} {frame : List String}
    (hmarked : document.Marked frame) (parts : PartMap) (chapters : List Chapter) :
    (chapters.foldl (addChapter parts source) document).Marked frame := by
  induction chapters generalizing document with
  | nil => exact hmarked
  | cons chapter chapters ih => exact ih (addChapter_marked hsource hmarked parts chapter)

theorem assembleFrontMatter_marked (manifest : Manifest) {document : Document}
    {frame : List String} (hopened : document.openedParts = [])
    (hmarked : document.Marked frame) :
    (assembleFrontMatter manifest source document).Marked
      (frame ++ ["\\frontmatter", "\\maketitle", "\\tableofcontents"]) := by
  have hmarker : Adds documentMarks "\\frontmatter\n\\maketitle\n\\tableofcontents\n\n".toList
      ["\\frontmatter", "\\maketitle", "\\tableofcontents"] := adds_fixed (by decide +kernel)
  have hitems := composes_matter composes_adds_none hsource .frontMatter manifest.printedFrontMatter
  have hgains := assembleFrontMatter_gains manifest source document
  have hkept := (assembleFrontMatter_openedParts manifest source document).trans hopened
  rw [Document.marked_iff hopened] at hmarked
  rw [Document.marked_iff hkept]
  exact hgains.adds hmarked (adds_under hmarker hitems)

theorem assembleMainMatter_marked (manifest : Manifest) {document : Document}
    {frame : List String} (hopened : document.openedParts = [])
    (hmarked : document.Marked frame) :
    (assembleMainMatter manifest source document).Marked (frame ++ ["\\mainmatter"]) := by
  have hmarker : Adds documentMarks "\\mainmatter\n\n".toList ["\\mainmatter"] :=
    adds_fixed (by decide +kernel)
  refine Document.foldl_addChapter_marked hsource ?_ manifest.partMap manifest.chapters
  have hgains := document.beginRegion_gains .mainMatter "Processing chapters..."
  have hkept : (document.beginRegion .mainMatter "Processing chapters...").openedParts = [] :=
    hopened
  rw [Document.marked_iff hopened] at hmarked
  rw [Document.marked_iff hkept]
  exact hgains.adds hmarked hmarker

/-- All marks of a document in order: the parts stand behind the opening of the main matter. -/
theorem occurrences_assemble (manifest : Manifest) :
    occurrences documentMarks (assemble {} manifest source).text.toList =
      skeleton.take 9 ++
        List.replicate (assemble {} manifest source).openedParts.length partMark ++
        skeleton.drop 9 := by
  let start : Document :=
    { text := ({} : PageSettings).preamble manifest, events := issueEvents manifest }
  let front := assembleFrontMatter manifest source start
  let main := assembleMainMatter manifest source front
  let back := assembleBackMatter manifest source main
  have hstart : start.Marked (skeleton.take 5) := adds_preamble manifest
  have hfront := assembleFrontMatter_marked hsource manifest rfl hstart
  have hmain := assembleMainMatter_marked hsource manifest
    (assembleFrontMatter_openedParts manifest source start) hfront
  have hmarker : Adds documentMarks "\\backmatter\n\n\\appendix\n\n".toList
      ["\\backmatter", "\\appendix"] := adds_fixed (by decide +kernel)
  have hclosing : Adds documentMarks (Region.closed.marker ++ documentClosing).toList
      ["\\end\x7bdocument\x7d"] := adds_fixed (by decide +kernel)
  have hmatter := composes_matter composes_adds_none hsource .backMatter manifest.backMatter
  have hback := (assembleBackMatter_gains manifest source main).adds hmain
    (adds_under hmarker hmatter)
  have hopened : back.openedParts = main.openedParts :=
    Document.foldl_addMatter_openedParts source .backMatter manifest.backMatter _
  have hall := (hback.append hclosing).occurrences_eq
  change occurrences documentMarks (back.text ++ Region.closed.marker ++ documentClosing).toList =
    skeleton.take 9 ++ List.replicate back.openedParts.length partMark ++ skeleton.drop 9
  rw [String.append_assoc, String.toList_append, hall, hopened]
  simp only [List.append_assoc]
  rfl

end Source

/-- Every command of the frame stands in the document once and in order, nothing but a line break
follows the last one, and there is one `\part` for each part whose header has been written: no text
of the manuscript forges any of them. Code between fences may hold whatever it likes. -/
theorem assemble_skeleton (manifest : Manifest) (source : FragmentSource)
    (hsource : source.SafeUrls ['\\']) :
    let document := assemble {} manifest source
    occurrences skeleton document.text.toList = skeleton ∧
      (∃ front, document.text = front ++ "\\end\x7bdocument\x7d" ++ "\n") ∧
      occurrences [partMark] document.text.toList =
        List.replicate document.openedParts.length partMark := by
  intro document
  have hall := occurrences_assemble hsource manifest
  have hframe : documentMarks.filter (· != partMark) = skeleton := by decide
  have hparts : documentMarks.filter (· == partMark) = [partMark] := by decide
  have hbefore : (skeleton.take 9).filter (· == partMark) = [] := by decide
  have hbehind : (skeleton.drop 9).filter (· == partMark) = [] := by decide
  refine ⟨?_, ?_, ?_⟩
  · have hkept : (skeleton.take 9).filter (· != partMark) ++
        (skeleton.drop 9).filter (· != partMark) = skeleton := by decide
    rw [← hframe, occurrences_filter, hall, List.filter_append, List.filter_append,
      List.filter_replicate]
    simpa [hframe] using hkept
  · have hclosing : documentClosing = "\n" ++ ("\\end\x7bdocument\x7d" ++ "\n") := by decide
    obtain ⟨body, hbody⟩ : ∃ body, document.text = body ++ documentClosing :=
      ⟨_, text_assemble {} manifest source⟩
    refine ⟨body ++ "\n", ?_⟩
    rw [hbody, hclosing, ← String.append_assoc, ← String.append_assoc]
  · rw [← hparts, occurrences_filter, hall, List.filter_append, List.filter_append, hbefore,
      hbehind, List.filter_replicate]
    simp [document]

theorem assemble_skeleton_hostile :
    let markdown :=
      "# \\part\x7bX\x7d\n\\end\x7bdocument\x7d\n[\\mainmatter](https://x.io)\n\\\\backmatter"
    let manifest : Manifest :=
      { title := "\\maketitle", author := "\\end\x7bdocument\x7d", version := "\\"
        frontMatter := [⟨"a.md"⟩], parts := [⟨1, "\\part\x7b", [1]⟩]
        chapters := [⟨1, "b.md", none⟩], backMatter := [] }
    let source : FragmentSource := ⟨fun _ _ => .ok (some markdown)⟩
    let document := assemble {} manifest source
    Markdown.SafeUrls ['\\'] markdown.toList ∧ source.SafeUrls ['\\'] ∧
      occurrences skeleton document.text.toList = skeleton ∧
      (∃ front, document.text = front ++ "\\end\x7bdocument\x7d" ++ "\n") ∧
      occurrences [partMark] document.text.toList =
        List.replicate document.openedParts.length partMark := by
  intro markdown manifest source document
  have hsafe : Markdown.SafeUrls ['\\'] markdown.toList := by decide +kernel
  have hsource : source.SafeUrls ['\\'] := by
    intro place file text hfetch
    obtain rfl := Option.some.inj (Except.ok.inj hfetch)
    exact hsafe
  exact ⟨hsafe, hsource, assemble_skeleton manifest source hsource⟩

end Bindery
