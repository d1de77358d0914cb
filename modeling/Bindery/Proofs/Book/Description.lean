import Bindery.Proofs.Book.Portion

namespace Bindery

/-! The assembled document against its description: the chapters with the headers of their parts,
the three regions, and the document as a whole. -/

/-! The chapters. Opened are the numbers of the parts that earlier chapters are mapped to. -/

theorem Document.receive_openedParts (document : Document) (place : Section) (file : String)
    (fetched : Fetched) :
    (document.receive place file fetched).1.openedParts = document.openedParts := by
  simp only [receive]
  split <;> rfl

theorem Document.addChapterText_openedParts (source : FragmentSource) (document : Document)
    (chapter : Chapter) :
    (document.addChapterText source chapter).openedParts = document.openedParts := by
  have hreceived := document.receive_openedParts .chapters chapter.file
    (source.fetch .chapters chapter.file)
  simp only [addChapterText]
  split
  · cases chapter.title <;> exact hreceived
  · exact hreceived

def Document.OpenedBy (document : Document) (parts : PartMap) (earlier : List Chapter) : Prop :=
  ∀ number, number ∈ document.openedParts ↔ earlier.any (parts.opens number) = true

theorem Document.openPart_gains (document : Document) (part : Part) :
    document.Gains
      ⟨if part.number ∈ document.openedParts then "" else partHeader part, 0, []⟩
      (document.openPart part) := by
  unfold openPart
  simp only [List.contains_iff_mem]
  split
  · exact ⟨by simp, rfl, by simp⟩
  · exact ⟨rfl, rfl, by simp⟩

theorem Document.mem_openPart (document : Document) (part : Part) (number : UInt32) :
    number ∈ (document.openPart part).openedParts ↔
      number ∈ document.openedParts ∨ part.number = number := by
  unfold openPart
  simp only [List.contains_iff_mem]
  split
  · rename_i hopened
    constructor
    · exact .inl
    · rintro (hmem | rfl)
      · exact hmem
      · exact hopened
  · rw [List.mem_cons, eq_comm, or_comm]

theorem Document.openFor_gains {document : Document} {parts : PartMap} {earlier : List Chapter}
    (hopened : document.OpenedBy parts earlier) (chapter : Chapter) :
    document.Gains ⟨parts.heading earlier chapter, 0, []⟩ (document.openFor parts chapter) := by
  unfold openFor
  cases hpart : parts.lookup chapter.number with
  | none =>
      rw [PartMap.heading_of_none hpart]
      exact ⟨by simp, rfl, by simp⟩
  | some part =>
      have hgains := document.openPart_gains part
      simp only [hopened part.number] at hgains
      rw [PartMap.heading_of_some hpart]
      exact hgains

theorem Document.openFor_openedBy {document : Document} {parts : PartMap} {earlier : List Chapter}
    (hopened : document.OpenedBy parts earlier) (chapter : Chapter) :
    (document.openFor parts chapter).OpenedBy parts (earlier ++ [chapter]) := by
  intro number
  rw [List.any_append, Bool.or_eq_true, ← hopened number]
  unfold openFor PartMap.opens
  cases hpart : parts.lookup chapter.number with
  | none => simp [hpart]
  | some part => simp [hpart, mem_openPart]

theorem Document.Gains.under {document middle later : Document} {heading : String}
    {portion : Portion} (hheading : document.Gains ⟨heading, 0, []⟩ middle)
    (hportion : middle.Gains portion later) : document.Gains (portion.under heading) later where
  text := by rw [hportion.text, hheading.text, Portion.under, String.append_assoc]
  fragments := by rw [hportion.fragments, hheading.fragments, Portion.under, Nat.add_zero]
  missing := by rw [hportion.missing, hheading.missing, Portion.under, List.append_nil]

theorem Document.addChapter_gains {parts : PartMap} {earlier : List Chapter} {document : Document}
    (hopened : document.OpenedBy parts earlier) (source : FragmentSource) (chapter : Chapter) :
    document.Gains ((source.chapterPortion chapter).under (parts.heading earlier chapter))
      (document.addChapter parts source chapter) :=
  (openFor_gains hopened chapter).under (addChapterText_gains source _ chapter)

theorem Document.addChapter_openedBy {parts : PartMap} {earlier : List Chapter}
    {document : Document} (hopened : document.OpenedBy parts earlier) (source : FragmentSource)
    (chapter : Chapter) :
    (document.addChapter parts source chapter).OpenedBy parts (earlier ++ [chapter]) := by
  intro number
  rw [addChapter, addChapterText_openedParts]
  exact openFor_openedBy hopened chapter number

/-! Each region as a whole. -/

theorem Document.foldl_addMatter_gains (source : FragmentSource) (place : Section)
    (items : List MatterItem) (document : Document) :
    document.Gains (.total (items.map (source.matterPortion place)))
      (items.foldl (addMatter source place) document) := by
  induction items generalizing document with
  | nil => exact .nil document
  | cons item items ih => exact (addMatter_gains source place document item).cons (ih _)

theorem Document.foldl_addChapter_gains (parts : PartMap) (source : FragmentSource)
    (chapters : List Chapter) {earlier : List Chapter} {document : Document}
    (hopened : document.OpenedBy parts earlier) :
    document.Gains
      (.total ((chapters.zipIdx earlier.length).map fun (chapter, index) =>
        (source.chapterPortion chapter).under
          (parts.heading ((earlier ++ chapters).take index) chapter)))
      (chapters.foldl (addChapter parts source) document) := by
  induction chapters generalizing earlier document with
  | nil => exact .nil document
  | cons chapter chapters ih =>
      have hfirst := addChapter_gains hopened source chapter
      have hrest := ih (addChapter_openedBy hopened source chapter)
      rw [List.append_assoc, List.length_append] at hrest
      simp only [List.zipIdx_cons, List.map_cons, List.take_left]
      exact hfirst.cons hrest

theorem Document.foldl_addMatter_openedParts (source : FragmentSource) (place : Section)
    (items : List MatterItem) (document : Document) :
    (items.foldl (addMatter source place) document).openedParts = document.openedParts := by
  induction items generalizing document with
  | nil => rfl
  | cons item items ih =>
      have hreceived := document.receive_openedParts place item.file
        (source.fetch place item.file)
      rw [List.foldl_cons, ih]
      simp only [addMatter]
      split <;> exact hreceived

/-- The file that the title page replaces is left out. -/
def Manifest.frontPortion (manifest : Manifest) (source : FragmentSource) : Portion :=
  .total <|
    (manifest.frontMatter.filter (·.file != "title.md")).map (source.matterPortion .frontMatter)

theorem Manifest.frontPortion_eq (manifest : Manifest) (source : FragmentSource) :
    manifest.frontPortion source =
      .total (manifest.printedFrontMatter.map (source.matterPortion .frontMatter)) := rfl

def Manifest.mainPortion (manifest : Manifest) (source : FragmentSource) : Portion :=
  .total (manifest.chapterPortions source)

def Manifest.backPortion (manifest : Manifest) (source : FragmentSource) : Portion :=
  .total (manifest.backMatter.map (source.matterPortion .backMatter))

theorem Document.beginRegion_gains (document : Document) (region : Region) (message : String) :
    document.Gains ⟨region.marker, 0, []⟩ (document.beginRegion region message) :=
  ⟨rfl, rfl, by simp [beginRegion, enter, note]⟩

theorem Document.Gains.append {document later : Document} {portion : Portion}
    (hgains : document.Gains portion later) (text : String) :
    document.Gains { portion with text := portion.text ++ text } (later.append text) where
  text := by rw [Document.append, hgains.text, String.append_assoc]
  fragments := hgains.fragments
  missing := hgains.missing

section Regions

variable (manifest : Manifest) (source : FragmentSource) (document : Document)

theorem assembleFrontMatter_gains :
    document.Gains
      ((manifest.frontPortion source).under
        "\\frontmatter\n\\maketitle\n\\tableofcontents\n\n")
      (assembleFrontMatter manifest source document) := by
  have hbegin := document.beginRegion_gains .frontMatter "Processing front matter..."
  have hcontents := hbegin.append "\\maketitle\n\\tableofcontents\n\n"
  have hmarker : Region.frontMatter.marker ++ "\\maketitle\n\\tableofcontents\n\n" =
      "\\frontmatter\n\\maketitle\n\\tableofcontents\n\n" := by decide
  rw [← hmarker, Manifest.frontPortion_eq]
  exact hcontents.under (Document.foldl_addMatter_gains source .frontMatter _ _)

theorem assembleFrontMatter_openedParts :
    (assembleFrontMatter manifest source document).openedParts = document.openedParts :=
  Document.foldl_addMatter_openedParts source .frontMatter manifest.printedFrontMatter _

theorem assembleMainMatter_gains (hopened : document.openedParts = []) :
    document.Gains ((manifest.mainPortion source).under "\\mainmatter\n\n")
      (assembleMainMatter manifest source document) := by
  have hbegin := document.beginRegion_gains .mainMatter "Processing chapters..."
  have hnone : (document.beginRegion .mainMatter "Processing chapters...").OpenedBy
      manifest.partMap [] := by
    intro number
    change number ∈ document.openedParts ↔ _
    simp [hopened]
  exact hbegin.under (Document.foldl_addChapter_gains manifest.partMap source _ hnone)

theorem assembleBackMatter_gains :
    document.Gains
      ((manifest.backPortion source).under "\\backmatter\n\n\\appendix\n\n")
      (assembleBackMatter manifest source document) := by
  have hbegin := document.beginRegion_gains .backMatter "Processing back matter..."
  exact hbegin.under (Document.foldl_addMatter_gains source .backMatter _ _)

end Regions

/-- The three regions under their markers, and the end of the document. -/
def Manifest.portion (manifest : Manifest) (source : FragmentSource) : Portion :=
  .total
    [ (manifest.frontPortion source).under "\\frontmatter\n\\maketitle\n\\tableofcontents\n\n",
      (manifest.mainPortion source).under "\\mainmatter\n\n",
      (manifest.backPortion source).under "\\backmatter\n\n\\appendix\n\n",
      ⟨"\n\\end\x7bdocument\x7d\n", 0, []⟩ ]

theorem Region.closed_marker_append :
    Region.closed.marker ++ documentClosing = "\n\\end\x7bdocument\x7d\n" := by decide

theorem assemble_gains (settings : PageSettings) (manifest : Manifest) (source : FragmentSource) :
    Document.Gains { text := settings.preamble manifest, events := issueEvents manifest }
      (manifest.portion source) (assemble settings manifest source) := by
  let start : Document := { text := settings.preamble manifest, events := issueEvents manifest }
  let front := assembleFrontMatter manifest source start
  let main := assembleMainMatter manifest source front
  let back := assembleBackMatter manifest source main
  have hfront := assembleFrontMatter_gains manifest source start
  have hmain := assembleMainMatter_gains manifest source front
    (assembleFrontMatter_openedParts manifest source start)
  have hback := assembleBackMatter_gains manifest source main
  have hclosing : back.Gains ⟨"\n\\end\x7bdocument\x7d\n", 0, []⟩
      (assemble settings manifest source) := by
    rw [← Region.closed_marker_append]
    exact ⟨String.append_assoc, rfl, (List.append_nil _).symm⟩
  exact hfront.cons (hmain.cons (hback.cons (hclosing.cons (.nil _))))

/-- The document is its declarative description, read off the manifest and the files one by one. -/
theorem assemble_eq_description (settings : PageSettings) (manifest : Manifest)
    (source : FragmentSource) :
    let front := manifest.frontPortion source
    let main := manifest.mainPortion source
    let back := manifest.backPortion source
    let document := assemble settings manifest source
    document.region = .closed ∧
      document.text = settings.preamble manifest ++
        "\\frontmatter\n\\maketitle\n\\tableofcontents\n\n" ++ front.text ++
        "\\mainmatter\n\n" ++ main.text ++
        "\\backmatter\n\n\\appendix\n\n" ++ back.text ++
        "\n\\end\x7bdocument\x7d\n" ∧
      document.fragments = front.fragments + main.fragments + back.fragments ∧
      document.missing = front.missing ++ main.missing ++ back.missing := by
  intro front main back document
  let start : Document := { text := settings.preamble manifest, events := issueEvents manifest }
  have hfront := assembleFrontMatter_gains manifest source start
  have hmain := assembleMainMatter_gains manifest source
    (assembleFrontMatter manifest source start)
    (assembleFrontMatter_openedParts manifest source start)
  have hback := assembleBackMatter_gains manifest source
    (assembleMainMatter manifest source (assembleFrontMatter manifest source start))
  refine ⟨rfl, ?_, ?_, ?_⟩
  · change (assembleBackMatter _ _ _).text ++ Region.closed.marker ++ documentClosing = _
    rw [String.append_assoc, Region.closed_marker_append, hback.text, hmain.text, hfront.text]
    simp only [Portion.under, String.append_assoc]
    rfl
  · change (assembleBackMatter _ _ _).fragments = _
    rw [hback.fragments, hmain.fragments, hfront.fragments]
    simp only [start, Portion.under, Nat.zero_add]
    rfl
  · change (assembleBackMatter _ _ _).missing = _
    rw [hback.missing, hmain.missing, hfront.missing]
    rfl

end Bindery
