import Bindery.Book.Assembly

namespace Bindery

/-! What an assembly records of the files it asks for: which of them are missing, and a warning
about each of these. -/

def warnings (events : List Event) : List String :=
  (events.filter (·.severity == .warning)).map (·.message)

theorem warnings_append (first second : List Event) :
    warnings (first ++ second) = warnings first ++ warnings second := by
  rw [warnings, List.filter_append, List.map_append]
  rfl

/-- The label of a file, where it is missing. -/
def FragmentSource.missing (source : FragmentSource) (file : Section × String) : List String :=
  if source.holds file.1 file.2 then [] else [file.1.label file.2]

def FragmentSource.warnings (source : FragmentSource) (file : Section × String) : List String :=
  Bindery.warnings (source.readEvents file.1 file.2)

/-- A document was handed on after some files were asked for. -/
structure Document.Records (source : FragmentSource) (document : Document)
    (files : List (Section × String)) (later : Document) : Prop where
  missing : later.missing = document.missing ++ files.flatMap source.missing
  warnings : warnings later.events = warnings document.events ++ files.flatMap source.warnings

variable {source : FragmentSource} {document middle later : Document}
  {files others : List (Section × String)}

theorem Document.Records.nil (hmissing : later.missing = document.missing)
    (hwarnings : Bindery.warnings later.events = Bindery.warnings document.events) :
    document.Records source [] later where
  missing := by rw [hmissing, List.flatMap_nil, List.append_nil]
  warnings := by rw [hwarnings, List.flatMap_nil, List.append_nil]

theorem Document.Records.trans (hfirst : document.Records source files middle)
    (hsecond : middle.Records source others later) :
    document.Records source (files ++ others) later where
  missing := by
    rw [hsecond.missing, hfirst.missing, List.flatMap_append, List.append_assoc]
  warnings := by
    rw [hsecond.warnings, hfirst.warnings, List.flatMap_append, List.append_assoc]

theorem Document.Records.foldl {α : Type} {step : Document → α → Document}
    {file : α → Section × String}
    (hstep : ∀ (document : Document) item,
      document.Records source [file item] (step document item))
    (items : List α) (document : Document) :
    document.Records source (items.map file) (items.foldl step document) := by
  induction items generalizing document with
  | nil => exact .nil rfl rfl
  | cons item items ih => exact (hstep document item).trans (ih _)

theorem Document.Records.note (hrecords : document.Records source files middle)
    {events : List Event} (hevents : Bindery.warnings events = []) :
    document.Records source files (middle.note events) where
  missing := hrecords.missing
  warnings := by rw [Document.note, warnings_append, hevents, List.append_nil, hrecords.warnings]

theorem Document.Records.addFragment (hrecords : document.Records source files middle)
    (latex : List Char) : document.Records source files (middle.addFragment latex) :=
  ⟨hrecords.missing, hrecords.warnings⟩

theorem Document.Records.append (hrecords : document.Records source files middle) (text : String) :
    document.Records source files (middle.append text) :=
  ⟨hrecords.missing, hrecords.warnings⟩

/-! One file at a time. -/

/-- A file is missing, and warned about, just where it is not held. -/
theorem Document.receive_records (source : FragmentSource) (document : Document) (place : Section)
    (file : String) :
    document.Records source [(place, file)]
      (document.receive place file (source.fetch place file)).1 := by
  have hevents : warnings (document.events ++ fetchEvents place file (source.fetch place file)) =
      warnings document.events ++ source.warnings (place, file) := warnings_append _ _
  refine ⟨?_, ?_⟩
  · rw [List.flatMap_singleton, FragmentSource.missing, FragmentSource.holds, receive]
    cases source.fetch place file with
    | error fault => rfl
    | ok found =>
        cases found with
        | none => rfl
        | some text => exact (List.append_nil _).symm
  · rw [List.flatMap_singleton, ← hevents, receive]
    cases source.fetch place file with
    | error fault => rfl
    | ok found => cases found <;> rfl

theorem Document.addMatter_records (source : FragmentSource) (place : Section) (document : Document)
    (item : MatterItem) :
    document.Records source [(place, item.file)] (document.addMatter source place item) := by
  have hreceived := document.receive_records source place item.file
  simp only [addMatter]
  split
  · exact hreceived
  · exact (hreceived.note rfl).addFragment _

theorem Document.addChapterText_records (source : FragmentSource) (document : Document)
    (chapter : Chapter) :
    document.Records source [(.chapters, chapter.file)]
      (document.addChapterText source chapter) := by
  have hreceived := document.receive_records source .chapters chapter.file
  simp only [addChapterText]
  split
  · cases chapter.title with
    | none => exact hreceived
    | some title => exact hreceived.addFragment _
  · exact (hreceived.note rfl).addFragment _

theorem Document.openFor_records (source : FragmentSource) (document : Document) (parts : PartMap)
    (chapter : Chapter) : document.Records source [] (document.openFor parts chapter) := by
  rw [openFor]
  cases parts.lookup chapter.number with
  | none => exact .nil rfl rfl
  | some part =>
      simp only [openPart]
      split <;> exact .nil rfl rfl

theorem Document.addChapter_records (parts : PartMap) (source : FragmentSource)
    (document : Document) (chapter : Chapter) :
    document.Records source [(.chapters, chapter.file)]
      (document.addChapter parts source chapter) :=
  (document.openFor_records source parts chapter).trans
    (Document.addChapterText_records source _ chapter)

/-! Each region as a whole. -/

section Regions

variable (manifest : Manifest) (source : FragmentSource) (document : Document)

theorem Document.beginRegion_records (region : Region) (message : String) :
    document.Records source [] (document.beginRegion region message) := by
  have hstart : document.Records source [] document := .nil rfl rfl
  have hnoted : document.Records source [] (document.note [⟨.info, .assembly, message⟩]) :=
    hstart.note rfl
  exact ⟨hnoted.missing, hnoted.warnings⟩

theorem assembleFrontMatter_records :
    document.Records source
      (manifest.printedFrontMatter.map fun item => (.frontMatter, item.file))
      (assembleFrontMatter manifest source document) := by
  have hbegin := document.beginRegion_records source .frontMatter "Processing front matter..."
  have hcontents := hbegin.append "\\maketitle\n\\tableofcontents\n\n"
  exact hcontents.trans (.foldl (Document.addMatter_records source .frontMatter) _ _)

theorem assembleMainMatter_records :
    document.Records source (manifest.chapters.map fun chapter => (.chapters, chapter.file))
      (assembleMainMatter manifest source document) := by
  have hbegin := document.beginRegion_records source .mainMatter "Processing chapters..."
  exact hbegin.trans (.foldl (Document.addChapter_records manifest.partMap source) _ _)

theorem assembleBackMatter_records :
    document.Records source (manifest.backMatter.map fun item => (.backMatter, item.file))
      (assembleBackMatter manifest source document) := by
  have hbegin := document.beginRegion_records source .backMatter "Processing back matter..."
  exact hbegin.trans (.foldl (Document.addMatter_records source .backMatter) _ _)

end Regions

theorem assemble_records (settings : PageSettings) (manifest : Manifest) (source : FragmentSource) :
    Document.Records source { text := settings.preamble manifest, events := issueEvents manifest }
      (manifest.printedFrontMatter.map (fun item => (.frontMatter, item.file)) ++
        manifest.chapters.map (fun chapter => (.chapters, chapter.file)) ++
        manifest.backMatter.map (fun item => (.backMatter, item.file)))
      (assemble settings manifest source) := by
  let start : Document := { text := settings.preamble manifest, events := issueEvents manifest }
  have hfront := assembleFrontMatter_records manifest source start
  have hmain := assembleMainMatter_records manifest source
    (assembleFrontMatter manifest source start)
  have hback := assembleBackMatter_records manifest source
    (assembleMainMatter manifest source (assembleFrontMatter manifest source start))
  have hwhole := (hfront.trans hmain).trans hback
  exact ⟨hwhole.missing, hwhole.warnings⟩

/-! A label tells the file that it is about. -/

theorem Section.label_inj {place other : Section} {file name : String} :
    place.label file = other.label name ↔ place = other ∧ file = name := by
  constructor
  · intro hlabel
    have hletters := congrArg String.toList hlabel
    cases place <;> cases other <;>
      simp_all [label, directory, String.toList_append, ← String.toList_inj]
  · rintro ⟨rfl, rfl⟩
    rfl

theorem FragmentSource.mem_missing {place : Section} {file : String}
    {files : List (Section × String)} :
    place.label file ∈ files.flatMap source.missing ↔
      (place, file) ∈ files ∧ source.holds place file = false := by
  rw [List.mem_flatMap]
  constructor
  · rintro ⟨⟨other, name⟩, hmem, hlabel⟩
    rw [missing] at hlabel
    split at hlabel
    · contradiction
    · rename_i hholds
      obtain ⟨rfl, rfl⟩ := Section.label_inj.1 (List.mem_singleton.1 hlabel)
      exact ⟨hmem, Bool.eq_false_iff.2 hholds⟩
  · rintro ⟨hmem, hholds⟩
    refine ⟨(place, file), hmem, ?_⟩
    simp [missing, hholds]

end Bindery
