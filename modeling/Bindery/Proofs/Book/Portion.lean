import Bindery.Book.Assembly

namespace Bindery

open Latex Markdown

/-! What an assembled document consists of. The assembly walks the manifest once with a set of
opened parts; here every portion depends only on the manifest and on the text of its own file. -/

/-- What a stretch of the manifest brings into the document. -/
structure Portion where
  text : String
  fragments : Nat
  missing : List String
  deriving DecidableEq, Repr

def Portion.total (portions : List Portion) : Portion where
  text := String.join (portions.map (·.text))
  fragments := portions.foldr (fun portion count => portion.fragments + count) 0
  missing := portions.flatMap (·.missing)

def Portion.under (portion : Portion) (heading : String) : Portion :=
  { portion with text := heading ++ portion.text }

/-- The text of a file that is there and not empty. -/
def FragmentSource.textOf? (source : FragmentSource) (place : Section) (file : String) :
    Option (List Char) :=
  match source.fetch place file with
  | .ok (some text) => if text = "" then none else some text.toList
  | _ => none

/-- LaTeX with an empty line behind it, if there is any, from a file that may be missing. -/
def FragmentSource.portion (source : FragmentSource) (place : Section) (file : String)
    (latex? : Option (List Char)) : Portion where
  text := latex?.elim "" fun latex => String.ofList latex ++ "\n\n"
  fragments := latex?.toList.length
  missing := if source.holds place file then [] else [place.label file]

def FragmentSource.matterPortion (source : FragmentSource) (place : Section) (item : MatterItem) :
    Portion :=
  source.portion place item.file
    ((source.textOf? place item.file).map (fragmentLatex .unnumbered))

/-- A chapter prints its own text, or its title where it has no text. -/
def FragmentSource.chapterPortion (source : FragmentSource) (chapter : Chapter) : Portion :=
  source.portion .chapters chapter.file
    (match source.textOf? .chapters chapter.file with
      | some text => some (fragmentLatex .numbered text)
      | none => chapter.title.map fun title => command "chapter" (escape title.toList))

def PartMap.opens (parts : PartMap) (number : UInt32) (chapter : Chapter) : Bool :=
  (parts.lookup chapter.number).any (·.number == number)

/-- The first chapter that is mapped to a part of some number prints the header of its part. -/
def PartMap.heading (parts : PartMap) (earlier : List Chapter) (chapter : Chapter) : String :=
  match parts.lookup chapter.number with
  | some part =>
      if earlier.any (parts.opens part.number) then ""
      else "\\part\x7b" ++ escapeText part.title ++ "\x7d\n\n"
  | none => ""

theorem partHeader_eq (part : Part) :
    partHeader part = "\\part\x7b" ++ escapeText part.title ++ "\x7d\n\n" := by
  rw [← String.toList_inj]
  simp [partHeader, command, group]

theorem PartMap.heading_of_none {parts : PartMap} {chapter : Chapter}
    (hnone : parts.lookup chapter.number = none) (earlier : List Chapter) :
    parts.heading earlier chapter = "" := by
  rw [heading, hnone]

theorem PartMap.heading_of_some {parts : PartMap} {chapter : Chapter} {part : Part}
    (hpart : parts.lookup chapter.number = some part) (earlier : List Chapter) :
    parts.heading earlier chapter =
      if earlier.any (parts.opens part.number) then "" else partHeader part := by
  rw [heading, hpart, partHeader_eq]

def Manifest.chapterPortions (manifest : Manifest) (source : FragmentSource) : List Portion :=
  manifest.chapters.zipIdx.map fun (chapter, index) =>
    (source.chapterPortion chapter).under
      (manifest.partMap.heading (manifest.chapters.take index) chapter)

/-! What a document gains on the way. -/

structure Document.Gains (document : Document) (portion : Portion) (later : Document) : Prop where
  text : later.text = document.text ++ portion.text
  fragments : later.fragments = document.fragments + portion.fragments
  missing : later.missing = document.missing ++ portion.missing

@[simp] theorem Portion.total_nil : Portion.total [] = ⟨"", 0, []⟩ := rfl

@[simp] theorem Portion.total_cons (portion : Portion) (portions : List Portion) :
    Portion.total (portion :: portions) =
      ⟨portion.text ++ (Portion.total portions).text,
        portion.fragments + (Portion.total portions).fragments,
        portion.missing ++ (Portion.total portions).missing⟩ := by
  simp [Portion.total]

theorem Document.Gains.nil (document : Document) : document.Gains (.total []) document where
  text := by simp
  fragments := rfl
  missing := by simp

theorem Document.Gains.cons {document middle later : Document} {portion : Portion}
    {portions : List Portion} (hfirst : document.Gains portion middle)
    (hrest : middle.Gains (.total portions) later) :
    document.Gains (.total (portion :: portions)) later where
  text := by rw [hrest.text, hfirst.text, Portion.total_cons, String.append_assoc]
  fragments := by rw [hrest.fragments, hfirst.fragments, Portion.total_cons, Nat.add_assoc]
  missing := by rw [hrest.missing, hfirst.missing, Portion.total_cons, List.append_assoc]

theorem FragmentSource.textOf?_of_isEmpty {source : FragmentSource} {place : Section}
    {file : String} (hempty : (source.read place file).text.isEmpty = true) :
    source.textOf? place file = none := by
  unfold read at hempty
  unfold textOf?
  cases hfetch : source.fetch place file with
  | error fault => rfl
  | ok found =>
      rw [hfetch] at hempty
      cases found with
      | none => rfl
      | some text => exact if_pos (String.isEmpty_iff.1 hempty)

theorem FragmentSource.textOf?_of_not_isEmpty {source : FragmentSource} {place : Section}
    {file : String} (hempty : (source.read place file).text.isEmpty = false) :
    source.textOf? place file = some (source.read place file).text.toList := by
  unfold read at hempty ⊢
  unfold textOf?
  cases hfetch : source.fetch place file with
  | error fault =>
      rw [hfetch] at hempty
      contradiction
  | ok found =>
      rw [hfetch] at hempty
      cases found with
      | none => contradiction
      | some text =>
          have hsome : text ≠ "" := by
            intro hnone
            exact Bool.eq_false_iff.1 hempty (String.isEmpty_iff.2 hnone)
          exact if_neg hsome

/-! One file at a time. -/

theorem Document.Gains.note {document middle : Document} {portion : Portion}
    (hgains : document.Gains portion middle) (events : List Event) :
    document.Gains portion (middle.note events) :=
  ⟨hgains.text, hgains.fragments, hgains.missing⟩

theorem Document.Gains.addFragment {document middle : Document} {source : FragmentSource}
    {place : Section} {file : String} (latex : List Char)
    (hgains : document.Gains (source.portion place file none) middle) :
    document.Gains (source.portion place file (some latex)) (middle.addFragment latex) where
  text := by
    have htext : middle.text = document.text := by simpa [FragmentSource.portion] using hgains.text
    simp [Document.addFragment, FragmentSource.portion, htext, String.append_assoc]
  fragments := by
    have hcount : middle.fragments = document.fragments := hgains.fragments
    simp [Document.addFragment, FragmentSource.portion, hcount]
  missing := hgains.missing

theorem Document.receive_gains (document : Document) (source : FragmentSource) (place : Section)
    (file : String) :
    document.Gains (source.portion place file none)
      (document.receive place file (source.fetch place file)).1 := by
  unfold FragmentSource.portion FragmentSource.holds Document.receive
  cases source.fetch place file with
  | error fault => exact ⟨by simp [note, recordMissing, Fragment.ofFetched], rfl, rfl⟩
  | ok found =>
      cases found with
      | none => exact ⟨by simp [note, recordMissing, Fragment.ofFetched], rfl, rfl⟩
      | some text =>
          exact ⟨by simp [note, Fragment.ofFetched], rfl, by simp [note, Fragment.ofFetched]⟩

theorem Document.addMatter_gains (source : FragmentSource) (place : Section) (document : Document)
    (item : MatterItem) :
    document.Gains (source.matterPortion place item) (document.addMatter source place item) := by
  have hreceived := document.receive_gains source place item.file
  unfold FragmentSource.matterPortion
  cases hempty : (source.read place item.file).text.isEmpty with
  | true =>
      rw [FragmentSource.textOf?_of_isEmpty hempty]
      have hstep : document.addMatter source place item =
          (document.receive place item.file (source.fetch place item.file)).1 := if_pos hempty
      rw [hstep]
      exact hreceived
  | false =>
      rw [FragmentSource.textOf?_of_not_isEmpty hempty]
      have hstep : document.addMatter source place item = _ := if_neg (Bool.eq_false_iff.1 hempty)
      rw [hstep]
      exact (hreceived.note _).addFragment _

theorem Document.addChapterText_gains (source : FragmentSource) (document : Document)
    (chapter : Chapter) :
    document.Gains (source.chapterPortion chapter) (document.addChapterText source chapter) := by
  have hreceived := document.receive_gains source .chapters chapter.file
  unfold FragmentSource.chapterPortion
  cases hempty : (source.read .chapters chapter.file).text.isEmpty with
  | true =>
      rw [FragmentSource.textOf?_of_isEmpty hempty]
      have hstep : document.addChapterText source chapter = _ := if_pos hempty
      rw [hstep]
      cases chapter.title with
      | none => exact hreceived
      | some title => exact hreceived.addFragment _
  | false =>
      rw [FragmentSource.textOf?_of_not_isEmpty hempty]
      have hstep : document.addChapterText source chapter = _ := if_neg (Bool.eq_false_iff.1 hempty)
      rw [hstep]
      exact (hreceived.note _).addFragment _

end Bindery
