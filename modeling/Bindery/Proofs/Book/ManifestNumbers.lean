import Bindery.Proofs.Book.ManifestRearranged
import Bindery.Proofs.Json.Holes

namespace Bindery

open Json

/-! The numbers in a manifest. A number literal is read as the number that its digits spell, or the
manifest is refused. -/

/-- Where a manifest has a number. -/
inductive NumberPlace
  | chapter (index : Nat)
  | part (index : Nat)
  | listed (owner index : Nat)
  deriving DecidableEq, Repr

/-- What stands around the number in the text, from the outside to the inside. -/
def NumberPlace.IsAround : NumberPlace → List Frame → Prop
  | .chapter index, [table, entry, number] =>
      table.IsField Manifest.shape "chapters" ∧ entry.IsElement index ∧
        number.IsField Chapter.shape "number"
  | .part index, [table, entry, number] =>
      table.IsField Manifest.shape "parts" ∧ entry.IsElement index ∧
        number.IsField Part.shape "number"
  | .listed owner index, [table, entry, listing, number] =>
      table.IsField Manifest.shape "parts" ∧ entry.IsElement owner ∧
        listing.IsField Part.shape "chapters" ∧ number.IsElement index
  | _, _ => False

def Chapter.toNumber : Focus Chapter UInt32 where
  get? chapter := some chapter.number
  put chapter number := { chapter with number }

def Part.toNumber : Focus Part UInt32 where
  get? part := some part.number
  put part number := { part with number }

def Part.toChapters : Focus Part (List UInt32) where
  get? part := some part.chapters
  put part chapters := { part with chapters }

def Manifest.toParts : Focus Manifest (List Part) where
  get? manifest := some manifest.parts
  put manifest parts := { manifest with parts }

def Manifest.toChapters : Focus Manifest (List Chapter) where
  get? manifest := some manifest.chapters
  put manifest chapters := { manifest with chapters }

def NumberPlace.focus : NumberPlace → Focus Manifest UInt32
  | .chapter index => (Manifest.toChapters.comp (.element index)).comp Chapter.toNumber
  | .part index => (Manifest.toParts.comp (.element index)).comp Part.toNumber
  | .listed owner index =>
      ((Manifest.toParts.comp (.element owner)).comp Part.toChapters).comp (.element index)

/-! The records that are made of drafts. -/

theorem Chapter.finish_eq_some {draft : Draft} {chapter : Chapter} :
    (shape.finish draft).toOption = some chapter ↔
      ∃ number file, draft.number = some number ∧ draft.file = some file ∧
        chapter = ⟨number, file, draft.title.getD none⟩ := by
  simp only [shape]
  split <;> simp_all [Except.toOption, eq_comm]

theorem Part.finish_eq_some {draft : Draft} {part : Part} :
    (shape.finish draft).toOption = some part ↔
      ∃ number title, draft.number = some number ∧ draft.title = some title ∧
        part = ⟨number, title, draft.chapters.getD []⟩ := by
  simp only [shape]
  split <;> simp_all [Except.toOption, eq_comm]

theorem Manifest.finish_eq_some {draft : Draft} {manifest : Manifest} :
    (shape.finish draft).toOption = some manifest ↔
      ∃ title, draft.title = some title ∧
        manifest =
          { title
            author := draft.author.getD ""
            version := draft.version.getD ""
            frontMatter := draft.frontMatter.getD []
            parts := draft.parts.getD []
            chapters := draft.chapters.getD []
            backMatter := draft.backMatter.getD [] } := by
  simp only [shape]
  split <;> simp_all [Except.toOption, eq_comm]

/-! The fields that lead to numbers. -/

section Fields

variable {frame : Frame}

theorem Chapter.readsAt_number (hframe : frame.IsField Chapter.shape "number") :
    ReadsAt Chapter.shape.record? frame.plug Tree.word? Chapter.toNumber := by
  refine Chapter.independent.readsAt (by decide) rfl readWord_means ?_ hframe
  intro draft value whole hwhole
  obtain ⟨number, file, hnumber, hfile, rfl⟩ := Chapter.finish_eq_some.1 hwhole
  exact ⟨hnumber.symm, fun other => Chapter.finish_eq_some.2 ⟨other, file, rfl, hfile, rfl⟩⟩

theorem Part.readsAt_number (hframe : frame.IsField Part.shape "number") :
    ReadsAt Part.shape.record? frame.plug Tree.word? Part.toNumber := by
  refine Part.independent.readsAt (by decide) rfl readWord_means ?_ hframe
  intro draft value whole hwhole
  obtain ⟨number, title, hnumber, htitle, rfl⟩ := Part.finish_eq_some.1 hwhole
  exact ⟨hnumber.symm, fun other => Part.finish_eq_some.2 ⟨other, title, rfl, htitle, rfl⟩⟩

theorem Part.readsAt_chapters (hframe : frame.IsField Part.shape "chapters") :
    ReadsAt Part.shape.record? frame.plug (Tree.list? Tree.word?) Part.toChapters := by
  refine Part.independent.readsAt (by decide) rfl (readList_means readWord_means) ?_ hframe
  intro draft value whole hwhole
  obtain ⟨number, title, hnumber, htitle, rfl⟩ := Part.finish_eq_some.1 hwhole
  exact ⟨rfl, fun _ => Part.finish_eq_some.2 ⟨number, title, hnumber, htitle, rfl⟩⟩

theorem Manifest.readsAt_parts (hframe : frame.IsField Manifest.shape "parts") :
    ReadsAt Manifest.shape.record? frame.plug (Tree.list? Part.shape.record?)
      Manifest.toParts := by
  have hparts := readList_means Part.independent.lawful.read_means
  refine Manifest.independent.readsAt (by decide) rfl hparts ?_ hframe
  intro draft value whole hwhole
  obtain ⟨title, htitle, rfl⟩ := Manifest.finish_eq_some.1 hwhole
  exact ⟨rfl, fun _ => Manifest.finish_eq_some.2 ⟨title, htitle, rfl⟩⟩

theorem Manifest.readsAt_chapters (hframe : frame.IsField Manifest.shape "chapters") :
    ReadsAt Manifest.shape.record? frame.plug (Tree.list? Chapter.shape.record?)
      Manifest.toChapters := by
  have hchapters := readList_means Chapter.independent.lawful.read_means
  refine Manifest.independent.readsAt (by decide) rfl hchapters ?_ hframe
  intro draft value whole hwhole
  obtain ⟨title, htitle, rfl⟩ := Manifest.finish_eq_some.1 hwhole
  exact ⟨rfl, fun _ => Manifest.finish_eq_some.2 ⟨title, htitle, rfl⟩⟩

end Fields

theorem NumberPlace.IsAround.readsAt {place : NumberPlace} {frames : List Frame}
    (haround : place.IsAround frames) :
    ReadsAt Manifest.shape.record? (frames.foldr Frame.plug ·) Tree.word? place.focus := by
  unfold NumberPlace.IsAround at haround
  split at haround
  · obtain ⟨htable, hentry, hnumber⟩ := haround
    exact ((Manifest.readsAt_chapters htable).comp (hentry.readsAt _)).comp
      (Chapter.readsAt_number hnumber)
  · obtain ⟨htable, hentry, hnumber⟩ := haround
    exact ((Manifest.readsAt_parts htable).comp (hentry.readsAt _)).comp
      (Part.readsAt_number hnumber)
  · obtain ⟨htable, hentry, hlisting, hnumber⟩ := haround
    exact (((Manifest.readsAt_parts htable).comp (hentry.readsAt _)).comp
      (Part.readsAt_chapters hlisting)).comp (hnumber.readsAt _)
  · contradiction

/-! A manifest with another number in it. -/

theorem Manifest.load_malformed {disk : Disk} {path text : String}
    (hread : disk.read path = .ok text)
    (hnone : ∀ manifest, Manifest.load disk path ≠ .ok manifest) :
    ∃ message, Manifest.load disk path = .error ⟨path, .malformed message⟩ := by
  cases hjson : Manifest.ofJson text.toList with
  | ok manifest => exact absurd ((Manifest.load_eq_ok hread manifest).2 hjson) (hnone manifest)
  | error fault =>
      refine ⟨fault.message text.toList, ?_⟩
      rw [load, hread]
      simp only [hjson]

/-- A number literal in place of another value: the manifest has exactly the number that the
literal's digits spell, and it is refused where the literal has other characters or is too large. -/
theorem load_number_iff {place : NumberPlace} {frames : List Frame}
    (haround : place.IsAround frames) {disk other : Disk} {path there text later : String}
    {known : Tree} {numeral : Numeral} {manifest : Manifest} (hread : disk.read path = .ok text)
    (htext : (frames.foldr Frame.plug known).Spells text.toList)
    (hload : Manifest.load disk path = .ok manifest) (hlater : other.read there = .ok later)
    (hchanged : (frames.foldr Frame.plug (.number numeral)).Spells later.toList) :
    let value := Nat.ofDigitChars 10 numeral.chars 0
    let fits := (∀ c ∈ numeral.chars, c.isDigit = true) ∧ value ≤ 4294967295
    ((∃ loaded, Manifest.load other there = .ok loaded) ↔ fits) ∧
      (∀ loaded, Manifest.load other there = .ok loaded →
        ∃ number, number.toNat = value ∧ place.focus.get? loaded = some number ∧
          loaded = place.focus.put manifest number) ∧
      (¬ fits → ∃ message, Manifest.load other there = .error ⟨there, .malformed message⟩) := by
  intro value fits
  have hreads := haround.readsAt
  -- From the known value on, only the literal decides what is loaded.
  rw [Manifest.load_eq_ok hread, Manifest.ofJson_eq_ok htext] at hload
  have hmeaning := (hreads known manifest hload).2 (.number numeral)
  have hloaded (loaded : Manifest) : Manifest.load other there = .ok loaded ↔
      ∃ number, numeral.word? = some number ∧ place.focus.put manifest number = loaded := by
    rw [Manifest.load_eq_ok hlater, Manifest.ofJson_eq_ok hchanged, hmeaning, Tree.word?,
      Option.map_eq_some_iff]
  have hfits : (∃ loaded, Manifest.load other there = .ok loaded) ↔ fits := by
    constructor
    · rintro ⟨loaded, hsome⟩
      obtain ⟨number, hword, -⟩ := (hloaded loaded).1 hsome
      obtain ⟨hdigits, hvalue⟩ := Numeral.word?_eq_some.1 hword
      have hsize := number.toNat_lt_size
      rw [hvalue] at hsize
      exact ⟨hdigits, Nat.le_of_lt_succ hsize⟩
    · rintro ⟨hdigits, hsize⟩
      have hvalue : value.toUInt32.toNat = value :=
        UInt32.toNat_ofNat_of_lt (Nat.lt_succ_of_le hsize)
      have hword := Numeral.word?_eq_some.2 ⟨hdigits, hvalue⟩
      exact ⟨_, (hloaded _).2 ⟨_, hword, rfl⟩⟩
  refine ⟨hfits, fun loaded hsome => ?_, fun hnot => ?_⟩
  · obtain ⟨number, hword, hput⟩ := (hloaded loaded).1 hsome
    rw [Manifest.load_eq_ok hlater, Manifest.ofJson_eq_ok hchanged] at hsome
    obtain ⟨⟨part, hpart, hget⟩, -⟩ := hreads _ _ hsome
    obtain rfl := Option.some.inj (hword.symm.trans hpart)
    exact ⟨number, (Numeral.word?_eq_some.1 hword).2, hget, hput.symm⟩
  · exact Manifest.load_malformed hlater fun loaded hsome => hnot (hfits.1 ⟨loaded, hsome⟩)

/-- The largest number that a chapter can have, and the next one. -/
theorem load_number_iff_largest :
    let manifest : Manifest := ⟨"T", "", "", [], [], [⟨1, "a.md", none⟩], []⟩
    let largest : Numeral := ⟨false, "4294967295".toList, none, none,
      ⟨by decide, List.all_eq_true.1 (by decide)⟩, by decide⟩
    let larger : Numeral := ⟨false, "4294967296".toList, none, none,
      ⟨by decide, List.all_eq_true.1 (by decide)⟩, by decide⟩
    let frames : List Frame :=
      [ .member
          [(plainLetters "title", .text (plainLetters "T")), (plainLetters "author", .text []),
            (plainLetters "version", .text []), (plainLetters "frontMatter", .array []),
            (plainLetters "parts", .array [])]
          (plainLetters "chapters") [(plainLetters "backMatter", .array [])],
        .element [] [],
        .member [] (plainLetters "number") [(plainLetters "file", .text (plainLetters "a.md"))] ]
    let text (numeral : Numeral) := (frames.foldr Frame.plug (.number numeral)).tokens.flatten
    let disk (numeral : Numeral) : Disk :=
      { tree := [("book", .folder
          [("book.json", .file (String.ofList (text numeral)).toUTF8)])] }
    NumberPlace.IsAround (.chapter 0) frames ∧
      Manifest.load (disk oneNumeral) "book/book.json" = .ok manifest ∧
      Manifest.load (disk largest) "book/book.json" =
        .ok { manifest with chapters := [⟨4294967295, "a.md", none⟩] } ∧
      ∃ message, Manifest.load (disk larger) "book/book.json" =
        .error ⟨"book/book.json", .malformed message⟩ := by
  intro manifest largest larger frames text disk
  have haround : NumberPlace.IsAround (.chapter 0) frames := ⟨rfl, rfl, rfl⟩
  have hread (numeral : Numeral) :
      (disk numeral).read "book/book.json" = .ok (String.ofList (text numeral)) := by
    have hplace : (disk numeral).locate "book/book.json" = .ok ["book", "book.json"] := rfl
    rw [Disk.read_eq, hplace, ok_bind]
    exact View.read_of_file rfl
  have hspells (numeral : Numeral) :
      (frames.foldr Frame.plug (.number numeral)).Spells
        (String.ofList (text numeral)).toList := by
    rw [String.toList_ofList]
    exact .flatten _
  have hjson : text oneNumeral = manifest.json := by decide +kernel
  have hload : Manifest.load (disk oneNumeral) "book/book.json" = .ok manifest := by
    rw [Manifest.load_eq_ok (hread oneNumeral), String.toList_ofList, hjson]
    exact manifest.ofJson_json
  have hlargest := load_number_iff haround (hread oneNumeral) (hspells _) hload (hread largest)
    (hspells largest)
  have hlarger := load_number_iff haround (hread oneNumeral) (hspells _) hload (hread larger)
    (hspells larger)
  refine ⟨haround, hload, ?_, hlarger.2.2 fun hfits => absurd hfits.2 (by decide +kernel)⟩
  obtain ⟨loaded, hloaded⟩ := hlargest.1.2 ⟨List.all_eq_true.1 (by decide), by decide +kernel⟩
  obtain ⟨number, hnumber, -, rfl⟩ := hlargest.2.1 loaded hloaded
  obtain rfl : number = 4294967295 := UInt32.toNat_inj.1 (hnumber.trans (by decide +kernel))
  exact hloaded

end Bindery
