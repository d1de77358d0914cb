import Bindery.Book.Loading
import Bindery.Proofs.Files.DiskView
import Bindery.Proofs.Json.Compact

namespace Bindery

open Json

/-! A written manifest is read back as it was. -/

theorem MatterItem.reads_value (item : MatterItem) :
    Reads MatterItem.shape.read item.value item := by
  have hfile := readText_reads item.file
  refine MatterItem.shape.reads_object { file := some item.file } ?_ rfl
  exact .cons rfl rfl (hfile.field _ _ _ _ _) (.nil _)

/-- An absent title stays absent, and an empty one stays empty. -/
theorem Chapter.reads_value (chapter : Chapter) :
    Reads Chapter.shape.read chapter.value chapter := by
  obtain ⟨number, file, title⟩ := chapter
  have hnumber := readWord_reads number
  have hfile := readText_reads file
  cases title with
  | none =>
      refine Chapter.shape.reads_object { number := some number, file := some file } ?_ rfl
      exact .cons rfl rfl (hnumber.field _ _ _ _ _) <|
        .cons rfl rfl (hfile.field _ _ _ _ _) (.nil _)
  | some title =>
      have htitle := readTextOrNull_reads title
      refine Chapter.shape.reads_object
        { number := some number, file := some file, title := some (some title) } ?_ rfl
      exact .cons rfl rfl (hnumber.field _ _ _ _ _) <|
        .cons rfl rfl (hfile.field _ _ _ _ _) <|
        .cons rfl rfl (htitle.field _ _ _ _ _) (.nil _)

theorem Part.reads_value (part : Part) : Reads Part.shape.read part.value part := by
  have hnumber := readWord_reads part.number
  have htitle := readText_reads part.title
  have hchapters := readList_reads fun number (_ : number ∈ part.chapters) => readWord_reads number
  refine Part.shape.reads_object
    { number := some part.number, title := some part.title, chapters := some part.chapters } ?_ rfl
  exact .cons rfl rfl (hnumber.field _ _ _ _ _) <|
    .cons rfl rfl (htitle.field _ _ _ _ _) <|
    .cons rfl rfl (hchapters.field _ _ _ _ _) (.nil _)

theorem Manifest.reads_value (manifest : Manifest) :
    Reads Manifest.shape.read manifest.value manifest := by
  have htitle := readText_reads manifest.title
  have hauthor := readText_reads manifest.author
  have hversion := readText_reads manifest.version
  have hfront := readList_reads fun item (_ : item ∈ manifest.frontMatter) => item.reads_value
  have hparts := readList_reads fun part (_ : part ∈ manifest.parts) => part.reads_value
  have hchapters := readList_reads fun chapter (_ : chapter ∈ manifest.chapters) =>
    chapter.reads_value
  have hback := readList_reads fun item (_ : item ∈ manifest.backMatter) => item.reads_value
  refine Manifest.shape.reads_object
    { title := some manifest.title
      author := some manifest.author
      version := some manifest.version
      frontMatter := some manifest.frontMatter
      parts := some manifest.parts
      chapters := some manifest.chapters
      backMatter := some manifest.backMatter } ?_ rfl
  exact .cons rfl rfl (htitle.field _ _ _ _ _) <|
    .cons rfl rfl (hauthor.field _ _ _ _ _) <|
    .cons rfl rfl (hversion.field _ _ _ _ _) <|
    .cons rfl rfl (hfront.field _ _ _ _ _) <|
    .cons rfl rfl (hparts.field _ _ _ _ _) <|
    .cons rfl rfl (hchapters.field _ _ _ _ _) <|
    .cons rfl rfl (hback.field _ _ _ _ _) (.nil _)

theorem Manifest.ofJson_json (manifest : Manifest) : Manifest.ofJson manifest.json = .ok manifest :=
  readWhole_of_reads manifest.reads_value

/-- A manifest that was written to a file is loaded from every path that leads there. -/
theorem Manifest.load_of_file {disk : Disk} {path : String} {place : Place} {manifest : Manifest}
    (hpath : disk.locate path = .ok place)
    (hplace : disk.view place = some (.file (String.ofList manifest.json).toUTF8)) :
    Manifest.load disk path = .ok manifest := by
  have hread := View.read_of_file hplace
  have hjson := manifest.ofJson_json
  rw [load, disk.read_eq, hpath, ok_bind, hread]
  simp only [String.toList_ofList, hjson]

/-- Nothing of a manifest is lost in its text, so different manifests have different texts. -/
theorem manifest_lossless :
    (∀ manifest, Manifest.ofJson (Manifest.json manifest) = .ok manifest) ∧
      Function.Injective Manifest.json := by
  refine ⟨Manifest.ofJson_json, fun manifest other htext => ?_⟩
  have hread := manifest.ofJson_json
  rw [htext, other.ofJson_json] at hread
  exact (Except.ok.inj hread).symm

end Bindery
