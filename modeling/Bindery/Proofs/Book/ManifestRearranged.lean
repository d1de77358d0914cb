import Bindery.Proofs.Book.Publication
import Bindery.Proofs.Json.Rearranged

namespace Bindery

open Json

/-! The manifest in another layout. Neither the white space of its text nor the order of the members
of its objects nor members that are not known matter. -/

theorem MatterItem.independent : MatterItem.shape.Independent where
  lawful := by
    simp only [Shape.Lawful, MatterItem.shape, List.forall_mem_cons]
    exact ⟨.of _ _ _ _ readText_means fun _ _ => rfl, fun _ hfield => by contradiction⟩
  apart := by simp [MatterItem.shape]

theorem Chapter.independent : Chapter.shape.Independent where
  lawful := by
    simp only [Shape.Lawful, Chapter.shape, List.forall_mem_cons]
    exact ⟨.of _ _ _ _ readWord_means fun _ _ => rfl, .of _ _ _ _ readText_means fun _ _ => rfl,
      .of _ _ _ _ readTextOrNull_means fun _ _ => rfl, fun _ hfield => by contradiction⟩
  apart := by
    simp only [Chapter.shape, List.pairwise_cons, List.forall_mem_cons, List.not_mem_nil,
      List.Pairwise.nil, false_imp_iff, implies_true, and_true]
    and_intros
    all_goals exact .of (fun _ _ => rfl) (fun _ _ => rfl) fun _ _ _ => rfl

theorem Part.independent : Part.shape.Independent where
  lawful := by
    simp only [Shape.Lawful, Part.shape, List.forall_mem_cons]
    exact ⟨.of _ _ _ _ readWord_means fun _ _ => rfl, .of _ _ _ _ readText_means fun _ _ => rfl,
      .of _ _ _ _ (readList_means readWord_means) fun _ _ => rfl,
      fun _ hfield => by contradiction⟩
  apart := by
    simp only [Part.shape, List.pairwise_cons, List.forall_mem_cons, List.not_mem_nil,
      List.Pairwise.nil, false_imp_iff, implies_true, and_true]
    and_intros
    all_goals exact .of (fun _ _ => rfl) (fun _ _ => rfl) fun _ _ _ => rfl

theorem Manifest.independent : Manifest.shape.Independent where
  lawful := by
    have hmatter := readList_means MatterItem.independent.lawful.read_means
    have hparts := readList_means Part.independent.lawful.read_means
    have hchapters := readList_means Chapter.independent.lawful.read_means
    simp only [Shape.Lawful, Manifest.shape, List.forall_mem_cons]
    exact ⟨.of _ _ _ _ readText_means fun _ _ => rfl, .of _ _ _ _ readText_means fun _ _ => rfl,
      .of _ _ _ _ readText_means fun _ _ => rfl, .of _ _ _ _ hmatter fun _ _ => rfl,
      .of _ _ _ _ hparts fun _ _ => rfl, .of _ _ _ _ hchapters fun _ _ => rfl,
      .of _ _ _ _ hmatter fun _ _ => rfl, fun _ hfield => by contradiction⟩
  apart := by
    simp only [Manifest.shape, List.pairwise_cons, List.forall_mem_cons, List.not_mem_nil,
      List.Pairwise.nil, false_imp_iff, implies_true, and_true]
    and_intros
    all_goals exact .of (fun _ _ => rfl) (fun _ _ => rfl) fun _ _ _ => rfl

/-- Records written as objects in the lists of the manifest may be rearranged like the manifest
itself. -/
inductive Manifest.Changes : String → Tree → Tree → Prop
  | frontMatter {tree later : Tree}
      (helements : Elementwise (Rearranged MatterItem.shape.keys noChange) tree later) :
      Changes "frontMatter" tree later
  | parts {tree later : Tree}
      (helements : Elementwise (Rearranged Part.shape.keys noChange) tree later) :
      Changes "parts" tree later
  | chapters {tree later : Tree}
      (helements : Elementwise (Rearranged Chapter.shape.keys noChange) tree later) :
      Changes "chapters" tree later
  | backMatter {tree later : Tree}
      (helements : Elementwise (Rearranged MatterItem.shape.keys noChange) tree later) :
      Changes "backMatter" tree later

theorem ignores_noChange {α δ : Type} (shape : Shape δ α) : shape.Ignores noChange :=
  fun _ _ _ _ _ hchange => hchange.elim

/-- A list is read alike when the records in it are rearranged. -/
theorem valueOf_readList {α β δ : Type} {shape : Shape δ α} (hindependent : shape.Independent)
    {tree later : Tree} (helements : Elementwise (Rearranged shape.keys noChange) tree later)
    (key : String) (get : β → Option (List α)) (set : β → List α → β) (draft : β) :
    let field := RecordField.of key true (readList shape.read) get set
    valueOf (field.read draft) later = valueOf (field.read draft) tree := by
  have hlist := readList_means hindependent.lawful.read_means
  have hrecord (tree later : Tree) (hrearranged : Rearranged shape.keys noChange tree later) :
      shape.record? later = shape.record? tree :=
    hrearranged.record?_eq hindependent (ignores_noChange shape)
  simp only [valueOf_field, (hlist tree).valueOf_eq, (hlist later).valueOf_eq,
    helements.list?_eq hrecord]

theorem Manifest.ignores_changes : Manifest.shape.Ignores Manifest.Changes := by
  intro key field tree later hfield hchanges draft
  cases hchanges with
  | frontMatter helements =>
      obtain rfl := Option.some.inj hfield
      exact valueOf_readList MatterItem.independent helements _ _ _ draft
  | parts helements =>
      obtain rfl := Option.some.inj hfield
      exact valueOf_readList Part.independent helements _ _ _ draft
  | chapters helements =>
      obtain rfl := Option.some.inj hfield
      exact valueOf_readList Chapter.independent helements _ _ _ draft
  | backMatter helements =>
      obtain rfl := Option.some.inj hfield
      exact valueOf_readList MatterItem.independent helements _ _ _ draft

theorem Manifest.ofJson_eq_ok {tree : Tree} {text : List Char} (htext : tree.Spells text)
    (manifest : Manifest) :
    Manifest.ofJson text = .ok manifest ↔ Manifest.shape.record? tree = some manifest :=
  Manifest.independent.lawful.read_means.readWhole_eq_ok htext manifest

theorem Manifest.load_eq_ok {disk : Disk} {path text : String} (hread : disk.read path = .ok text)
    (manifest : Manifest) :
    Manifest.load disk path = .ok manifest ↔ Manifest.ofJson text.toList = .ok manifest := by
  rw [load, hread]
  cases hjson : Manifest.ofJson text.toList with
  | ok other => simp [hjson]
  | error fault => simp [hjson]

/-- The text of a manifest may be laid out anew, with the members of its objects in another order
and unknown ones among them: the same manifest is loaded. -/
theorem load_rearranged {disk other : Disk} {path there text later : String} {tree changed : Tree}
    {manifest : Manifest} (hread : disk.read path = .ok text)
    (hlater : other.read there = .ok later) (htext : tree.Spells text.toList)
    (hchanged : changed.Spells later.toList)
    (hrearranged : Rearranged Manifest.shape.keys Manifest.Changes tree changed)
    (hload : Manifest.load disk path = .ok manifest) :
    Manifest.load other there = .ok manifest := by
  rw [Manifest.load_eq_ok hread, Manifest.ofJson_eq_ok htext] at hload
  rw [Manifest.load_eq_ok hlater, Manifest.ofJson_eq_ok hchanged,
    hrearranged.record?_eq Manifest.independent Manifest.ignores_changes, hload]

/-! A manifest with its members the other way round, each token on a line of its own. -/

/-- Letters that stand for themselves. -/
def plainLetters (text : String) : List Letter :=
  text.toList.filterMap fun c =>
    if hplain : c ≠ '"' ∧ c ≠ '\\' ∧ isControl c = false then some (.plain c hplain) else none

def oneNumeral : Numeral :=
  ⟨false, ['1'], none, none, ⟨by simp, List.forall_mem_singleton.2 rfl⟩, by decide⟩

theorem load_rearranged_reverse :
    let manifest : Manifest := ⟨"T", "", "", [], [], [⟨1, "a.md", none⟩], []⟩
    let chapter := [(plainLetters "number", Tree.number oneNumeral),
      (plainLetters "file", .text (plainLetters "a.md"))]
    let members (chapter : List (List Letter × Tree)) :=
      [(plainLetters "title", Tree.text (plainLetters "T")), (plainLetters "author", .text []),
        (plainLetters "version", .text []), (plainLetters "frontMatter", .array []),
        (plainLetters "parts", .array []), (plainLetters "chapters", .array [.object chapter]),
        (plainLetters "backMatter", .array [])]
    let unknown := [(plainLetters "x", Tree.array [.null])]
    let changed := Tree.object (members (chapter ++ unknown).reverse ++ unknown).reverse
    let disk (text : List Char) : Disk :=
      { tree := [("book", .folder [("book.json", .file (String.ofList text).toUTF8)])] }
    Manifest.load (disk manifest.json) "book/book.json" = .ok manifest ∧
      Manifest.load (disk (changed.tokens.flatMap (['\n'] ++ ·))) "book/book.json" =
        .ok manifest := by
  intro manifest chapter members unknown changed disk
  have hread (text : List Char) : (disk text).read "book/book.json" = .ok (String.ofList text) := by
    have hplace : (disk text).locate "book/book.json" = .ok ["book", "book.json"] := rfl
    rw [Disk.read_eq, hplace, ok_bind]
    exact View.read_of_file rfl
  have hload : Manifest.load (disk manifest.json) "book/book.json" = .ok manifest :=
    Manifest.load_of_file rfl rfl
  have hjson : (Tree.object (members chapter)).tokens.flatten = manifest.json := by decide +kernel
  have hunknown (keys : List String) (hkeys : "x" ∉ keys) :
      ∀ member ∈ unknown, ∃ key, decodeText member.1 = some key ∧ key ∉ keys := by
    intro member hmember
    obtain rfl := List.mem_singleton.1 hmember
    exact ⟨"x", rfl, hkeys⟩
  have hsame {changes : String → Tree → Tree → Prop} (member : List Letter × Tree) :
      KeptMember changes member member := ⟨rfl, .inl rfl⟩
  have hchapter : Rearranged Chapter.shape.keys noChange (.object chapter)
      (.object (chapter ++ unknown).reverse) :=
    .object (.cons (hsame _) (.cons (hsame _) .nil)) (hunknown _ (by decide))
      (List.reverse_perm _)
  have hchapters : KeptMember Manifest.Changes
      (plainLetters "chapters", .array [.object chapter])
      (plainLetters "chapters", .array [.object (chapter ++ unknown).reverse]) :=
    ⟨rfl, .inr ⟨"chapters", rfl, .chapters (.array (.cons hchapter .nil))⟩⟩
  have hchanged : Rearranged Manifest.shape.keys Manifest.Changes (.object (members chapter))
      changed :=
    .object (.cons (hsame _) <| .cons (hsame _) <| .cons (hsame _) <| .cons (hsame _) <|
      .cons (hsame _) <| .cons hchapters <| .cons (hsame _) .nil) (hunknown _ (by decide))
      (List.reverse_perm _)
  refine ⟨hload, load_rearranged (hread _) (hread _) ?_ ?_ hchanged hload⟩
  · rw [String.toList_ofList, ← hjson]
    exact .flatten _
  · rw [String.toList_ofList]
    exact .flatMap (List.forall_mem_singleton.2 rfl) _

end Bindery
