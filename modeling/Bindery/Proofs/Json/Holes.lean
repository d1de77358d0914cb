import Bindery.Proofs.Json.Rearranged
import Mathlib.Data.List.Nodup

namespace Bindery.Json

variable {α β γ δ : Type}

/-! Values in their surroundings. Whatever stands in place of a value that is read as a part of a
record or of a list, everything around it is read as before. -/

/-- What stands around a value in a list or in an object. -/
inductive Frame
  | element (front back : List Tree)
  | member (front : List (List Letter × Tree)) (key : List Letter)
      (back : List (List Letter × Tree))

def Frame.plug : Frame → Tree → Tree
  | .element front back, tree => .array (front ++ tree :: back)
  | .member front key back, tree => .object (front ++ (key, tree) :: back)

def Frame.IsElement (index : Nat) : Frame → Prop
  | .element front _ => front.length = index
  | .member .. => False

/-- Around the value of a field, which an object has under the field's key and a list at the field's
place. -/
def Frame.IsField (shape : Shape δ α) (key : String) : Frame → Prop
  | .element front _ => shape.keys[front.length]? = some key
  | .member _ letters _ => decodeText letters = some key

/-- A part that a value may have, and the value with something else in its place. -/
structure Focus (α β : Type) where
  get? : α → Option β
  put : α → β → α

def Focus.comp (outer : Focus α β) (inner : Focus β γ) : Focus α γ where
  get? whole := (outer.get? whole).bind inner.get?
  put whole value :=
    (outer.get? whole).elim whole fun part => outer.put whole (inner.put part value)

def Focus.element (index : Nat) : Focus (List α) α where
  get? values := values[index]?
  put values value := values.set index value

/-- What a tree in its surroundings means is decided by what the tree itself means: what it is put
into is another whole in the focus only. -/
def ReadsAt (meaning : Tree → Option α) (context : Tree → Tree) (inner : Tree → Option β)
    (focus : Focus α β) : Prop :=
  ∀ tree whole, meaning (context tree) = some whole →
    (∃ part, inner tree = some part ∧ focus.get? whole = some part) ∧
      ∀ other, meaning (context other) = (inner other).map (focus.put whole)

theorem ReadsAt.comp {meaning : Tree → Option α} {middle : Tree → Option β}
    {inner : Tree → Option γ} {context within : Tree → Tree} {outer : Focus α β}
    {focus : Focus β γ} (houter : ReadsAt meaning context middle outer)
    (hinner : ReadsAt middle within inner focus) :
    ReadsAt meaning (fun tree => context (within tree)) inner (outer.comp focus) := by
  intro tree whole hwhole
  obtain ⟨⟨part, hpart, hget⟩, hother⟩ := houter _ _ hwhole
  obtain ⟨⟨value, hvalue, hwithin⟩, hvalues⟩ := hinner _ _ hpart
  refine ⟨⟨value, hvalue, ?_⟩, fun other => ?_⟩
  · simp only [Focus.comp, hget, Option.bind_some, hwithin]
  · rw [hother, hvalues, Option.map_map]
    simp only [Focus.comp, hget]
    rfl

/-! An element of a list. -/

theorem mapM_focus (meaning : Tree → Option α) (front : List Tree) (tree : Tree)
    (back : List Tree) :
    (front ++ tree :: back).mapM meaning =
      (front.mapM meaning).bind fun values => (back.mapM meaning).bind fun later =>
        (meaning tree).map fun value => values ++ value :: later := by
  rw [List.mapM_append, List.mapM_cons]
  cases front.mapM meaning <;> cases back.mapM meaning <;> cases meaning tree <;> rfl

theorem length_of_mapM {meaning : Tree → Option α} {trees : List Tree} {values : List α}
    (hvalues : trees.mapM meaning = some values) : values.length = trees.length := by
  induction trees generalizing values with
  | nil => simp_all
  | cons tree trees ih =>
      rw [List.mapM_cons] at hvalues
      obtain ⟨value, -, hrest⟩ := Option.bind_eq_some_iff.1 hvalues
      obtain ⟨later, hlater, hsome⟩ := Option.bind_eq_some_iff.1 hrest
      obtain rfl := Option.some.inj hsome
      rw [List.length_cons, List.length_cons, ih hlater]

theorem Frame.IsElement.readsAt {frame : Frame} {index : Nat} (hframe : frame.IsElement index)
    (meaning : Tree → Option α) :
    ReadsAt (Tree.list? meaning) frame.plug meaning (.element index) := by
  cases frame with
  | member front key back => contradiction
  | element front back =>
      obtain rfl := hframe
      intro tree whole hwhole
      rw [plug, Tree.list?, mapM_focus] at hwhole
      obtain ⟨values, hvalues, hrest⟩ := Option.bind_eq_some_iff.1 hwhole
      obtain ⟨later, hlater, hmap⟩ := Option.bind_eq_some_iff.1 hrest
      obtain ⟨value, hvalue, rfl⟩ := Option.map_eq_some_iff.1 hmap
      have hlength := length_of_mapM hvalues
      refine ⟨⟨value, hvalue, ?_⟩, fun other => ?_⟩
      · simp [Focus.element, ← hlength]
      · rw [plug, Tree.list?, mapM_focus, hvalues, hlater]
        simp [Focus.element, ← hlength]

/-! A field of a record. It may be read behind all the others. -/

section Field

variable {shape : Shape δ α} {key : String} {field : RecordField δ}

theorem fillInOrder_apart {fields : List (RecordField δ)}
    (hapart : ∀ other ∈ fields, field.Apart other) (elements : List Tree) (draft : δ)
    (tree : Tree) :
    (valueOf (field.read draft) tree).bind (fillInOrder fields · elements) =
      (fillInOrder fields draft elements).bind fun later => valueOf (field.read later) tree := by
  induction fields generalizing elements draft with
  | nil =>
      cases elements with
      | nil => simp [fillInOrder]
      | cons element elements => simp [fillInOrder]
  | cons other fields ih =>
      obtain ⟨hother, hapart⟩ := List.forall_mem_cons.1 hapart
      cases elements with
      | nil =>
          simp only [fillInOrder]
          split_ifs
          · exact ih hapart [] draft
          · simp
      | cons element elements =>
          simp only [fillInOrder]
          rw [← Option.bind_assoc, hother.comm, Option.bind_assoc, Option.bind_assoc]
          simp only [ih hapart]

/-- Elements around one field's own. -/
theorem fillInOrder_focus {fields : List (RecordField δ)}
    (hapart : fields.Pairwise RecordField.Apart) {front : List Tree}
    (hfield : fields[front.length]? = some field) (back : List Tree) (draft : δ) :
    ∃ draft? : Option δ, ∀ tree,
      fillInOrder fields draft (front ++ tree :: back) =
        draft?.bind fun later => valueOf (field.read later) tree := by
  induction front generalizing fields draft with
  | nil =>
      cases fields with
      | nil => contradiction
      | cons first fields =>
          obtain rfl := Option.some.inj hfield
          exact ⟨_, fillInOrder_apart (List.pairwise_cons.1 hapart).1 back draft⟩
  | cons element front ih =>
      cases fields with
      | nil => contradiction
      | cons first fields =>
          -- What the fields in front make of the draft does not depend on the tree.
          have hrest (later : δ) := ih (List.pairwise_cons.1 hapart).2 hfield later
          choose draft? hdraft using hrest
          refine ⟨(valueOf (first.read draft) element).bind draft?, fun tree => ?_⟩
          rw [Option.bind_assoc]
          simp only [← hdraft]
          rfl

variable (hindependent : shape.Independent) (hkeys : shape.keys.Nodup)
  (hfield : shape.field? key = some field)

include hindependent hfield

/-- Members around one field's own. -/
theorem Shape.Independent.foldlM_focus {letters : List Letter}
    (hkey : decodeText letters = some key) (front back : List (List Letter × Tree)) :
    ∃ draft? : Option δ, ∀ tree,
      (front ++ (letters, tree) :: back).foldlM shape.fill shape.blank =
        draft?.bind fun later => valueOf (field.read later) tree := by
  refine ⟨((front ++ back).foldlM shape.fill shape.blank).filter (!field.isRead ·),
    fun tree => ?_⟩
  -- Members may be read in any order, so this one is read behind the others.
  have hlast : (front ++ (letters, tree) :: back).Perm ((front ++ back) ++ [(letters, tree)]) :=
    List.perm_middle.trans (List.perm_append_singleton _ _).symm
  rw [Shape.foldlM_fill_perm hindependent hlast, List.foldlM_append]
  cases (front ++ back).foldlM shape.fill shape.blank with
  | none => rfl
  | some draft =>
      simp only [Option.bind_eq_bind, Option.bind_some, List.foldlM_cons, List.foldlM_nil,
        Shape.fill, hkey, Shape.fillKey, hfield, RecordField.fill, Option.filter_some]
      cases field.isRead draft <;> simp

include hkeys

theorem Shape.Independent.draft?_plug {frame : Frame} (hframe : frame.IsField shape key) :
    ∃ draft? : Option δ, ∀ tree,
      shape.draft? (frame.plug tree) =
        draft?.bind fun draft => valueOf (field.read draft) tree := by
  cases frame with
  | member front letters back => exact hindependent.foldlM_focus hfield hframe front back
  | element front back =>
      have hmem : field ∈ shape.fields := List.mem_of_find?_eq_some hfield
      have hown : field.key = key := by simpa using List.find?_some hfield
      obtain ⟨other, hother, hsame⟩ : ∃ other, shape.fields[front.length]? = some other ∧
          other.key = key := by simpa [Frame.IsField, Shape.keys] using hframe
      have hone : other = field :=
        List.inj_on_of_nodup_map hkeys (List.mem_of_getElem? hother) hmem (hsame.trans hown.symm)
      exact fillInOrder_focus hindependent.apart (hone ▸ hother) back shape.blank

end Field

/-- The value of a field is read as a part of the record, wherever it stands among the others. -/
theorem Shape.Independent.readsAt {shape : Shape δ α} {key : String} {hasDefault : Bool}
    {read : Reader β} {get : δ → Option β} {set : δ → β → δ} {meaning : Tree → Option β}
    {focus : Focus α β} (hindependent : shape.Independent) (hkeys : shape.keys.Nodup)
    (hfield : shape.field? key = some (.of key hasDefault read get set))
    (hread : Means read meaning)
    (hfinish : ∀ draft value whole, (shape.finish (set draft value)).toOption = some whole →
      focus.get? whole = some value ∧ ∀ other,
        (shape.finish (set draft other)).toOption = some (focus.put whole other))
    {frame : Frame} (hframe : frame.IsField shape key) :
    ReadsAt shape.record? frame.plug meaning focus := by
  obtain ⟨draft?, hdraft⟩ := hindependent.draft?_plug hkeys hfield hframe
  have hrecord (tree : Tree) : shape.record? (frame.plug tree) =
      draft?.bind fun draft => (meaning tree).bind fun value =>
        (shape.finish (set draft value)).toOption := by
    rw [Shape.record?, hdraft, Option.bind_assoc]
    simp only [valueOf_field, (hread tree).valueOf_eq, Option.bind_map]
    rfl
  intro tree whole hwhole
  rw [hrecord] at hwhole
  obtain ⟨draft, rfl, hrest⟩ := Option.bind_eq_some_iff.1 hwhole
  obtain ⟨value, hvalue, hdone⟩ := Option.bind_eq_some_iff.1 hrest
  obtain ⟨hget, hput⟩ := hfinish draft value whole hdone
  refine ⟨⟨value, hvalue, hget⟩, fun other => ?_⟩
  rw [hrecord, Option.bind_some]
  simp only [hput]
  cases meaning other <;> rfl

end Bindery.Json
