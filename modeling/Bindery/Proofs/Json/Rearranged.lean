import Mathlib.Data.List.Basic
import Mathlib.Data.List.Pairwise
import Mathlib.Data.List.Perm.Basic
import Mathlib.Tactic.SplitIfs
import Bindery.Proofs.Json.Filling

namespace Bindery.Json

variable {α β γ δ : Type}

/-! Objects with their members in another order and further members among them. The fields of a
record are filled independently of each other, so the order in which they are filled does not
matter. -/

def Shape.keys (shape : Shape δ α) : List String :=
  shape.fields.map (·.key)

/-- The same key, and a value that is changed as values behind that key may be. -/
def KeptMember (changes : String → Tree → Tree → Prop) (member later : List Letter × Tree) : Prop :=
  later.1 = member.1 ∧
    (later.2 = member.2 ∨
      ∃ key, decodeText member.1 = some key ∧ changes key member.2 later.2)

/-- An object whose members stand in any order, between others that have none of the keys. What is
no object stays as it is. -/
inductive Rearranged (keys : List String) (changes : String → Tree → Tree → Prop) :
    Tree → Tree → Prop
  | same (tree : Tree) : Rearranged keys changes tree tree
  | object {members kept unknown later : List (List Letter × Tree)}
      (hkept : List.Forall₂ (KeptMember changes) members kept)
      (hunknown : ∀ member ∈ unknown, ∃ key, decodeText member.1 = some key ∧ key ∉ keys)
      (hlater : later.Perm (kept ++ unknown)) :
      Rearranged keys changes (.object members) (.object later)

/-- No value is changed. -/
def noChange (_ : String) (_ _ : Tree) : Prop :=
  False

/-- A list whose elements are changed one by one. -/
inductive Elementwise (changes : Tree → Tree → Prop) : Tree → Tree → Prop
  | array {elements later : List Tree} (helements : List.Forall₂ changes elements later) :
      Elementwise changes (.array elements) (.array later)

/-! Fields that are filled apart from each other. -/

structure RecordField.Apart (field other : RecordField δ) : Prop where
  isRead {draft later : δ} {tree : Tree} :
    valueOf (other.read draft) tree = some later → field.isRead later = field.isRead draft
  isRead_other {draft later : δ} {tree : Tree} :
    valueOf (field.read draft) tree = some later → other.isRead later = other.isRead draft
  comm (draft : δ) (tree next : Tree) :
    (valueOf (field.read draft) tree).bind (fun draft => valueOf (other.read draft) next) =
      (valueOf (other.read draft) next).bind fun draft => valueOf (field.read draft) tree

structure Shape.Independent (shape : Shape δ α) : Prop where
  lawful : shape.Lawful
  apart : shape.fields.Pairwise RecordField.Apart

theorem RecordField.Apart.symm {field other : RecordField δ} (hapart : field.Apart other) :
    other.Apart field where
  isRead := hapart.isRead_other
  isRead_other := hapart.isRead
  comm draft tree next := (hapart.comm draft next tree).symm

instance : Std.Symm (@RecordField.Apart δ) :=
  ⟨fun _ _ hapart => hapart.symm⟩

/-- Fields of which each leaves what the other one is read into as it is. -/
theorem RecordField.Apart.of {read : Reader β} {readOther : Reader γ} {key keyOther : String}
    {hasDefault otherDefault : Bool} {get : δ → Option β} {getOther : δ → Option γ}
    {set : δ → β → δ} {setOther : δ → γ → δ}
    (hget : ∀ draft value, get (setOther draft value) = get draft)
    (hgetOther : ∀ draft value, getOther (set draft value) = getOther draft)
    (hset : ∀ draft value next,
      setOther (set draft value) next = set (setOther draft next) value) :
    (RecordField.of key hasDefault read get set).Apart
      (RecordField.of keyOther otherDefault readOther getOther setOther) where
  isRead {draft later tree} hlater := by
    rw [valueOf_field] at hlater
    obtain ⟨value, -, rfl⟩ := Option.map_eq_some_iff.1 hlater
    exact congrArg Option.isSome (hget draft value)
  isRead_other {draft later tree} hlater := by
    rw [valueOf_field] at hlater
    obtain ⟨value, -, rfl⟩ := Option.map_eq_some_iff.1 hlater
    exact congrArg Option.isSome (hgetOther draft value)
  comm draft tree next := by
    simp only [valueOf_field]
    cases valueOf read tree with
    | none => cases valueOf readOther next <;> rfl
    | some value =>
        cases valueOf readOther next with
        | none => rfl
        | some other => exact congrArg some (hset draft value other)

section Apart

variable {field other : RecordField δ} (hapart : field.Apart other) {draft later : δ}

include hapart

theorem RecordField.Apart.fill_of_read {next : Tree}
    (hlater : valueOf (other.read draft) next = some later) (tree : Tree) :
    field.fill later tree =
      if field.isRead draft then none else valueOf (field.read later) tree := by
  rw [fill, hapart.isRead hlater]

/-- Reading one field does not decide whether the other one may be read. -/
theorem RecordField.Apart.fill_bind (tree next : Tree) :
    (other.fill draft next).bind (field.fill · tree) =
      if field.isRead draft = true ∨ other.isRead draft = true then none
      else (valueOf (other.read draft) next).bind fun later => valueOf (field.read later) tree := by
  rw [fill]
  cases hother : other.isRead draft with
  | true => simp
  | false =>
      cases hlater : valueOf (other.read draft) next with
      | none => simp
      | some later => simp [hapart.fill_of_read hlater]

theorem RecordField.Apart.fill_comm (tree next : Tree) :
    (field.fill draft tree).bind (other.fill · next) =
      (other.fill draft next).bind (field.fill · tree) := by
  rw [hapart.fill_bind, hapart.symm.fill_bind, hapart.comm]
  simp only [or_comm]

end Apart

section Fill

variable {shape : Shape δ α}

theorem Shape.Independent.fill_twice (hindependent : shape.Independent) {field : RecordField δ}
    (hfield : field ∈ shape.fields) (draft : δ) (tree next : Tree) :
    (field.fill draft tree).bind (field.fill · next) = none := by
  rw [RecordField.fill]
  split_ifs
  · rfl
  · cases hlater : valueOf (field.read draft) tree with
    | none => rfl
    | some later => simp [RecordField.fill, (hindependent.lawful field hfield).fills hlater]

theorem Shape.fillKey_comm (hindependent : shape.Independent) (draft : δ) (key other : String)
    (tree next : Tree) :
    (shape.fillKey draft key tree).bind (shape.fillKey · other next) =
      (shape.fillKey draft other next).bind (shape.fillKey · key tree) := by
  cases hkey : shape.field? key with
  | none => simp [fillKey, hkey]
  | some field =>
      cases hother : shape.field? other with
      | none => simp [fillKey, hother]
      | some second =>
          have hfirst : field ∈ shape.fields := List.mem_of_find?_eq_some hkey
          have hsecond : second ∈ shape.fields := List.mem_of_find?_eq_some hother
          simp only [fillKey, hkey, hother]
          -- A field that two members name is refused in either order.
          by_cases hsame : field = second
          · subst hsame
            rw [hindependent.fill_twice hfirst, hindependent.fill_twice hfirst]
          · exact (hindependent.apart.forall hfirst hsecond hsame).fill_comm tree next

theorem Shape.fill_comm (hindependent : shape.Independent) (draft : δ)
    (member next : List Letter × Tree) :
    (shape.fill draft member).bind (shape.fill · next) =
      (shape.fill draft next).bind (shape.fill · member) := by
  simp only [fill]
  cases decodeText member.1 with
  | none => simp
  | some key =>
      cases decodeText next.1 with
      | none => simp
      | some other => exact fillKey_comm hindependent draft key other member.2 next.2

/-- The order of the members does not matter. -/
theorem Shape.foldlM_fill_perm (hindependent : shape.Independent)
    {members later : List (List Letter × Tree)} (hperm : members.Perm later) (draft : δ) :
    members.foldlM shape.fill draft = later.foldlM shape.fill draft := by
  have hcomm : RightCommutative fun (draft? : Option δ) member =>
      draft? >>= (shape.fill · member) := by
    refine ⟨fun draft? member next => ?_⟩
    cases draft? with
    | none => rfl
    | some draft => exact fill_comm hindependent draft member next
  rw [List.foldlM_eq_foldl, List.foldlM_eq_foldl, hperm.foldl_eq]

theorem Shape.foldlM_fill_unknown {unknown : List (List Letter × Tree)}
    (hunknown : ∀ member ∈ unknown, ∃ key, decodeText member.1 = some key ∧ key ∉ shape.keys)
    (draft : δ) : unknown.foldlM shape.fill draft = some draft := by
  induction unknown with
  | nil => rfl
  | cons member unknown ih =>
      obtain ⟨⟨key, hkey, hmem⟩, hunknown⟩ := List.forall_mem_cons.1 hunknown
      have hnone : shape.field? key = none := by
        rw [field?, List.find?_eq_none]
        intro field hfield hfound
        exact hmem (List.mem_map.2 ⟨field, hfield, eq_of_beq hfound⟩)
      have hfill : shape.fill draft member = some draft := by
        simp [fill, fillKey, hkey, hnone]
      rw [List.foldlM_cons, hfill]
      exact ih hunknown

/-- What a change of a value leaves as it is. -/
def Shape.Ignores (shape : Shape δ α) (changes : String → Tree → Tree → Prop) : Prop :=
  ∀ key field tree later, shape.field? key = some field → changes key tree later →
    ∀ draft, valueOf (field.read draft) later = valueOf (field.read draft) tree

theorem Shape.foldlM_fill_kept {changes : String → Tree → Tree → Prop}
    (hignores : shape.Ignores changes) {members kept : List (List Letter × Tree)}
    (hkept : List.Forall₂ (KeptMember changes) members kept) (draft : δ) :
    kept.foldlM shape.fill draft = members.foldlM shape.fill draft := by
  induction hkept generalizing draft with
  | nil => rfl
  | @cons member later members kept hmember _ ih =>
      have hfill : shape.fill draft later = shape.fill draft member := by
        obtain ⟨hkey, hsame | ⟨key, hdecoded, hchanged⟩⟩ := hmember
        · rw [fill, fill, hkey, hsame]
        · rw [fill, fill, hkey, hdecoded, Option.bind_some, Option.bind_some, fillKey, fillKey]
          cases hfield : shape.field? key with
          | none => rfl
          | some field =>
              simp only [RecordField.fill, hignores key field _ _ hfield hchanged draft]
      rw [List.foldlM_cons, List.foldlM_cons, hfill]
      exact congrArg _ (funext ih)

/-- A record does not change with the order of its members, nor with members that it does not
know. -/
theorem Rearranged.record?_eq {changes : String → Tree → Tree → Prop}
    (hindependent : shape.Independent) (hignores : shape.Ignores changes) {tree later : Tree}
    (hrearranged : Rearranged shape.keys changes tree later) :
    shape.record? later = shape.record? tree := by
  cases hrearranged with
  | same => rfl
  | @object members kept unknown later hkept hunknown hlater =>
      have hdraft : shape.draft? (.object later) = shape.draft? (.object members) := by
        rw [Shape.draft?, Shape.draft?, Shape.foldlM_fill_perm hindependent hlater,
          List.foldlM_append, Shape.foldlM_fill_kept hignores hkept]
        simp only [Shape.foldlM_fill_unknown hunknown]
        exact bind_pure _
      rw [Shape.record?, Shape.record?, hdraft]

end Fill

/-- Lists of elements that mean the same. -/
theorem Elementwise.list?_eq {changes : Tree → Tree → Prop} {meaning : Tree → Option α}
    (hchanges : ∀ tree later, changes tree later → meaning later = meaning tree)
    {tree later : Tree} (helementwise : Elementwise changes tree later) :
    Tree.list? meaning later = Tree.list? meaning tree := by
  cases helementwise with
  | array helements =>
      rw [Tree.list?, Tree.list?]
      induction helements with
      | nil => rfl
      | cons hfirst _ ih => rw [List.mapM_cons, List.mapM_cons, hchanges _ _ hfirst, ih]

end Bindery.Json
