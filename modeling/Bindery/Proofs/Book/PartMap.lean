import Bindery.Book.Manifest

namespace Bindery

/-! A chapter number belongs to the first part that lists it. -/

def PartMap.Ascending (entries : PartMap) : Prop :=
  entries.Pairwise fun earlier later => earlier.1 < later.1

theorem PartMap.mem_add {part : Part} {number : UInt32} {entries : PartMap} {entry : UInt32 × Part}
    (hentry : entry ∈ PartMap.add part entries number) :
    entry = (number, part) ∨ entry ∈ entries := by
  induction entries with
  | nil => exact .inl (List.mem_singleton.1 hentry)
  | cons first entries ih =>
      simp only [PartMap.add] at hentry
      split at hentry
      · exact List.mem_cons.1 hentry
      · split at hentry
        · exact .inr hentry
        · rcases List.mem_cons.1 hentry with rfl | hentry
          · exact .inr List.mem_cons_self
          · exact (ih hentry).imp_right (List.mem_cons_of_mem first)

theorem PartMap.Ascending.add {entries : PartMap} (hentries : entries.Ascending) (part : Part)
    (number : UInt32) : (PartMap.add part entries number).Ascending := by
  induction entries with
  | nil => exact List.pairwise_singleton _ _
  | cons first entries ih =>
      obtain ⟨hfirst, hrest⟩ := List.pairwise_cons.1 hentries
      simp only [PartMap.add]
      split
      · rename_i hbefore
        refine List.pairwise_cons.2 ⟨fun entry hentry => ?_, hentries⟩
        rcases List.mem_cons.1 hentry with rfl | hentry
        · exact hbefore
        · exact UInt32.lt_trans hbefore (hfirst entry hentry)
      · split
        · exact hentries
        · rename_i hbefore hsame
          refine List.pairwise_cons.2 ⟨fun entry hentry => ?_, ih hrest⟩
          rcases PartMap.mem_add hentry with rfl | hentry
          · exact UInt32.lt_of_le_of_ne (UInt32.not_lt.1 hbefore) (Ne.symm hsame)
          · exact hfirst entry hentry

theorem PartMap.lookup_eq_none {entries : PartMap} {number : UInt32}
    (hentries : ∀ entry ∈ entries, number < entry.1) : entries.lookup number = none := by
  refine List.lookup_eq_none_iff.2 fun entry hentry => ?_
  simpa using UInt32.ne_of_lt (hentries entry hentry)

theorem PartMap.lookup_add {entries : PartMap} (hentries : entries.Ascending) (part : Part)
    (number asked : UInt32) :
    (PartMap.add part entries number).lookup asked =
      (entries.lookup asked).or (if asked = number then some part else none) := by
  induction entries with
  | nil =>
      by_cases hasked : asked = number
      · simp [PartMap.add, hasked]
      · simp [PartMap.add, List.lookup_cons, beq_false_of_ne hasked, hasked]
  | cons first entries ih =>
      obtain ⟨key, owner⟩ := first
      obtain ⟨hfirst, hrest⟩ := List.pairwise_cons.1 hentries
      simp only [PartMap.add]
      split
      · rename_i hbefore
        by_cases hasked : asked = number
        · subst hasked
          have hnone : ((key, owner) :: entries).lookup asked = none := by
            refine PartMap.lookup_eq_none fun entry hentry => ?_
            rcases List.mem_cons.1 hentry with rfl | hentry
            · exact hbefore
            · exact UInt32.lt_trans hbefore (hfirst entry hentry)
          simp [hnone]
        · simp [List.lookup_cons (a := asked) (k := number), beq_false_of_ne hasked, hasked]
      · split
        · rename_i hsame
          by_cases hasked : asked = number
          · simp [hasked, hsame]
          · simp [hasked]
        · by_cases hasked : asked = key
          · simp [hasked]
          · simp only [List.lookup_cons, beq_false_of_ne hasked, ih hrest]

theorem PartMap.foldl_add {entries : PartMap} (hentries : entries.Ascending) (part : Part)
    (numbers : List UInt32) :
    (numbers.foldl (PartMap.add part) entries).Ascending ∧
      ∀ asked, (numbers.foldl (PartMap.add part) entries).lookup asked =
        (entries.lookup asked).or (if numbers.contains asked then some part else none) := by
  induction numbers generalizing entries with
  | nil => exact ⟨hentries, fun asked => by simp⟩
  | cons number numbers ih =>
      obtain ⟨hascending, hlookup⟩ := ih (hentries.add part number)
      refine ⟨hascending, fun asked => ?_⟩
      rw [List.foldl_cons, hlookup, lookup_add hentries, Option.or_assoc, List.contains_cons]
      by_cases hasked : asked = number <;> simp [hasked]

theorem PartMap.foldl_addPart {entries : PartMap} (hentries : entries.Ascending)
    (parts : List Part) :
    (parts.foldl PartMap.addPart entries).Ascending ∧
      ∀ asked, (parts.foldl PartMap.addPart entries).lookup asked =
        (entries.lookup asked).or (parts.find? (·.chapters.contains asked)) := by
  induction parts generalizing entries with
  | nil => exact ⟨hentries, fun asked => by simp⟩
  | cons part parts ih =>
      obtain ⟨hadded, hpart⟩ := foldl_add hentries part part.chapters
      obtain ⟨hascending, hlookup⟩ := ih hadded
      refine ⟨hascending, fun asked => ?_⟩
      rw [List.foldl_cons, addPart, hlookup, hpart, Option.or_assoc, List.find?_cons]
      cases part.chapters.contains asked <;> simp

/-- The place of the first part that lists a chapter number. -/
def Manifest.owner? (manifest : Manifest) (number : UInt32) : Option Nat :=
  manifest.parts.findIdx? (·.chapters.contains number)

theorem Manifest.lookup_partMap (manifest : Manifest) (number : UInt32) :
    manifest.partMap.lookup number = (manifest.owner? number).bind (manifest.parts[·]?) := by
  rw [partMap, (PartMap.foldl_addPart List.Pairwise.nil manifest.parts).2, List.lookup_nil,
    Option.none_or, owner?, List.find?_eq_bind_findIdx?_getElem?]

end Bindery
