import Mathlib.Data.List.Count
import Mathlib.Data.List.Lattice
import Mathlib.Data.List.Nodup
import Mathlib.Data.List.Pairwise
import Mathlib.Tactic.SplitIfs
import Bindery.Book.Issue
import Bindery.Proofs.Book.PartMap

namespace Bindery

/-! Every issue of a manifest is there as often as its cause is, and nothing else is reported. The
owners that a validation keeps are those of the part map. -/

/-- The number of the part that a chapter number belongs to. -/
def Manifest.assigned? (manifest : Manifest) (chapter : UInt32) : Option UInt32 :=
  (manifest.partMap.lookup chapter).map (·.number)

/-- How often a chapter number stands in the lists of the parts of some number. -/
def Manifest.timesListed (manifest : Manifest) (number chapter : UInt32) : Nat :=
  ((manifest.parts.filter (·.number == number)).flatMap (·.chapters)).count chapter

/-- No number is declared twice, and every listed number is declared and belongs to one part. -/
structure Manifest.IsSound (manifest : Manifest) : Prop where
  chapters : (manifest.chapters.map (·.number)).Nodup
  parts : (manifest.parts.map (·.number)).Nodup
  declared : ∀ part ∈ manifest.parts, ∀ chapter ∈ part.chapters,
    chapter ∈ manifest.chapters.map (·.number)
  disjoint : manifest.parts.Pairwise fun first second => first.chapters.Disjoint second.chapters

/-! Numbers that were declared before. -/

/-- The numbers that stand in `seen` or further in front. -/
def repeated (seen : List UInt32) : List UInt32 → List UInt32
  | [] => []
  | number :: numbers =>
      let later := repeated (number :: seen) numbers
      if seen.contains number then number :: later else later

theorem count_repeated (seen numbers : List UInt32) (asked : UInt32) :
    (repeated seen numbers).count asked =
      if asked ∈ seen then numbers.count asked else numbers.count asked - 1 := by
  induction numbers generalizing seen with
  | nil => simp [repeated]
  | cons number numbers ih =>
      by_cases hasked : number = asked
      · subst hasked
        by_cases hseen : number ∈ seen <;> simp [repeated, hseen, ih]
      · have hother : asked ∈ number :: seen ↔ asked ∈ seen := by
          simp [List.mem_cons, Ne.symm hasked]
        simp only [repeated, List.count_cons_of_ne hasked, apply_ite (List.count asked), ih, hother]
        exact ite_self _

theorem count_map_repeated {issue : UInt32 → Issue} (hissue : Function.Injective issue)
    (numbers : List UInt32) (asked : UInt32) :
    ((repeated [] numbers).map issue).count (issue asked) = numbers.count asked - 1 := by
  rw [List.count_map_of_injective _ issue hissue, count_repeated]
  exact if_neg List.not_mem_nil

theorem chapterIssues_eq (seen : List UInt32) (chapters : List Chapter) :
    chapterIssues seen chapters =
      (repeated seen (chapters.map (·.number))).map .duplicateChapter := by
  induction chapters generalizing seen with
  | nil => rfl
  | cons chapter chapters ih =>
      simp only [chapterIssues, List.map_cons, repeated, ih]
      split <;> rfl

/-! The numbers that a part lists, one after the other. -/

/-- The owners once a part has listed a number. -/
def Owners.add (owners : Owners) (part : Part) (chapter : UInt32) : Owners :=
  if (owners.lookup chapter).isSome then owners else (chapter, part.number) :: owners

theorem Owners.lookup_add (owners : Owners) (part : Part) (chapter asked : UInt32) :
    (owners.add part chapter).lookup asked =
      (owners.lookup asked).or (if asked = chapter then some part.number else none) := by
  rw [add]
  by_cases hasked : asked = chapter
  · subst hasked
    cases howner : owners.lookup asked <;> simp [howner]
  · cases owners.lookup chapter <;> simp [List.lookup_cons, beq_false_of_ne hasked, hasked]

def Manifest.undeclaredIssues (manifest : Manifest) (part : Part) (chapter : UInt32) : List Issue :=
  if manifest.declares chapter then [] else [.unknownChapter part.number chapter]

def Part.sharedIssues (part : Part) (owner? : Option UInt32) (chapter : UInt32) : List Issue :=
  match owner? with
  | none => []
  | some assigned =>
      if assigned = part.number then []
      else [.chapterInMultipleParts chapter assigned part.number]

/-- What is wrong with a number in the list of a part, given whom the numbers belong to. -/
def Manifest.listingIssues (manifest : Manifest) (part : Part) (owner? : UInt32 → Option UInt32)
    (chapter : UInt32) : List Issue :=
  manifest.undeclaredIssues part chapter ++ part.sharedIssues (owner? chapter) chapter

section Listing

variable (manifest : Manifest) (part : Part)

/-- A number that nobody owns and one that the part owns itself are as good. -/
theorem Manifest.listingIssues_congr {owner? other? : UInt32 → Option UInt32} {chapter : UInt32}
    (howner : owner? chapter = other? chapter ∨
      owner? chapter = none ∧ other? chapter = some part.number) :
    manifest.listingIssues part owner? chapter = manifest.listingIssues part other? chapter := by
  obtain hsame | ⟨hnone, hown⟩ := howner
  · rw [listingIssues, listingIssues, hsame]
  · simp [listingIssues, Part.sharedIssues, hnone, hown]

theorem Manifest.listedIssues_cons (owners : Owners) (chapter : UInt32) (numbers : List UInt32) :
    manifest.listedIssues part owners (chapter :: numbers) =
      let later := manifest.listedIssues part (owners.add part chapter) numbers
      (manifest.listingIssues part (owners.lookup ·) chapter ++ later.1, later.2) := by
  simp only [listedIssues, listingIssues, undeclaredIssues, Part.sharedIssues, Owners.add]
  cases owners.lookup chapter with
  | none => rfl
  | some assigned => by_cases hown : assigned = part.number <;> simp [hown]

/-- A part takes what it lists and nobody owned before it. -/
theorem Manifest.lookup_listedIssues (owners : Owners) (numbers : List UInt32) (asked : UInt32) :
    (manifest.listedIssues part owners numbers).2.lookup asked =
      (owners.lookup asked).or (if numbers.contains asked then some part.number else none) := by
  induction numbers generalizing owners with
  | nil => simp [listedIssues]
  | cons chapter numbers ih =>
      rw [listedIssues_cons, ih, owners.lookup_add, Option.or_assoc, List.contains_cons]
      by_cases hasked : asked = chapter <;> simp [hasked]

/-- What is reported of a part's list depends on the owners before the part alone. -/
theorem Manifest.listedIssues_eq (owners : Owners) (numbers : List UInt32) :
    (manifest.listedIssues part owners numbers).1 =
      numbers.flatMap (manifest.listingIssues part (owners.lookup ·)) := by
  induction numbers generalizing owners with
  | nil => rfl
  | cons chapter numbers ih =>
      rw [listedIssues_cons, List.flatMap_cons]
      simp only [ih]
      refine congrArg _ (List.flatMap_congr fun asked _ => Eq.symm ?_)
      refine manifest.listingIssues_congr part ?_
      rw [owners.lookup_add]
      by_cases hasked : asked = chapter
      · cases owners.lookup asked <;> simp [hasked]
      · exact .inl (by simp [hasked])

end Listing

/-! All parts, each with the owners that the parts in front of it leave. -/

theorem Manifest.assigned?_eq_find? (manifest : Manifest) (chapter : UInt32) :
    manifest.assigned? chapter =
      (manifest.parts.find? (·.chapters.contains chapter)).map (·.number) := by
  rw [assigned?, partMap, (PartMap.foldl_addPart List.Pairwise.nil manifest.parts).2,
    List.lookup_nil, Option.none_or]

/-- The owners after some parts are the first of them that list a number. -/
def Owners.Follow (owners : Owners) (parts : List Part) : Prop :=
  ∀ chapter, owners.lookup chapter = (parts.find? (·.chapters.contains chapter)).map (·.number)

theorem Owners.Follow.listed {owners : Owners} {earlier : List Part}
    (howners : owners.Follow earlier) (manifest : Manifest) (part : Part) :
    Owners.Follow (manifest.listedIssues part owners part.chapters).2 (earlier ++ [part]) := by
  intro chapter
  rw [manifest.lookup_listedIssues, howners, List.find?_append, Option.map_or]
  rw [List.find?_singleton, apply_ite (Option.map _)]
  rfl

/-- The part of a number that stands in its list is known by then, or it is the part itself. -/
theorem Owners.Follow.listingIssues {manifest : Manifest} {owners : Owners}
    {earlier later : List Part} {part : Part} (howners : owners.Follow earlier)
    (hparts : manifest.parts = earlier ++ part :: later) {chapter : UInt32}
    (hlisted : chapter ∈ part.chapters) :
    manifest.listingIssues part (owners.lookup ·) chapter =
      manifest.listingIssues part manifest.assigned? chapter := by
  refine manifest.listingIssues_congr part ?_
  have hcontains : part.chapters.contains chapter = true := List.contains_iff_mem.2 hlisted
  rw [howners, manifest.assigned?_eq_find?, hparts, List.find?_append, List.find?_cons, hcontains]
  cases earlier.find? (·.chapters.contains chapter) with
  | none => exact .inr ⟨rfl, rfl⟩
  | some owner => exact .inl rfl

/-- What is wrong with the numbers that some parts list. -/
def Manifest.listedProblems (manifest : Manifest) (parts : List Part) : List Issue :=
  parts.flatMap fun part =>
    part.chapters.flatMap (manifest.listingIssues part manifest.assigned?)

theorem Manifest.partIssues_perm {manifest : Manifest} {owners : Owners}
    {earlier later : List Part} (howners : owners.Follow earlier)
    (hparts : manifest.parts = earlier ++ later) (seen : List UInt32) :
    (manifest.partIssues seen owners later).Perm
      ((repeated seen (later.map (·.number))).map .duplicatePart ++
        manifest.listedProblems later) := by
  induction later generalizing earlier owners seen with
  | nil => exact .refl _
  | cons part later ih =>
      have hlisted : (manifest.listedIssues part owners part.chapters).1 =
          part.chapters.flatMap (manifest.listingIssues part manifest.assigned?) := by
        rw [manifest.listedIssues_eq]
        exact List.flatMap_congr fun chapter hchapter => howners.listingIssues hparts hchapter
      have hrest := ih (howners.listed manifest part) (by simpa using hparts)
        (part.number :: seen)
      have hmoved := (hrest.append_left (part.chapters.flatMap
        (manifest.listingIssues part manifest.assigned?))).trans
          (List.perm_append_comm_assoc _ _ _)
      simp only [partIssues, List.map_cons, repeated, listedProblems, List.flatMap_cons, hlisted]
      split_ifs
      · exact hmoved.cons _
      · exact hmoved

theorem Manifest.issues_perm (manifest : Manifest) :
    manifest.issues.Perm
      ((repeated [] (manifest.chapters.map (·.number))).map .duplicateChapter ++
        ((repeated [] (manifest.parts.map (·.number))).map .duplicatePart ++
          manifest.listedProblems manifest.parts)) := by
  have hstart : Owners.Follow [] [] := fun _ => rfl
  rw [issues, chapterIssues_eq]
  exact (partIssues_perm hstart rfl []).append_left _

/-! How often each issue is reported. -/

section Counts

variable (manifest : Manifest)

theorem Manifest.not_mem_listedProblems {issue : Issue}
    (hunknown : ∀ number chapter, issue ≠ .unknownChapter number chapter)
    (hshared : ∀ chapter assigned ignored,
      issue ≠ .chapterInMultipleParts chapter assigned ignored)
    (parts : List Part) : issue ∉ manifest.listedProblems parts := by
  simp only [listedProblems, List.mem_flatMap, listingIssues, List.mem_append, not_exists, not_and,
    not_or]
  refine fun part _ chapter _ => ⟨?_, ?_⟩
  · rw [undeclaredIssues]
    split_ifs <;> simp [hunknown]
  · unfold Part.sharedIssues
    split <;> [simp; split_ifs <;> simp [hshared]]

theorem Manifest.count_unknownChapter_listing (part : Part) (owner? : UInt32 → Option UInt32)
    (listed number chapter : UInt32) :
    (manifest.listingIssues part owner? listed).count (.unknownChapter number chapter) =
      if part.number = number ∧ listed = chapter ∧ manifest.declares chapter = false then 1
      else 0 := by
  have hshared : (part.sharedIssues (owner? listed) listed).count
      (.unknownChapter number chapter) = 0 := by
    unfold Part.sharedIssues
    split <;> [rfl; split_ifs <;> simp]
  rw [listingIssues, List.count_append, hshared, undeclaredIssues]
  grind

theorem Manifest.count_chapterInMultipleParts_listing (part : Part)
    (owner? : UInt32 → Option UInt32) (listed chapter assigned ignored : UInt32) :
    (manifest.listingIssues part owner? listed).count
        (.chapterInMultipleParts chapter assigned ignored) =
      if part.number = ignored ∧ listed = chapter ∧ owner? chapter = some assigned ∧
        ignored ≠ assigned then 1 else 0 := by
  have hundeclared : (manifest.undeclaredIssues part listed).count
      (.chapterInMultipleParts chapter assigned ignored) = 0 := by
    rw [undeclaredIssues]
    split_ifs <;> simp
  rw [listingIssues, List.count_append, hundeclared]
  unfold Part.sharedIssues
  grind

/-- An issue that every listing of one number by a part of another reports once, if it has a cause
at all, is reported as often as the number is listed. -/
theorem Manifest.count_listedProblems {issue : Issue} {number chapter : UInt32} {cause : Prop}
    [Decidable cause]
    (hlisting : ∀ part listed,
      (manifest.listingIssues part manifest.assigned? listed).count issue =
        if part.number = number ∧ listed = chapter ∧ cause then 1 else 0) :
    (manifest.listedProblems manifest.parts).count issue =
      if cause then manifest.timesListed number chapter else 0 := by
  have hpart (part : Part) (numbers : List UInt32) :
      (numbers.flatMap (manifest.listingIssues part manifest.assigned?)).count issue =
        if part.number = number ∧ cause then numbers.count chapter else 0 := by
    induction numbers with
    | nil => simp
    | cons listed numbers ih =>
        rw [List.flatMap_cons, List.count_append, hlisting, ih, List.count_cons]
        grind
  rw [listedProblems, timesListed]
  induction manifest.parts with
  | nil => simp
  | cons part parts ih =>
      rw [List.flatMap_cons, List.count_append, hpart, ih]
      by_cases hnumber : part.number = number <;> by_cases hcause : cause <;>
        simp [hnumber, hcause]

theorem Manifest.count_duplicateChapter (number : UInt32) :
    manifest.issues.count (.duplicateChapter number) =
      (manifest.chapters.map (·.number)).count number - 1 := by
  have hparts : Issue.duplicateChapter number ∉
      (repeated [] (manifest.parts.map (·.number))).map .duplicatePart := by simp
  have hlisted : Issue.duplicateChapter number ∉ manifest.listedProblems manifest.parts :=
    manifest.not_mem_listedProblems (by simp) (by simp) _
  rw [manifest.issues_perm.count_eq, List.count_append, List.count_append,
    List.count_eq_zero.2 hparts, List.count_eq_zero.2 hlisted,
    count_map_repeated fun _ _ hsame => Issue.duplicateChapter.inj hsame]
  rfl

theorem Manifest.count_duplicatePart (number : UInt32) :
    manifest.issues.count (.duplicatePart number) =
      (manifest.parts.map (·.number)).count number - 1 := by
  have hchapters : Issue.duplicatePart number ∉
      (repeated [] (manifest.chapters.map (·.number))).map .duplicateChapter := by simp
  have hlisted : Issue.duplicatePart number ∉ manifest.listedProblems manifest.parts :=
    manifest.not_mem_listedProblems (by simp) (by simp) _
  rw [manifest.issues_perm.count_eq, List.count_append, List.count_append,
    List.count_eq_zero.2 hchapters, List.count_eq_zero.2 hlisted,
    count_map_repeated fun _ _ hsame => Issue.duplicatePart.inj hsame, Nat.zero_add, Nat.add_zero]

/-- An issue about a listing is reported as often as the lists of the parts cause it. -/
theorem Manifest.count_of_listing {issue : Issue}
    (hchapter : ∀ number, issue ≠ .duplicateChapter number)
    (hpart : ∀ number, issue ≠ .duplicatePart number) :
    manifest.issues.count issue = (manifest.listedProblems manifest.parts).count issue := by
  have hchapters : issue ∉
      (repeated [] (manifest.chapters.map (·.number))).map .duplicateChapter := by
    simpa using fun number _ => (hchapter number).symm
  have hparts : issue ∉ (repeated [] (manifest.parts.map (·.number))).map .duplicatePart := by
    simpa using fun number _ => (hpart number).symm
  rw [manifest.issues_perm.count_eq, List.count_append, List.count_append,
    List.count_eq_zero.2 hchapters, List.count_eq_zero.2 hparts, Nat.zero_add, Nat.zero_add]

theorem Manifest.declares_eq_false_iff (chapter : UInt32) :
    manifest.declares chapter = false ↔ chapter ∉ manifest.chapters.map (·.number) := by
  simp [declares]

theorem Manifest.count_unknownChapter (number chapter : UInt32) :
    manifest.issues.count (.unknownChapter number chapter) =
      if chapter ∈ manifest.chapters.map (·.number) then 0
      else manifest.timesListed number chapter := by
  have hlisted := manifest.count_listedProblems fun part listed =>
    manifest.count_unknownChapter_listing part _ listed number chapter
  rw [manifest.count_of_listing (by simp) (by simp), hlisted]
  simp only [manifest.declares_eq_false_iff, ite_not]

theorem Manifest.count_chapterInMultipleParts (chapter assigned ignored : UInt32) :
    manifest.issues.count (.chapterInMultipleParts chapter assigned ignored) =
      if manifest.assigned? chapter = some assigned ∧ ignored ≠ assigned then
        manifest.timesListed ignored chapter
      else 0 := by
  rw [manifest.count_of_listing (by simp) (by simp)]
  exact manifest.count_listedProblems fun part listed =>
    manifest.count_chapterInMultipleParts_listing part _ listed chapter assigned ignored

end Counts

/-! No issues at all. -/

section Sound

variable (manifest : Manifest)

theorem Manifest.timesListed_pos {number chapter : UInt32} :
    0 < manifest.timesListed number chapter ↔
      ∃ part ∈ manifest.parts, part.number = number ∧ chapter ∈ part.chapters := by
  rw [timesListed, List.count_pos_iff, List.mem_flatMap]
  simp [and_assoc]

/-- A number that some part lists belongs to a part that lists it. -/
theorem Manifest.exists_assigned {part : Part} (hpart : part ∈ manifest.parts) {chapter : UInt32}
    (hlisted : chapter ∈ part.chapters) :
    ∃ owner ∈ manifest.parts, chapter ∈ owner.chapters ∧
      manifest.assigned? chapter = some owner.number := by
  have hsome : (manifest.parts.find? (·.chapters.contains chapter)).isSome = true :=
    List.find?_isSome.2 ⟨part, hpart, List.contains_iff_mem.2 hlisted⟩
  obtain ⟨owner, howner⟩ := Option.isSome_iff_exists.1 hsome
  have hfound := List.find?_some howner
  refine ⟨owner, List.mem_of_find?_eq_some howner, List.contains_iff_mem.1 hfound, ?_⟩
  rw [manifest.assigned?_eq_find?, howner]
  rfl

/-- All parts that list a number have the number of its owner, where nothing else is reported. -/
theorem Manifest.number_eq_of_not_shared {part : Part} (hpart : part ∈ manifest.parts)
    {chapter assigned : UInt32} (hlisted : chapter ∈ part.chapters)
    (hassigned : manifest.assigned? chapter = some assigned)
    (hissue : manifest.issues.count (.chapterInMultipleParts chapter assigned part.number) = 0) :
    part.number = assigned := by
  by_contra hother
  rw [manifest.count_chapterInMultipleParts, if_pos ⟨hassigned, hother⟩] at hissue
  exact absurd (manifest.timesListed_pos.2 ⟨part, hpart, rfl, hlisted⟩) (by omega)

theorem Manifest.isSound_of_no_issues (hnone : manifest.issues = []) : manifest.IsSound := by
  have hcount (issue : Issue) : manifest.issues.count issue = 0 := by rw [hnone]; rfl
  have hparts : (manifest.parts.map (·.number)).Nodup := by
    refine List.nodup_iff_count_le_one.2 fun number => ?_
    have hnumber := hcount (.duplicatePart number)
    rw [manifest.count_duplicatePart] at hnumber
    omega
  refine ⟨List.nodup_iff_count_le_one.2 fun number => ?_, hparts,
    fun part hpart chapter hlisted => ?_, ?_⟩
  · have hnumber := hcount (.duplicateChapter number)
    rw [manifest.count_duplicateChapter] at hnumber
    omega
  · by_contra hundeclared
    have hunknown := hcount (.unknownChapter part.number chapter)
    rw [manifest.count_unknownChapter, if_neg hundeclared] at hunknown
    exact absurd (manifest.timesListed_pos.2 ⟨part, hpart, rfl, hlisted⟩) (by omega)
  · refine (List.pairwise_map.1 hparts).imp_of_mem fun {first second} hfirst hsecond hdiffer => ?_
    intro chapter hinfirst hinsecond
    obtain ⟨owner, -, -, howner⟩ := manifest.exists_assigned hfirst hinfirst
    have hsame := manifest.number_eq_of_not_shared hfirst hinfirst howner (hcount _)
    exact hdiffer (hsame.trans
      (manifest.number_eq_of_not_shared hsecond hinsecond howner (hcount _)).symm)

variable {manifest}

/-- In a sound manifest the parts that list a number have the number of its owner. -/
theorem Manifest.IsSound.number_eq (hsound : manifest.IsSound) {chapter assigned : UInt32}
    (hassigned : manifest.assigned? chapter = some assigned) {part : Part}
    (hpart : part ∈ manifest.parts) (hlisted : chapter ∈ part.chapters) :
    part.number = assigned := by
  obtain ⟨owner, howner, hinowner, hnumber⟩ := manifest.exists_assigned hpart hlisted
  obtain rfl : owner.number = assigned := Option.some.inj (hnumber.symm.trans hassigned)
  have : Std.Symm fun first second : Part => first.chapters.Disjoint second.chapters :=
    ⟨fun _ _ => List.Disjoint.symm⟩
  by_contra hother
  have hdiffer : part ≠ owner := fun hsame => hother (congrArg Part.number hsame)
  exact hsound.disjoint.forall hpart howner hdiffer hlisted hinowner

theorem Manifest.IsSound.issues_eq_nil (hsound : manifest.IsSound) : manifest.issues = [] := by
  refine List.eq_nil_iff_forall_not_mem.2 fun issue => List.count_eq_zero.1 ?_
  cases issue with
  | duplicateChapter number =>
      have honce := List.nodup_iff_count_le_one.1 hsound.chapters number
      rw [manifest.count_duplicateChapter]
      omega
  | duplicatePart number =>
      have honce := List.nodup_iff_count_le_one.1 hsound.parts number
      rw [manifest.count_duplicatePart]
      omega
  | unknownChapter number chapter =>
      rw [manifest.count_unknownChapter]
      split_ifs with hdeclared
      · rfl
      · by_contra hsome
        obtain ⟨part, hpart, -, hlisted⟩ :=
          manifest.timesListed_pos.1 (Nat.pos_of_ne_zero hsome)
        exact hdeclared (hsound.declared part hpart chapter hlisted)
  | chapterInMultipleParts chapter assigned ignored =>
      rw [manifest.count_chapterInMultipleParts]
      split_ifs with hshared
      · by_contra hsome
        obtain ⟨part, hpart, rfl, hlisted⟩ :=
          manifest.timesListed_pos.1 (Nat.pos_of_ne_zero hsome)
        exact hshared.2 (hsound.number_eq hshared.1 hpart hlisted)
      · rfl

end Sound

/-- Each issue is reported as often as its cause is there: a number as often as it is declared
again, and a listed number for each listing that is undeclared or by another part than its own. So
exactly a sound manifest has no issues. -/
theorem issues_counted (manifest : Manifest) :
    (∀ number, manifest.issues.count (.duplicateChapter number) =
        (manifest.chapters.map (·.number)).count number - 1) ∧
      (∀ number, manifest.issues.count (.duplicatePart number) =
        (manifest.parts.map (·.number)).count number - 1) ∧
      (∀ part chapter, manifest.issues.count (.unknownChapter part chapter) =
        if chapter ∈ manifest.chapters.map (·.number) then 0
        else manifest.timesListed part chapter) ∧
      (∀ chapter assigned ignored,
        manifest.issues.count (.chapterInMultipleParts chapter assigned ignored) =
          if (manifest.partMap.lookup chapter).map (·.number) = some assigned ∧
              ignored ≠ assigned then
            manifest.timesListed ignored chapter
          else 0) ∧
      (manifest.issues = [] ↔ manifest.IsSound) :=
  ⟨manifest.count_duplicateChapter, manifest.count_duplicatePart, manifest.count_unknownChapter,
    manifest.count_chapterInMultipleParts, manifest.isSound_of_no_issues, (·.issues_eq_nil)⟩

end Bindery
