import Mathlib.Data.List.Basic
import Bindery.Files.Trail
import Bindery.Proofs.Text.Split

namespace Bindery

/-! Joined paths by their segments. -/

/-- A name that stands for one entry of a folder. -/
structure IsEntryName (name : String) : Prop where
  isName : isName name = true
  ne_up : name ≠ ".."
  size_le : name.utf8ByteSize ≤ maxNameSize
  no_slash : '/' ∉ name.toList
  no_nul : '\x00' ∉ name.toList

instance (name : String) : Decidable (IsEntryName name) :=
  decidable_of_iff
    (Bindery.isName name = true ∧ name ≠ ".." ∧ name.utf8ByteSize ≤ maxNameSize ∧
      '/' ∉ name.toList ∧ '\x00' ∉ name.toList)
    ⟨fun ⟨hname, hup, hsize, hslash, hnul⟩ => ⟨hname, hup, hsize, hslash, hnul⟩,
      fun hname => ⟨hname.isName, hname.ne_up, hname.size_le, hname.no_slash, hname.no_nul⟩⟩

/-- The segments of a base in front of those of a name that is put below it. -/
def baseSegments (base : String) : List String :=
  if base.isEmpty then []
  else if base.toList.getLast? = some '/' then (pathSegments base).dropLast
  else pathSegments base

theorem pathSegments_of_no_slash {name : String} (hname : '/' ∉ name.toList) :
    pathSegments name = [name] := by
  rw [pathSegments, List.splitOn_eq_singleton hname]
  simp

theorem pathSegments_slash (front back : String) :
    pathSegments (front ++ "/" ++ back) = pathSegments front ++ pathSegments back := by
  have htext : (front ++ "/" ++ back).toList = front.toList ++ '/' :: back.toList := by
    simp [String.toList_append]
  rw [pathSegments, htext, List.splitOn_append_cons_self, List.map_append]
  rfl

theorem isAbsolute_of_no_slash {name : String} (hname : '/' ∉ name.toList) :
    isAbsolute name = false := by
  rw [isAbsolute]
  cases hletters : name.toList with
  | nil => rfl
  | cons c letters =>
      have hc : c ≠ '/' := by
        rintro rfl
        exact hname (hletters ▸ List.mem_cons_self)
      simpa using hc

theorem isAbsolute_iff_head? {path : String} (hpath : path ≠ "") :
    isAbsolute path = true ↔ (pathSegments path).head? = some "" := by
  rw [isAbsolute, pathSegments]
  cases hletters : path.toList with
  | nil => exact absurd (String.toList_eq_nil_iff.1 hletters) hpath
  | cons c letters =>
      rw [List.splitOn_cons_eq_if_modifyHead]
      by_cases hc : c = '/'
      · simp [hc]
      · cases hsplit : letters.splitOn '/' with
        | nil => exact absurd hsplit (List.splitOn_ne_nil _ _)
        | cons first segments => simp [hc]

theorem pathSegments_joinPath (base : String) {name : String} (hname : isAbsolute name = false) :
    pathSegments (joinPath base name) = baseSegments base ++ pathSegments name := by
  rw [joinPath, baseSegments, hname]
  cases hempty : base.isEmpty with
  | true => simp [String.isEmpty_iff.1 hempty]
  | false =>
      by_cases hslash : base.toList.getLast? = some '/'
      · obtain ⟨front, hfront⟩ := List.getLast?_eq_some_iff.1 hslash
        have hbase : base = String.ofList front ++ "/" ++ "" := by
          rw [← String.toList_inj, hfront]
          simp
        have hnil : pathSegments "" = [""] := pathSegments_of_no_slash (by decide)
        simp only [hslash, decide_true, Bool.or_true, Bool.false_eq_true, if_true, if_false]
        rw [hbase, pathSegments_slash, hnil, List.dropLast_concat, String.append_empty,
          pathSegments_slash]
      · simp [hslash, pathSegments_slash]

theorem pathSegments_joinPath_name (base : String) {name : String} (hname : IsEntryName name) :
    pathSegments (joinPath base name) = baseSegments base ++ [name] := by
  rw [pathSegments_joinPath base (isAbsolute_of_no_slash hname.no_slash),
    pathSegments_of_no_slash hname.no_slash]

theorem joinPath_ne_empty (base : String) {name : String} (hname : name ≠ "") :
    joinPath base name ≠ "" := by
  intro hjoined
  rw [joinPath] at hjoined
  split_ifs at hjoined
  · exact hname hjoined
  · exact hname (String.append_eq_empty_iff.1 hjoined).2
  · exact hname (String.append_eq_empty_iff.1 hjoined).2

theorem baseSegments_joinPath (base : String) {name : String} (hname : IsEntryName name) :
    baseSegments (joinPath base name) = baseSegments base ++ [name] := by
  have hne : name ≠ "" := by
    rintro rfl
    exact absurd hname.isName (by decide)
  have hsegments := pathSegments_joinPath_name base hname
  obtain ⟨front, hfront⟩ : ∃ front, (joinPath base name).toList = front ++ name.toList := by
    rw [joinPath]
    split_ifs
    · exact ⟨[], rfl⟩
    · exact ⟨base.toList, String.toList_append⟩
    · exact ⟨(base ++ "/").toList, String.toList_append⟩
  have hslash : (joinPath base name).toList.getLast? ≠ some '/' := by
    rw [hfront, List.getLast?_append_of_ne_nil front (by simpa using hne)]
    intro hmem
    exact hname.no_slash (List.mem_of_getLast? hmem)
  rw [baseSegments, if_neg, if_neg hslash, hsegments]
  simpa using joinPath_ne_empty base hne

theorem no_slash_of_mem_pathSegments {path segment : String} (hmem : segment ∈ pathSegments path) :
    '/' ∉ segment.toList := by
  obtain ⟨letters, hletters, rfl⟩ := List.mem_map.1 hmem
  rw [String.toList_ofList]
  exact Text.not_mem_of_mem_splitOn hletters

/-- Names joined by slashes are the segments of their path; no names are one empty segment. -/
theorem pathSegments_intercalate {names : List String}
    (hnames : ∀ name ∈ names, '/' ∉ name.toList) :
    pathSegments ("/".intercalate names) = if names = [] then [""] else names := by
  split_ifs with hnone
  · subst hnone
    exact pathSegments_of_no_slash (by decide)
  · have hletters : ∀ letters ∈ names.map String.toList, '/' ∉ letters := by
      intro letters hmem
      obtain ⟨name, hname, rfl⟩ := List.mem_map.1 hmem
      exact hnames name hname
    rw [pathSegments, String.toList_intercalate]
    change ((['/'].intercalate (names.map String.toList)).splitOn '/').map String.ofList = names
    rw [List.splitOn_intercalate '/' hletters (by simpa using hnone), List.map_map]
    simp

theorem intercalate_pathSegments (path : String) : "/".intercalate (pathSegments path) = path := by
  have hletters : String.toList ∘ String.ofList = id := funext fun letters => by simp
  rw [← String.toList_inj, String.toList_intercalate, pathSegments, List.map_map, hletters,
    List.map_id]
  exact List.intercalate_splitOn '/'

theorem pathSegments_inj {path other : String} :
    pathSegments path = pathSegments other ↔ path = other := by
  refine ⟨fun hsegments => ?_, fun hpath => hpath ▸ rfl⟩
  rw [← intercalate_pathSegments path, hsegments, intercalate_pathSegments]

theorem size_le_joinPath (base : String) {name : String} (hname : isAbsolute name = false) :
    base.utf8ByteSize ≤ (joinPath base name).utf8ByteSize := by
  rw [joinPath, hname]
  simp only [Bool.false_eq_true, if_false]
  split_ifs <;> simp only [String.utf8ByteSize_append] <;> omega

theorem isName_of_mem_pathNames {path name : String} (hmem : name ∈ pathNames path) :
    isName name = true :=
  (List.mem_filter.1 hmem).2

theorem no_slash_of_mem_pathNames {path name : String} (hmem : name ∈ pathNames path) :
    '/' ∉ name.toList :=
  no_slash_of_mem_pathSegments (List.mem_filter.1 hmem).1

end Bindery
