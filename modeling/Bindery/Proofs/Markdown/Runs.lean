import Bindery.Markdown.Itemize
import Mathlib.Data.List.SplitBy

namespace Bindery.Markdown

/-! The runs of a sequence of lines. Each run of items becomes one list, and nothing is put around a
run of other lines. -/

/-- All lines in their order, cut wherever an item and another line stand side by side. -/
structure AreRuns (lines : List Line) (runs : List (List Line)) : Prop where
  flatten : runs.flatten = lines
  uniform {run : List Line} : run ∈ runs → run ≠ [] ∧ ∃ kind, ∀ line ∈ run, line.isItem = kind
  maximal : runs.IsChain fun run next => ∀ line ∈ run, ∀ other ∈ next, line.isItem ≠ other.isItem

def runLatex (run : List Line) : List (List Char) :=
  if run.all Line.isItem then listBegin :: (run.map Line.content ++ [listEnd])
  else run.map Line.content

/-! There is one way to cut lines into runs. -/

def sameKind (line next : Line) : Bool :=
  line.isItem == next.isItem

theorem sameKind_iff {line next : Line} : sameKind line next = true ↔ line.isItem = next.isItem :=
  beq_iff_eq

theorem exists_kind_iff (run : List Line) :
    (∃ kind, ∀ line ∈ run, line.isItem = kind) ↔
      run.IsChain fun line next => sameKind line next = true := by
  simp only [sameKind_iff]
  constructor
  · rintro ⟨kind, hkind⟩
    refine List.Pairwise.isChain (List.pairwise_iff_forall_sublist.2 fun {line next} hpair => ?_)
    rw [hkind line (hpair.subset (by simp)), hkind next (hpair.subset (by simp))]
  · intro hchain
    cases run with
    | nil => exact ⟨true, by simp⟩
    | cons first run =>
        have : Trans (fun line next : Line => line.isItem = next.isItem)
            (fun line next : Line => line.isItem = next.isItem)
            (fun line next : Line => line.isItem = next.isItem) := ⟨Eq.trans⟩
        have hfirst := (List.pairwise_cons.1 hchain.pairwise).1
        exact ⟨first.isItem, by simpa using fun line hline => (hfirst line hline).symm⟩

theorem areRuns_iff {lines : List Line} {runs : List (List Line)} :
    AreRuns lines runs ↔ lines.splitBy sameKind = runs := by
  rw [List.splitBy_eq_iff]
  constructor
  · rintro ⟨hflatten, huniform, hmaximal⟩
    have hsome : [] ∉ runs := fun hnil => (huniform hnil).1 rfl
    refine ⟨hflatten.symm, hsome, fun run hrun => (exists_kind_iff run).1 (huniform hrun).2, ?_⟩
    refine hmaximal.imp_of_mem_imp fun run next hrun hnext hdiffer => ?_
    exact ⟨(huniform hrun).1, (huniform hnext).1,
      beq_false_of_ne (hdiffer _ (List.getLast_mem _) _ (List.head_mem _))⟩
  · rintro ⟨hflatten, hsome, hchain, hmaximal⟩
    have huniform {run : List Line} (hrun : run ∈ runs) := (exists_kind_iff run).2 (hchain run hrun)
    refine ⟨hflatten.symm, fun hrun => ⟨fun hnil => hsome (hnil ▸ hrun), huniform hrun⟩, ?_⟩
    refine hmaximal.imp_of_mem_imp fun run next hrun hnext ⟨hlast, hhead, hdiffer⟩ => ?_
    obtain ⟨kind, hkind⟩ := huniform hrun
    obtain ⟨other, hother⟩ := huniform hnext
    rw [sameKind, hkind _ (List.getLast_mem hlast), hother _ (List.head_mem hhead)] at hdiffer
    intro line hline later hlater
    rw [hkind line hline, hother later hlater]
    exact ne_of_beq_false hdiffer

/-! What is written for lines depends on whether a list is open before them. -/

def beginsWithItem (lines : List Line) : Bool :=
  lines.head?.any Line.isItem

def endsWithItem (lines : List Line) : Bool :=
  lines.getLast?.any Line.isItem

/-- What stands in front of a line, given whether a list is open and whether the line is an item. -/
def listBorder : Bool → Bool → List (List Char)
  | false, true => [listBegin]
  | true, false => [listEnd]
  | _, _ => []

theorem itemizeFrom_nil (isOpen : Bool) : itemizeFrom isOpen [] = listBorder isOpen false := by
  cases isOpen <;> rfl

theorem itemizeFrom_cons (isOpen : Bool) (line : Line) (lines : List Line) :
    itemizeFrom isOpen (line :: lines) =
      listBorder isOpen line.isItem ++ line.content :: itemizeFrom line.isItem lines := by
  cases isOpen <;> cases line <;> rfl

@[simp] theorem listBorder_self (isOpen : Bool) : listBorder isOpen isOpen = [] := by
  cases isOpen <;> rfl

theorem itemizeFrom_run {isOpen : Bool} {run : List Line}
    (hrun : ∀ line ∈ run, line.isItem = isOpen) (lines : List Line) :
    itemizeFrom isOpen (run ++ lines) = run.map Line.content ++ itemizeFrom isOpen lines := by
  induction run with
  | nil => rfl
  | cons line run ih =>
      obtain ⟨hline, hrun⟩ := List.forall_mem_cons.1 hrun
      rw [List.cons_append, itemizeFrom_cons, hline, ih hrun]
      simp

/-- A list begins in front of an item. -/
theorem itemizeFrom_begin {lines : List Line} (hbegins : beginsWithItem lines = true) :
    itemizeFrom false lines = listBegin :: itemizeFrom true lines := by
  cases lines with
  | nil => contradiction
  | cons line lines =>
      have hitem : line.isItem = true := hbegins
      simp [itemizeFrom_cons, hitem, listBorder]

/-- A list ends in front of anything else, and in front of the end of the lines. -/
theorem itemizeFrom_end {lines : List Line} (hbegins : beginsWithItem lines = false) :
    itemizeFrom true lines = listEnd :: itemizeFrom false lines := by
  cases lines with
  | nil => rfl
  | cons line lines =>
      have hitem : line.isItem = false := hbegins
      simp [itemizeFrom_cons, hitem, listBorder]

theorem beginsWithItem_append {run : List Line} (hrun : run ≠ []) (lines : List Line) :
    beginsWithItem (run ++ lines) = beginsWithItem run := by
  cases run with
  | nil => contradiction
  | cons line run => rfl

theorem beginsWithItem_of_kind {run : List Line} {kind : Bool} (hrun : run ≠ [])
    (hkind : ∀ line ∈ run, line.isItem = kind) : beginsWithItem run = kind := by
  cases run with
  | nil => contradiction
  | cons line run => exact hkind line List.mem_cons_self

theorem runLatex_of_kind {run : List Line} {kind : Bool} (hrun : run ≠ [])
    (hkind : ∀ line ∈ run, line.isItem = kind) :
    runLatex run =
      if kind then listBegin :: (run.map Line.content ++ [listEnd])
      else run.map Line.content := by
  have hall : run.all Line.isItem = kind := by
    cases kind with
    | true => exact List.all_eq_true.2 hkind
    | false =>
        obtain ⟨line, hline⟩ := List.exists_mem_of_ne_nil run hrun
        exact List.all_eq_false.2 ⟨line, hline, by simp [hkind line hline]⟩
  rw [runLatex, hall]

/-- One run in front of lines that begin with a line of the other kind, if with any. -/
theorem itemizeFrom_runLatex {run lines : List Line} {kind : Bool} (hrun : run ≠ [])
    (hkind : ∀ line ∈ run, line.isItem = kind)
    (hborder : ∀ line ∈ lines.head?, line.isItem ≠ kind) :
    itemizeFrom false (run ++ lines) = runLatex run ++ itemizeFrom false lines := by
  have hbegins := (beginsWithItem_append hrun lines).trans (beginsWithItem_of_kind hrun hkind)
  rw [runLatex_of_kind hrun hkind]
  cases kind with
  | false => exact itemizeFrom_run hkind lines
  | true =>
      have hbehind : beginsWithItem lines = false := by
        cases lines with
        | nil => rfl
        | cons line lines => simpa [beginsWithItem] using hborder line rfl
      rw [itemizeFrom_begin hbegins, itemizeFrom_run hkind, itemizeFrom_end hbehind]
      simp

theorem AreRuns.itemize {lines : List Line} {runs : List (List Line)}
    (hruns : AreRuns lines runs) : itemize lines = runs.flatMap runLatex := by
  obtain ⟨rfl, huniform, hmaximal⟩ := hruns
  rw [Markdown.itemize]
  induction runs with
  | nil => rfl
  | cons run runs ih =>
      have htail := ih (fun hmem => huniform (List.mem_cons_of_mem _ hmem)) hmaximal.tail
      obtain ⟨hrun, kind, hkind⟩ := huniform List.mem_cons_self
      have hborder : ∀ line ∈ runs.flatten.head?, line.isItem ≠ kind := by
        intro line hline
        cases runs with
        | nil => contradiction
        | cons next runs =>
            obtain ⟨hnext, -⟩ := huniform (List.mem_cons_of_mem _ List.mem_cons_self)
            obtain ⟨first, hfirst⟩ := List.exists_mem_of_ne_nil run hrun
            have hdiffer := (List.isChain_cons_cons.1 hmaximal).1 first hfirst
            rw [List.flatten_cons, List.head?_append_of_ne_nil _ hnext] at hline
            rw [← hkind first hfirst]
            exact (hdiffer line (List.mem_of_head? hline)).symm
      rw [List.flatten_cons, itemizeFrom_runLatex hrun hkind hborder, htail, List.flatMap_cons]

/-! Lines joined to lines. -/

/-- Whether a list is open behind the lines, given whether one is open before them. -/
def isOpenAfter (isOpen : Bool) (lines : List Line) : Bool :=
  (lines.getLast?.map Line.isItem).getD isOpen

theorem isOpenAfter_cons (isOpen : Bool) (line : Line) (lines : List Line) :
    isOpenAfter isOpen (line :: lines) = isOpenAfter line.isItem lines := by
  rw [isOpenAfter, isOpenAfter, List.getLast?_cons]
  cases lines.getLast? <;> rfl

/-- What is written for lines does not depend on what follows them, but for the end of a list. -/
theorem exists_itemizeFrom_append (isOpen : Bool) (first : List Line) :
    ∃ written, ∀ second, itemizeFrom isOpen (first ++ second) =
      written ++ itemizeFrom (isOpenAfter isOpen first) second := by
  induction first generalizing isOpen with
  | nil => exact ⟨[], fun _ => rfl⟩
  | cons line first ih =>
      obtain ⟨written, htail⟩ := ih line.isItem
      refine ⟨listBorder isOpen line.isItem ++ line.content :: written, fun second => ?_⟩
      rw [List.cons_append, itemizeFrom_cons, htail, isOpenAfter_cons, List.append_assoc,
        List.cons_append]

theorem isOpenAfter_false (lines : List Line) : isOpenAfter false lines = endsWithItem lines := by
  rw [isOpenAfter, endsWithItem]
  cases lines.getLast? <;> rfl

theorem itemize_append_of_border {first second : List Line}
    (hborder : ¬ (endsWithItem first = true ∧ beginsWithItem second = true)) :
    itemize (first ++ second) = itemize first ++ itemize second := by
  obtain ⟨written, hwritten⟩ := exists_itemizeFrom_append false first
  have hfirst := hwritten []
  rw [List.append_nil] at hfirst
  rw [itemize, itemize, itemize, hwritten, hfirst, isOpenAfter_false, List.append_assoc]
  cases hends : endsWithItem first with
  | false => rfl
  | true =>
      rw [itemizeFrom_end (by simpa [hends] using hborder)]
      rfl

theorem itemize_append_of_seam {first second : List Line} (hends : endsWithItem first = true)
    (hbegins : beginsWithItem second = true) :
    ∃ front behind, itemize first = front ++ [listEnd] ∧ itemize second = listBegin :: behind ∧
      itemize (first ++ second) = front ++ behind := by
  obtain ⟨front, hfront⟩ := exists_itemizeFrom_append false first
  have hfirst := hfront []
  rw [isOpenAfter_false, hends] at hfront hfirst
  rw [List.append_nil] at hfirst
  exact ⟨front, itemizeFrom true second, hfirst, itemizeFrom_begin hbegins, hfront second⟩

/-- Exactly the maximal runs of items are put into lists. Joined lines are written like the two
parts one after the other, only that a list which reaches over the seam is neither ended nor begun
there. -/
theorem itemize_runs :
    (∀ lines, ∃ runs, (∀ other, AreRuns lines other ↔ other = runs) ∧
        itemize lines = runs.flatMap runLatex) ∧
      ∀ first second,
        (¬ (endsWithItem first = true ∧ beginsWithItem second = true) →
          itemize (first ++ second) = itemize first ++ itemize second) ∧
        (endsWithItem first = true ∧ beginsWithItem second = true →
          ∃ front behind, itemize first = front ++ [listEnd] ∧
            itemize second = listBegin :: behind ∧
            itemize (first ++ second) = front ++ behind) := by
  refine ⟨fun lines => ?_, fun first second => ⟨itemize_append_of_border, ?_⟩⟩
  · refine ⟨_, fun other => areRuns_iff.trans eq_comm, ?_⟩
    exact (areRuns_iff.2 rfl).itemize
  · rintro ⟨hends, hbegins⟩
    exact itemize_append_of_seam hends hbegins

/-- Lines that read like the borders of a list are nothing but lines. -/
theorem itemize_runs_seam :
    let first : List Line := [.text listEnd, .item listBegin]
    let second : List Line := [.item "\\item a".toList, .text listBegin]
    (endsWithItem first = true ∧ beginsWithItem second = true) ∧
      (∃ front behind, itemize first = front ++ [listEnd] ∧ itemize second = listBegin :: behind ∧
        itemize (first ++ second) = front ++ behind) ∧
      ¬ (endsWithItem second = true ∧ beginsWithItem first = true) ∧
      itemize (second ++ first) = itemize second ++ itemize first ∧
      itemize (first ++ second) =
        [listEnd, listBegin, listBegin, "\\item a".toList, listEnd, listBegin] := by
  intro first second
  have hseam : endsWithItem first = true ∧ beginsWithItem second = true := ⟨rfl, rfl⟩
  have hborder : ¬ (endsWithItem second = true ∧ beginsWithItem first = true) := by decide
  exact ⟨hseam, (itemize_runs.2 first second).2 hseam, hborder,
    (itemize_runs.2 second first).1 hborder, rfl⟩

end Bindery.Markdown
