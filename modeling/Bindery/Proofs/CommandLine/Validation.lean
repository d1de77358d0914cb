import Mathlib.Data.List.Forall2
import Bindery.CommandLine.Run
import Bindery.Proofs.Book.Publication
import Bindery.Proofs.Book.Recording

namespace Bindery.CommandLine

/-! A validation lists what a build reports and warns about. -/

/-- What a build says about a fragment that it cannot read. -/
def WarnsOf (label warning : String) : Prop :=
  warning = "File not found: " ++ label ∨
    ∃ fault : FileFault, warning = "Cannot read " ++ label ++ ": " ++ fault.message

theorem missing_report (options : BuildOptions) (disk : Disk) (manifest : Manifest) :
    (options.report disk manifest).missing =
      (printedFiles manifest).flatMap (options.layout.source disk).missing :=
  (assemble_records options.settings manifest (options.layout.source disk)).missing

theorem warnings_assemble (settings : PageSettings) (manifest : Manifest)
    (source : FragmentSource) :
    warnings (assemble settings manifest source).events =
      manifest.issues.map (fun issue => "Manifest: " ++ issue.message) ++
        (printedFiles manifest).flatMap source.warnings := by
  have hissues : warnings (issueEvents manifest) =
      manifest.issues.map fun issue => "Manifest: " ++ issue.message := by
    simp [warnings, issueEvents, List.filter_map, Function.comp_def]
  rw [(assemble_records settings manifest source).warnings, hissues]
  rfl

/-- Every missing file is warned about once, and no other file is. -/
theorem forall₂_warnings (source : FragmentSource) (files : List (Section × String)) :
    List.Forall₂ WarnsOf (files.flatMap source.missing) (files.flatMap source.warnings) := by
  induction files with
  | nil => exact .nil
  | cons file files ih =>
      obtain ⟨place, name⟩ := file
      have hfile : List.Forall₂ WarnsOf (source.missing (place, name))
          (source.warnings (place, name)) := by
        rw [FragmentSource.missing, FragmentSource.warnings, FragmentSource.holds,
          FragmentSource.readEvents]
        cases source.fetch place name with
        | error fault => exact .cons (.inr ⟨fault, rfl⟩) .nil
        | ok found =>
            cases found with
            | none => exact .cons (.inl rfl) .nil
            | some text => exact .nil
      rw [List.flatMap_cons, List.flatMap_cons]
      exact List.rel_append hfile ih

theorem missingFiles_eq (manifest : Manifest) (source : FragmentSource) :
    missingFiles manifest source =
      ((printedFiles manifest).flatMap source.missing).map ("missing file " ++ ·) := by
  rw [missingFiles]
  induction printedFiles manifest with
  | nil => rfl
  | cons file files ih =>
      obtain ⟨place, name⟩ := file
      rw [List.filterMap_cons, List.flatMap_cons, List.map_append, ← ih, FragmentSource.missing]
      cases hholds : source.holds place name with
      | true => simp [hholds]
      | false => simp [hholds]

theorem warnings_build {options : BuildOptions} {disk : Disk} {manifest : Manifest}
    (hload : Manifest.load disk options.layout.manifestPath = .ok manifest) :
    warnings (build options disk).events = warnings (options.assemble disk manifest).events := by
  have hnote (message : String) : warnings [⟨.info, .build, message⟩] = [] := rfl
  simp only [build, hload]
  rcases options.layout.publish disk (options.assemble disk manifest).text with ⟨result, later⟩
  cases result with
  | error error => rfl
  | ok done =>
      simp only [warnings_append, hnote, List.append_nil]
      rfl

theorem warnings_buildOutcome (root : String) (settings : PageSettings) (disk : Disk) :
    warnings (buildOutcome root settings disk).1.events =
      warnings (build { layout := { root }, settings } disk).events := by
  simp only [buildOutcome]
  cases (build { layout := { root }, settings } disk).result <;> rfl

/-- Warnings are shown in any case. -/
theorem warnings_shownEvents (verbose : Bool) (events : List Event) :
    warnings (shownEvents verbose events) = warnings events := by
  have hshown : ∀ event ∈ events,
      ((event.severity == .warning) && (verbose || event.severity != .debug)) =
        (event.severity == .warning) := by
    intro event _
    cases event.severity <;> simp
  rw [warnings, shownEvents, List.filter_filter, List.filter_congr hshown]
  rfl

/-- What a validation prints about the problems that it lists. -/
def validationText (root title : String) (chapters : Nat) (listed : List String) : String :=
  printedLines <|
    [ "Manifest: " ++ Layout.manifestPath { root }, "  Title: " ++ title,
      s!"  Chapters: {chapters}" ] ++
      if listed = [] then ["No problems found"]
      else s!"Problems ({listed.length}):" :: listed.map ("  " ++ ·)

theorem validateOutcome_of_load {root : String} {disk : Disk} {manifest : Manifest}
    (hload : Manifest.load disk (Layout.manifestPath { root }) = .ok manifest) {strict : Bool}
    {found : List String}
    (hfound : problems manifest (Layout.source { root } disk) strict = found) :
    (validateOutcome root strict disk).output =
        validationText root manifest.title manifest.chapters.length found ∧
      ((validateOutcome root strict disk).code = 0 ↔ strict = false ∨ found = []) := by
  simp only [validateOutcome, hload, hfound]
  cases found with
  | nil => exact ⟨rfl, by simp [Outcome.success]⟩
  | cons problem others =>
      cases strict with
      | true => exact ⟨rfl, by simp [Outcome.failure]⟩
      | false => exact ⟨rfl, by simp [Outcome.success]⟩

/-- Whatever a build reports is what a strict validation lists, and what the build warns about. -/
theorem validation_agrees_with_build (root : String) (settings : PageSettings) (disk : Disk)
    {report : BuildReport}
    (hbuild : (build { layout := { root }, settings } disk).result = .ok report) (verbose : Bool) :
    let run (action : Action) : Outcome := (Invocation.run ⟨verbose, root, action⟩ disk).1
    let issues := report.issues.map Issue.message
    let missing := report.missing.map ("missing file " ++ ·)
    ∃ manifest, Manifest.load disk (Layout.manifestPath { root }) = .ok manifest ∧
      let printed := validationText root report.title manifest.chapters.length
      (run (.validate true)).output = printed (issues ++ missing) ∧
        ((run (.validate true)).code = 0 ↔ report.issues = [] ∧ report.missing = []) ∧
        (run (.validate false)).output = printed issues ∧
        (run (.validate false)).code = 0 ∧
        ∃ about, List.Forall₂ WarnsOf report.missing about ∧
          warnings (run (.build settings)).events =
            report.issues.map (fun issue => "Manifest: " ++ issue.message) ++ about := by
  intro run issues missing
  obtain ⟨manifest, hload, rfl⟩ := report_of_build hbuild
  have hmissing : missingFiles manifest (Layout.source { root } disk) = missing := by
    rw [missingFiles_eq, ← missing_report { layout := { root }, settings } disk]
  have hstrict : problems manifest (Layout.source { root } disk) true = issues ++ missing :=
    congrArg (issues ++ ·) hmissing
  have hlenient : problems manifest (Layout.source { root } disk) false = issues :=
    List.append_nil _
  obtain ⟨hlisted, hcode⟩ := validateOutcome_of_load hload hstrict
  obtain ⟨hissues, hsuccess⟩ := validateOutcome_of_load hload hlenient
  refine ⟨manifest, hload, hlisted, ?_, hissues, hsuccess.2 (.inl rfl), ?_⟩
  · refine hcode.trans ?_
    simp [issues, missing]
  · have habout := forall₂_warnings (Layout.source { root } disk) (printedFiles manifest)
    rw [← missing_report { layout := { root }, settings } disk] at habout
    have hwarnings := warnings_build hload
    refine ⟨_, habout, ?_⟩
    calc
      warnings (run (.build settings)).events
        = warnings (buildOutcome root settings disk).1.events := warnings_shownEvents verbose _
      _ = warnings (build { layout := { root }, settings } disk).events :=
          warnings_buildOutcome root settings disk
      _ = warnings (assemble settings manifest (Layout.source { root } disk)).events := hwarnings
      _ = _ := warnings_assemble settings manifest _

theorem validation_agrees_with_build_missing :
    let manifest : Manifest :=
      ⟨"T", "", "", [], [], [⟨1, "a.md", none⟩, ⟨1, "../b.md", none⟩], []⟩
    let disk := manifest.shelved []
    let run (action : Action) : Outcome := (Invocation.run ⟨false, "book", action⟩ disk).1
    (∃ report, (build {} disk).result = .ok report) ∧
      (run (.validate true)).output = validationText "book" "T" 2
        [ "chapter number 1 is declared more than once", "missing file chapters/a.md",
          "missing file chapters/../b.md" ] ∧
      (run (.validate true)).code ≠ 0 ∧ (run (.validate false)).code = 0 ∧
      ∃ first second, WarnsOf "chapters/a.md" first ∧ WarnsOf "chapters/../b.md" second ∧
        warnings (run (.build {})).events =
          ["Manifest: chapter number 1 is declared more than once", first, second] := by
  intro manifest disk run
  have habsent (manifest : Manifest) :
      fetchFragment (manifest.shelved []) {} .chapters "a.md" = .ok none := rfl
  have houtside (manifest : Manifest) : fetchFragment (manifest.shelved []) {} .chapters "../b.md" =
      .error (.outsideDirectory "../b.md" "chapters") := rfl
  have hfiles : printedFiles manifest = [(.chapters, "a.md"), (.chapters, "../b.md")] := rfl
  have hmissing : (BuildOptions.report {} disk manifest).missing =
      ["chapters/a.md", "chapters/../b.md"] := by
    rw [missing_report, hfiles]
    simp only [List.flatMap_cons, List.flatMap_nil, FragmentSource.missing, FragmentSource.holds,
      Layout.source, disk, habsent, houtside]
    rfl
  have hissues : (BuildOptions.report {} disk manifest).issues = [.duplicateChapter 1] :=
    show manifest.issues = _ by decide
  have hchapter : (Issue.duplicateChapter 1).message =
      "chapter number 1 is declared more than once" := by decide
  obtain ⟨loaded, hagain, hstrict, hcode, -, hlenient, about, habout, hwarnings⟩ :=
    validation_agrees_with_build "book" {} disk (build_shelved manifest) false
  obtain rfl : loaded = manifest := Except.ok.inj (hagain.symm.trans (manifest.load_shelved []))
  rw [hmissing, hissues] at hstrict
  rw [hmissing] at habout hcode
  rw [hissues] at hwarnings
  obtain _ | ⟨hfirst, _ | ⟨hsecond, _ | _⟩⟩ := habout
  refine ⟨⟨_, build_shelved manifest⟩, hstrict.trans ?_, fun hzero => ?_, hlenient, _, _, hfirst,
    hsecond, hwarnings.trans ?_⟩
  · simp only [List.map_cons, List.map_nil, hchapter]
    rfl
  · cases (hcode.1 hzero).2
  · simp only [List.map_cons, List.map_nil, hchapter]
    rfl

end Bindery.CommandLine
