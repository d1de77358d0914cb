import Bindery.CommandLine.Arguments
import Bindery.CommandLine.Report

namespace Bindery.CommandLine

/-! What the program does for a command line: the text it prints, the events it logs, its exit code,
and the disk it leaves. -/

structure Outcome where
  code : Nat
  output : String
  error? : Option String
  events : List Event

def Outcome.success (output : String) (events : List Event) : Outcome :=
  ⟨0, output, none, events⟩

def Outcome.failure (output error : String) (events : List Event) : Outcome :=
  ⟨1, output, some error, events⟩

/-- An error that is shown with what lies behind it. -/
def Outcome.refused (context : String) (error : ManifestError) : Outcome :=
  .failure "" (errorText context (error.message :: error.underlying)) []

def BuildError.causes : BuildError → List String
  | .manifest error => error.message :: error.underlying
  | .output _ fault => [fault.message]

/-- Debug events are left out unless they are asked for. -/
def shownEvents (verbose : Bool) (events : List Event) : List Event :=
  events.filter fun event => verbose || event.severity != .debug

def buildOutcome (root : String) (settings : PageSettings) (disk : Disk) : Outcome × Disk :=
  let options : BuildOptions := { layout := { root }, settings }
  let finished := build options disk
  let events :=
    ⟨.debug, .command, "Build options: " ++ optionsText options⟩ :: finished.events
  let outcome :=
    match finished.result with
    | .ok report =>
        .success
          (printedLines <|
            ("LaTeX output written to: " ++ report.outputPath)
              :: countedLines "Missing fragments" report.missing)
          events
    | .error error =>
        .failure ""
          (errorText ("Failed to build book in " ++ root)
            (error.message :: BuildError.causes error)) events
  (outcome, finished.disk)

def infoOutcome (root : String) (asJson : Bool) (disk : Disk) : Outcome :=
  let layout : Layout := { root }
  match Manifest.load disk layout.manifestPath with
  | .error error => .refused ("Failed to load manifest from " ++ root) error
  | .ok manifest =>
      if asJson then .success (String.ofList ((summaryValue manifest).pretty 0) ++ "\n") []
      else .success (printedLines (summaryLines manifest)) []

/-- Every file that a build would print, in the order of the book. -/
def printedFiles (manifest : Manifest) : List (Section × String) :=
  manifest.printedFrontMatter.map (fun item => (.frontMatter, item.file))
    ++ manifest.chapters.map (fun chapter => (.chapters, chapter.file))
    ++ manifest.backMatter.map fun item => (.backMatter, item.file)

def missingFiles (manifest : Manifest) (source : FragmentSource) : List String :=
  (printedFiles manifest).filterMap fun (place, file) =>
    if source.holds place file then none else some ("missing file " ++ place.label file)

def problems (manifest : Manifest) (source : FragmentSource) (strict : Bool) : List String :=
  manifest.issues.map Issue.message ++ if strict then missingFiles manifest source else []

def validateOutcome (root : String) (strict : Bool) (disk : Disk) : Outcome :=
  let layout : Layout := { root }
  match Manifest.load disk layout.manifestPath with
  | .error error => .refused ("Invalid manifest in " ++ root) error
  | .ok manifest =>
      let found := problems manifest (layout.source disk) strict
      let heading :=
        [ "Manifest: " ++ layout.manifestPath, "  Title: " ++ manifest.title,
          s!"  Chapters: {manifest.chapters.length}" ]
      if found.isEmpty then .success (printedLines (heading ++ ["No problems found"])) []
      else
        let output := printedLines (heading ++ countedLines "Problems" found)
        if strict then .failure output (errorText ("Validation failed for " ++ root) []) []
        else .success output []

def Invocation.run (invocation : Invocation) (disk : Disk) : Outcome × Disk :=
  let (outcome, disk) :=
    match invocation.action with
    | .build settings => buildOutcome invocation.root settings disk
    | .info asJson => (infoOutcome invocation.root asJson disk, disk)
    | .validate strict => (validateOutcome invocation.root strict disk, disk)
  ({ outcome with events := shownEvents invocation.verbose outcome.events }, disk)

/-- The exit code for words that cannot be understood. -/
def usageErrorCode : Nat := 2

end Bindery.CommandLine
