import Bindery.Book.Assembly
import Bindery.Book.Folder
import Bindery.Book.Loading

namespace Bindery

/-! One complete build: a manifest in, one LaTeX file out. Nothing is written before the manifest is
read, and missing fragments are only reported. -/

structure BuildOptions where
  layout : Layout := {}
  settings : PageSettings := {}

structure BuildReport where
  title : String
  outputPath : String
  fragments : Nat
  /-- The labels of the fragments that could not be read. -/
  missing : List String
  issues : List Issue

inductive BuildError
  | manifest (error : ManifestError)
  | output (path : String) (fault : FileFault)

def BuildError.message : BuildError → String
  | .manifest error => "Manifest error: " ++ error.message
  | .output path fault => "Failed to write " ++ path ++ ": " ++ fault.message

structure Build where
  result : Except BuildError BuildReport
  disk : Disk
  events : List Event

def Layout.publish (layout : Layout) (disk : Disk) (text : String) :
    Except BuildError Unit × Disk :=
  match disk.makeFolders layout.outputFolder with
  | (.error fault, disk) => (.error (.output layout.outputFolder fault), disk)
  | (.ok (), disk) =>
      match disk.write layout.outputPath text.toUTF8 with
      | .ok disk => (.ok (), disk)
      | .error fault => (.error (.output layout.outputPath fault), disk)

def BuildOptions.assemble (options : BuildOptions) (disk : Disk) (manifest : Manifest) : Document :=
  Bindery.assemble options.settings manifest (options.layout.source disk)

def build (options : BuildOptions) (disk : Disk) : Build :=
  let layout := options.layout
  let note (message : String) : Event := ⟨.info, .build, message⟩
  let reading := [note "Reading book manifest..."]
  match Manifest.load disk layout.manifestPath with
  | .error error => ⟨.error (.manifest error), disk, reading⟩
  | .ok manifest =>
      let document := options.assemble disk manifest
      let events :=
        reading ++ note ("Compiling: " ++ manifest.title ++ " v" ++ manifest.version)
          :: document.events
      match layout.publish disk document.text with
      | (.error error, disk) => ⟨.error error, disk, events⟩
      | (.ok (), disk) =>
          { result := .ok
              { title := manifest.title
                outputPath := layout.outputPath
                fragments := document.fragments
                missing := document.missing
                issues := manifest.issues }
            disk
            events := events ++ [note ("LaTeX output written to: " ++ layout.outputPath)] }

end Bindery
