import Bindery.CommandLine.Run

/-! The program: what a command line can reach is read from disk, the command runs on it, and what
it changed is written back. -/

namespace Bindery.CommandLine

def placePath (place : Place) : String :=
  "/" ++ "/".intercalate place

/-- What can be listed is a folder; nothing where nothing can be read. -/
partial def loadNode? (path : String) : IO (Option Node) := do
  match ← ((← IO.currentDir) / path).readDir.toBaseIO with
  | .ok found =>
      let mut entries := #[]
      for entry in found do
        if let some node ← loadNode? (path ++ "/" ++ entry.fileName) then
          entries := entries.push (entry.fileName, node)
      return some (.folder entries.toList)
  | .error _ =>
      match ← (IO.FS.readBinFile path).toBaseIO with
      | .ok content => return some (.file content)
      | .error _ => return none

/-- Folders on the way to the book are taken without what else they hold. -/
def loadStep? (path : String) : IO (Option Node) := do
  match ← ((← IO.currentDir) / path).readDir.toBaseIO with
  | .ok _ => return some (.folder [])
  | .error _ => loadNode? path

def loadPlace (disk : Disk) (place : Place) (load : String → IO (Option Node)) : IO Disk := do
  if (disk.at? place).isSome then return disk
  match ← load (placePath place) with
  | some node => return disk.put node place
  | none => return disk

/-- The disk along the way to a book, and the book's own files. -/
def loadDisk (root : String) : IO Disk := do
  let workingPlace := pathNames (toString (← IO.currentDir))
  let mut disk : Disk := { tree := [], workingPlace }
  for length in List.range workingPlace.length do
    disk ← loadPlace disk (workingPlace.take (length + 1)) loadStep?
  let segments := pathSegments root
  let mut place := disk.start segments
  for segment in segments do
    if segment = ".." then place := place.dropLast
    else if isName segment then place := place ++ [segment]
    disk ← loadPlace disk place loadStep?
  let sections := [Section.frontMatter, .chapters, .backMatter].map Section.directory
  for name in ["book.json", "dist"] ++ sections do
    disk ← loadPlace disk (place ++ [name]) loadNode?
  return disk

partial def saveNode (path : String) (old? : Option Node) : Node → IO Unit
  | .file content =>
      match old? with
      | some (.file old) => unless old == content do IO.FS.writeBinFile path content
      | _ => IO.FS.writeBinFile path content
  | .folder entries => do
      let old ←
        match old? with
        | some (.folder old) => pure old
        | _ => do
            IO.FS.createDir path
            pure []
      for (name, node) in entries do
        saveNode (path ++ "/" ++ name) (old.lookup name) node

def perform (invocation : Invocation) : IO UInt32 := do
  let disk ← loadDisk invocation.root
  let (outcome, changed) := invocation.run disk
  saveNode "" (some (.folder disk.tree)) (.folder changed.tree)
  for event in outcome.events do
    IO.eprintln (logLine event)
  IO.print outcome.output
  if let some report := outcome.error? then IO.eprintln report
  return outcome.code.toUInt32

end Bindery.CommandLine

def main (arguments : List String) : IO UInt32 := do
  match Bindery.CommandLine.Invocation.ofArguments? arguments with
  | some invocation => Bindery.CommandLine.perform invocation
  | none =>
      IO.eprintln "usage: build | info | validate, with --book-dir and their own options"
      return Bindery.CommandLine.usageErrorCode.toUInt32
