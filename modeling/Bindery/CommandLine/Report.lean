import Bindery.Book.Build
import Bindery.Json.Value

namespace Bindery.CommandLine

open Json (Value)

/-! The text that the program prints: summaries, lists of problems, errors with their causes, and
log lines. -/

def printedLines (lines : List String) : String :=
  String.join (lines.map (· ++ "\n"))

def numberList (numbers : List UInt32) : String :=
  "[" ++ ", ".intercalate (numbers.map toString) ++ "]"

/-- A line of a summary, left out where there is nothing to say. -/
def optionalLine (label content : String) : List String :=
  if content.isEmpty then [] else [label ++ content]

def summaryLines (manifest : Manifest) : List String :=
  ["Title:        " ++ manifest.title]
    ++ optionalLine "Author:       " manifest.author
    ++ optionalLine "Version:      " manifest.version
    ++ [s!"Front matter: {manifest.frontMatter.length}"]
    ++ manifest.parts.map (fun part =>
      s!"Part {part.number}:       {part.title} {numberList part.chapters}")
    ++ [ s!"Chapters:     {manifest.chapters.length}",
      s!"Back matter:  {manifest.backMatter.length}" ]

def summaryValue (manifest : Manifest) : Value :=
  let files (items : List MatterItem) : Value := .array (items.map fun item => .text item.file)
  .object
    [ ("title", .text manifest.title), ("author", .text manifest.author),
      ("version", .text manifest.version), ("front_matter", files manifest.frontMatter),
      ("parts", .array (manifest.parts.map Part.value)),
      ("chapters", .number manifest.chapters.length),
      ("back_matter", files manifest.backMatter) ]

/-- A counted list under a heading, left out where it is empty. -/
def countedLines (heading : String) (entries : List String) : List String :=
  if entries.isEmpty then []
  else s!"{heading} ({entries.length}):" :: entries.map ("  " ++ ·)

/-- Indents every line of a cause but the first, which stands behind the label. -/
def causeText (label : String) (indent : String) (cause : String) : String :=
  label ++ ("\n" ++ indent).intercalate ((cause.toList.splitOn '\n').map String.ofList)

/-- Causes are numbered where there are several. -/
def causeLines : List String → List String
  | [cause] => [causeText "    " "    " cause]
  | causes => causes.mapIdx fun index cause =>
      let number := toString index
      let padding := String.ofList (List.replicate (5 - number.length) ' ')
      causeText (padding ++ number ++ ": ") "       " cause

def errorText (context : String) (causes : List String) : String :=
  let heading := "Error: " ++ context
  if causes.isEmpty then heading
  else heading ++ "\n\nCaused by:\n" ++ "\n".intercalate (causeLines causes)

def reporterName : Reporter → String
  | .command => "quire_cli::commands::build"
  | .build => "quire_core::compile"
  | .assembly => "quire_core::assembler"
  | .source => "quire_core::source"

/-- Characters that steer a terminal are written so that they can be seen. -/
def logChar (c : Char) : List Char :=
  if c = '\x07' || c = '\x08' || c = '\x0c' || c = '\x1b' || c = '\x7f' then
    ['\\', 'x', (c.toNat / 16).digitChar, (c.toNat % 16).digitChar]
  else if 0x80 ≤ c.toNat && c.toNat ≤ 0x9F then
    "\\u\x7b".toList ++ Nat.toDigits 16 c.toNat ++ ['\x7d']
  else [c]

def logLine (event : Event) : String :=
  let message := String.ofList (event.message.toList.flatMap logChar)
  event.severity.name ++ " " ++ reporterName event.reporter ++ ": " ++ message

def textField (key text : String) : String :=
  key ++ ": " ++ Text.quoted text

/-- The options of a build, as they are logged before it. -/
def optionsText (options : BuildOptions) : String :=
  let settings := options.settings
  let fields :=
    [ textField "font_size" settings.fontSize, textField "paper" settings.paper,
      textField "margin" settings.margin, textField "link_color" settings.linkColor ]
  "BuildOptions \x7b layout: BookLayout \x7b " ++ textField "root" options.layout.root
    ++ " \x7d, preamble: PreambleConfig \x7b "
    ++ ", ".intercalate fields ++ " \x7d \x7d"

end Bindery.CommandLine
