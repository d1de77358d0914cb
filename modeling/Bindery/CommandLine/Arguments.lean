import Bindery.Book.Build

namespace Bindery.CommandLine

/-! The words of a command line and what they ask for. -/

/-- An option by its long name, with a short one where it has one. -/
structure Parameter where
  name : String
  short? : Option Char := none
  takesValue : Bool := true

/-- The options that were given, each with its value; a switch has the empty one. -/
abbrev Given := List (String × String)

def Parameter.verbose : Parameter := ⟨"verbose", some 'v', false⟩

def Parameter.bookDirectory : Parameter := ⟨"book-dir", some 'b', true⟩

inductive Subcommand
  | build
  | info
  | validate
  deriving DecidableEq, Repr

def Subcommand.ofName? : String → Option Subcommand
  | "build" => some .build
  | "info" => some .info
  | "validate" => some .validate
  | _ => none

def Subcommand.parameters : Subcommand → List Parameter
  | .build =>
      [ .verbose, .bookDirectory, { name := "font-size" }, { name := "paper" },
        { name := "margin" } ]
  | .info => [.verbose, .bookDirectory, { name := "json", takesValue := false }]
  | .validate => [.verbose, .bookDirectory, { name := "strict", takesValue := false }]

/-- What one word gives, and the option that waits for its value in the next word. -/
structure Word where
  given : Given
  pending? : Option String

/-- A value may stand behind its letter, with or without an equals sign. -/
def readShort (parameters : List Parameter) : List Char → Option Word
  | [] => some ⟨[], none⟩
  | c :: letters =>
      match parameters.find? (·.short? == some c), letters with
      | none, _ => none
      | some ⟨name, _, false⟩, letters =>
          (readShort parameters letters).map fun word =>
            { word with given := (name, "") :: word.given }
      | some ⟨name, _, true⟩, [] => some ⟨[], some name⟩
      | some ⟨name, _, true⟩, '=' :: value => some ⟨[(name, String.ofList value)], none⟩
      | some ⟨name, _, true⟩, value => some ⟨[(name, String.ofList value)], none⟩

def readLong (parameters : List Parameter) (letters : List Char) : Option Word :=
  let name := String.ofList (letters.takeWhile (· != '='))
  match parameters.find? (·.name == name), letters.dropWhile (· != '=') with
  | some ⟨_, _, false⟩, [] => some ⟨[(name, "")], none⟩
  | some ⟨_, _, true⟩, [] => some ⟨[], some name⟩
  | some ⟨_, _, true⟩, _ :: value => some ⟨[(name, String.ofList value)], none⟩
  | _, _ => none

/-- A single hyphen is no option. -/
def isOption (word : String) : Bool :=
  word.toList.head? == some '-' && word != "-"

def readOption (parameters : List Parameter) (word : String) : Option Word :=
  match word.toList with
  | '-' :: '-' :: letters => readLong parameters letters
  | '-' :: letters => readShort parameters letters
  | _ => none

/-- Reads options up to the first word that is none, which is left with all behind it. Two hyphens
end the options. -/
def readOptions (parameters : List Parameter) : List String → Option (Given × List String)
  | [] => some ([], [])
  | word :: words =>
      if word = "--" then
        if words.isEmpty then some ([], []) else none
      else if !isOption word then some ([], word :: words)
      else
        match readOption parameters word with
        | none => none
        | some ⟨given, none⟩ =>
            (readOptions parameters words).map fun (later, rest) => (given ++ later, rest)
        | some ⟨given, some name⟩ =>
            match words with
            | [] => none
            | value :: words =>
                if isOption value then none
                else
                  (readOptions parameters words).map fun (later, rest) =>
                    (given ++ (name, value) :: later, rest)

def Given.isSet (given : Given) (name : String) : Bool :=
  (given.lookup name).isSome

def Given.value (given : Given) (name fallback : String) : String :=
  (given.lookup name).getD fallback

/-- No option may be given twice. -/
def Given.distinct (given : Given) : Bool :=
  (given.map (·.1)).Nodup

inductive Action
  | build (settings : PageSettings)
  | info (asJson : Bool)
  | validate (strict : Bool)

structure Invocation where
  verbose : Bool
  root : String
  action : Action

def Subcommand.action (given : Given) : Subcommand → Action
  | .build =>
      let standard : PageSettings := {}
      .build
        { fontSize := given.value "font-size" standard.fontSize
          paper := given.value "paper" standard.paper
          margin := given.value "margin" standard.margin }
  | .info => .info (given.isSet "json")
  | .validate => .validate (given.isSet "strict")

/-- Nothing for words that ask for nothing the program can do. -/
def Invocation.ofArguments? (arguments : List String) : Option Invocation :=
  match readOptions [.verbose] arguments with
  | some (outer, name :: words) =>
      match Subcommand.ofName? name with
      | none => none
      | some subcommand =>
          match readOptions subcommand.parameters words with
          | some (inner, []) =>
              if outer.distinct && inner.distinct then
                some
                  { verbose := outer.isSet "verbose" || inner.isSet "verbose"
                    root := inner.value "book-dir" "book"
                    action := subcommand.action inner }
              else none
          | _ => none
  | _ => none

end Bindery.CommandLine
