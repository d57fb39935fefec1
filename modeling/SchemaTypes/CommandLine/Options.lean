/-!
The options of a command line, read level by level: first those of the program, then those of a
subcommand. Values of an option are gathered until something else comes, and only then checked.
-/

namespace SchemaTypes

/-- Why a command line is not run. Help and version are asked for, everything else is wrong. -/
inductive UsageStop where
  | help
  | version
  | helpOnNothing
  | unknownArgument (argument : String)
  | unknownSubcommand (name : String)
  | missingSubcommand
  | missingValue (option : String)
  | tooManyValues (option : String)
  | repeatedOption (option : String)
  | missingOption (option : String)
  deriving DecidableEq, Repr

inductive OptionKind where
  | flag
  | text
  | path
  | texts
  | help
  | version
  deriving DecidableEq, Repr

structure OptionSpec where
  name : String
  short : Option Char
  kind : OptionKind
  deriving DecidableEq, Repr

def OptionKind.takesValue : OptionKind → Bool
  | text => true
  | path => true
  | texts => true
  | _ => false

/-- Options given so far and the one whose values are being gathered; options and values last first. -/
structure Gathering where
  given : List (String × List String)
  pending : Option (OptionSpec × List String)
  deriving DecidableEq, Repr

namespace Gathering

def empty : Gathering := ⟨[], none⟩

def has (gathering : Gathering) (name : String) : Bool :=
  (gathering.given.lookup name).isSome

/-- Takes in an option with its values, last first. Only an option of many values may come again. -/
def add (gathering : Gathering) (spec : OptionSpec) (values : List String) :
    Except UsageStop Gathering :=
  if spec.kind.takesValue ∧ values = [] then .error (.missingValue spec.name)
  else if spec.kind = .texts then
    .ok { gathering with given := (spec.name, values) :: gathering.given }
  else if gathering.has spec.name then .error (.repeatedOption spec.name)
  else if spec.kind = .path ∧ values = [""] then .error (.missingValue spec.name)
  else .ok { gathering with given := (spec.name, values) :: gathering.given }

def settle (gathering : Gathering) : Except UsageStop Gathering :=
  match gathering.pending with
  | none => .ok gathering
  | some (spec, values) => { gathering with pending := none }.add spec values

def isOpen (gathering : Gathering) : Bool :=
  match gathering.pending with
  | none => false
  | some (spec, values) => spec.kind = .texts || values.isEmpty

def push (gathering : Gathering) (value : String) : Gathering :=
  { gathering with pending := gathering.pending.map fun pending => (pending.1, value :: pending.2) }

def bare (gathering : Gathering) (spec : OptionSpec) : Except UsageStop Gathering := do
  let settled ← gathering.settle
  match spec.kind with
  | .help => .error .help
  | .version => .error .version
  | .flag => settled.add spec []
  | _ => .ok { settled with pending := some (spec, []) }

def attached (gathering : Gathering) (spec : OptionSpec) (value : String) :
    Except UsageStop Gathering := do
  if spec.kind.takesValue then
    let settled ← gathering.settle
    settled.add spec [value]
  else .error (.tooManyValues spec.name)

def long (gathering : Gathering) (specs : List OptionSpec) (text : List Char) :
    Except UsageStop Gathering :=
  let name := String.ofList (text.takeWhile (· ≠ '='))
  match specs.find? (·.name = name), text.dropWhile (· ≠ '=') with
  | none, _ => .error (.unknownArgument name)
  | some spec, [] => gathering.bare spec
  | some spec, _ :: value => gathering.attached spec (String.ofList value)

/-- A value written right after a letter may start with an equals sign. -/
def attachedText : List Char → String
  | '=' :: value => String.ofList value
  | value => String.ofList value

/-- Options by their letters. The first that takes a value takes the rest of the letters. -/
def shorts (gathering : Gathering) (specs : List OptionSpec) : List Char → Except UsageStop Gathering
  | [] => .ok gathering
  | letter :: letters =>
    match specs.find? (·.short = some letter) with
    | none => .error (.unknownArgument (String.ofList ['-', letter]))
    | some spec =>
      if spec.kind.takesValue ∧ letters ≠ [] then gathering.attached spec (attachedText letters)
      else
        match gathering.bare spec with
        | .ok gathering => shorts gathering specs letters
        | .error stop => .error stop

end Gathering

structure Level where
  specs : List OptionSpec
  subcommands : List String
  deriving DecidableEq, Repr

def Level.refuse (level : Level) (afterDashes : Bool) (argument : String) : UsageStop :=
  if level.subcommands.isEmpty then .unknownArgument argument
  else if afterDashes ∧ argument ∈ level.subcommands then .unknownArgument argument
  else .unknownSubcommand argument

/-- Reads a level up to its end or to a subcommand, which is returned with what follows it. -/
def Level.read (level : Level) (gathering : Gathering) :
    List String → Except UsageStop (Gathering × Option (String × List String))
  | [] => .ok (gathering, none)
  | argument :: arguments =>
    if gathering.isOpen = false ∧ argument ∈ level.subcommands then
      .ok (gathering, some (argument, arguments))
    else
      match argument.toList with
      | ['-', '-'] =>
        match arguments with
        | [] => .ok (gathering, none)
        | next :: _ => .error (level.refuse true next)
      | '-' :: '-' :: text =>
        match gathering.long level.specs text with
        | .ok gathering => read level gathering arguments
        | .error stop => .error stop
      | '-' :: letter :: letters =>
        match gathering.shorts level.specs (letter :: letters) with
        | .ok gathering => read level gathering arguments
        | .error stop => .error stop
      | _ =>
        if gathering.isOpen then read level (gathering.push argument) arguments
        else .error (level.refuse false argument)

end SchemaTypes
