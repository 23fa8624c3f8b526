import Dialer.Text.Digits

/-!
# Arguments of a command line

A command has options, which have a long name and may have a short one, a number of
operands, and commands below it. Arguments are read from left to right:

* `--name value`, `--name=value`, `-n value`, `-nvalue`, `-n=value` give an option a value;
  a value of its own argument must not look like an option;
* short options without a value may stand together behind one dash;
* behind `--` all arguments are operands;
* the name of a command ends the arguments of the one above it.

A value is checked when the next option or operand comes, or at the end, and no option may
be given twice. Help and version end the reading as soon as they are met, and so does the
first mistake.
-/

namespace Dialer.CommandLine

open Dialer.Text

/-- What an option is for. -/
inductive OptionKind where
  | flag
  /-- A value that is no empty text. -/
  | path
  /-- A value that is a number of 64 bits. -/
  | number
  | help
  | version
deriving DecidableEq, Repr

/-- An option. -/
structure Flag where
  name : String
  letter : Option Char
  kind : OptionKind
deriving DecidableEq, Repr

/-- Does an option take a value? -/
def Flag.takesValue (f : Flag) : Bool :=
  f.kind == .path || f.kind == .number

/-- What a command accepts. -/
structure Grammar where
  flags : List Flag
  operands : Nat
  commands : List String
deriving DecidableEq, Repr

/-- Why the reading ends early. -/
inductive Halt where
  | mistake
  | help
  | version
deriving DecidableEq, Repr

/-- The arguments read so far. -/
structure Progress where
  /-- The options given, with their values; that of a flag is empty. -/
  given : List (String × String)
  operands : List String
  /-- An option whose value is awaited, or has not been checked yet. -/
  waiting : Option (Flag × Option String)
  /-- Has `--` been read? -/
  trailing : Bool
deriving DecidableEq, Repr

namespace Progress

/-- Nothing read. -/
def start : Progress := ⟨[], [], none, false⟩

/-- Is a value awaited? -/
def awaitsValue (p : Progress) : Bool :=
  match p.waiting with
  | some (_, none) => true
  | _ => false

/-- May the text be the value of an option? -/
def isValue (kind : OptionKind) (text : String) : Bool :=
  match kind with
  | .path => text != ""
  | .number => (unsignedBelow? UInt64.size text.toList).isSome
  | _ => true

/-- Gives an option its value. -/
def accept (p : Progress) (f : Flag) (value : String) : Except Halt Progress :=
  if (p.given.lookup f.name).isSome || !isValue f.kind value then .error .mistake
  else .ok { p with given := (f.name, value) :: p.given }

/-- Checks the option that waits, if there is one. -/
def resolve (p : Progress) : Except Halt Progress :=
  match p.waiting with
  | none => .ok p
  | some (_, none) => .error .mistake
  | some (f, some value) => { p with waiting := none }.accept f value

/-- An option without a value. -/
def raise (p : Progress) (f : Flag) : Except Halt Progress := do
  let p ← p.resolve
  match f.kind with
  | .help => .error .help
  | .version => .error .version
  | _ => p.accept f ""

/-- An option with its value attached, or awaiting it. -/
def assign (p : Progress) (f : Flag) (value : Option String) : Except Halt Progress := do
  let p ← p.resolve
  match value with
  | some value => p.accept f value
  | none => .ok { p with waiting := some (f, none) }

/-- An operand. -/
def operand (g : Grammar) (p : Progress) (text : String) : Except Halt Progress := do
  let p ← p.resolve
  if p.operands.length < g.operands then .ok { p with operands := p.operands ++ [text] }
  else .error .mistake

/-- A long option, without its dashes. -/
def long (g : Grammar) (p : Progress) (s : List Char) : Except Halt Progress :=
  let name := String.ofList (s.takeWhile (· != '='))
  let value := (s.dropWhile (· != '=')).tail?.map String.ofList
  match g.flags.find? (·.name == name) with
  | none => .error .mistake
  | some f =>
    if f.takesValue then p.assign f value
    else if value.isSome then .error .mistake
    else p.raise f

/-- Short options, without their dash. -/
def short (g : Grammar) (p : Progress) : List Char → Except Halt Progress
  | [] => .ok p
  | c :: rest =>
    match g.flags.find? (·.letter == some c) with
    | none => .error .mistake
    | some f =>
      if f.takesValue then
        match rest with
        | [] => p.assign f none
        | '=' :: value => p.assign f (some (String.ofList value))
        | value => p.assign f (some (String.ofList value))
      else do
        let p ← p.raise f
        short g p rest

/-- One argument that names no command. -/
def read (g : Grammar) (p : Progress) (arg : String) : Except Halt Progress :=
  if p.trailing then p.operand g arg
  else
    match arg.toList with
    | ['-', '-'] => .ok { p with trailing := true }
    | '-' :: '-' :: name => p.long g name
    | '-' :: c :: rest => p.short g (c :: rest)
    | _ =>
      match p.waiting with
      | some (f, none) => .ok { p with waiting := some (f, some arg) }
      | _ => p.operand g arg

/-- Reads arguments up to the name of a command, if there is one, and gives the rest. -/
def readAll (g : Grammar) : Progress → List String → Except Halt (Progress × List String)
  | p, [] => .ok (p, [])
  | p, arg :: rest =>
    if !p.trailing && !p.awaitsValue && g.commands.contains arg then .ok (p, arg :: rest)
    else do
      let p ← p.read g arg
      readAll g p rest

end Progress

end Dialer.CommandLine
