import Dialer.CommandLine.Arguments

/-!
# Invocations

The program has two commands: one resolves a target, one prints the delays of a backoff. A
configuration file may be named on either side of the command's name; the one behind it
counts. Help can be had for each command, also by a command of its own.
-/

namespace Dialer.CommandLine

open Dialer.Text

/-- The pages of help. -/
inductive Page where
  | program
  | resolve
  | backoff
  | help
deriving DecidableEq, Repr

/-- What is to be done. -/
inductive Command where
  | resolve (target : String)
  | backoff (baseMs maxMs : UInt64) (count : Nat)
deriving DecidableEq, Repr

/-- What the program is asked for. -/
inductive Invocation where
  | run (configFile : Option String) (command : Command)
  | page (page : Page)
  | version
  | mistake
deriving DecidableEq, Repr

namespace Invocation

/-- The option that names a configuration file. -/
def configFlag : Flag := ⟨"config", some 'c', .path⟩

/-- The option that asks for help. -/
def helpFlag : Flag := ⟨"help", some 'h', .help⟩

/-- What the program accepts in front of a command. -/
def programGrammar : Grammar :=
  ⟨[configFlag, helpFlag, ⟨"version", some 'V', .version⟩], 0, ["resolve", "backoff", "help"]⟩

/-- What the command that resolves accepts. -/
def resolveGrammar : Grammar :=
  ⟨[configFlag, ⟨"watch", some 'w', .flag⟩, ⟨"interval-secs", none, .number⟩, helpFlag], 1, []⟩

/-- What the command that prints delays accepts. -/
def backoffGrammar : Grammar :=
  ⟨[configFlag, ⟨"base-ms", none, .number⟩, ⟨"max-ms", none, .number⟩, ⟨"count", none, .number⟩,
    helpFlag], 0, []⟩

/-- The number that an option was given, or a default. -/
def numberOf (p : Progress) (name : String) (standard : Nat) : Nat :=
  ((p.given.lookup name).bind fun text => unsigned? text.toList).getD standard

/-- The command that resolves; it needs its target. -/
def resolveOf (p : Progress) : Option Command :=
  p.operands.head?.map .resolve

/-- The command that prints delays. -/
def backoffOf (p : Progress) : Option Command :=
  some (.backoff (UInt64.ofNat (numberOf p "base-ms" 200)) (UInt64.ofNat (numberOf p "max-ms" 30000))
    (numberOf p "count" 10))

/-- Where an early end leads to. -/
def halted (page : Page) : Halt → Invocation
  | .mistake => .mistake
  | .help => .page page
  | .version => .version

/-- Reads the arguments of a command. -/
def command (g : Grammar) (page : Page) (make : Progress → Option Command) (above : Progress)
    (args : List String) : Invocation :=
  match Progress.readAll g .start args with
  | .error halt => halted page halt
  | .ok (p, _) =>
    match p.resolve, above.resolve with
    | .ok p, .ok above =>
      match make p with
      | some command =>
        .run ((p.given.lookup "config").or (above.given.lookup "config")) command
      | none => .mistake
    | _, _ => .mistake

/-- The page that the command for help is asked for. -/
def helpOn : List String → Invocation
  | [] => .page .program
  | ["resolve"] => .page .resolve
  | ["backoff"] => .page .backoff
  | ["help"] => .page .help
  | _ => .mistake

/-- What arguments ask for. -/
def ofArguments (args : List String) : Invocation :=
  match Progress.readAll programGrammar .start args with
  | .error halt => halted .program halt
  | .ok (above, "resolve" :: rest) => command resolveGrammar .resolve resolveOf above rest
  | .ok (above, "backoff" :: rest) => command backoffGrammar .backoff backoffOf above rest
  | .ok (_, "help" :: rest) => helpOn rest
  | .ok _ => .mistake

end Invocation

end Dialer.CommandLine
