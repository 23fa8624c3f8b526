import Dialer.CommandLine.Help
import Dialer.Config.Load
import Dialer.Connector

/-!
# What the program reports

Everything that an invocation prints, and its exit status: zero if it succeeds, one if it
fails, two if it was not understood. A failure is reported by the name of its variant.

Hosts are looked up in a directory, and files are given by a function from their names.
-/

namespace Dialer.CommandLine

/-- What is printed, and the exit status. -/
structure Report where
  status : UInt32
  output : String
  /-- What is printed about a failure. -/
  complaint : String
deriving DecidableEq, Repr

namespace Report

/-- A success. -/
def success (output : String) : Report :=
  ⟨0, output, ""⟩

/-- A failure, by its variant. -/
def failure (variant : String) : Report :=
  ⟨1, "", "Error: " ++ variant ++ "\n"⟩

/-- An invocation that was not understood. -/
def mistake : Report :=
  ⟨2, "", Page.program.text⟩

/-- The delays of a backoff in milliseconds, as a list in JSON. -/
def delays (b : Backoff) (count : Nat) : String :=
  Text.jsonArray ((b.take count).1.map fun d => Nat.repr d.toMillis) ++ "\n"

/-- A target and its addresses in JSON. -/
def update (raw : String) (addresses : List Address) : String :=
  Text.jsonObject [("target", Text.jsonString raw),
    ("addresses", Text.jsonArray (addresses.map Address.toJson))] ++ "\n"

/-- The addresses first published for a target; those there are if none come in time. -/
def firstAddresses (c : Connector) (raw : String) : Except ConnectError (List Address) := do
  let c ← c.connect raw raw
  match c.connection? raw with
  | none => return []
  | some connection =>
    let limit := (c.config.resolver.lookupTimeout.scale? 2).getD .longest
    match c.awaitUpdate raw connection limit with
    | (_, some addresses) => return addresses
    | (c, none) => return c.addresses connection

/-- Resolves a target. -/
def resolve (config : Config) (directory : Directory) (raw : String) : Report :=
  match (Connector.make config directory false fun _ => 0.0).bind (firstAddresses · raw) with
  | .ok addresses => success (update raw addresses)
  | .error error => failure error.variant

/-- Carries out a command. -/
def perform (config : Config) (directory : Directory) : Command → Report
  | .resolve raw => resolve config directory raw
  | .backoff base max count =>
    match Backoff.make (.ofMillis64 base) (.ofMillis64 max) with
    | .ok b => success (delays b count)
    | .error error => failure error.variant

/-- The configuration that is asked for: the default one, unless a file is named. -/
def configuration (files : String → Option ByteArray) : Option String → Except LoadError Config
  | none => .ok .standard
  | some name => Config.load (files name)

/-- Carries out an invocation. -/
def ofInvocation (files : String → Option ByteArray) (directory : Directory) :
    Invocation → Report
  | .mistake => mistake
  | .version => success versionLine
  | .page page => success page.text
  | .run file command =>
    match configuration files file with
    | .ok config => perform config directory command
    | .error error => failure error.variant

/-- Runs the program on its arguments. -/
def ofArguments (files : String → Option ByteArray) (directory : Directory) (args : List String) :
    Report :=
  ofInvocation files directory (.ofArguments args)

end Report

end Dialer.CommandLine
