import Dialer.CommandLine.Invocation

/-!
# Pages of help

A page says what a command does and how it is used, and lists what it accepts: the names in
one column, what they mean in the next.
-/

namespace Dialer.CommandLine

/-- The name of the program and its version. -/
def versionLine : String := "resilient-connect 0.1.0\n"

/-- A text with blanks behind it. -/
def padded (width : Nat) (text : String) : String :=
  text ++ String.ofList (List.replicate (width - text.length) ' ')

/-- A list under a heading, in two columns. -/
def columns (heading : String) (rows : List (String × String)) : String :=
  let width := rows.foldl (fun w row => max w row.1.length) 0
  heading ++ ":\n" ++ String.join (rows.map fun row =>
    "  " ++ padded width row.1 ++ "  " ++ row.2 ++ "\n")

/-- A page: what it is about, the usage, and lists. -/
def pageOf (subject usage : String) (lists : List String) : String :=
  "\n".intercalate ((subject ++ "\n") :: ("Usage: resilient-connect " ++ usage ++ "\n") :: lists)

/-- The row on configuration files. -/
def configRow : String × String := ("-c, --config <CONFIG>", "TOML configuration file")

/-- The row on help. -/
def helpRow : String × String := ("-h, --help", "Print help")

/-- The text of a page. -/
def Page.text : Page → String
  | .program =>
    pageOf "Resolve targets and inspect connection policies" "[OPTIONS] <COMMAND>"
      [columns "Commands" [
          ("resolve", "Resolve a target and print its addresses"),
          ("backoff", "Print the delays of an exponential backoff sequence"),
          ("help", "Print this message or the help of the given subcommand(s)")],
        columns "Options" [configRow, helpRow, ("-V, --version", "Print version")]]
  | .resolve =>
    pageOf "Resolve a target and print its addresses" "resolve [OPTIONS] <TARGET>"
      [columns "Arguments" [
          ("<TARGET>", "Target, e.g. `dns:///svc.internal:443` or `10.0.0.1:80`")],
        columns "Options" [configRow,
          ("-w, --watch", "Keep watching and print every update until interrupted"),
          ("    --interval-secs <INTERVAL_SECS>",
            "Seconds between re-resolutions in watch mode [default: 30]"),
          helpRow]]
  | .backoff =>
    pageOf "Print the delays of an exponential backoff sequence" "backoff [OPTIONS]"
      [columns "Options" [("    --base-ms <BASE_MS>", "[default: 200]"), configRow,
          ("    --max-ms <MAX_MS>", "[default: 30000]"),
          ("    --count <COUNT>", "[default: 10]"), helpRow]]
  | .help =>
    pageOf "Print this message or the help of the given subcommand(s)" "help [COMMAND]..."
      [columns "Arguments" [("[COMMAND]...", "Print help for the subcommand(s)")]]

end Dialer.CommandLine
