import Dialer.Config.Decode
import Dialer.Config.Validation
import Dialer.Document.Reader

/-!
# Loading a configuration

A configuration file that cannot be read, or is no text, is told apart from one that is no
document of the schema, and that from one with invalid settings.
-/

namespace Dialer

/-- Why a configuration cannot be loaded. -/
inductive LoadError where
  /-- There is no such file, or it is no text. -/
  | unreadable
  /-- The text is no document, or the document is no configuration. -/
  | malformed
  | invalid (errors : List ValidationError)
deriving DecidableEq, Repr

/-- The name of a load error's variant. -/
def LoadError.variant : LoadError → String
  | .unreadable => "Io"
  | .malformed => "Parse"
  | .invalid _ => "Validation"

namespace Config

/-- The configuration that a text describes. -/
def parse (text : String) : Except LoadError Config :=
  match (Document.read? text).bind Dialect.file.config? with
  | some config => config.validate.mapError .invalid
  | none => .error .malformed

/-- The configuration in a file, given its bytes if there is one. -/
def load (file : Option ByteArray) : Except LoadError Config :=
  match file.bind String.fromUTF8? with
  | some text => parse text
  | none => .error .unreadable

end Config

end Dialer
