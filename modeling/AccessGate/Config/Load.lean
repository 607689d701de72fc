import AccessGate.Config.Environment
import AccessGate.Config.Wire
import AccessGate.Json.Document

/-!
# Loading settings

Settings come in layers, each over the one before: the defaults, a file if there is one, and the
environment if it is looked at. What comes out is used only if it breaks no rule.
-/

namespace AccessGate.Config

open Json

/-- A file as it is found: where, and its bytes, if it is there. -/
structure File where
  path : String
  contents : Option ByteArray

/-- The text of a file. -/
def File.read (f : File) : Except Error String :=
  let unreadable (reason : String) : Error :=
    (Error.fileSystem f.path "read" reason).during "loading config file"
  match f.contents with
  | none => .error (unreadable "No such file or directory (os error 2)")
  | some bytes =>
    match String.fromUTF8? bytes with
    | none => .error (unreadable "stream did not contain valid UTF-8")
    | some text => .ok text

/-- The settings in a text. -/
def ofText : String → Except DecodeError Config := decodeText (.ofFields fields) (ofJson .text)

/-- The settings in a file. -/
def ofFile (f : File) : Except Error Config := do
  let text ← f.read
  match ofText text with
  | .ok c => .ok c
  | .error fault =>
    .error (.configuration ("invalid config file '" ++ f.path ++ "': " ++ fault.message))

/-- The settings in a file, or the defaults without one. -/
def base (file : Option File) : Except Error Config :=
  match file with
  | some f => ofFile f
  | none => .ok {}

/-- Loads settings from a file and an environment, where they are given. -/
def load (file : Option File) (env : Option Environment) : Except Error Config := do
  let c ← base file
  let c ← match env with
    | some env =>
      let after := c.applyEnvironment env
      after.result.map fun _ => after.config
    | none => .ok c
  c.validate
  .ok c

end AccessGate.Config
