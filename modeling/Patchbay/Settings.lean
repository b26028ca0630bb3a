import Patchbay.Document.Scalars
import Patchbay.File
import Patchbay.Toml.Document
import Patchbay.Traced

/-! The settings of an extraction: the patches that make the constants of each basic type, and the
place of new nodes. They are read from TOML, where everything may be left out. -/

namespace Patchbay

open Json

/-- The patch that makes constants of each basic type. -/
structure Constants where
  number : PatchPath
  boolean : PatchPath
  string : PatchPath
  pulse : PatchPath
deriving DecidableEq

namespace Constants

/-- The patches of the standard library. It has no constant pulse, for which a boolean serves. -/
def standard : Constants where
  number := ⟨"xod/core/constant-number", by decide⟩
  boolean := ⟨"xod/core/constant-boolean", by decide⟩
  string := ⟨"xod/core/constant-string", by decide⟩
  pulse := ⟨"xod/core/constant-boolean", by decide⟩

def toJson (constants : Constants) : Json :=
  .object [
    ("number", constants.number.toJson),
    ("boolean", constants.boolean.toJson),
    ("string", constants.string.toJson),
    ("pulse", constants.pulse.toJson)]

def record : Record Constants :=
  Constants.mk <$> Record.field "number" PatchPath.decoder (some standard.number)
    <*> Record.field "boolean" PatchPath.decoder (some standard.boolean)
    <*> Record.field "string" PatchPath.decoder (some standard.string)
    <*> Record.field "pulse" PatchPath.decoder (some standard.pulse)

def decoder : Decoder Constants := record.decoder

end Constants

/-- The settings of an extraction. -/
structure Settings where
  constants : Constants := .standard
  placeholder : Position := .origin
deriving DecidableEq

namespace Settings

/-- Sets the patch for one type. Custom types have no constants and are passed over. -/
def setConstant (settings : Settings) (type : DataType) (path : PatchPath) : Settings :=
  let constants := settings.constants
  match type with
  | .number => { settings with constants := { constants with number := path } }
  | .boolean => { settings with constants := { constants with boolean := path } }
  | .string => { settings with constants := { constants with string := path } }
  | .pulse => { settings with constants := { constants with pulse := path } }
  | .custom _ _ => settings

/-- Sets the place of new nodes. -/
def setPlaceholder (settings : Settings) (placeholder : Position) : Settings :=
  { settings with placeholder }

/-- The patch that makes constants of a type. -/
def constantFor? (settings : Settings) : DataType → Option PatchPath
  | .number => some settings.constants.number
  | .boolean => some settings.constants.boolean
  | .string => some settings.constants.string
  | .pulse => some settings.constants.pulse
  | .custom _ _ => none

theorem constantFor?_isSome (settings : Settings) (type : DataType) :
    (settings.constantFor? type).isSome = type.isPrimitive := by
  cases type <;> rfl

/-- Equality that compares coordinates as arithmetic does. -/
def agrees (a b : Settings) : Bool :=
  a.constants = b.constants && a.placeholder.agrees b.placeholder

def toJson (settings : Settings) : Json :=
  .object [
    ("constants", settings.constants.toJson),
    ("placeholder", settings.placeholder.toJson)]

def record : Record Settings :=
  Settings.mk <$> Record.field "constants" Constants.decoder (some .standard)
    <*> Record.field "placeholder" Position.decoder (some .origin)

def decoder : Decoder Settings := record.decoder

/-- The settings of a TOML text. -/
def ofText (s : String) : Except DecodeError Settings :=
  match Toml.parse? s with
  | some document => decoder .table document.toSource
  | none => .error .malformed

end Settings

/-- Why settings cannot be loaded. -/
inductive SettingsError where
  | unreadable (name : String) (fault : FileFault)
  | invalid (error : DecodeError)
deriving DecidableEq

def SettingsError.message : SettingsError → String
  | unreadable name fault => "io error reading " ++ name ++ ": " ++ fault.message
  | invalid error => "invalid config: TOML parse error: " ++ error.message

/-- The settings in the file of a given name, whose text has been asked for. -/
def Settings.load (name : String) (content : FileText) :
    Traced SettingsError Settings := do
  let s ← Traced.ofExcept (content.mapError (SettingsError.unreadable name))
  let settings ← Traced.ofExcept ((ofText s).mapError SettingsError.invalid)
  Traced.report .debug ("Loaded extraction config from " ++ name)
  return settings

end Patchbay
