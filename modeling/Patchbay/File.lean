/-! Files as texts: why a file cannot be read, and how its bytes are decoded. -/

namespace Patchbay

/-- Why a file has no text. -/
inductive FileFault where
  | missing
  | directory
  | notUnicode
  | other (reason : String)
deriving DecidableEq

/-- The wording of a fault. -/
def FileFault.message : FileFault → String
  | missing => "No such file or directory (os error 2)"
  | directory => "Is a directory (os error 21)"
  | notUnicode => "stream did not contain valid UTF-8"
  | other reason => reason

/-- The text of a file, or why it has none. -/
abbrev FileText := Except FileFault String

/-- The text that the bytes of a file encode. -/
def FileText.ofBytes (bytes : ByteArray) : FileText :=
  match String.fromUTF8? bytes with
  | some s => .ok s
  | none => .error .notUnicode

end Patchbay
