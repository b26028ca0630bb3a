import Patchbay.Json.Numeral
import Patchbay.OrderedMap

/-! JSON values and their text, compact or indented. -/

namespace Patchbay

/-- A JSON value. The members of a value read from a document are sorted by name, each once. -/
inductive Json where
  | null
  | boolean (value : Bool)
  | number (value : Json.Numeral)
  | string (value : String)
  | array (items : List Json)
  | object (members : List (String × Json))

namespace Json

instance : Inhabited Json := ⟨null⟩

/-- The JSON value of a number; one that is not finite becomes `null`. -/
def ofNumber (x : Number) : Json := if x.isFinite then number (.real x) else null

/-- The JSON value of a natural number. -/
def ofNat (n : Nat) : Json := number (.whole n)

/-- The member of an object with the given name. -/
def member? : Json → String → Option Json
  | object members, name => members.lookup name
  | _, _ => none

/-- Members by name; the first of a name counts. -/
def fields (members : List (String × Json)) : OrderedMap String Json :=
  members.foldr (fun e m => m.insert e.1 e.2) .empty

theorem get?_fields (members : List (String × Json)) (name : String) :
    (fields members).get? name = members.lookup name := by
  induction members with
  | nil => rfl
  | cons e rest ih =>
    obtain ⟨other, value⟩ := e
    show ((fields rest).insert other value).get? name = _
    rw [OrderedMap.get?_insert, List.lookup_cons, ih]
    by_cases h : name = other
    · simp [h]
    · rw [if_neg (mt text_inj.1 h), beq_eq_false_iff_ne.2 h]

/-- Two hexadecimal digits for a control character. -/
def escapeControl (c : Char) : List Char :=
  ['\\', 'u', '0', '0', Nat.digitChar (c.toNat / 16), Nat.digitChar (c.toNat % 16)]

/-- One character between quotes: only quotes, backslashes and controls are escaped. -/
def escape (c : Char) : List Char :=
  if c = '"' then ['\\', '"']
  else if c = '\\' then ['\\', '\\']
  else if c = '\n' then ['\\', 'n']
  else if c = '\r' then ['\\', 'r']
  else if c = '\t' then ['\\', 't']
  else if c = '\x08' then ['\\', 'b']
  else if c = '\x0c' then ['\\', 'f']
  else if c.toNat < 0x20 then escapeControl c
  else [c]

/-- A text between quotes. -/
def stringText (s : String) : String :=
  String.ofList ('"' :: s.toList.flatMap escape ++ ['"'])

mutual

/-- The text of a value without blanks. -/
def compact : Json → String
  | null => "null"
  | boolean value => if value then "true" else "false"
  | number value => value.text
  | string value => stringText value
  | array items => "[" ++ ",".intercalate (compactItems items) ++ "]"
  | object members => "\x7b" ++ ",".intercalate (compactMembers members) ++ "\x7d"

def compactItems : List Json → List String
  | [] => []
  | item :: rest => compact item :: compactItems rest

def compactMembers : List (String × Json) → List String
  | [] => []
  | (name, value) :: rest => (stringText name ++ ":" ++ compact value) :: compactMembers rest

end

/-- The line break before an entry at the given depth. -/
def lineBreak (depth : Nat) : String := String.ofList ('\n' :: List.replicate (2 * depth) ' ')

/-- Entries on lines of their own between brackets; without entries the brackets touch. -/
def block (opening closing : String) (depth : Nat) (entries : List String) : String :=
  if entries.isEmpty then opening ++ closing
  else
    opening ++ lineBreak (depth + 1) ++ (",".append (lineBreak (depth + 1))).intercalate entries ++
      lineBreak depth ++ closing

mutual

/-- The text of a value at a depth, with two blanks of indentation a level. -/
def indented (depth : Nat) : Json → String
  | array items => block "[" "]" depth (indentedItems (depth + 1) items)
  | object members => block "\x7b" "\x7d" depth (indentedMembers (depth + 1) members)
  | null => "null"
  | boolean value => if value then "true" else "false"
  | number value => value.text
  | string value => stringText value

def indentedItems (depth : Nat) : List Json → List String
  | [] => []
  | item :: rest => indented depth item :: indentedItems depth rest

def indentedMembers (depth : Nat) : List (String × Json) → List String
  | [] => []
  | (name, value) :: rest =>
    (stringText name ++ ": " ++ indented depth value) :: indentedMembers depth rest

end

/-- The text of a value over several lines. -/
def pretty (value : Json) : String := value.indented 0

end Json

end Patchbay
