import Patchbay.Toml.Scalar

/-! TOML documents: keys, arrays and inline tables, and the lines that headers and keys stand on. -/

namespace Patchbay.Toml

/-- Keys without quotes. -/
def isBareKeyChar (c : Char) : Bool := c.isAlphanum || c = '_' || c = '-'

/-- One part of a key. -/
def keyPart? (cs : List Char) : Option (String × List Char) :=
  match cs with
  | '"' :: _ => lineString cs
  | '\x27' :: _ => lineString cs
  | _ =>
    if (cs.takeWhile isBareKeyChar).isEmpty then none
    else some (String.ofList (cs.takeWhile isBareKeyChar), cs.dropWhile isBareKeyChar)

/-- The parts of a dotted key behind those already read. -/
def keyParts : Nat → List String → Reader (List String)
  | 0, _, _ => none
  | fuel + 1, read, cs => do
    let (part, rest) ← keyPart? (dropSpace cs)
    match dropSpace rest with
    | '.' :: rest => keyParts fuel (part :: read) rest
    | rest => return ((part :: read).reverse, rest)

/-- A key of fewer than eighty parts. -/
def key? (cs : List Char) : Option (List String × List Char) := keyParts 79 [] cs

/-- The path and the last part of a key. -/
def splitKey (parts : List String) : List String × String := (parts.dropLast, parts.getLastD "")

/-- The end of a line or text, after an optional comment. -/
def endOfLine? (cs : List Char) : Option (List Char) :=
  let rest := match dropSpace cs with
    | '#' :: rest => rest.dropWhile isPlain
    | rest => rest
  if rest.isEmpty then some [] else newline? rest

/-- Blanks, line breaks and comments between the items of an array; the argument bounds their
number. -/
def dropFiller : Nat → List Char → List Char
  | 0, cs => cs
  | fuel + 1, cs =>
    match dropSpace cs with
    | '#' :: rest => match newline? (rest.dropWhile isPlain) with
      | some rest => dropFiller fuel rest
      | none => '#' :: rest
    | rest => match newline? rest with
      | some rest => dropFiller fuel rest
      | none => rest

mutual

/-- A value. The first argument bounds the number of calls and is never used up; the second the
depth of arrays and inline tables, which is limited. -/
def value? : Nat → Nat → Reader Toml
  | 0, _, _ => none
  | fuel + 1, room, cs =>
    match cs with
    | '"' :: _ => (quoted? cs).map fun (s, rest) => (.string s, rest)
    | '\x27' :: _ => (quoted? cs).map fun (s, rest) => (.string s, rest)
    | '[' :: rest => match room with
      | 0 => none
      | room + 1 => items? fuel room [] rest
    | '\x7b' :: rest => match room with
      | 0 => none
      | room + 1 => match dropSpace rest with
        | '\x7d' :: rest => some (.table .inline [], rest)
        | rest => members? fuel room [] rest
    | _ => bare? cs

/-- The items of an array behind those already read; a comma may follow the last. -/
def items? : Nat → Nat → List Toml → Reader Toml
  | 0, _, _, _ => none
  | fuel + 1, room, read, cs =>
    match dropFiller cs.length cs with
    | ']' :: rest => some (.array read.reverse, rest)
    | start => do
      let (item, rest) ← value? fuel room start
      match dropFiller rest.length rest with
      | ']' :: rest => some (.array (item :: read).reverse, rest)
      | ',' :: rest => items? fuel room (item :: read) rest
      | _ => none

/-- The members of an inline table behind those already read. -/
def members? : Nat → Nat → List ((List String × String) × Toml) → Reader Toml
  | 0, _, _, _ => none
  | fuel + 1, room, read, cs => do
    let (parts, rest) ← key? cs
    let rest ← expect? '=' rest
    let (value, rest) ← value? fuel room (dropSpace rest)
    let read := (splitKey parts, value) :: read
    match dropSpace rest with
    | '\x7d' :: rest => (inlineTable read.reverse).map (·, rest)
    | ',' :: rest => members? fuel room read rest
    | _ => none

end

/-- A header behind its opening brackets, with the brackets that close it. -/
def header? (double : Bool) (draft : Draft) (cs : List Char) : Option (Draft × List Char) := do
  let (path, rest) ← key? cs
  let rest ← expect? ']' rest
  if double then
    let rest ← expect? ']' rest
    return (← draft.openTables path, ← endOfLine? rest)
  else return (← draft.openTable path, ← endOfLine? rest)

/-- A key with its value. -/
def keyValue? (draft : Draft) (cs : List Char) : Option (Draft × List Char) := do
  let (parts, rest) ← key? cs
  let rest ← expect? '=' rest
  let (value, rest) ← value? (2 * rest.length + 2) 79 (dropSpace rest)
  let (path, key) := splitKey parts
  return (← draft.define path key value, ← endOfLine? rest)

/-- The lines of a document. The first argument bounds their number. -/
def lines? : Nat → Draft → List Char → Option Draft
  | 0, _, _ => none
  | fuel + 1, draft, cs =>
    match dropSpace cs with
    | [] => some draft
    | '[' :: '[' :: rest => do
      let (draft, rest) ← header? true draft rest
      lines? fuel draft rest
    | '[' :: rest => do
      let (draft, rest) ← header? false draft rest
      lines? fuel draft rest
    | rest => match endOfLine? rest with
      | some rest => lines? fuel draft rest
      | none => do
        let (draft, rest) ← keyValue? draft rest
        lines? fuel draft rest

/-- The document of a text, which may begin with a byte order mark. -/
def parse? (s : String) : Option Toml := do
  let cs := match s.toList with
    | '\ufeff' :: rest => rest
    | cs => cs
  let draft ← lines? (cs.length + 1) {} cs
  return .table .header (← draft.close)

end Patchbay.Toml
