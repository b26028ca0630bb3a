import Patchbay.Json.Value

/-! JSON documents as their text is read: members stay in document order, repeated ones included,
and where the text stops being JSON the document has a fault. A reader that walks through a document
in order meets the fault where a reader of the text would. -/

namespace Patchbay.Json

/-- A document with the mistakes of its text. A number out of range has no numeral, and a string
with half a surrogate pair has no text. The name of a member is a value too, and a string in correct
documents. -/
inductive Source where
  | null
  | boolean (value : Bool)
  | number (value : Option Numeral)
  | string (value : Option String)
  | array (items : List Source)
  | object (members : List (Source × Source))
  | fault

namespace Source

instance : Inhabited Source := ⟨fault⟩

mutual

/-- A value as a document. -/
def ofJson : Json → Source
  | .null => null
  | .boolean value => boolean value
  | .number value => number (some value)
  | .string value => string (some value)
  | .array items => array (ofItems items)
  | .object members => object (ofMembers members)

def ofItems : List Json → List Source
  | [] => []
  | item :: rest => ofJson item :: ofItems rest

def ofMembers : List (String × Json) → List (Source × Source)
  | [] => []
  | (name, value) :: rest => (string (some name), ofJson value) :: ofMembers rest

end

mutual

/-- Whether the text of a document is JSON throughout, with numbers of any size. -/
def isWellFormed : Source → Bool
  | fault => false
  | array items => wellFormedItems items
  | object members => wellFormedMembers members
  | _ => true

def wellFormedItems : List Source → Bool
  | [] => true
  | item :: rest => item.isWellFormed && wellFormedItems rest

def wellFormedMembers : List (Source × Source) → Bool
  | [] => true
  | (_, value) :: rest => value.isWellFormed && wellFormedMembers rest

end

/-! ### Reading text -/

def isBlank (c : Char) : Bool := c = ' ' || c = '\t' || c = '\n' || c = '\r'

def dropBlanks (cs : List Char) : List Char := cs.dropWhile isBlank

/-- The value of a hexadecimal digit. -/
def hexValue? (c : Char) : Option Nat :=
  if '0' ≤ c ∧ c ≤ '9' then some (c.toNat - '0'.toNat)
  else if 'a' ≤ c ∧ c ≤ 'f' then some (c.toNat - 'a'.toNat + 10)
  else if 'A' ≤ c ∧ c ≤ 'F' then some (c.toNat - 'A'.toNat + 10)
  else none

/-- The value of four hexadecimal digits. -/
def hexUnit? (a b c d : Char) : Option Nat := do
  let a ← hexValue? a
  let b ← hexValue? b
  let c ← hexValue? c
  let d ← hexValue? d
  return ((a * 16 + b) * 16 + c) * 16 + d

/-- What stands in a string: a character, or a 16-bit unit given by its number. -/
inductive Piece where
  | char (c : Char)
  | unit (n : Nat)

/-- The character after a backslash, unless it starts a number. -/
def unescape? (c : Char) : Option Char :=
  if c = '"' ∨ c = '\\' ∨ c = '/' then some c
  else if c = 'b' then some '\x08'
  else if c = 'f' then some '\x0c'
  else if c = 'n' then some '\n'
  else if c = 'r' then some '\r'
  else if c = 't' then some '\t'
  else none

/-- The pieces of a string up to its closing quote, behind those already read, and what follows. -/
def pieces (read : List Piece) : List Char → Option (List Piece × List Char)
  | [] => none
  | '"' :: rest => some (read.reverse, rest)
  | '\\' :: 'u' :: a :: b :: c :: d :: rest =>
    match hexUnit? a b c d with
    | some n => pieces (.unit n :: read) rest
    | none => none
  | '\\' :: c :: rest =>
    match unescape? c with
    | some c => pieces (.char c :: read) rest
    | none => none
  | c :: rest => if c.toNat < 0x20 ∨ c = '\\' then none else pieces (.char c :: read) rest

/-- The text of pieces, behind the text already joined. Two units may form one character; half a
pair has no text. -/
def join (joined : List Char) : List Piece → Option (List Char)
  | [] => some joined.reverse
  | .char c :: rest => join (c :: joined) rest
  | [.unit n] => if n < 0xd800 ∨ 0xdfff < n then some (Char.ofNat n :: joined).reverse else none
  | .unit n :: .char c :: rest =>
    if n < 0xd800 ∨ 0xdfff < n then join (c :: Char.ofNat n :: joined) rest else none
  | .unit n :: .unit m :: rest =>
    if n < 0xd800 ∨ 0xdfff < n then join (Char.ofNat n :: joined) (.unit m :: rest)
    else if n < 0xdc00 ∧ 0xdc00 ≤ m ∧ m ≤ 0xdfff then
      join (Char.ofNat (0x10000 + (n - 0xd800) * 0x400 + (m - 0xdc00)) :: joined) rest
    else none

/-- Digits from the start of a text, as numbers, and what follows. -/
def digits (cs : List Char) : List Nat × List Char :=
  ((cs.takeWhile Char.isDigit).map fun c => c.toNat - '0'.toNat, cs.dropWhile Char.isDigit)

/-- The exponent of a number, if there is one. A mark without digits is a mistake. -/
def exponent? (s : Spelling) : List Char → Option (Spelling × List Char)
  | c :: rest =>
    if c = 'e' ∨ c = 'E' then
      let (negative, rest) := match rest with
        | '-' :: rest => (true, rest)
        | '+' :: rest => (false, rest)
        | rest => (false, rest)
      match digits rest with
      | ([], _) => none
      | (ds, rest) => some ({ s with exponent := some (negative, ds) }, rest)
    else some (s, c :: rest)
  | [] => some (s, [])

/-- A number behind its sign: no leading zeros, and digits on both sides of a point. -/
def unsigned? (negative : Bool) (cs : List Char) : Option (Spelling × List Char) :=
  match digits cs with
  | ([], _) => none
  | (0 :: _ :: _, _) => none
  | (whole, '.' :: rest) =>
    match digits rest with
    | ([], _) => none
    | (ds, rest) => exponent? { negative, whole, fraction := some ds } rest
  | (whole, rest) => exponent? { negative, whole } rest

/-- A number. -/
def spelling? : List Char → Option (Spelling × List Char)
  | '-' :: rest => unsigned? true rest
  | cs => unsigned? false cs

mutual

/-- Reads a value and gives what follows it; nothing follows a fault. The first argument bounds the
number of calls and is never used up. -/
def readValue : Nat → List Char → Source × List Char
  | 0, _ => (fault, [])
  | fuel + 1, cs =>
    match dropBlanks cs with
    | 'n' :: 'u' :: 'l' :: 'l' :: rest => (null, rest)
    | 't' :: 'r' :: 'u' :: 'e' :: rest => (boolean true, rest)
    | 'f' :: 'a' :: 'l' :: 's' :: 'e' :: rest => (boolean false, rest)
    | '"' :: rest =>
      match pieces [] rest with
      | some (ps, rest) => (string ((join [] ps).map String.ofList), rest)
      | none => (fault, [])
    | '[' :: rest =>
      match dropBlanks rest with
      | ']' :: rest => (array [], rest)
      | rest => readItems fuel [] rest
    | '\x7b' :: rest =>
      match dropBlanks rest with
      | '\x7d' :: rest => (object [], rest)
      | rest => readMembers fuel [] rest
    | rest =>
      match spelling? rest with
      | some (s, rest) => (number s.numeral?, rest)
      | none => (fault, [])

/-- Reads the items of an array behind those already read. -/
def readItems : Nat → List Source → List Char → Source × List Char
  | 0, _, _ => (fault, [])
  | fuel + 1, read, cs =>
    let (item, rest) := readValue fuel cs
    match dropBlanks rest with
    | ']' :: rest => (array (item :: read).reverse, rest)
    | ',' :: rest => readItems fuel (item :: read) rest
    | _ => (array (fault :: item :: read).reverse, [])

/-- Reads the members of an object behind those already read. -/
def readMembers : Nat → List (Source × Source) → List Char → Source × List Char
  | 0, _, _ => (fault, [])
  | fuel + 1, read, cs =>
    match readValue fuel cs with
    | (string name, rest) =>
      match dropBlanks rest with
      | ':' :: rest =>
        let (value, rest) := readValue fuel rest
        match dropBlanks rest with
        | '\x7d' :: rest => (object ((string name, value) :: read).reverse, rest)
        | ',' :: rest => readMembers fuel ((string name, value) :: read) rest
        | _ => (object ((fault, fault) :: (string name, value) :: read).reverse, [])
      | _ => (object ((string name, fault) :: read).reverse, [])
    | (other, _) => (object ((other, fault) :: read).reverse, [])

end

/-- The document of a text, and whether anything but blanks follows it. -/
def ofText (s : String) : Source × Bool :=
  let (source, rest) := readValue (2 * s.length + 2) s.toList
  (source, !(dropBlanks rest).isEmpty)

end Source

end Patchbay.Json
