import Patchbay.Json.Source
import Patchbay.OrderedMap

/-! Decoding documents into typed values: scalars, lists, maps and records. A document is walked in
its own order and the first failure is reported; fields that are missing are noticed after that. -/

namespace Patchbay.Json

/-- Why a document does not decode. `refused` carries the reason of a type that accepts only some
values of the right shape. -/
inductive DecodeError where
  | malformed
  | wrongType
  | outOfRange
  | wrongLength
  | unknownVariant
  | noVariant
  | missingField (name : String)
  | duplicateField (name : String)
  | refused (reason : String)
deriving DecidableEq

/-- The wording of an error; a malformed text has none of its own. -/
def DecodeError.message : DecodeError → String
  | malformed => ""
  | wrongType => "invalid type"
  | outOfRange => "invalid value"
  | wrongLength => "invalid length"
  | unknownVariant => "unknown variant"
  | noVariant => "data did not match any variant"
  | missingField name => "missing field `" ++ name ++ "`"
  | duplicateField name => "duplicate field `" ++ name ++ "`"
  | refused reason => reason

/-- What a document comes from: a text that may nest a number of levels deeper, a value, or
configuration tables. -/
inductive Origin where
  | text (room : Nat)
  | value
  | table

/-- Text may nest to this depth. -/
def Origin.fresh : Origin := .text 127

/-- The origin one level further inside. -/
def Origin.enter : Origin → Except DecodeError Origin
  | text 0 => .error .malformed
  | text (room + 1) => .ok (text room)
  | other => .ok other

/-- A way to read values of a type from documents. -/
abbrev Decoder (α : Type) := Origin → Source → Except DecodeError α

/-- The failure at a value of another type than expected, which text reveals only after the value
has been read as a scalar. -/
def Source.mismatch : Source → DecodeError
  | fault => .malformed
  | number none => .malformed
  | string none => .malformed
  | _ => .wrongType

/-- Passes over a value that nobody asks for, which has to be JSON all the same. -/
def Source.skip (source : Source) : Except DecodeError Unit :=
  if source.isWellFormed then .ok () else .error .malformed

/-- The name of a member. -/
def Source.name : Source → Except DecodeError String
  | string (some s) => .ok s
  | _ => .error .malformed

namespace Decoder

variable {α β κ : Type}

/-- The value that a decoded one is refined to, if its type accepts it. -/
def refine (d : Decoder α) (f : α → Except String β) : Decoder β := fun origin source => do
  let a ← d origin source
  (f a).mapError .refused

def string : Decoder String
  | _, .string (some s) => .ok s
  | _, source => .error source.mismatch

def boolean : Decoder Bool
  | _, .boolean b => .ok b
  | _, source => .error source.mismatch

/-- Any number; integers are rounded. -/
def number : Decoder Number
  | _, .number (some n) => .ok n.toNumber
  | _, source => .error source.mismatch

/-- An unsigned integer of 32 bits, spelled as an integer. -/
def uint32 : Decoder UInt32
  | _, .number (some n) => match n with
    | .whole _ => match n.toUInt32? with
      | some k => .ok k
      | none => .error .outOfRange
    | .real _ => .error .wrongType
  | _, source => .error source.mismatch

/-- A value or `null` for its absence. -/
def option (d : Decoder α) : Decoder (Option α)
  | _, .null => .ok none
  | origin, source => (d origin source).map some

/-- An array of values. -/
def list (d : Decoder α) : Decoder (List α)
  | origin, .array items => do
    let origin ← origin.enter
    items.mapM (d origin)
  | _, source => .error source.mismatch

/-- An object as a map; of repeated names the last one counts, but all are decoded. -/
def map [TextKey κ] (key : String → Except String κ) (d : Decoder α) : Decoder (OrderedMap κ α)
  | origin, .object members => do
    let origin ← origin.enter
    members.foldlM (fun m (name, value) => do
      let k ← ((← name.name) |> key).mapError .refused
      return m.insert k (← d origin value)) .empty
  | _, source => .error source.mismatch

mutual

/-- Any value; its members end up sorted, and of repeated names the last one counts. -/
def json : Decoder Json
  | _, .null => .ok .null
  | _, .boolean b => .ok (.boolean b)
  | _, .number (some n) => .ok (.number n)
  | _, .string (some s) => .ok (.string s)
  | origin, .array items => do
    let origin ← origin.enter
    return .array (← jsonItems origin items)
  | origin, .object members => do
    let origin ← origin.enter
    return .object (← jsonMembers origin .empty members).toList
  | _, _ => .error .malformed

def jsonItems (origin : Origin) : List Source → Except DecodeError (List Json)
  | [] => .ok []
  | item :: rest => do
    let value ← json origin item
    return value :: (← jsonItems origin rest)

def jsonMembers (origin : Origin) (read : OrderedMap String Json) :
    List (Source × Source) → Except DecodeError (OrderedMap String Json)
  | [] => .ok read
  | (name, value) :: rest => do
    let name ← name.name
    let value ← json origin value
    jsonMembers origin (read.insert name value) rest

end

end Decoder

/-- A way to read records: what is known of the fields so far, how a member adds to it, and how the
record is completed. Fields in an array stand in declaration order. -/
structure Record (α : Type) where
  State : Type
  start : State
  offer : State → String → Origin → Source → Option (Except DecodeError State)
  finish : State → Except DecodeError α
  items : Origin → List Source → Except DecodeError (α × List Source)

namespace Record

variable {α β : Type}

/-- A field with a name; without a default it has to be there. -/
def field (name : String) (d : Decoder α) (default? : Option α := none) : Record α where
  State := Option α
  start := none
  offer state key origin source :=
    if key = name then
      some (match state with
        | some _ => .error (.duplicateField name)
        | none => (d origin source).map some)
    else none
  finish state := match state, default? with
    | some a, _ => .ok a
    | none, some a => .ok a
    | none, none => .error (.missingField name)
  items origin
    | source :: rest => (d origin source).map (·, rest)
    | [] => match default? with
      | some a => .ok (a, [])
      | none => .error .wrongLength

/-- A field that may be missing or `null`. -/
def optional (name : String) (d : Decoder α) : Record (Option α) :=
  field name d.option (some none)

def pure (a : α) : Record α where
  State := Unit
  start := ()
  offer _ _ _ _ := none
  finish _ := .ok a
  items _ rest := .ok (a, rest)

/-- The fields of one record and then those of another. -/
def seq (f : Record (α → β)) (r : Record α) : Record β where
  State := f.State × r.State
  start := (f.start, r.start)
  offer state key origin source :=
    match f.offer state.1 key origin source with
    | some result => some (result.map (·, state.2))
    | none => (r.offer state.2 key origin source).map fun result => result.map (state.1, ·)
  finish state := do
    let g ← f.finish state.1
    let a ← r.finish state.2
    return g a
  items origin sources := do
    let (g, rest) ← f.items origin sources
    let (a, rest) ← r.items origin rest
    return (g a, rest)

instance : Applicative Record where
  pure := pure
  seq f r := f.seq (r ())

/-- Adds a member to the state; members that are no fields are passed over. -/
def step (r : Record α) (origin : Origin) (state : r.State) (member : Source × Source) :
    Except DecodeError r.State := do
  let key ← member.1.name
  match r.offer state key origin member.2 with
  | some result => result
  | none => do
    member.2.skip
    return state

/-- A record written as an object or as an array. Items beyond the fields are a mistake, except in
tables. -/
def decoder (r : Record α) : Decoder α
  | origin, .object members => do
    let inner ← origin.enter
    r.finish (← members.foldlM (r.step inner) r.start)
  | origin, .array items => do
    let inner ← origin.enter
    match ← r.items inner items, origin with
    | (a, []), _ => return a
    | (a, _), .table => return a
    | _, .value => .error .wrongLength
    | _, .text _ => .error .malformed
  | _, source => .error source.mismatch

end Record

/-- Decodes a value. -/
def decodeValue {α : Type} (d : Decoder α) (value : Json) : Except DecodeError α :=
  d .value (.ofJson value)

/-- Decodes a text, after which nothing but blanks may follow. -/
def decodeText {α : Type} (d : Decoder α) (s : String) : Except DecodeError α := do
  let (source, trailing) := Source.ofText s
  let a ← d .fresh source
  if trailing then .error .malformed else return a

/-- The value of a text. -/
def parse (s : String) : Except DecodeError Json := decodeText .json s

end Patchbay.Json
