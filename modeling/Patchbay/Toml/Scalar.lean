import Patchbay.Toml.Table

/-! The scalars of TOML: strings in four quotations, integers in four bases, floats, and dates. Each
reader gives its value and the rest of the text. -/

namespace Patchbay.Toml

/-- A value from the start of a text, and the rest. -/
abbrev Reader (α : Type) := List Char → Option (α × List Char)

def isSpace (c : Char) : Bool := c = ' ' || c = '\t'

def dropSpace (cs : List Char) : List Char := cs.dropWhile isSpace

/-- A line break. -/
def newline? : List Char → Option (List Char)
  | '\n' :: rest => some rest
  | '\r' :: '\n' :: rest => some rest
  | _ => none

/-- The characters allowed in strings and comments: all but controls, where the tab is none. -/
def isPlain (c : Char) : Bool := c = '\t' || (0x20 ≤ c.toNat && c.toNat ≠ 0x7f)

/-! ### Strings -/

/-- The number of a run of exactly `n` hexadecimal digits. -/
def hexRun? : Nat → Nat → Reader Nat
  | 0, value, cs => some (value, cs)
  | n + 1, value, c :: cs => do hexRun? n (16 * value + (← Json.Source.hexValue? c)) cs
  | _ + 1, _, [] => none

/-- The character of a code point. -/
def scalar? (n : Nat) : Option Char :=
  if n < 0xd800 ∨ (0xdfff < n ∧ n < 0x110000) then some (Char.ofNat n) else none

/-- The character behind a backslash. -/
def escape? : Reader Char
  | 'b' :: rest => some ('\x08', rest)
  | 't' :: rest => some ('\t', rest)
  | 'n' :: rest => some ('\n', rest)
  | 'f' :: rest => some ('\x0c', rest)
  | 'r' :: rest => some ('\r', rest)
  | '"' :: rest => some ('"', rest)
  | '\\' :: rest => some ('\\', rest)
  | 'u' :: rest => do
    let (n, rest) ← hexRun? 4 0 rest
    return (← scalar? n, rest)
  | 'U' :: rest => do
    let (n, rest) ← hexRun? 8 0 rest
    return (← scalar? n, rest)
  | _ => none

/-- The blanks and line breaks behind a backslash at the end of a line; the argument bounds their
number. -/
def dropMargin : Nat → List Char → List Char
  | 0, cs => cs
  | fuel + 1, cs => match newline? (dropSpace cs) with
    | some rest => dropMargin fuel rest
    | none => dropSpace cs

/-- The rest of a string in double quotes, behind the characters already read. -/
def basicBody : Nat → List Char → Reader String
  | 0, _, _ => none
  | _ + 1, _, [] => none
  | fuel + 1, read, c :: rest =>
    if c = '"' then some (String.ofList read.reverse, rest)
    else if c = '\\' then do
      let (c, rest) ← escape? rest
      basicBody fuel (c :: read) rest
    else if isPlain c then basicBody fuel (c :: read) rest
    else none

/-- The rest of a string in single quotes. -/
def literalBody (read : List Char) : Reader String
  | [] => none
  | c :: rest =>
    if c = '\x27' then some (String.ofList read.reverse, rest)
    else if isPlain c then literalBody (c :: read) rest
    else none

/-- The quotes at the start of a text, at most five of them. -/
def quoteRun (quote : Char) (cs : List Char) : Nat := (cs.take 5).takeWhile (· = quote) |>.length

/-- The rest of a string over several lines, with or without escapes. Up to two quotes may stand
inside it and before the three that end it. -/
def linesBody (quote : Char) (escapes : Bool) : Nat → List Char → Reader String
  | 0, _, _ => none
  | _ + 1, _, [] => none
  | fuel + 1, read, c :: rest =>
    if c = quote then
      let run := quoteRun quote (c :: rest)
      let read := List.replicate (if run < 3 then run else run - 3) quote ++ read
      if run < 3 then linesBody quote escapes fuel read ((c :: rest).drop run)
      else some (String.ofList read.reverse, (c :: rest).drop run)
    else match newline? (c :: rest) with
      | some rest => linesBody quote escapes fuel ('\n' :: read) rest
      | none =>
        if c = '\\' && escapes then
          match newline? (dropSpace rest) with
          | some after => linesBody quote escapes fuel read (dropMargin after.length after)
          | none => do
            let (c, rest) ← escape? rest
            linesBody quote escapes fuel (c :: read) rest
        else if isPlain c then linesBody quote escapes fuel (c :: read) rest
        else none

/-- A string over several lines, behind its opening quotes and one line break. -/
def linesString (quote : Char) (escapes : Bool) (cs : List Char) : Option (String × List Char) :=
  linesBody quote escapes (cs.length + 1) [] ((newline? cs).getD cs)

/-- A string on one line. -/
def lineString : Reader String
  | '"' :: rest => basicBody (rest.length + 1) [] rest
  | '\x27' :: rest => literalBody [] rest
  | _ => none

/-- A string in any quotation. -/
def quoted? : Reader String
  | '"' :: '"' :: '"' :: rest => linesString '"' true rest
  | '\x27' :: '\x27' :: '\x27' :: rest => linesString '\x27' false rest
  | cs => lineString cs

/-! ### Numbers -/

/-- Digits as `value?` reads them, where underscores may stand between two of them. -/
def digitRun (value? : Char → Option Nat) (read : List Nat) : List Char → List Nat × List Char
  | [] => (read.reverse, [])
  | [c] => match value? c with
    | some d => ((d :: read).reverse, [])
    | none => (read.reverse, [c])
  | c :: next :: rest =>
    match value? c with
    | some d => digitRun value? (d :: read) (next :: rest)
    | none =>
      if c = '_' ∧ read ≠ [] then match value? next with
        | some d => digitRun value? (d :: read) rest
        | none => (read.reverse, c :: next :: rest)
      else (read.reverse, c :: next :: rest)

/-- The value of a digit in a base of at most sixteen. -/
def digit? (base : Nat) (c : Char) : Option Nat := (Json.Source.hexValue? c).filter (· < base)

def decimals : List Char → List Nat × List Char := digitRun (digit? 10) []

/-- A number in a base. -/
def ofDigits (base : Nat) (ds : List Nat) : Nat := ds.foldl (fun n d => base * n + d) 0

/-- An integer of 64 bits with its sign. -/
def integerInRange? (n : Int) : Option Toml :=
  if -0x8000000000000000 ≤ n ∧ n < 0x8000000000000000 then some (.integer n) else none

/-- A sign and what follows it. -/
def sign : List Char → Bool × List Char
  | '-' :: rest => (true, rest)
  | '+' :: rest => (false, rest)
  | cs => (false, cs)

/-- A decimal integer part: a zero, or digits that do not start with one. -/
def wholePart? (cs : List Char) : Option (List Nat × List Char) :=
  match cs with
  | '0' :: rest => some ([0], rest)
  | _ => match decimals cs with
    | ([], _) => none
    | found => some found

/-- The number nearest to a decimal; the digits' place bounds what is computed. -/
def nearest (digits : List Nat) (exponent : Int) : Number :=
  let digits := digits.dropWhile (· = 0)
  let lead := digits.length + exponent
  if digits = [] ∨ lead < -400 then .zero
  else if 400 < lead then .infinity
  else if exponent < 0 then
    .ofFloat (OfScientific.ofScientific (ofDigits 10 digits) true exponent.natAbs)
  else .ofFloat (OfScientific.ofScientific (ofDigits 10 digits) false exponent.natAbs)

/-- The digits of a fraction behind its point. -/
def fractionPart? : Reader (List Nat)
  | '.' :: rest => match decimals rest with
    | ([], _) => none
    | found => some found
  | _ => none

/-- The exponent of a float. -/
def exponentPart? : Reader Int
  | c :: rest =>
    if c = 'e' ∨ c = 'E' then
      let (negative, rest) := sign rest
      match decimals rest with
      | ([], _) => none
      | (ds, rest) =>
        some (if negative then -(ofDigits 10 ds : Int) else ofDigits 10 ds, rest)
    else none
  | [] => none

/-- A float with a fraction, an exponent or both. Below zero it may be infinite. -/
def float? (cs : List Char) : Option (Toml × List Char) := do
  let (negative, rest) := sign cs
  let (whole, rest) ← wholePart? rest
  let (fraction, exponent, rest) ← match fractionPart? rest with
    | some (fraction, rest) => match exponentPart? rest with
      | some (exponent, rest) => some (fraction, exponent, rest)
      | none => some (fraction, 0, rest)
    | none => match exponentPart? rest with
      | some (exponent, rest) => some ([], exponent, rest)
      | none => none
  let value := nearest (whole ++ fraction) (exponent - fraction.length)
  if negative then return (.float value.neg, rest)
  else if value.isInfinite then none
  else return (.float value, rest)

/-- Infinity or the number that is none, with its sign. -/
def special? (cs : List Char) : Option (Toml × List Char) :=
  let (negative, rest) := sign cs
  let signed (x : Number) := Toml.float (if negative then x.neg else x)
  match rest with
  | 'i' :: 'n' :: 'f' :: rest => some (signed .infinity, rest)
  | 'n' :: 'a' :: 'n' :: rest => some (signed .nan, rest)
  | _ => none

/-- An integer in one of the bases that a letter marks. -/
def based? (base : Nat) (cs : List Char) : Option (Toml × List Char) :=
  match digitRun (digit? base) [] cs with
  | ([], _) => none
  | (ds, rest) => (integerInRange? (ofDigits base ds)).map (·, rest)

/-- An integer. -/
def integer? : List Char → Option (Toml × List Char)
  | '0' :: 'x' :: rest => based? 16 rest
  | '0' :: 'o' :: rest => based? 8 rest
  | '0' :: 'b' :: rest => based? 2 rest
  | cs => do
    let (negative, rest) := sign cs
    let (ds, rest) ← wholePart? rest
    let n : Int := ofDigits 10 ds
    return (← integerInRange? (if negative then -n else n), rest)

/-! ### Dates and times -/

/-- A number of exactly `n` digits between two bounds. -/
def field? (n low high : Nat) (cs : List Char) : Option (Nat × List Char) :=
  let ds := cs.take n
  let value := ofDigits 10 (ds.map fun c => c.toNat - '0'.toNat)
  if ds.length = n ∧ ds.all Char.isDigit ∧ low ≤ value ∧ value ≤ high then some (value, cs.drop n)
  else none

def expect? (c : Char) : List Char → Option (List Char)
  | d :: rest => if c = d then some rest else none
  | [] => none

/-- The days of a month of the Gregorian calendar. -/
def daysIn (year month : Nat) : Nat :=
  if month = 2 then
    if year % 4 = 0 ∧ (year % 100 ≠ 0 ∨ year % 400 = 0) then 29 else 28
  else if month = 4 ∨ month = 6 ∨ month = 9 ∨ month = 11 then 30
  else 31

/-- What follows a date. -/
def afterDate? (cs : List Char) : Option (List Char) := do
  let (year, cs) ← field? 4 0 9999 cs
  let cs ← expect? '-' cs
  let (month, cs) ← field? 2 1 12 cs
  let cs ← expect? '-' cs
  let (_, cs) ← field? 2 1 (daysIn year month) cs
  return cs

/-- What follows a time of day, with or without a fraction of a second. -/
def afterTime? (cs : List Char) : Option (List Char) := do
  let (_, cs) ← field? 2 0 23 cs
  let cs ← expect? ':' cs
  let (_, cs) ← field? 2 0 59 cs
  let cs ← expect? ':' cs
  let (_, cs) ← field? 2 0 60 cs
  match cs with
  | '.' :: rest =>
    if (rest.takeWhile Char.isDigit).isEmpty then some cs else some (rest.dropWhile Char.isDigit)
  | _ => some cs

/-- What follows an offset from universal time. -/
def afterOffset? (cs : List Char) : Option (List Char) :=
  match cs with
  | c :: rest =>
    if c = 'Z' ∨ c = 'z' then some rest
    else if c = '+' ∨ c = '-' then do
      let (_, rest) ← field? 2 0 23 rest
      let rest ← expect? ':' rest
      let (_, rest) ← field? 2 0 59 rest
      return rest
    else none
  | [] => none

/-- A date, a time of day, or both. -/
def dateTime? (cs : List Char) : Option (Toml × List Char) :=
  match afterDate? cs with
  | some rest =>
    let time := match rest with
      | c :: more => if c = 'T' ∨ c = 't' ∨ c = ' ' then afterTime? more else none
      | [] => none
    match time with
    | some rest => some (.dateTime, (afterOffset? rest).getD rest)
    | none => some (.dateTime, rest)
  | none => (afterTime? cs).map (.dateTime, ·)

/-- A scalar other than a string. -/
def bare? (cs : List Char) : Option (Toml × List Char) :=
  match cs with
  | 't' :: 'r' :: 'u' :: 'e' :: rest => some (.boolean true, rest)
  | 'f' :: 'a' :: 'l' :: 's' :: 'e' :: rest => some (.boolean false, rest)
  | _ => (dateTime? cs).or <| (float? cs).or <| (special? cs).or (integer? cs)

end Patchbay.Toml
