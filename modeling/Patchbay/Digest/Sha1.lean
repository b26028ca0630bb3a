/-! The SHA-1 digest of a byte string: padding, the message schedule of a block, and the eighty
steps that fold a block into the five state words. -/

namespace Patchbay.Digest.Sha1

/-- The five words of the running digest. -/
structure State where
  a : UInt32
  b : UInt32
  c : UInt32
  d : UInt32
  e : UInt32

def initial : State := ⟨0x67452301, 0xefcdab89, 0x98badcfe, 0x10325476, 0xc3d2e1f0⟩

def rotateLeft (x : UInt32) (n : UInt32) : UInt32 := (x <<< n) ||| (x >>> (32 - n))

/-- The bytes of `n`, most significant first, in `count` places. -/
def bigEndian (count n : Nat) : List UInt8 :=
  (List.range count).map fun i => UInt8.ofNat (n / Nat.pow 256 (count - 1 - i))

/-- A message followed by a one bit, zeros, and its length in bits, in whole blocks of 64 bytes. -/
def padded (message : List UInt8) : List UInt8 :=
  message ++ 0x80 :: List.replicate ((119 - message.length % 64) % 64) 0 ++
    bigEndian 8 (8 * message.length)

/-- Four bytes to a word, most significant first; bytes left over are dropped. -/
def words : List UInt8 → List UInt32
  | a :: b :: c :: d :: rest =>
    (a.toUInt32 <<< 24 ||| b.toUInt32 <<< 16 ||| c.toUInt32 <<< 8 ||| d.toUInt32) :: words rest
  | _ => []

/-- The first `n` words of a message schedule that starts with the words of a block. -/
def schedule (block : Array UInt32) : Nat → Array UInt32
  | 0 => block
  | n + 1 =>
    let w := schedule block n
    let ago (back : Nat) := w.getD (w.size - back) 0
    w.push (rotateLeft (ago 3 ^^^ ago 8 ^^^ ago 14 ^^^ ago 16) 1)

/-- One of the eighty steps, at place `t`, with the scheduled word `w`. -/
def step (s : State) (t : Nat) (w : UInt32) : State :=
  let (mix, constant) :=
    if t < 20 then ((s.b &&& s.c) ||| (~~~s.b &&& s.d), 0x5a827999)
    else if t < 40 then (s.b ^^^ s.c ^^^ s.d, 0x6ed9eba1)
    else if t < 60 then ((s.b &&& s.c) ||| (s.b &&& s.d) ||| (s.c &&& s.d), 0x8f1bbcdc)
    else (s.b ^^^ s.c ^^^ s.d, 0xca62c1d6)
  ⟨rotateLeft s.a 5 + mix + s.e + constant + w, s.a, rotateLeft s.b 30, s.c, s.d⟩

/-- The state after one more block of sixteen words. -/
def compress (s : State) (block : List UInt32) : State :=
  let w := schedule block.toArray 64
  let r := w.toList.zipIdx.foldl (fun s (word, t) => step s t word) s
  ⟨s.a + r.a, s.b + r.b, s.c + r.c, s.d + r.d, s.e + r.e⟩

/-- The state after `count` blocks. -/
def compressAll (s : State) (ws : List UInt32) : Nat → State
  | 0 => s
  | count + 1 => compressAll (compress s (ws.take 16)) (ws.drop 16) count

/-- The twenty bytes of the digest. -/
def digest (message : List UInt8) : List UInt8 :=
  let ws := words (padded message)
  let s := compressAll initial ws (ws.length / 16)
  [s.a, s.b, s.c, s.d, s.e].flatMap fun word => bigEndian 4 word.toNat

end Patchbay.Digest.Sha1
