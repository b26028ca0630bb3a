import Patchbay.Digest.Sha1

/-! Universally unique identifiers: sixteen bytes, written in hexadecimal groups; those of version 5
are derived from a name, those of version 4 are random. -/

namespace Patchbay.Digest

/-- Sixteen bytes. -/
structure Uuid where
  bytes : Vector UInt8 16

namespace Uuid

/-- The first sixteen of a list of bytes, filled up with zeros. -/
def ofBytes (l : List UInt8) : Uuid := ⟨Vector.ofFn fun i => l.getD i 0⟩

/-- The same bytes marked with a version and the usual variant. -/
def mark (u : Uuid) (version : UInt8) : Uuid :=
  ⟨(u.bytes.set 6 ((u.bytes[6] &&& (0x0f : UInt8)) ||| (version <<< 4))).set 8
    ((u.bytes[8] &&& (0x3f : UInt8)) ||| 0x80)⟩

/-- The version 5 identifier of a name in a name space. -/
def derived (space : Uuid) (name : String) : Uuid :=
  (ofBytes (Sha1.digest (space.bytes.toList ++ name.toUTF8.toList))).mark 5

/-- A version 4 identifier drawn from a generator. -/
def random (gen : StdGen) : Uuid × StdGen :=
  let (l, gen) := (List.range 16).foldl (fun (l, gen) _ =>
    let (n, gen) := randNat gen 0 255
    (UInt8.ofNat n :: l, gen)) (([] : List UInt8), gen)
  ((ofBytes l).mark 4, gen)

/-- The name space of object identifiers. -/
def objects : Uuid :=
  ofBytes [0x6b, 0xa7, 0xb8, 0x12, 0x9d, 0xad, 0x11, 0xd1, 0x80, 0xb4, 0x00, 0xc0, 0x4f, 0xd4,
    0x30, 0xc8]

/-- The name space of locators. -/
def locators : Uuid :=
  ofBytes [0x6b, 0xa7, 0xb8, 0x11, 0x9d, 0xad, 0x11, 0xd1, 0x80, 0xb4, 0x00, 0xc0, 0x4f, 0xd4,
    0x30, 0xc8]

/-- Two lower-case hexadecimal digits. -/
def hexByte (b : UInt8) : List Char :=
  [Nat.digitChar (b.toNat / 16), Nat.digitChar (b.toNat % 16)]

/-- The digits of a stretch of bytes. -/
def hexGroup (u : Uuid) (start count : Nat) : List Char :=
  ((u.bytes.toList.drop start).take count).flatMap hexByte

/-- Groups of 8, 4, 4, 4 and 12 digits with hyphens between them. -/
def toText (u : Uuid) : String :=
  String.ofList (u.hexGroup 0 4 ++ '-' :: u.hexGroup 4 2 ++ '-' :: u.hexGroup 6 2 ++
    '-' :: u.hexGroup 8 2 ++ '-' :: u.hexGroup 10 6)

theorem hyphen_mem_toText (u : Uuid) : '-' ∈ u.toText.toList := by
  simp [toText]

end Uuid

end Patchbay.Digest
