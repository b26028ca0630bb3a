import Patchbay.OrderedMap

/-! Pages of an index: a bounded number of keys in order, with the children that lie between them.
Every page knows the edit that wrote it. -/

namespace Patchbay

/-- Keys in order and one child more than keys, or none on the lowest level. The stamp is the number
of the edit that wrote the page. -/
structure Page (κ γ : Type) where
  stamp : Nat
  keys : List κ
  children : List γ

/-- What an insertion makes of a page: one page, or two with the key that stands between them. -/
inductive Page.Written (κ α : Type) where
  | whole (page : α)
  | halves (left : α) (middle : κ) (right : α)

namespace Page

variable {κ γ : Type}

/-- The most keys that a page may hold. -/
def capacity : Nat := 64

/-- The number of keys of each half of a page that had to be divided. -/
def half : Nat := 32

/-- Whether a page has no key to spare. -/
def isSmall (page : Page κ γ) : Bool := page.keys.length < half

/-- Writes a page, or two halves if there are too many keys for one. -/
def write (stamp : Nat) (keys : List κ) (children : List γ) : Written κ (Page κ γ) :=
  if keys.length ≤ capacity then .whole ⟨stamp, keys, children⟩
  else match keys.drop half with
    | [] => .whole ⟨stamp, keys, children⟩
    | middle :: right =>
      .halves ⟨stamp, keys.take half, children.take (half + 1)⟩ middle
        ⟨stamp, right, children.drop (half + 1)⟩

/-- Two neighbours and the key between them as one page. -/
def join (stamp : Nat) (left : Page κ γ) (middle : κ) (right : Page κ γ) : Page κ γ :=
  ⟨stamp, left.keys ++ middle :: right.keys, left.children ++ right.children⟩

/-- A page with a key in front, and the last child of its left neighbour in front of that. -/
def extendFront (stamp : Nat) (left : Page κ γ) (key : κ) (page : Page κ γ) : Page κ γ :=
  ⟨stamp, key :: page.keys, left.children.getLast?.toList ++ page.children⟩

/-- A page with a key at the end, and the first child of its right neighbour after that. -/
def extendBack (stamp : Nat) (page : Page κ γ) (key : κ) (right : Page κ γ) : Page κ γ :=
  ⟨stamp, page.keys ++ [key], page.children ++ right.children.head?.toList⟩

/-- A page without its first key and its first child. -/
def dropFront (stamp : Nat) (page : Page κ γ) : Page κ γ :=
  ⟨stamp, page.keys.drop 1, page.children.drop 1⟩

/-- A page without its last key and its last child. -/
def dropBack (stamp : Nat) (page : Page κ γ) : Page κ γ :=
  ⟨stamp, page.keys.dropLast, page.children.dropLast⟩

variable [TextKey κ]

/-- The number of keys before a key. -/
def rank (page : Page κ γ) (key : κ) : Nat :=
  (page.keys.takeWhile fun other => text other < text key).length

/-- Whether a key is on the page itself. -/
def holds (page : Page κ γ) (key : κ) : Bool := page.keys.any fun other => text other = text key

/-- The text of the first key. -/
def first? (page : Page κ γ) : Option String := page.keys.head?.map text

/-- Whether two pages are one page of a common past. Pages that one edit wrote have different first
keys, so stamp and first key tell pages apart. -/
def isSharedWith {δ : Type} (page : Page κ γ) (other : Page κ δ) : Bool :=
  page.stamp = other.stamp && page.first? = other.first?

end Page

end Patchbay
