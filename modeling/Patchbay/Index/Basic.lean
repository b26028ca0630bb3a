import Patchbay.Index.Page

/-! Indexes: ordered sets of keys on pages of equal depth. An edit writes the pages between the root
and the key anew and shares all others with the index before it. -/

namespace Patchbay

/-- The children of a page at height `h`: none on the lowest level, else pages one level lower. -/
def Index.Below (κ : Type) : Nat → Type
  | 0 => Empty
  | h + 1 => Page κ (Below κ h)

/-- A page at height `h` with all that is below it. The lowest level has height 0. -/
abbrev Index.Subtree (κ : Type) (h : Nat) : Type := Page κ (Index.Below κ h)

/-- An ordered set of keys on pages. -/
structure Index (κ : Type) where
  height : Nat
  root : Index.Subtree κ height

namespace Index

variable {κ γ : Type}

/-- The index without keys. -/
def empty : Index κ := ⟨0, 0, [], []⟩

/-! ### Insertion -/

/-- Inserts a key below a page, where `insert` inserts it into a child. -/
def insertBelow [TextKey κ] (stamp : Nat) (key : κ) (insert : γ → Page.Written κ γ)
    (page : Page κ γ) : Page.Written κ (Page κ γ) :=
  let i := page.rank key
  match page.children[i]? with
  | none => .whole { page with stamp }
  | some child =>
    match insert child with
    | .whole child => .whole { page with stamp, children := page.children.set i child }
    | .halves left middle right =>
      Page.write stamp (page.keys.insertIdx i middle)
        ((page.children.set i left).insertIdx (i + 1) right)

/-- Inserts a key. A key that is there already stays, and the pages up to it are written anew. -/
def Subtree.insert [TextKey κ] (stamp : Nat) (key : κ) :
    (h : Nat) → Subtree κ h → Page.Written κ (Subtree κ h)
  | 0, page =>
    if page.holds key then .whole { page with stamp }
    else Page.write stamp (page.keys.insertIdx (page.rank key) key) []
  | h + 1, page =>
    if page.holds key then .whole { page with stamp }
    else insertBelow stamp key (insert stamp key h) page

/-- Inserts a key into an index, in the edit with the given number. -/
def insert [TextKey κ] (stamp : Nat) (key : κ) (index : Index κ) : Index κ :=
  match Subtree.insert stamp key index.height index.root with
  | .whole root => ⟨index.height, root⟩
  | .halves left middle right => ⟨index.height + 1, stamp, [middle], [left, right]⟩

/-! ### Removal -/

/-- The key that a removal is after. -/
inductive Target (κ : Type) where
  | key (key : κ)
  | least
  | greatest

/-- The number of the page's keys before the target. -/
def Target.rank [TextKey κ] (page : Page κ γ) : Target κ → Nat
  | key k => page.rank k
  | least => 0
  | greatest => page.keys.length

/-- Whether the page itself holds the target. The least and the greatest key are at the bottom. -/
def Target.isOn [TextKey κ] (page : Page κ γ) : Target κ → Bool
  | key k => page.holds k
  | _ => false

/-- Removes the target from a lowest page, and tells the key removed. -/
def eraseHere [TextKey κ] (stamp : Nat) (target : Target κ) (page : Page κ γ) :
    Page κ γ × Option κ :=
  let at? : Option Nat := match target with
    | .key k => if page.holds k then some (page.rank k) else none
    | .least => some 0
    | .greatest => some (page.keys.length - 1)
  match at? with
  | none => ({ page with stamp }, none)
  | some i => ({ page with stamp, keys := page.keys.eraseIdx i }, page.keys[i]?)

section EraseBelow

/-! Removal below a page, where `erase` removes a target from a child. A child that is small already
gets a key from a neighbour or joins it before it loses one. -/

variable (stamp : Nat) (erase : Target κ → Page κ γ → Page κ γ × Option κ)

/-- Removes a key of the page itself, which the target in child `j` replaces. -/
def replaceKey (page : Page κ (Page κ γ)) (i j : Nat) (child : Page κ γ) (target : Target κ) :
    Page κ (Page κ γ) × Option κ :=
  match erase target child with
  | (_, none) => (page, none)
  | (child, some pulled) =>
    ({ page with keys := page.keys.set i pulled, children := page.children.set j child },
      page.keys[i]?)

/-- Joins child `i` to the next and removes the target from both. -/
def joinAndErase (page : Page κ (Page κ γ)) (i : Nat) (target : Target κ) :
    Page κ (Page κ γ) × Option κ :=
  match page.children[i]?, page.keys[i]?, page.children[i + 1]? with
  | some left, some middle, some right =>
    match erase target (Page.join stamp left middle right) with
    | (_, none) => (page, none)
    | (child, removed) =>
      ({ page with
          keys := page.keys.eraseIdx i
          children := (page.children.set i child).eraseIdx (i + 1) }, removed)
  | _, _, _ => (page, none)

/-- Moves a key from the left neighbour of child `i` to it and removes the target there. Without
the target all keys stay where they are. -/
def borrowLeftAndErase (page : Page κ (Page κ γ)) (i : Nat) (left child : Page κ γ)
    (target : Target κ) : Page κ (Page κ γ) × Option κ :=
  match page.keys[i - 1]?, left.keys.getLast? with
  | some middle, some last =>
    let place (left child : Page κ γ) := (page.children.set (i - 1) left).set i child
    match erase target (Page.extendFront stamp left middle child) with
    | (child, none) =>
      ({ page with children := place { left with stamp } (Page.dropFront stamp child) }, none)
    | (child, removed) =>
      ({ page with
          keys := page.keys.set (i - 1) last
          children := place (Page.dropBack stamp left) child }, removed)
  | _, _ => (page, none)

/-- Moves a key from the right neighbour of child `i` to it and removes the target there. Without
the target all keys stay where they are. -/
def borrowRightAndErase (page : Page κ (Page κ γ)) (i : Nat) (child right : Page κ γ)
    (target : Target κ) : Page κ (Page κ γ) × Option κ :=
  match page.keys[i]?, right.keys.head? with
  | some middle, some first =>
    let place (child right : Page κ γ) := (page.children.set i child).set (i + 1) right
    match erase target (Page.extendBack stamp child middle right) with
    | (child, none) =>
      ({ page with children := place (Page.dropBack stamp child) { right with stamp } }, none)
    | (child, removed) =>
      ({ page with
          keys := page.keys.set i first
          children := place child (Page.dropFront stamp right) }, removed)
  | _, _ => (page, none)

/-- Removes a target that is not on the page, below child `i`. -/
def eraseInChild (page : Page κ (Page κ γ)) (i : Nat) (child : Page κ γ) (target : Target κ) :
    Page κ (Page κ γ) × Option κ :=
  let spare? (j : Nat) := page.children[j]?.filter fun neighbour => !neighbour.isSmall
  if child.isSmall then
    match if i = 0 then none else spare? (i - 1), spare? (i + 1) with
    | some left, _ => borrowLeftAndErase stamp erase page i left child target
    | none, some right => borrowRightAndErase stamp erase page i child right target
    | none, none =>
      joinAndErase stamp erase page (if i + 1 < page.children.length then i else i - 1) target
  else
    let (child, removed) := erase target child
    ({ page with children := page.children.set i child }, removed)

/-- Removes the target from a page that has pages below it. -/
def eraseBelow [TextKey κ] (target : Target κ) (page : Page κ (Page κ γ)) :
    Page κ (Page κ γ) × Option κ :=
  let i := target.rank page
  let page := { page with stamp }
  match page.children[i]?, page.children[i + 1]? with
  | some left, some right =>
    if !target.isOn page then eraseInChild stamp erase page i left target
    else if !left.isSmall then replaceKey erase page i i left .greatest
    else if !right.isSmall then replaceKey erase page i (i + 1) right .least
    else joinAndErase stamp erase page i target
  | some child, none => eraseInChild stamp erase page i child target
  | none, _ => (page, none)

end EraseBelow

/-- Removes the target, and tells the key removed. -/
def Subtree.erase [TextKey κ] (stamp : Nat) :
    (h : Nat) → Target κ → Subtree κ h → Subtree κ h × Option κ
  | 0, target, page => eraseHere stamp target page
  | h + 1, target, page => eraseBelow stamp (erase stamp h) target page

/-- Removes a key from an index, in the edit with the given number. A root that is left with one
child gives way to it. -/
def erase [TextKey κ] (stamp : Nat) (key : κ) : Index κ → Index κ
  | ⟨0, root⟩ => ⟨0, (Subtree.erase stamp 0 (.key key) root).1⟩
  | ⟨h + 1, root⟩ =>
    match (Subtree.erase stamp (h + 1) (.key key) root).1 with
    | ⟨_, [], [child]⟩ => ⟨h, child⟩
    | root => ⟨h + 1, root⟩

end Index

end Patchbay
