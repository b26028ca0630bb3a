import Patchbay.Index.Basic

/-! Comparison of the values that are stored under the keys of two indexes. Both are walked in key
order, and pages that they share are passed over: nothing below them has changed. -/

namespace Patchbay.Index

variable {κ : Type}

/-- A part of an index that is still to be compared: a key, or a page with all that is below it. -/
inductive Stretch (κ : Type) where
  | key (key : κ)
  | page (h : Nat) (subtree : Subtree κ h)

/-- The members of two lists by turns, and then the rest of the longer one. -/
def alternate {α : Type} : List α → List α → List α
  | a :: rest, b :: others => a :: b :: alternate rest others
  | rest, [] => rest
  | [], others => others

/-- The keys and pages of a subtree in key order, one level down. -/
def Subtree.stretches : (h : Nat) → Subtree κ h → List (Stretch κ)
  | 0, page => page.keys.map .key
  | h + 1, page =>
    alternate (page.children.map fun child => .page h child) (page.keys.map .key)

/-- The number of keys and pages of a subtree. -/
def Subtree.weight : (h : Nat) → Subtree κ h → Nat
  | 0, page => page.keys.length + 1
  | h + 1, page => page.children.foldr (fun child n => weight h child + n) page.keys.length + 1

/-- The number of keys and pages of a stretch. -/
def Stretch.weight : Stretch κ → Nat
  | key _ => 1
  | page h subtree => subtree.weight h

/-- The number of keys and pages of stretches. -/
def weightOf : List (Stretch κ) → Nat
  | [] => 0
  | s :: rest => s.weight + weightOf rest

@[simp] theorem weightOf_nil : weightOf ([] : List (Stretch κ)) = 0 := rfl

@[simp] theorem weightOf_cons (s : Stretch κ) (l : List (Stretch κ)) :
    weightOf (s :: l) = s.weight + weightOf l := rfl

@[simp] theorem weightOf_append (l m : List (Stretch κ)) :
    weightOf (l ++ m) = weightOf l + weightOf m := by
  induction l with
  | nil => simp
  | cons s rest ih => simp [ih]; omega

@[simp] theorem weightOf_alternate (l m : List (Stretch κ)) :
    weightOf (alternate l m) = weightOf l + weightOf m := by
  fun_induction alternate l m with
  | case1 a rest b others ih => simp [ih]; omega
  | case2 => simp
  | case3 => simp

@[simp] theorem weightOf_keys (keys : List κ) : weightOf (keys.map Stretch.key) = keys.length := by
  induction keys with
  | nil => rfl
  | cons k rest ih => simp [ih, Stretch.weight]; omega

theorem foldr_weight (h n : Nat) (pages : List (Subtree κ h)) :
    pages.foldr (fun page n => page.weight h + n) n = weightOf (pages.map (.page h)) + n := by
  induction pages with
  | nil => simp
  | cons page rest ih => simp [ih, Stretch.weight]; omega

/-- One level down a page weighs less by the page itself. -/
theorem weightOf_stretches (h : Nat) (page : Subtree κ h) :
    weightOf (page.stretches h) + 1 = page.weight h := by
  cases h with
  | zero => simp [Subtree.stretches, Subtree.weight]
  | succ h =>
    rw [Subtree.stretches, Subtree.weight, weightOf_alternate, weightOf_keys]
    exact congrArg (· + 1) (foldr_weight h _ page.children).symm

/-- Whether two walks meet the same keys, with values that `same` accepts. A shared page is passed
over when both walks reach it at once. Of two other pages the one that starts earlier is opened
first. -/
def walkAgrees [TextKey κ] (same : κ → Bool) : List (Stretch κ) → List (Stretch κ) → Bool
  | [], [] => true
  | [], _ :: _ => false
  | _ :: _, [] => false
  | .key a :: old, .key b :: new => text a = text b && same a && walkAgrees same old new
  | .page h page :: old, .key b :: new =>
    walkAgrees same (page.stretches h ++ old) (.key b :: new)
  | .key a :: old, .page h page :: new =>
    walkAgrees same (.key a :: old) (page.stretches h ++ new)
  | .page h page :: old, .page k other :: new =>
    if page.isSharedWith other then walkAgrees same old new
    else if page.first? = other.first? then
      walkAgrees same (page.stretches h ++ old) (other.stretches k ++ new)
    else if page.first?.getD "" < other.first?.getD "" then
      walkAgrees same (page.stretches h ++ old) (.page k other :: new)
    else walkAgrees same (.page h page :: old) (other.stretches k ++ new)
termination_by old new => weightOf old + weightOf new
decreasing_by
  all_goals
    simp only [weightOf_cons, weightOf_append, Stretch.weight, ← weightOf_stretches]
    omega

/-- Where a walk over an index starts. -/
def start (index : Index κ) : List (Stretch κ) :=
  if index.root.keys.isEmpty then [] else [.page index.height index.root]

/-- Whether two indexes have the same keys, with values that `same` accepts wherever the indexes do
not share a page. -/
def agrees [TextKey κ] (same : κ → Bool) (a b : Index κ) : Bool := walkAgrees same a.start b.start

end Patchbay.Index
