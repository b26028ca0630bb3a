import Patchbay.OrderedMap
import Patchbay.Text.Cut
import Patchbay.Text.Quoted

/-! Patch paths: one or more segments joined by slashes, each of ASCII letters, digits and a few
marks. -/

namespace Patchbay

namespace PatchPath

/-- What is wrong with a text that is no patch path. -/
inductive Fault where
  | emptyPath
  | emptySegment
  | badCharacter (c : Char) (segment : String)

/-- The wording of a fault. -/
def Fault.reason : Fault → String
  | emptyPath => "empty path"
  | emptySegment => "empty segment"
  | badCharacter c segment =>
    "invalid character " ++ Text.quotedChar c ++ " in segment " ++ Text.quoted segment

/-- The characters that a segment may hold. -/
def isSegmentChar (c : Char) : Bool :=
  c.isAlphanum || c = '-' || c = '_' || c = '.' || c = '@'

/-- The first fault of one segment. -/
def segmentFault? (segment : List Char) : Option Fault :=
  if segment = [] then some .emptySegment
  else (segment.find? fun c => !isSegmentChar c).map (.badCharacter · (String.ofList segment))

/-- The first fault of a text as a patch path, from left to right. -/
def fault? (s : String) : Option Fault :=
  if s.toList = [] then some .emptyPath
  else (Text.cut '/' s.toList).findSome? segmentFault?

end PatchPath

/-- The address of a patch in a project or library. -/
structure PatchPath where
  text : String
  valid : PatchPath.fault? text = none
deriving DecidableEq

namespace PatchPath

instance : TextKey PatchPath :=
  ⟨PatchPath.text, fun {a b} h => by cases a; cases b; simpa using h⟩

/-- The path with the given text, or what is wrong with it. -/
def ofText (s : String) : Except Fault PatchPath :=
  match h : fault? s with
  | none => .ok ⟨s, h⟩
  | some fault => .error fault

/-- The texts between the slashes. -/
def segments (path : PatchPath) : List String :=
  (Text.cut '/' path.text.toList).map String.ofList

/-- The text behind the last slash. -/
def baseName (path : PatchPath) : String :=
  String.ofList (Text.afterLast '/' path.text.toList)

/-- Whether the path belongs to the project itself: its first of several segments is an at sign. -/
def isLocal (path : PatchPath) : Bool := (Text.after? ['@', '/'] path.text.toList).isSome

/-- Whether the path has more than one segment. -/
def isQualified (path : PatchPath) : Bool := path.text.toList.contains '/'

theorem segmentFault?_eq_none_iff {segment : List Char} :
    segmentFault? segment = none ↔ segment ≠ [] ∧ ∀ c ∈ segment, isSegmentChar c = true := by
  simp only [segmentFault?]
  split <;> simp_all

/-- A text is a patch path exactly when each of its segments has a character and all are allowed. -/
theorem fault?_eq_none_iff {s : String} :
    fault? s = none ↔
      ∀ segment ∈ Text.cut '/' s.toList,
        segment ≠ [] ∧ ∀ c ∈ segment, isSegmentChar c = true := by
  simp only [fault?]
  split
  · rename_i h
    simp [h, Text.cut]
  · simp [List.findSome?_eq_none_iff, segmentFault?_eq_none_iff]

end PatchPath

end Patchbay
