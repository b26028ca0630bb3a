import Patchbay.PatchPath

/-! Data types of pins, and the terminal paths: the types of the nodes that stand for the inputs and
outputs of the patch that holds them. -/

namespace Patchbay

/-- Whether a pin takes values in or gives them out. -/
inductive Direction where
  | input
  | output
deriving DecidableEq

namespace Direction

def text : Direction → String
  | input => "input"
  | output => "output"

/-- The direction with a given name. -/
def ofText? (s : String) : Option Direction :=
  if s = "input" then some input else if s = "output" then some output else none

end Direction

/-- What a pin carries: one of four basic types, or values made by the patch at a qualified path.
Custom types are exactly those whose names `parse` accepts; a path alone, without the proof, would
also allow one that is not qualified. -/
inductive DataType where
  | number
  | boolean
  | string
  | pulse
  | custom (path : PatchPath) (qualified : path.isQualified = true)
deriving DecidableEq

namespace DataType

/-- The name of a type. -/
def text : DataType → String
  | number => "number"
  | boolean => "boolean"
  | string => "string"
  | pulse => "pulse"
  | custom path _ => path.text

/-- The type with a given name. -/
def ofText? (s : String) : Option DataType :=
  if s = "number" then some number
  else if s = "boolean" then some boolean
  else if s = "string" then some string
  else if s = "pulse" then some pulse
  else match PatchPath.ofText s with
    | .error _ => none
    | .ok path => if h : path.isQualified = true then some (custom path h) else none

/-- Whether the type is one of the four basic ones. -/
def isPrimitive : DataType → Bool
  | custom _ _ => false
  | _ => true

/-- Between slashes, the name of a type has only characters that segments of paths may have. -/
theorem segments_text (t : DataType) :
    ∀ segment ∈ Text.cut '/' t.text.toList,
      ∀ c ∈ segment, PatchPath.isSegmentChar c = true := by
  cases t with
  | custom path _ => exact fun s hs => (PatchPath.fault?_eq_none_iff.1 path.valid s hs).2
  | _ => simp [text, Text.cut, PatchPath.isSegmentChar]

theorem segments_text_tail (t : DataType) :
    ∀ segment ∈ (Text.cut '/' t.text.toList).tail, segment ≠ [] := by
  cases t with
  | custom path _ =>
    exact fun s hs => (PatchPath.fault?_eq_none_iff.1 path.valid s (List.mem_of_mem_tail hs)).1
  | _ => decide

end DataType

namespace PatchPath

/-- What the paths of terminals start with. -/
def terminalRoot : String := "xod/built-in/"

/-- The start of a terminal path for a direction. -/
def terminalStem (direction : Direction) : String := terminalRoot ++ direction.text ++ "-"

theorem cut_terminal (direction : Direction) (cs : List Char) :
    Text.cut '/' ((terminalStem direction).toList ++ cs) =
      "xod".toList :: "built-in".toList ::
        ((direction.text ++ "-").toList ++ (Text.cut '/' cs).headD []) ::
          (Text.cut '/' cs).tail := by
  cases direction <;>
  · cases h : Text.cut '/' cs with
    | nil => exact absurd h (Text.cut_ne_nil _ _)
    | cons segment rest => simp [terminalStem, terminalRoot, Direction.text, Text.cut, h]

/-- The path of the terminal that defines a pin of the given direction and type. -/
def terminalFor (direction : Direction) (type : DataType) : PatchPath where
  text := terminalStem direction ++ type.text
  valid := by
    rw [fault?_eq_none_iff, String.toList_append, cut_terminal]
    have hall := type.segments_text
    have htail := type.segments_text_tail
    have hne := Text.cut_ne_nil '/' type.text.toList
    revert hall htail hne
    cases Text.cut '/' type.text.toList with
    | nil => simp
    | cons segment rest =>
      simp only [List.headD_cons, List.tail_cons, List.mem_cons]
      rintro hall htail - s (rfl | rfl | rfl | h)
      · simp [isSegmentChar]
      · simp [isSegmentChar]
      · refine ⟨by cases direction <;> simp [Direction.text], fun c hc => ?_⟩
        rcases List.mem_append.1 hc with hc | hc
        · have stem : ∀ c ∈ (direction.text ++ "-").toList, isSegmentChar c = true := by
            cases direction <;> simp [Direction.text, isSegmentChar]
          exact stem c hc
        · exact hall segment (.inl rfl) c hc
      · exact ⟨htail s h, hall s (.inr h)⟩

/-- The direction and type of the pin that a node of this type defines, if it is a terminal. -/
def terminal? (path : PatchPath) : Option (Direction × DataType) :=
  [Direction.input, Direction.output].findSome? fun direction =>
    (Text.after? (terminalStem direction).toList path.text.toList).bind fun name =>
      (DataType.ofText? (String.ofList name)).map (direction, ·)

end PatchPath

end Patchbay
