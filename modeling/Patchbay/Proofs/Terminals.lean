import Patchbay.Proofs.Texts

/-! Terminal paths and pairs of a direction and a type correspond one for one, although a custom type
may have slashes, hyphens and even the start of a terminal path in its own name. -/

namespace Patchbay

namespace PatchPath

variable {direction other : Direction} {type rest : DataType} {path : PatchPath}

/-- The direction and type of a path with the stem of the given direction. -/
def named? (path : PatchPath) (direction : Direction) : Option (Direction × DataType) :=
  (Text.after? (terminalStem direction).toList path.text.toList).bind fun name =>
    (DataType.ofText? (String.ofList name)).map (direction, ·)

theorem terminal?_eq : path.terminal? = [Direction.input, .output].findSome? path.named? := rfl

theorem named?_eq_some_iff {found : Direction × DataType} :
    path.named? direction = some found ↔
      found.1 = direction ∧ path = terminalFor direction found.2 := by
  obtain ⟨d, t⟩ := found
  have hpath : path = terminalFor direction t ↔
      path.text.toList = (terminalStem direction).toList ++ t.text.toList := by
    rw [← text_inj, ← String.toList_append, String.toList_inj]
    rfl
  simp only [named?, Option.bind_eq_some_iff, Text.after?_eq_some_iff, Option.map_eq_some_iff,
    Prod.mk.injEq, hpath]
  constructor
  · rintro ⟨name, hname, t, htype, rfl, rfl⟩
    refine ⟨rfl, ?_⟩
    rw [hname, DataType.text_of_ofText? htype, String.toList_ofList]
  · rintro ⟨rfl, hname⟩
    refine ⟨_, hname, t, ?_, rfl, rfl⟩
    rw [String.ofList_toList, t.ofText?_text]

/-- Stems are told apart by the letter behind the root that they share, whatever follows. -/
theorem direction_eq_of_stem {cs ds : List Char}
    (h : (terminalStem direction).toList ++ cs = (terminalStem other).toList ++ ds) :
    direction = other := by
  have hletter := congrArg (·[13]?) h
  cases direction <;> cases other <;> simp [terminalStem, terminalRoot, Direction.text] at hletter ⊢

theorem terminalFor_inj (h : terminalFor direction type = terminalFor other rest) :
    direction = other ∧ type = rest := by
  have hlist := congrArg (fun path => path.text.toList) h
  simp only [terminalFor, String.toList_append] at hlist
  obtain rfl := direction_eq_of_stem hlist
  rw [List.append_cancel_left_eq] at hlist
  have hparsed := type.ofText?_text
  rw [String.toList_injective hlist, rest.ofText?_text] at hparsed
  exact ⟨rfl, (Option.some.inj hparsed).symm⟩

theorem terminal?_eq_some_iff :
    path.terminal? = some (direction, type) ↔ path = terminalFor direction type := by
  rw [terminal?_eq]
  constructor
  · intro h
    obtain ⟨d, _, hfound⟩ := List.exists_of_findSome?_eq_some h
    obtain ⟨rfl, hpath⟩ := named?_eq_some_iff.1 hfound
    exact hpath
  · rintro rfl
    have hnamed : (terminalFor direction type).named? direction = some (direction, type) :=
      named?_eq_some_iff.2 ⟨rfl, rfl⟩
    cases h : [Direction.input, .output].findSome? (terminalFor direction type).named? with
    | none =>
      have hnone := List.findSome?_eq_none_iff.1 h direction (by cases direction <;> simp)
      exact nomatch hnone.symm.trans hnamed
    | some found =>
      -- whatever is found first makes up the same path
      obtain ⟨d, _, hfound⟩ := List.exists_of_findSome?_eq_some h
      obtain ⟨hdirection, hsame⟩ := named?_eq_some_iff.1 hfound
      obtain ⟨rfl, htype⟩ := terminalFor_inj hsame
      exact congrArg some (Prod.ext hdirection htype.symm)

end PatchPath

/-- A text names a type exactly if it is one of four names or a patch path with a slash, and then it
is the text of the type. The text that is put together of the root, a direction and a type is a patch
path, the terminal of that direction and type, and no other path is a terminal of these. -/
theorem DataType.names_and_terminals (s : String) (direction : Direction) (type : DataType)
    (path : PatchPath) :
    ((∃ named, DataType.parse s = .ok named) ↔
      s ∈ ["number", "boolean", "string", "pulse"] ∨
        '/' ∈ s.toList ∧ ∃ valid, PatchPath.parse s = .ok valid) ∧
    (DataType.parse s = .ok type ↔ type.text = s) ∧
    PatchPath.parse ("xod/built-in/" ++ direction.text ++ "-" ++ type.text) =
      .ok (.terminalFor direction type) ∧
    (path.terminal? = some (direction, type) ↔ path = .terminalFor direction type) :=
  ⟨exists_parse_iff, parse_eq_ok_iff, (PatchPath.terminalFor direction type).parse_text,
    PatchPath.terminal?_eq_some_iff⟩

/-- The type is behind the first stem, even if it is a terminal path itself. -/
example : PatchPath.terminal? ⟨"xod/built-in/input-xod/built-in/output-pulse", by decide⟩ =
    some (.input, .custom (.terminalFor .output .pulse) (by decide)) := by
  decide +kernel

end Patchbay
