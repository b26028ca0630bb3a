import Mathlib.Tactic.SplitIfs
import Patchbay.Validation

/-! Identifiers, paths and types are read from their texts, and from no others. -/

namespace Patchbay

/-! ### Reading what has been written -/

theorem Identifier.parse_text {kind : Identifier.Kind} (id : Identifier kind) :
    Identifier.parse id.text = .ok id := by
  rw [Identifier.parse, Identifier.ofText?, dif_pos id.visible]

theorem PatchPath.ofText_text (path : PatchPath) : PatchPath.ofText path.text = .ok path := by
  unfold PatchPath.ofText
  split
  · rfl
  · rename_i h
    exact nomatch path.valid.symm.trans h

theorem PatchPath.parse_text (path : PatchPath) : PatchPath.parse path.text = .ok path := by
  rw [PatchPath.parse, path.ofText_text]

/-- A custom type's path has a slash and is no name of a basic type. -/
theorem DataType.ofText?_text (type : DataType) : DataType.ofText? type.text = some type := by
  cases type with
  | custom path qualified =>
    have hne : ∀ name : String, name.toList.contains '/' = false → path.text ≠ name := by
      rintro name hname rfl
      exact nomatch hname.symm.trans qualified
    rw [DataType.text, DataType.ofText?, if_neg (hne _ rfl), if_neg (hne _ rfl),
      if_neg (hne _ rfl), if_neg (hne _ rfl), path.ofText_text]
    exact dif_pos qualified
  | _ => rfl

theorem DataType.parse_text (type : DataType) : DataType.parse type.text = .ok type := by
  rw [DataType.parse, type.ofText?_text]

/-! ### Writing what has been read -/

theorem Identifier.text_of_parse {kind : Kind} {s : String} {id : Identifier kind}
    (h : Identifier.parse s = .ok id) : id.text = s := by
  unfold Identifier.parse Identifier.ofText? at h
  by_cases hvisible : Text.isBlank s = false
  · rw [dif_pos hvisible] at h
    cases h
    rfl
  · rw [dif_neg hvisible] at h
    exact nomatch h

theorem PatchPath.text_of_ofText {s : String} {path : PatchPath}
    (h : PatchPath.ofText s = .ok path) : path.text = s := by
  unfold PatchPath.ofText at h
  split at h
  · cases h
    rfl
  · exact nomatch h

theorem PatchPath.text_of_parse {s : String} {path : PatchPath} (h : PatchPath.parse s = .ok path) :
    path.text = s := by
  unfold PatchPath.parse at h
  split at h
  · rename_i hpath
    cases h
    exact text_of_ofText hpath
  · exact nomatch h

theorem DataType.ofText?_of_parse {s : String} {type : DataType}
    (h : DataType.parse s = .ok type) : DataType.ofText? s = some type := by
  unfold DataType.parse at h
  split at h
  · rename_i htype
    cases h
    exact htype
  · exact nomatch h

theorem DataType.text_of_ofText? {s : String} {type : DataType}
    (h : DataType.ofText? s = some type) : type.text = s := by
  unfold DataType.ofText? at h
  split_ifs at h with hnumber hboolean hstring hpulse
  · cases h
    exact hnumber.symm
  · cases h
    exact hboolean.symm
  · cases h
    exact hstring.symm
  · cases h
    exact hpulse.symm
  · split at h
    · cases h
    · rename_i path hpath
      split_ifs at h
      cases h
      exact PatchPath.text_of_ofText hpath

/-! ### Which texts are read -/

theorem Identifier.exists_parse_iff {kind : Kind} {s : String} :
    (∃ id : Identifier kind, Identifier.parse s = .ok id) ↔ Text.isBlank s = false := by
  constructor
  · rintro ⟨id, h⟩
    rw [← text_of_parse h]
    exact id.visible
  · exact fun h => ⟨⟨s, h⟩, parse_text ⟨s, h⟩⟩

theorem PatchPath.exists_parse_iff {s : String} :
    (∃ path, PatchPath.parse s = .ok path) ↔ fault? s = none := by
  constructor
  · rintro ⟨path, h⟩
    rw [← text_of_parse h]
    exact path.valid
  · exact fun h => ⟨⟨s, h⟩, parse_text ⟨s, h⟩⟩

theorem DataType.parse_of_ofText? {s : String} {type : DataType}
    (h : DataType.ofText? s = some type) : DataType.parse s = .ok type := by
  rw [DataType.parse, h]

theorem DataType.parse_eq_ok_iff {s : String} {type : DataType} :
    DataType.parse s = .ok type ↔ type.text = s := by
  constructor
  · exact fun h => text_of_ofText? (ofText?_of_parse h)
  · rintro rfl
    exact type.parse_text

/-- A type is named by one of four names or by a qualified path. -/
theorem DataType.exists_parse_iff {s : String} :
    (∃ type, DataType.parse s = .ok type) ↔
      s ∈ ["number", "boolean", "string", "pulse"] ∨
        '/' ∈ s.toList ∧ ∃ path, PatchPath.parse s = .ok path := by
  simp only [parse_eq_ok_iff]
  constructor
  · rintro ⟨type, rfl⟩
    cases type with
    | custom path qualified =>
      exact .inr ⟨List.contains_iff_mem.1 qualified, path, path.parse_text⟩
    | _ => simp [text]
  · rintro (hname | ⟨hslash, path, hpath⟩)
    · simp only [List.mem_cons, List.not_mem_nil, or_false] at hname
      rcases hname with rfl | rfl | rfl | rfl
      · exact ⟨number, rfl⟩
      · exact ⟨boolean, rfl⟩
      · exact ⟨string, rfl⟩
      · exact ⟨pulse, rfl⟩
    · obtain rfl := PatchPath.text_of_parse hpath
      exact ⟨custom path (List.contains_iff_mem.2 hslash), rfl⟩

/-! ### Equal texts -/

theorem Identifier.text_injective {kind : Kind} {a b : Identifier kind} (h : a.text = b.text) :
    a = b :=
  text_inj.1 h

end Patchbay
