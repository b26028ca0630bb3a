import Patchbay.Bundle.Merge
import Patchbay.Document.Scalars
import Patchbay.Proofs.Mirrors

/-! The two parts of a bundle are merged field by field. They can be merged exactly if everything is
an object that has to be one; a field of the node types then hides that of the patches, and merging
what has been merged changes nothing. -/

namespace Patchbay

/-! ### Objects -/

namespace Json

variable {α : Type} {value : Json} {name : String}

/-- Whether a value has members. -/
def isObject : Json → Bool
  | object _ => true
  | _ => false

theorem isObject_iff : value.isObject ↔ ∃ members, value = object members := by
  cases value <;> simp [isObject]

/-- A map that has been written has its entries as members. -/
theorem member?_object_toList {m : OrderedMap String Json} :
    (object m.toList).member? name = m.get? name :=
  OrderedMap.lookup_toList

theorem member?_ofMap {write : α → Json} {m : OrderedMap String α} :
    (ofMap write m).member? name = (m.get? name).map write := by
  have hwritten : ofMap write m = object (m.map fun _ => write).toList := rfl
  rw [hwritten, member?_object_toList, OrderedMap.get?_map]

end Json

namespace Bundle

variable {bundle value : Json} {part : Part} {id name : String} {fields : Fields}
  {merged found : OrderedMap String Fields}

/-! ### Entries and fields before the merge -/

/-- The entry that a part of a bundle has under an identifier. -/
def entryOf? (bundle : Json) (part : Part) (id : String) : Option Json :=
  (bundle.member? part.name).bind (·.member? id)

/-- The field of that name in the entry that a part has under an identifier. -/
def fieldOf? (bundle : Json) (part : Part) (id name : String) : Option Json :=
  (entryOf? bundle part id).bind (·.member? name)

/-- A bundle is an object, and so is each part that it has and each entry of these. -/
structure Mergeable (bundle : Json) : Prop where
  whole : bundle.isObject
  parts : ∀ (part : Part) value, bundle.member? part.name = some value → value.isObject
  entries : ∀ part id value, entryOf? bundle part id = some value → value.isObject

/-- The bundle whose patches are the given entries, and which has no node types. -/
def ofPatches (entries : OrderedMap String Fields) : Json :=
  .object [("patches", Json.ofMap (fun fields => .object fields.toList) entries)]

theorem fieldsOf_eq_ok_iff :
    fieldsOf part id value = .ok fields ↔
      value.isObject ∧ ∀ name, fields.get? name = value.member? name := by
  cases value with
  | object members =>
    simp only [fieldsOf, Json.isObject, true_and, Except.ok.injEq]
    constructor
    · rintro rfl
      exact Json.get?_fields members
    · intro h
      apply OrderedMap.ext
      intro name
      rw [Json.get?_fields, h]
      rfl
  | _ => simp [fieldsOf, Json.isObject]

theorem exists_fieldsOf_iff : (∃ fields, fieldsOf part id value = .ok fields) ↔ value.isObject := by
  constructor
  · rintro ⟨fields, h⟩
    exact (fieldsOf_eq_ok_iff.1 h).1
  · intro h
    obtain ⟨members, rfl⟩ := Json.isObject_iff.1 h
    exact ⟨_, rfl⟩

theorem isObject_of_entriesOf (h : entriesOf bundle part = .ok found)
    (hvalue : bundle.member? part.name = some value) : value.isObject := by
  rw [entriesOf, hvalue] at h
  cases value with
  | object members => rfl
  | _ => exact nomatch h

/-- A part that is an object, or is missing, is read entry by entry. -/
theorem exists_entriesOf_eq_traverse
    (h : ∀ value, bundle.member? part.name = some value → value.isObject) :
    ∃ members : OrderedMap String Json, (∀ id, members.get? id = entryOf? bundle part id) ∧
      entriesOf bundle part = members.traverse (fieldsOf part) := by
  unfold entriesOf entryOf?
  cases hvalue : bundle.member? part.name with
  | none => exact ⟨.empty, fun _ => rfl, rfl⟩
  | some value =>
    obtain ⟨members, rfl⟩ := Json.isObject_iff.1 (h value hvalue)
    exact ⟨Json.fields members, Json.get?_fields members, rfl⟩

theorem entriesOf_eq_ok_iff :
    entriesOf bundle part = .ok found ↔
      (∀ value, bundle.member? part.name = some value → value.isObject) ∧
        ∀ id, (entryOf? bundle part id).map (fieldsOf part id) = (found.get? id).map .ok := by
  constructor
  · intro h
    have hpart : ∀ value, bundle.member? part.name = some value → value.isObject :=
      fun _ => isObject_of_entriesOf h
    obtain ⟨members, hmembers, hread⟩ := exists_entriesOf_eq_traverse hpart
    rw [hread, traverse_eq_ok_iff] at h
    exact ⟨hpart, fun id => by rw [← hmembers, h]⟩
  · rintro ⟨hpart, h⟩
    obtain ⟨members, hmembers, hread⟩ := exists_entriesOf_eq_traverse hpart
    rw [hread, traverse_eq_ok_iff]
    exact fun id => by rw [hmembers, h]

theorem exists_entriesOf_iff :
    (∃ found, entriesOf bundle part = .ok found) ↔
      (∀ value, bundle.member? part.name = some value → value.isObject) ∧
        ∀ id value, entryOf? bundle part id = some value → value.isObject := by
  constructor
  · rintro ⟨found, h⟩
    obtain ⟨hpart, hentries⟩ := entriesOf_eq_ok_iff.1 h
    refine ⟨hpart, fun id value hvalue => ?_⟩
    have hid := hentries id
    rw [hvalue, Option.map_some, eq_comm, Option.map_eq_some_iff] at hid
    obtain ⟨fields, _, hfields⟩ := hid
    exact exists_fieldsOf_iff.1 ⟨fields, hfields.symm⟩
  · rintro ⟨hpart, hentries⟩
    obtain ⟨members, hmembers, hread⟩ := exists_entriesOf_eq_traverse hpart
    rw [hread]
    refine exists_traverse_eq_ok fun id value hvalue => exists_fieldsOf_iff.2 ?_
    rw [hmembers] at hvalue
    exact hentries id value hvalue

section Read

variable (h : entriesOf bundle part = .ok found)
include h

theorem contains_of_entriesOf : found.contains id ↔ (entryOf? bundle part id).isSome := by
  have hid := (entriesOf_eq_ok_iff.1 h).2 id
  rw [OrderedMap.contains, ← Option.isSome_map, ← hid, Option.isSome_map]

theorem fieldOf?_of_entriesOf :
    (found.get? id).bind (·.get? name) = fieldOf? bundle part id name := by
  have hid := (entriesOf_eq_ok_iff.1 h).2 id
  rw [fieldOf?]
  cases hentry : entryOf? bundle part id with
  | none =>
    rw [hentry, Option.map_none, eq_comm, Option.map_eq_none_iff] at hid
    rw [hid]
    rfl
  | some value =>
    rw [hentry, Option.map_some, eq_comm, Option.map_eq_some_iff] at hid
    obtain ⟨fields, hget, hfields⟩ := hid
    rw [hget]
    exact (fieldsOf_eq_ok_iff.1 hfields.symm).2 name

end Read

/-! ### The merge -/

theorem merge_eq_ok_iff :
    merge bundle = .ok merged ↔ bundle.isObject ∧ ∃ patches nodeTypes,
      entriesOf bundle .patches = .ok patches ∧ entriesOf bundle .nodeTypes = .ok nodeTypes ∧
        patches.mergeWith .override nodeTypes = merged := by
  cases bundle with
  | object members =>
    simp only [merge, Outcome.bind_eq_ok, Outcome.pure_eq_ok, Json.isObject, true_and,
      exists_and_left]
  | _ => simp [merge, Json.isObject]

theorem exists_merge_iff : (∃ merged, merge bundle = .ok merged) ↔ Mergeable bundle := by
  simp only [merge_eq_ok_iff]
  constructor
  · rintro ⟨_, hwhole, patches, nodeTypes, hpatches, hnodeTypes, _⟩
    have hread : ∀ part, ∃ found, entriesOf bundle part = .ok found := by
      rintro (_ | _)
      · exact ⟨patches, hpatches⟩
      · exact ⟨nodeTypes, hnodeTypes⟩
    exact ⟨hwhole, fun part => (exists_entriesOf_iff.1 (hread part)).1,
      fun part => (exists_entriesOf_iff.1 (hread part)).2⟩
  · intro h
    have hread : ∀ part, ∃ found, entriesOf bundle part = .ok found :=
      fun part => exists_entriesOf_iff.2 ⟨h.parts part, h.entries part⟩
    obtain ⟨patches, hpatches⟩ := hread .patches
    obtain ⟨nodeTypes, hnodeTypes⟩ := hread .nodeTypes
    exact ⟨_, h.whole, patches, nodeTypes, hpatches, hnodeTypes, rfl⟩

theorem entriesOf_ofPatches (entries : OrderedMap String Fields) :
    entriesOf (ofPatches entries) .patches = .ok entries := by
  have hpart : (ofPatches entries).member? Part.patches.name =
      some (Json.ofMap (fun fields => .object fields.toList) entries) := rfl
  have hfields : ∀ id (fields : Fields),
      fieldsOf .patches id (.object fields.toList) = .ok fields :=
    fun _ _ => fieldsOf_eq_ok_iff.2 ⟨rfl, fun _ => Json.member?_object_toList.symm⟩
  refine entriesOf_eq_ok_iff.2 ⟨fun value hvalue => ?_, fun id => ?_⟩
  · rw [hpart] at hvalue
    cases hvalue
    rfl
  · rw [entryOf?, hpart, Option.bind_some, Json.member?_ofMap, Option.map_map]
    exact congrArg (Option.map · (entries.get? id)) (funext (hfields id))

theorem merge_ofPatches (entries : OrderedMap String Fields) :
    merge (ofPatches entries) = .ok entries :=
  merge_eq_ok_iff.2 ⟨rfl, entries, .empty, entriesOf_ofPatches entries, rfl, rfl⟩

/-- The parts of a bundle can be merged exactly if all that has to be an object is one. The result
has the entries of both parts, and in them the fields of the node types, and those of the patches
that the node types do not have. Merged again it stays the same. -/
theorem merges_field_by_field (bundle : Json) :
    ((∃ merged, merge bundle = .ok merged) ↔ Mergeable bundle) ∧
    ∀ merged, merge bundle = .ok merged →
      (∀ id, merged.contains id ↔
        (entryOf? bundle .patches id).isSome ∨ (entryOf? bundle .nodeTypes id).isSome) ∧
      (∀ id name, (merged.get? id).bind (·.get? name) =
        (fieldOf? bundle .nodeTypes id name).or (fieldOf? bundle .patches id name)) ∧
      merge (ofPatches merged) = .ok merged := by
  refine ⟨exists_merge_iff, fun merged h => ?_⟩
  obtain ⟨_, patches, nodeTypes, hpatches, hnodeTypes, rfl⟩ := merge_eq_ok_iff.1 h
  refine ⟨fun id => ?_, fun id name => ?_, merge_ofPatches _⟩
  · rw [OrderedMap.contains_mergeWith, contains_of_entriesOf hpatches,
      contains_of_entriesOf hnodeTypes]
  · rw [OrderedMap.get?_bind_mergeWith_override, fieldOf?_of_entriesOf hpatches,
      fieldOf?_of_entriesOf hnodeTypes]

/-- A lamp that is in both parts, with a room among the patches and a switch among the node
types. -/
def sharedLamp : Json :=
  .object [
    ("nodeTypes", .object [
      ("lamp", .object [("label", .string "Lamp"), ("pins", .object [])]),
      ("switch", .object [("label", .string "Switch")])]),
    ("patches", .object [
      ("lamp", .object [("impl", .object []), ("label", .string "Bulb")]),
      ("room", .object [("label", .string "Room")])])]

theorem merges_sharedLamp :
    ∃ merged, merge sharedLamp = .ok merged ∧
      (merged.contains "lamp" ∧ merged.contains "room" ∧ merged.contains "switch") ∧
      (merged.get? "lamp").bind (·.get? "label") = some (.string "Lamp") ∧
      (merged.get? "lamp").bind (·.get? "impl") = some (.object []) ∧
      (merged.get? "room").bind (·.get? "label") = some (.string "Room") ∧
      (merged.get? "room").bind (·.get? "pins") = none ∧
      merge (ofPatches merged) = .ok merged := by
  have hrun : (merge sharedLamp).toOption.isSome := by decide +kernel
  obtain ⟨merged, hmerged⟩ := Option.isSome_iff_exists.1 hrun
  have hmerged := Outcome.toOption_eq_some_iff.1 hmerged
  obtain ⟨hids, hfields, hagain⟩ := (merges_field_by_field sharedLamp).2 merged hmerged
  exact ⟨merged, hmerged,
    ⟨(hids "lamp").2 (.inl rfl), (hids "room").2 (.inl rfl), (hids "switch").2 (.inr rfl)⟩,
    hfields "lamp" "label", hfields "lamp" "impl", hfields "room" "label", hfields "room" "pins",
    hagain⟩

end Bundle

end Patchbay
