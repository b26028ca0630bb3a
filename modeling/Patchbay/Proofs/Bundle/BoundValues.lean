import Patchbay.Project.Problems
import Patchbay.Proofs.Bundle.Conversion
import Patchbay.Proofs.Patch.Interface
import Patchbay.Proofs.Project.WellFormed

/-! The literals that migration binds. They have been held against the types that the entries of a
bundle declare under the keys of their pins, which are the types of the migrated pins unless a pin
has another key than the one that it stands under. -/

namespace Patchbay

variable {project : Project} {path : PatchPath} {id : NodeId} {key : PinKey} {pin : Pin}

theorem Project.exists_of_require {patch : Patch} (h : project.require path = .ok patch) :
    project.patches.get? path = some patch := by
  unfold require Library.require at h
  split at h
  · rename_i hpatch
    cases h
    exact hpatch
  · exact nomatch h

/-- A pin that a node's type declares is one of the patch at that type. -/
theorem Project.exists_of_resolvePin {patch : Patch} {node : Node}
    (hpatch : project.patches.get? path = some patch) (hnode : patch.nodes.get? id = some node)
    (h : project.resolvePin path id key = .ok pin) :
    ∃ type, project.patches.get? node.type = some type ∧ type.pin? key = some pin := by
  obtain ⟨type, htype, hpin⟩ := Outcome.bind_eq_ok.1 h
  obtain ⟨found, hfound, htype⟩ := Outcome.bind_eq_ok.1 htype
  obtain ⟨stored, hstored, htype⟩ := Outcome.bind_eq_ok.1 htype
  cases hpatch.symm.trans (exists_of_require hfound)
  rw [Patch.requireNode, hnode] at hstored
  cases hstored
  refine ⟨type, exists_of_require htype, ?_⟩
  split at hpin
  · rename_i hfind
    cases hpin
    exact hfind
  · exact nomatch hpin

/-- The literals that are bound in a project, each with its pin. Those without a pin are left
out. -/
def Project.boundPins (project : Project) : List (Pin × Literal) :=
  project.patches.toList.flatMap fun (path, patch) => patch.nodes.toList.flatMap fun (id, node) =>
    node.bound.toList.filterMap fun (key, value) =>
      (project.resolvePin path id key).toOption.map (·, value)

theorem Project.mem_boundPins_iff {value : Literal} :
    (pin, value) ∈ project.boundPins ↔ ∃ path patch id node key,
      project.patches.get? path = some patch ∧ patch.nodes.get? id = some node ∧
      node.bound.get? key = some value ∧ project.resolvePin path id key = .ok pin := by
  simp only [boundPins, List.mem_flatMap, List.mem_filterMap, Prod.exists,
    OrderedMap.mem_toList_iff, Option.map_eq_some_iff, Prod.mk.injEq]
  constructor
  · rintro ⟨path, patch, hpatch, id, node, hnode, key, _, hbound, _, hpin, rfl, rfl⟩
    exact ⟨path, patch, id, node, key, hpatch, hnode, hbound, Outcome.toOption_eq_some_iff.1 hpin⟩
  · rintro ⟨path, patch, id, node, key, hpatch, hnode, hbound, hpin⟩
    exact ⟨path, patch, hpatch, id, node, hnode, key, value, hbound, pin,
      Outcome.toOption_eq_some_iff.2 hpin, rfl, rfl⟩

namespace Bundle

variable {bundle : Json} {entries : Entries} {entry : Entry} {patch : Patch} {node : Node}
  {value : Literal}

/-- The patch of the entry `id` has a pin under another key than the entry: one whose slot has a key
of its own, or one that a node defines. -/
inductive Entry.Displaces (entry : Entry) (id key : String) : Prop where
  | slot {old : String} {slot : Slot} (stored : entry.pins.get? old = some slot)
    (custom : slot.node = none) (own : slot.key = some key) (differs : old ≠ key)
  | terminal {old : String} {node : Instance} (stored : entry.nodes.get? old = some node)
    (terminal : node.terminal?.isSome) (derived : (NodeId.derived (seed id old)).text = key)

/-- The pins of an entry's patch have the types that the entry declares under their keys. -/
theorem Entry.Becomes.type_or_displaces {id : String} (hbecomes : entry.Becomes entries id patch)
    (hwell : patch.WellFormed) (hpin : patch.pin? key = some pin) :
    (∃ slot, entry.pins.get? key.text = some slot ∧ slot.type? = some pin.type) ∨
      entry.Displaces id key.text := by
  rcases hwell.custom_or_terminal hpin with hcustom | ⟨node, hnode, hterminal⟩
  · obtain ⟨old, slot, hslot, hname, hdescribes⟩ := hbecomes.pins.only key pin hcustom
    obtain ⟨hstored, hnone⟩ := OrderedMap.get?_filter_eq_some.1 hslot
    -- a slot that stands under another key has this one as its own
    by_cases hsame : old = key.text
    · exact .inl ⟨slot, hsame ▸ hstored, hdescribes.type⟩
    · refine .inr (.slot hstored (Option.isNone_iff_eq_none.1 hnone) ?_ hsame)
      cases hown : slot.key with
      | none =>
        rw [hown] at hname
        exact absurd hname.symm hsame
      | some own =>
        rw [hown] at hname
        exact congrArg some hname.symm
  · obtain ⟨old, _, hstored, hname, hinstance⟩ := hbecomes.nodes.only _ node hnode
    rw [hinstance.terminal?] at hterminal
    exact .inr (.terminal hstored (by rw [hterminal]; rfl) hname.symm)

/-- A literal that a migrated node binds fits the basic type of its pin, unless that pin has another
key than the entry of the node's type has it under. -/
theorem fits_or_displaced (h : (migrate bundle).outcome = .ok project)
    (hentries : Bundle.entries bundle = .ok entries)
    (hpatch : project.patches.get? path = some patch) (hnode : patch.nodes.get? id = some node)
    (hbound : node.bound.get? key = some value) (hpin : project.resolvePin path id key = .ok pin)
    (hprimitive : pin.type.isPrimitive) :
    value.fits pin.type ∨
      ∃ type, entries.get? node.type.text = some type ∧ type.Displaces node.type.text key.text := by
  obtain ⟨_, hpatches⟩ := corresponds_of_migrate h hentries
  obtain ⟨_, entry, _, _, hbecomes⟩ := hpatches.only path patch hpatch
  obtain ⟨_, old, _, _, hinstance⟩ := hbecomes.nodes.only id node hnode
  obtain ⟨_, injection, _, rfl, hgives⟩ := hinstance.bound.only key value hbound
  obtain ⟨type, htype, hdeclares⟩ := Project.exists_of_resolvePin hpatch hnode hpin
  obtain ⟨_, typeEntry, htypeEntry, rfl, htypeBecomes⟩ := hpatches.only node.type type htype
  have hwell := (wellFormed_of_migrate h).patches node.type type htype
  rcases htypeBecomes.type_or_displaces hwell hdeclares with ⟨slot, hslot, hslotType⟩ | hdisplaced
  · have hdeclared : entries.slot? node.type.text key.text = some slot :=
      Option.bind_eq_some_iff.2 ⟨typeEntry, htypeEntry, hslot⟩
    refine .inl (hgives.fits pin.type ?_ hprimitive)
    rw [← hinstance.type]
    exact Option.bind_eq_some_iff.2 ⟨slot, hdeclared, hslotType⟩
  · exact .inr ⟨typeEntry, htypeEntry, hdisplaced⟩

/-! ### A room of an older form -/

/-- A lamp and a switch, and a room where a switch that is off is linked to a lamp. -/
def oldRoom : Json :=
  .object [("meta", .object [("author", .string "ada")]),
    ("nodeTypes", .object [
      ("lamp", .object [("pins", .object [
        ("on", .object [("direction", .string "input"), ("type", .string "bool")])])]),
      ("switch", .object [("pins", .object [
        ("out", .object [("direction", .string "output"), ("type", .string "bool")])])])]),
    ("patches", .object [("room", .object [("label", .string "Room"),
      ("links", .object [("a", .object [("pins", .array [
        .object [("nodeId", .string "l"), ("pinKey", .string "on")],
        .object [("nodeId", .string "s"), ("pinKey", .string "out")]])])]),
      ("nodes", .object [("l", .object [("typeId", .string "lamp")]),
        ("s", .object [("pins", .object [("out", .object [("injected", .boolean true)])]),
          ("typeId", .string "switch")])])])])]

theorem migrates_oldRoom :
    ∃ entries project, Bundle.entries oldRoom = .ok entries ∧
      (migrate oldRoom).outcome = .ok project ∧ project.patches.size = 3 ∧
      project.problems = [] ∧
      project.boundPins.map (fun b => (b.1.type, b.2)) = [(.boolean, .boolean false)] := by
  have hrun : (migrate oldRoom).outcome.toOption.bind (fun project =>
      some (project.patches.size, project.problems,
        project.boundPins.map fun b => (b.1.type, b.2))) =
        some (3, [], [(.boolean, .boolean false)]) := by
    decide +kernel
  obtain ⟨project, hproject, hrest⟩ := Outcome.exists_of_toOption_bind hrun
  obtain ⟨hsize, hrest⟩ := Prod.mk.inj (Option.some.inj hrest)
  obtain ⟨hproblems, hbound⟩ := Prod.mk.inj hrest
  obtain ⟨entries, hentries⟩ := exists_entries_of_migrate hproject
  exact ⟨entries, project, hentries, hproject, hsize, hproblems, hbound⟩

theorem fits_oldRoom :
    ∃ entries project path patch id node key value pin, Bundle.entries oldRoom = .ok entries ∧
      (migrate oldRoom).outcome = .ok project ∧ project.patches.get? path = some patch ∧
      patch.nodes.get? id = some node ∧ node.bound.get? key = some value ∧
      project.resolvePin path id key = .ok pin ∧ pin.type.isPrimitive ∧
      (value.fits pin.type ∨ ∃ type, entries.get? node.type.text = some type ∧
        type.Displaces node.type.text key.text) := by
  obtain ⟨entries, project, hentries, hproject, _, _, hbound⟩ := migrates_oldRoom
  have hmem : (DataType.boolean, Literal.boolean false) ∈
      project.boundPins.map fun b => (b.1.type, b.2) := by
    rw [hbound]
    exact List.mem_singleton_self _
  obtain ⟨⟨pin, value⟩, hmem, htype⟩ := List.mem_map.1 hmem
  obtain ⟨path, patch, id, node, key, hpatch, hnode, hvalue, hpin⟩ :=
    Project.mem_boundPins_iff.1 hmem
  have hprimitive : pin.type.isPrimitive := by rw [(Prod.mk.inj htype).1]; rfl
  exact ⟨entries, project, path, patch, id, node, key, value, pin, hentries, hproject, hpatch,
    hnode, hvalue, hpin, hprimitive,
    fits_or_displaced hproject hentries hpatch hnode hvalue hpin hprimitive⟩

/-! ### A sign whose pin has another key -/

/-- A sign whose text has the key `line`, and one in a room where that is injected. -/
def oldSign : Json :=
  .object [
    ("nodeTypes", .object [("sign", .object [("pins", .object [
      ("text", .object [("direction", .string "input"), ("key", .string "line"),
        ("type", .string "string")])])])]),
    ("patches", .object [("room", .object [("nodes", .object [
      ("s", .object [("pins", .object [("line", .object [("injected", .boolean true)])]),
        ("typeId", .string "sign")])])])])]

/-- The sign has no pin under the key `line` in the bundle, so that `false` is bound to its text. -/
theorem displaced_pin_misfits :
    ∃ project path patch id node key value pin, (migrate oldSign).outcome = .ok project ∧
      project.patches.get? path = some patch ∧ patch.nodes.get? id = some node ∧
      node.bound.get? key = some value ∧ project.resolvePin path id key = .ok pin ∧
      pin.type.isPrimitive ∧ value.fits pin.type = false := by
  have hrun : (migrate oldSign).outcome.toOption.bind (fun project =>
      some (project.boundPins.map fun b => (b.1.type, b.2))) =
        some [(.string, .boolean false)] := by
    decide +kernel
  obtain ⟨project, hproject, hbound⟩ := Outcome.exists_of_toOption_bind hrun
  have hmem : (DataType.string, Literal.boolean false) ∈
      project.boundPins.map fun b => (b.1.type, b.2) := by
    rw [Option.some.inj hbound]
    exact List.mem_singleton_self _
  obtain ⟨⟨pin, value⟩, hmem, htype⟩ := List.mem_map.1 hmem
  obtain ⟨hstring, rfl⟩ := Prod.mk.inj htype
  obtain ⟨path, patch, id, node, key, hpatch, hnode, hvalue, hpin⟩ :=
    Project.mem_boundPins_iff.1 hmem
  have hprimitive : pin.type.isPrimitive := by rw [hstring]; rfl
  have hmisfit : (Literal.boolean false).fits pin.type = false := by rw [hstring]; rfl
  exact ⟨project, path, patch, id, node, key, _, pin, hproject, hpatch, hnode, hvalue, hpin,
    hprimitive, hmisfit⟩

end Bundle

end Patchbay
