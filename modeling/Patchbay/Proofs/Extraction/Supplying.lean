import Patchbay.Proofs.Extraction.Delivery
import Patchbay.Proofs.Patch.Building

/-! Putting constants in place of free values never fails: what the supplies change is well-formed
already, and identifiers that nothing uses stand against nothing. -/

namespace Patchbay

variable {flat : Project} {entry : PatchPath} {library : Library} {settings : Settings}
  {patch : Patch} {supplies : List Supply}

/-- The identifiers that are derived for free values are neither nodes of the patch nor keys of its
custom pins. They need not differ: of two constants with one identifier the later stays. -/
structure Unused (entry : PatchPath) (library : Library) (patch : Patch) : Prop where
  nodes_new : ∀ b : BoundValue, b.IsFree library patch →
    patch.nodes.get? (.derived (b.seed entry)) = none
  pins_new : ∀ b : BoundValue, b.IsFree library patch →
    patch.pins.get? (NodeId.derived (b.seed entry)).toPinKey = none

namespace Extraction

variable (hfound : Found flat library settings patch supplies)
include hfound

/-- The pin that a supply feeds is free of literals, and its node and the constant are there. -/
theorem attachable_constantLink (hunused : Unused entry library patch) {joined : Patch}
    (hnodes : ∀ id, joined.nodes.get? id =
      ((supplies.reverse.find? fun s => (constantNode settings entry s).id = id).map
        (constantNode settings entry)).or ((patch.nodes.get? id).map (bare supplies)))
    {s : Supply} (hs : s ∈ supplies) : joined.Attachable (constantLink settings entry s) := by
  have hfree := hfound.isFree s hs
  have htarget : joined.nodes.get? s.node.id = some (bare supplies s.node) := by
    have hother : ∀ t ∈ supplies, (constantNode settings entry t).id ≠ s.node.id := by
      intro t ht hid
      have hnew : patch.nodes.get? (constantNode settings entry t).id = none :=
        hunused.nodes_new t.toBoundValue (hfound.isFree t ht)
      rw [hid, hfree.stored] at hnew
      exact nomatch hnew
    rw [hnodes, lookup_of_forall_ne hother, hfree.stored]
    rfl
  obtain ⟨t, _, _, hsource⟩ : ∃ t ∈ supplies,
      (constantNode settings entry t).id = (constantNode settings entry s).id ∧
        joined.nodes.get? (constantNode settings entry s).id =
          some (constantNode settings entry t) := by
    rw [hnodes]
    exact exists_lookup_of_mem hs
  refine ⟨OrderedMap.contains_iff.2 ⟨_, htarget⟩, OrderedMap.contains_iff.2 ⟨_, hsource⟩,
    fun node hnode => ?_⟩
  obtain rfl := Option.some.inj (htarget.symm.trans hnode)
  cases hbound : (bare supplies s.node).bound.get? (constantLink settings entry s).input.pin with
  | none => rfl
  | some value => exact absurd rfl ((bare_bound_eq_some.1 hbound).2 s hs rfl)

variable (hpatch : patch.WellFormed)
include hpatch

theorem exists_bared :
    ∃ bared, (bareNodes supplies).values.foldlM Patch.insertNode patch = .ok bared := by
  have hstored : ∀ s ∈ supplies, patch.nodes.get? s.node.id = some s.node :=
    fun s hs => (hfound.isFree s hs).stored
  have hbare : ∀ node ∈ (bareNodes supplies).values,
      ∃ s ∈ supplies, node = bare supplies s.node := by
    intro node hnode
    obtain ⟨id, hid⟩ := OrderedMap.mem_values_iff.1 hnode
    rw [get?_bareNodes_of_stored hstored, Option.map_eq_some_iff] at hid
    obtain ⟨s, hs, rfl⟩ := hid
    exact ⟨s, List.mem_of_find?_eq_some hs, rfl⟩
  refine Patch.exists_insertNodes (fun node hnode hterminal => ?_)
    fun node hnode pin value hvalue hlinked => ?_
  · obtain ⟨s, hs, rfl⟩ := hbare node hnode
    exact absurd hterminal (hfound.isFree s hs).ordinary
  · obtain ⟨s, hs, rfl⟩ := hbare node hnode
    obtain ⟨id, link, hlink, hinput⟩ := Patch.isLinked_iff.1 hlinked
    have hend : patch.nodes.get? link.input.node = some s.node := by
      rw [hinput]
      exact hstored s hs
    have hnone := hpatch.unbound id link s.node hlink hend
    rw [hinput, (bare_bound_eq_some.1 hvalue).1] at hnone
    exact nomatch hnone

/-- No link of the patch ends at a node that it does not have. -/
theorem exists_joined (hunused : Unused entry library patch) {bared : Patch}
    (hlinks : bared.links = patch.links) (hpins : bared.pins = patch.pins) :
    ∃ joined, (supplies.map (constantNode settings entry)).foldlM Patch.insertNode bared =
      .ok joined := by
  refine Patch.exists_insertNodes (fun node hnode _ => ?_) fun node hnode pin value _ hlinked => ?_
  · obtain ⟨s, hs, rfl⟩ := List.mem_map.1 hnode
    rw [hpins]
    exact hunused.pins_new s.toBoundValue (hfound.isFree s hs)
  · obtain ⟨s, hs, rfl⟩ := List.mem_map.1 hnode
    obtain ⟨id, link, hlink, hinput⟩ := Patch.isLinked_iff.1 hlinked
    rw [hlinks] at hlink
    obtain ⟨target, htarget⟩ := OrderedMap.contains_iff.1 (hpatch.attached id link hlink).1
    have hnew := hunused.nodes_new s.toBoundValue (hfound.isFree s hs)
    rw [hinput] at htarget
    exact nomatch hnew.symm.trans htarget

theorem exists_supplied (hunused : Unused entry library patch) :
    ∃ after, supplied settings entry supplies patch = .ok after := by
  obtain ⟨bared, hbared⟩ := exists_bared hfound hpatch
  have hkept : bared.links = patch.links ∧ bared.pins = patch.pins := by
    rw [Patch.foldlM_insertNode_eq_ok hbared]
    exact ⟨rfl, rfl⟩
  obtain ⟨joined, hjoined⟩ := exists_joined hfound hpatch hunused hkept.1 hkept.2
  have hlinks : joined.links = patch.links := by
    rw [Patch.foldlM_insertNode_eq_ok hjoined]
    exact hkept.1
  have hnodes : ∀ id, joined.nodes.get? id =
      ((supplies.reverse.find? fun s => (constantNode settings entry s).id = id).map
        (constantNode settings entry)).or ((patch.nodes.get? id).map (bare supplies)) := by
    intro id
    rw [Patch.foldlM_insertNode_eq_ok hjoined, Patch.foldlM_insertNode_eq_ok hbared]
    exact get?_replaced (fun s hs => (hfound.isFree s hs).stored) hpatch.nodes_keyed id
  have hattachable : ∀ link ∈ supplies.map (constantLink settings entry),
      joined.Attachable link := by
    intro link hlink
    obtain ⟨s, hs, rfl⟩ := List.mem_map.1 hlink
    exact attachable_constantLink hfound hunused hnodes hs
  have hfree : ∀ link ∈ supplies.map (constantLink settings entry),
      ¬ joined.isLinked link.input := by
    intro link hlink
    obtain ⟨s, hs, rfl⟩ := List.mem_map.1 hlink
    rw [Patch.isLinked, hlinks]
    exact (hfound.isFree s hs).unlinked
  have hdiffer : ∀ link ∈ supplies.map (constantLink settings entry),
      ∀ other ∈ supplies.map (constantLink settings entry), link.id ≠ other.id →
        link.input ≠ other.input := by
    intro link hlink other hother hne hinput
    obtain ⟨s, hs, rfl⟩ := List.mem_map.1 hlink
    obtain ⟨t, ht, rfl⟩ := List.mem_map.1 hother
    obtain ⟨hnode, hpin⟩ := Endpoint.mk.inj hinput
    -- links to one pin of one node have one seed
    refine hne (congrArg LinkId.derived ?_)
    rw [seed, seed, hnode, hpin]
  obtain ⟨after, hafter⟩ := Patch.exists_insertLinks hattachable hfree hdiffer
  exact ⟨after, Outcome.bind_eq_ok.2
    ⟨bared, hbared, Outcome.bind_eq_ok.2 ⟨joined, hjoined, hafter⟩⟩⟩

end Extraction

end Patchbay
