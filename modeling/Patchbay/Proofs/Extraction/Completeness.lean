import Patchbay.Proofs.Extraction.Rewriting
import Patchbay.Proofs.Project.Reachable

/-! An extraction leaves literals only where none has to be extracted, so that a second one finds
nothing to do. This needs no assumption on the identifiers of the new nodes: a constant that took
the place of a node carries its literal at its own output. -/

namespace Patchbay

variable {flat r : Project} {entry : PatchPath} {library : Library} {settings : Settings}
  {patch after : Patch} {supplies : List Supply}

/-- A pin whose literal an extraction leaves: one of a terminal, or an output of the node's type in
the library. -/
def Node.Keeps (library : Library) (node : Node) (pin : PinKey) : Prop :=
  node.isTerminal ∨
    ∃ type, library node.type = some type ∧ ∃ output ∈ type.outputs, output.key = pin

namespace Extraction

/-- The literal of a constant stays, as it is at an output of the constant's type. -/
theorem keeps_constantNode {s : Supply} {pin : PinKey} {value : Literal}
    (hsource : s.HasSource library)
    (hbound : (constantNode settings entry s).bound.get? pin = some value) :
    (constantNode settings entry s).Keeps library pin := by
  obtain ⟨constant, output, hconstant, hhead, hkey⟩ := hsource
  have hpin : pin = s.output := by
    have hmem := OrderedMap.mem_of_get?_ofList hbound
    exact congrArg Prod.fst (List.mem_singleton.1 hmem)
  refine .inr ⟨constant, hconstant, output, List.mem_of_mem_head? hhead, ?_⟩
  rw [hpin, hkey]

/-- A literal that is left at an old node is one that was not free. -/
theorem keeps_bare {id : NodeId} {node : Node} {pin : PinKey} {value : Literal}
    (hpatch : patch.WellFormed) (hfound : Found flat library settings patch supplies)
    (hnode : patch.nodes.get? id = some node)
    (hbound : (bare supplies node).bound.get? pin = some value) :
    (bare supplies node).Keeps library pin := by
  obtain ⟨hold, hnotTaken⟩ := bare_bound_eq_some.1 hbound
  have hid : node.id = id := hpatch.nodes_keyed id node hnode
  by_cases hterminal : node.isTerminal
  · exact .inl hterminal
  · obtain ⟨type, htype⟩ := hfound.known id node pin value hnode hold hterminal
    refine .inr ⟨type, htype, ?_⟩
    by_contra hnotOutput
    have hunlinked : ¬ patch.isLinked ⟨node.id, pin⟩ := by
      intro hlinked
      obtain ⟨_, link, hlink, hinput⟩ := Patch.isLinked_iff.1 hlinked
      have hnone := hpatch.unbound _ link node hlink (by rw [hinput, hid]; exact hnode)
      rw [hinput, hold] at hnone
      exact nomatch hnone
    have hfree : BoundValue.IsFree library patch ⟨node, pin, value⟩ := by
      refine ⟨by rw [hid]; exact hnode, hold, hterminal, hunlinked, ?_⟩
      intro other hother output houtput hkey
      cases htype.symm.trans hother
      exact hnotOutput ⟨output, houtput, hkey⟩
    obtain ⟨s, hs, hsame⟩ := hfound.all _ hfree
    exact hnotTaken s hs (congrArg (·.node.id) hsame) (congrArg BoundValue.pin hsame)

/-- Every literal of the new patch is one that stays, at old nodes and at new ones. -/
theorem keeps_of_rewritten {id : NodeId} {node : Node} {pin : PinKey} {value : Literal}
    (hpatch : patch.WellFormed) (hfound : Found flat library settings patch supplies)
    (hrewritten : Rewritten settings entry supplies patch after)
    (hnode : after.nodes.get? id = some node) (hbound : node.bound.get? pin = some value) :
    node.Keeps library pin := by
  rw [hrewritten.nodes, Option.or_eq_some_iff, Option.map_eq_some_iff] at hnode
  rcases hnode with ⟨s, hs, rfl⟩ | ⟨_, hold⟩
  · have hmem : s ∈ supplies := List.mem_reverse.1 (List.mem_of_find?_eq_some hs)
    exact keeps_constantNode (hfound.source s hmem) hbound
  · obtain ⟨old, hnode, rfl⟩ := Option.map_eq_some_iff.1 hold
    exact keeps_bare hpatch hfound hnode hbound

/-! ### The second pass -/

/-- The search neither finds anything at a node whose literals stay nor fails there. -/
theorem freeValues_eq_nil {node : Node} (hstored : patch.nodes.get? node.id = some node)
    (h : ∀ pin value, node.bound.get? pin = some value → node.Keeps library pin) :
    freeValues library patch node = .ok [] := by
  cases hfree : freeValues library patch node with
  | ok free =>
    have hnone : ∀ b, b ∉ free := by
      intro b hb
      obtain ⟨rfl, hisFree⟩ := (mem_freeValues_iff hstored hfree).1 hb
      rcases h b.pin b.value hisFree.bound with hterminal | ⟨type, htype, output, houtput, hkey⟩
      · exact hisFree.ordinary hterminal
      · exact hisFree.notOutput type htype output houtput hkey
    rw [List.eq_nil_iff_forall_not_mem.2 hnone]
  | error e =>
    exfalso
    unfold freeValues at hfree
    split at hfree
    · exact nomatch hfree
    · rename_i hsome
      rw [Bool.or_eq_true_iff, not_or] at hsome
      -- any of the literals tells that the library has the type
      obtain ⟨⟨pin, value⟩, hmem⟩ := List.exists_mem_of_ne_nil _ (mt List.isEmpty_iff.2 hsome.1)
      rcases h pin value (OrderedMap.get?_eq_some_iff.2 hmem) with hterminal | ⟨type, htype, _⟩
      · exact hsome.2 hterminal
      · rw [require_eq_ok_iff.2 htype] at hfree
        exact nomatch hfree

theorem extraction_eq_nil (hpatch : r.patches.get? entry = some patch)
    (hkeyed : ∀ id node, patch.nodes.get? id = some node → node.id = id)
    (h : ∀ id node pin value, patch.nodes.get? id = some node → node.bound.get? pin = some value →
      node.Keeps library pin) :
    r.extraction entry library settings = .ok {} := by
  have hrequire : r.require entry = .ok patch := require_eq_ok_iff.2 hpatch
  have hnode : ∀ node ∈ patch.nodes.values,
      extractsOf r library settings patch node = .ok [] := by
    intro node hmem
    have hid := OrderedMap.get?_of_mem_values hkeyed hmem
    have hnone := freeValues_eq_nil hid fun pin value => h node.id node pin value hid
    rw [extractsOf, hnone]
    rfl
  have hall : patch.nodes.values.mapM (extractsOf r library settings patch) =
      .ok (patch.nodes.values.map fun _ => []) := by
    rw [Outcome.mapM_eq_ok_iff, List.forall₂_map_right_iff, List.forall₂_same]
    exact hnode
  have hextracts : extracts r library settings patch = .ok [] := by
    rw [extracts, hall]
    show Except.ok (patch.nodes.values.map fun _ => ([] : List Extract)).flatten = _
    rw [List.flatten_eq_nil_iff.2 (by simp)]
  rw [Project.extraction, hrequire]
  show (extracts r library settings patch >>= _) = _
  rw [hextracts]
  rfl

/-- After an extraction literals are left at terminals and outputs only, and extracting again
succeeds and changes nothing. -/
theorem complete_and_idempotent (hflat : flat.Reachable)
    (h : (flat.extract entry library settings).outcome = .ok r) :
    (∃ after, r.patches.get? entry = some after ∧
      ∀ id node pin value, after.nodes.get? id = some node → node.bound.get? pin = some value →
        node.isTerminal ∨
          ∃ type, library node.type = some type ∧ ∃ output ∈ type.outputs, output.key = pin) ∧
      (r.extract entry library settings).outcome = .ok r := by
  obtain ⟨patch, after, supplies, hextracted⟩ := exists_extracted hflat.wellFormed h
  have hpatch := hflat.wellFormed.patches entry patch hextracted.before
  have hkeeps : ∀ id node pin value, after.nodes.get? id = some node →
      node.bound.get? pin = some value → node.Keeps library pin := fun _ _ _ _ hnode hbound =>
    keeps_of_rewritten hpatch hextracted.found hextracted.rewritten hnode hbound
  refine ⟨⟨after, hextracted.result, hkeeps⟩, ?_⟩
  exact outcome_extract_eq_ok.2 ⟨{},
    extraction_eq_nil hextracted.result hextracted.wellFormed.nodes_keyed hkeeps, rfl⟩

open Lamps in
theorem complete_and_idempotent_lamps :
    ∃ r, (project.extract main shelf.library {}).outcome = .ok r ∧ r ≠ project ∧
      (∃ after, r.patches.get? main = some after ∧
        ∀ id node pin value, after.nodes.get? id = some node → node.bound.get? pin = some value →
          node.isTerminal ∨ ∃ type, shelf.library node.type = some type ∧
            ∃ output ∈ type.outputs, output.key = pin) ∧
      (r.extract main shelf.library {}).outcome = .ok r := by
  obtain ⟨r, hr, hsize⟩ := exists_extract
  refine ⟨r, hr, ?_, complete_and_idempotent reachable_project hr⟩
  rintro rfl
  exact absurd hsize (by decide +kernel)

end Extraction

end Patchbay
