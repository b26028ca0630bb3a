import Patchbay.Patch.Interface
import Patchbay.Proofs.Patch.WellFormed

/-! The pins of a patch: its custom pins and one for each terminal node. The keys of a well-formed
patch's pins differ, so that looking up a key finds the one pin that has it. -/

namespace Patchbay

/-- Different nodes define pins with different keys. -/
theorem NodeId.toPinKey_inj {a b : NodeId} : a.toPinKey = b.toPinKey ↔ a = b :=
  ⟨fun h => text_inj.1 (congrArg Identifier.text h : a.toPinKey.text = b.toPinKey.text),
    congrArg _⟩

namespace Patch

variable {patch : Patch} {direction : Direction} {key : PinKey} {pin : Pin}

/-! ### Terminal nodes -/

theorem mem_terminals_iff {type : DataType} {node : Node} :
    (type, node) ∈ patch.terminals direction ↔
      node ∈ patch.nodes.values ∧ node.terminal? = some (direction, type) := by
  rw [terminals, List.mem_mergeSort, List.mem_filterMap]
  constructor
  · rintro ⟨other, hother, hmatch⟩
    split at hmatch
    · rename_i found declared hterminal
      split at hmatch
      · rename_i hdirection
        cases hmatch
        exact ⟨hother, hdirection ▸ hterminal⟩
      · exact nomatch hmatch
    · exact nomatch hmatch
  · rintro ⟨hnode, hterminal⟩
    exact ⟨node, hnode, by simp [hterminal]⟩

/-- Terminals of one direction are nodes of the patch, each listed once. -/
theorem WellFormed.pairwise_terminals (h : patch.WellFormed) :
    (patch.terminals direction).Pairwise fun a b => a.2.id ≠ b.2.id := by
  rw [terminals, (List.mergeSort_perm _ _).pairwise_iff Ne.symm, List.pairwise_filterMap]
  refine (OrderedMap.pairwise_values h.nodes_keyed).imp fun {a b} hne s hs t ht => ?_
  have hnode : s.2 = a ∧ t.2 = b := by grind
  rwa [hnode.1, hnode.2]

/-! ### Pins of terminals -/

theorem mem_terminalPins (hpin : pin ∈ patch.terminalPins direction) :
    ∃ node ∈ patch.nodes.values, node.terminal? = some (direction, pin.type) ∧
      pin.key = node.id.toPinKey ∧ pin.direction = direction := by
  obtain ⟨⟨⟨type, node⟩, i⟩, hindexed, rfl⟩ := List.mem_map.1 hpin
  have hmem : (type, node) ∈ patch.terminals direction := List.fst_mem_of_mem_zipIdx hindexed
  obtain ⟨hnode, hterminal⟩ := mem_terminals_iff.1 hmem
  exact ⟨node, hnode, hterminal, rfl, rfl⟩

theorem keys_terminalPins :
    (patch.terminalPins direction).map Pin.key =
      (patch.terminals direction).map (·.2.id.toPinKey) := by
  rw [terminalPins, List.map_map, ← List.zipIdx_map_fst 0 (patch.terminals direction),
    List.map_map]
  simp

theorem exists_mem_terminalPins {type : DataType} {node : Node} (hnode : node ∈ patch.nodes.values)
    (hterminal : node.terminal? = some (direction, type)) :
    ∃ pin ∈ patch.terminalPins direction, pin.key = node.id.toPinKey ∧ pin.type = type := by
  have hmem := mem_terminals_iff.2 ⟨hnode, hterminal⟩
  rw [← List.zipIdx_map_fst 0 (patch.terminals direction)] at hmem
  obtain ⟨⟨t, i⟩, hindexed, rfl⟩ := List.mem_map.1 hmem
  exact ⟨_, List.mem_map_of_mem hindexed, rfl, rfl⟩

/-! ### The interface -/

theorem mem_interface_iff :
    pin ∈ patch.interface ↔
      pin ∈ patch.pins.values ∨ ∃ direction, pin ∈ patch.terminalPins direction := by
  rw [interface, List.mem_mergeSort, List.mem_append, List.mem_append, or_assoc]
  refine or_congr_right ⟨fun h => h.elim (⟨.input, ·⟩) (⟨.output, ·⟩), ?_⟩
  rintro ⟨_ | _, h⟩
  · exact .inl h
  · exact .inr h

namespace WellFormed

variable (h : patch.WellFormed)
include h

theorem key_ne_of_terminalPins {terminal : Pin} (hpin : pin ∈ patch.pins.values)
    (hterminal : terminal ∈ patch.terminalPins direction) : pin.key ≠ terminal.key := by
  intro hkey
  obtain ⟨node, hnode, hnodeTerminal, hnodeKey, _⟩ := mem_terminalPins hterminal
  refine h.distinct _ pin _ node (OrderedMap.get?_of_mem_values h.pins_keyed hpin)
    (OrderedMap.get?_of_mem_values h.nodes_keyed hnode) ?_ ?_
  · rw [Node.isTerminal, hnodeTerminal]
    rfl
  · rw [hkey, hnodeKey]
    rfl

theorem key_ne_of_directions {output : Pin} (hpin : pin ∈ patch.terminalPins .input)
    (houtput : output ∈ patch.terminalPins .output) : pin.key ≠ output.key := by
  intro hkey
  obtain ⟨node, hnode, hterminal, hnodeKey, _⟩ := mem_terminalPins hpin
  obtain ⟨rival, hrival, hrivalTerminal, hrivalKey, _⟩ := mem_terminalPins houtput
  rw [hnodeKey, hrivalKey, NodeId.toPinKey_inj] at hkey
  have hstored := OrderedMap.get?_of_mem_values h.nodes_keyed hnode
  rw [hkey, OrderedMap.get?_of_mem_values h.nodes_keyed hrival] at hstored
  cases hstored
  exact nomatch hterminal.symm.trans hrivalTerminal

/-- No two pins of the interface share a key: custom pins avoid the identifiers of terminals, and a
terminal has one direction. -/
theorem nodup_interface : (patch.interface.map Pin.key).Nodup := by
  have hcustom : (patch.pins.values.map Pin.key).Nodup :=
    List.pairwise_map.2 (OrderedMap.pairwise_values h.pins_keyed)
  have hterminals : ∀ direction, ((patch.terminalPins direction).map Pin.key).Nodup := by
    intro direction
    rw [keys_terminalPins]
    exact List.pairwise_map.2 (h.pairwise_terminals.imp (mt NodeId.toPinKey_inj.1))
  rw [interface, ((List.mergeSort_perm _ _).map _).nodup_iff, List.map_append, List.map_append,
    List.nodup_append, List.nodup_append]
  refine ⟨⟨hcustom, hterminals .input, ?_⟩, hterminals .output, ?_⟩
  · have hinputs : ∀ pin ∈ patch.pins.values, ∀ other ∈ patch.terminalPins .input,
        pin.key ≠ other.key := fun _ hpin _ => h.key_ne_of_terminalPins hpin
    simpa using hinputs
  · have hall : ∀ pin ∈ patch.pins.values ++ patch.terminalPins .input,
        ∀ other ∈ patch.terminalPins .output, pin.key ≠ other.key := by
      intro pin hpin other hother
      rcases List.mem_append.1 hpin with hpin | hpin
      · exact h.key_ne_of_terminalPins hpin hother
      · exact h.key_ne_of_directions hpin hother
    simpa [or_imp, forall_and] using hall

theorem pin?_eq_some_iff : patch.pin? key = some pin ↔ pin ∈ patch.interface ∧ pin.key = key := by
  constructor
  · intro hpin
    exact ⟨List.mem_of_find?_eq_some hpin, by simpa using List.find?_some hpin⟩
  · rintro ⟨hmem, rfl⟩
    cases hfound : patch.pin? pin.key with
    | none => simpa using List.find?_eq_none.1 hfound pin hmem
    | some found =>
      have hkey : found.key = pin.key := by simpa using List.find?_some hfound
      exact congrArg some (List.inj_on_of_nodup_map h.nodup_interface
        (List.mem_of_find?_eq_some hfound) hmem hkey)

/-! ### Finding pins -/

theorem pin?_of_custom (hpin : patch.pins.get? key = some pin) : patch.pin? key = some pin :=
  h.pin?_eq_some_iff.2 ⟨mem_interface_iff.2 (.inl (OrderedMap.mem_values_iff.2 ⟨key, hpin⟩)),
    h.pins_keyed key pin hpin⟩

theorem pin?_of_terminal {id : NodeId} {node : Node} {type : DataType}
    (hnode : patch.nodes.get? id = some node)
    (hterminal : node.terminal? = some (direction, type)) :
    ∃ pin, patch.pin? id.toPinKey = some pin ∧ pin.direction = direction ∧ pin.type = type := by
  have hmem : node ∈ patch.nodes.values := OrderedMap.mem_values_iff.2 ⟨id, hnode⟩
  obtain ⟨pin, hpin, hkey, rfl⟩ := exists_mem_terminalPins hmem hterminal
  obtain ⟨_, _, _, _, hdirection⟩ := mem_terminalPins hpin
  rw [h.nodes_keyed id node hnode] at hkey
  exact ⟨pin, h.pin?_eq_some_iff.2 ⟨mem_interface_iff.2 (.inr ⟨direction, hpin⟩), hkey⟩,
    hdirection, rfl⟩

/-- A pin is one of the custom pins or that of the terminal whose identifier is its key. -/
theorem custom_or_terminal (hpin : patch.pin? key = some pin) :
    patch.pins.get? key = some pin ∨
      ∃ node, patch.nodes.get? key.toNodeId = some node ∧
        node.terminal? = some (pin.direction, pin.type) := by
  obtain ⟨hmem, rfl⟩ := h.pin?_eq_some_iff.1 hpin
  rcases mem_interface_iff.1 hmem with hcustom | ⟨direction, hterminal⟩
  · exact .inl ((OrderedMap.get?_of_mem_values h.pins_keyed hcustom))
  · obtain ⟨node, hnode, htype, hkey, hdirection⟩ := mem_terminalPins hterminal
    refine .inr ⟨node, ?_, by rw [hdirection]; exact htype⟩
    rw [hkey]
    exact OrderedMap.get?_of_mem_values h.nodes_keyed hnode

end WellFormed

/-! ### Pins of a direction -/

/-- The patch has a pin with the given key, and it has the given direction. -/
def Offers (patch : Patch) (key : PinKey) (direction : Direction) : Prop :=
  ∃ pin, patch.pin? key = some pin ∧ pin.direction = direction

theorem WellFormed.offers_iff (h : patch.WellFormed) :
    patch.Offers key direction ↔
      (∃ pin, patch.pins.get? key = some pin ∧ pin.direction = direction) ∨
        ∃ node type, patch.nodes.get? key.toNodeId = some node ∧
          node.terminal? = some (direction, type) := by
  constructor
  · rintro ⟨pin, hpin, rfl⟩
    rcases h.custom_or_terminal hpin with hcustom | ⟨node, hnode, hterminal⟩
    · exact .inl ⟨pin, hcustom, rfl⟩
    · exact .inr ⟨node, pin.type, hnode, hterminal⟩
  · rintro (⟨pin, hpin, hdirection⟩ | ⟨node, type, hnode, hterminal⟩)
    · exact ⟨pin, h.pin?_of_custom hpin, hdirection⟩
    · obtain ⟨pin, hpin, hdirection, _⟩ := h.pin?_of_terminal hnode hterminal
      exact ⟨pin, hpin, hdirection⟩

theorem WellFormed.offers_output_iff (h : patch.WellFormed) :
    patch.Offers key .output ↔ ∃ output ∈ patch.outputs, output.key = key := by
  simp only [Offers, h.pin?_eq_some_iff, outputs, List.mem_filter, Pin.isOutput, decide_eq_true_eq]
  constructor
  · rintro ⟨pin, ⟨hmem, hkey⟩, hdirection⟩
    exact ⟨pin, ⟨hmem, hdirection⟩, hkey⟩
  · rintro ⟨pin, ⟨hmem, hdirection⟩, hkey⟩
    exact ⟨pin, ⟨hmem, hkey⟩, hdirection⟩

/-- Two patches have pins with the same keys in the same directions. -/
def OffersAlike (a b : Patch) : Prop :=
  ∀ key direction, a.Offers key direction ↔ b.Offers key direction

theorem OffersAlike.of_interface_eq {a b : Patch} (h : a.interface = b.interface) :
    a.OffersAlike b := by
  intro key direction
  rw [Offers, Offers, pin?, pin?, h]

end Patch

end Patchbay
