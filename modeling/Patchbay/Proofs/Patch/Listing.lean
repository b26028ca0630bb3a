import Mathlib.Data.List.Sort
import Patchbay.Proofs.Numbers
import Patchbay.Proofs.Patch.Interface
import Patchbay.Proofs.Project.Reachable

/-! The pins of a patch as a list: inputs before outputs and each direction in order, with one pin
for each terminal. The pins of terminals are numbered from left to right. -/

namespace Patchbay

/-! ### Orders -/

/-- Inputs come before outputs, and pins of one direction are in the order of their numbers, then of
their keys. -/
def Pin.Precedes (a b : Pin) : Prop :=
  a.direction = .input ∧ b.direction = .output ∨
    a.direction = b.direction ∧
      (a.order < b.order ∨ a.order = b.order ∧ a.key.text < b.key.text)

/-- A node lies further left than another, or at the same place and has a smaller identifier. Places
are compared in the total order of all numbers. -/
def Node.Precedes (a b : Node) : Prop :=
  a.position.x.rank < b.position.x.rank ∨
    a.position.x = b.position.x ∧ a.id.text < b.id.text

instance : Std.Asymm Node.Precedes where
  asymm a b := by
    rintro (hx | ⟨hx, hid⟩) (hback | ⟨hback, hbackId⟩)
    · omega
    · rw [hback] at hx
      omega
    · rw [hx] at hback
      omega
    · exact String.lt_asymm hid hbackId

theorem compare_text {s t : String} : compare s t = .lt ↔ s < t := compareOfLessAndEq_eq_lt

/-- Sorting by a comparison leaves nothing before what compares as smaller. -/
theorem pairwise_mergeSort_isLE {α : Type} (cmp : α → α → Ordering) [Std.TransCmp cmp]
    (l : List α) :
    (l.mergeSort fun a b => (cmp a b).isLE).Pairwise fun a b => (cmp a b).isLE := by
  refine List.pairwise_mergeSort (fun a b c => Std.TransCmp.isLE_trans) (fun a b => ?_) l
  have hswap : cmp b a = (cmp a b).swap := Std.OrientedCmp.eq_swap
  rw [hswap]
  cases cmp a b <;> rfl

theorem Direction.rank_lt_iff {a b : Direction} : a.rank < b.rank ↔ a = .input ∧ b = .output := by
  cases a <;> cases b <;> decide

theorem Direction.rank_inj {a b : Direction} : a.rank = b.rank ↔ a = b := by
  cases a <;> cases b <;> decide

theorem Pin.precedes_of_listedBefore {a b : Pin} (h : a.listedBefore b) (hne : a.key ≠ b.key) :
    a.Precedes b := by
  have hkey : a.key.text ≠ b.key.text := fun he => hne (text_inj.1 he)
  simpa only [Precedes, listedBefore, Ordering.isLE_iff_eq_lt_or_eq_eq, Ordering.then_eq_lt,
    Ordering.then_eq_eq, Std.compare_eq_lt, compare_text, Std.LawfulEqOrd.compare_eq_iff_eq, hkey,
    and_false, or_false, Direction.rank_lt_iff, Direction.rank_inj] using h

theorem Node.precedes_of_leftOf {a b : Node} (h : a.leftOf b) (hne : a.id ≠ b.id) :
    a.Precedes b := by
  have hid : a.id.text ≠ b.id.text := fun he => hne (text_inj.1 he)
  simpa only [Precedes, leftOf, Ordering.isLE_iff_eq_lt_or_eq_eq, Ordering.then_eq_lt,
    Ordering.then_eq_eq, Std.compare_eq_lt, compare_text, Std.LawfulEqOrd.compare_eq_iff_eq, hid,
    and_false, or_false, Number.rank_inj] using h

/-! ### Pins of terminals -/

/-- The pin that a terminal node defines: it has the node's identifier as its key and the node's
label, and direction and type are told by the node's type. -/
structure Node.Defines (node : Node) (pin : Pin) : Prop where
  key : pin.key = node.id.toPinKey
  terminal : node.terminal? = some (pin.direction, pin.type)
  label : pin.label = node.label
  injected : pin.injected = false
  value : pin.value = none

namespace Patch

variable {patch : Patch} {direction : Direction} {pin : Pin}

theorem WellFormed.pairwise_terminals_precedes (h : patch.WellFormed) :
    (patch.terminals direction).Pairwise fun a b => a.2.Precedes b.2 := by
  have hsorted : (patch.terminals direction).Pairwise fun a b => a.2.leftOf b.2 := by
    unfold terminals
    exact pairwise_mergeSort_isLE
      (compareLex (compareOn fun t : DataType × Node => t.2.position.x.rank)
        (compareOn fun t => t.2.id.text)) _
  exact hsorted.imp₂ (fun _ _ => Node.precedes_of_leftOf) h.pairwise_terminals

theorem WellFormed.pairwise_interface (h : patch.WellFormed) :
    patch.interface.Pairwise Pin.Precedes := by
  have hsorted : patch.interface.Pairwise fun a b => a.listedBefore b := by
    unfold interface
    exact pairwise_mergeSort_isLE
      (compareLex (compareOn fun pin : Pin => pin.direction.rank)
        (compareLex (compareOn Pin.order) (compareOn fun pin => pin.key.text))) _
  exact hsorted.imp₂ (fun _ _ => Pin.precedes_of_listedBefore)
    (List.pairwise_map.1 h.nodup_interface)

theorem length_terminals_le : (patch.terminals direction).length ≤ patch.nodes.size := by
  rw [terminals, List.length_mergeSort]
  exact (List.length_filterMap_le _ _).trans_eq (List.length_map _)

theorem mem_terminalPins_iff :
    pin ∈ patch.terminalPins direction ↔
      ∃ i type node, (patch.terminals direction)[i]? = some (type, node) ∧
        pin = { key := node.id.toPinKey, type, direction, order := UInt32.ofNat i,
                label := node.label } := by
  simp only [terminalPins, List.mem_map, Prod.exists, List.mem_zipIdx_iff_getElem?]
  constructor
  · rintro ⟨type, node, i, h, rfl⟩
    exact ⟨i, type, node, h, rfl⟩
  · rintro ⟨i, type, node, h, rfl⟩
    exact ⟨type, node, i, h, rfl⟩

theorem WellFormed.exists_node_of_mem_terminalPins (h : patch.WellFormed)
    (hpin : pin ∈ patch.terminalPins direction) :
    ∃ node, patch.nodes.get? node.id = some node ∧ node.Defines pin := by
  obtain ⟨i, type, node, hi, rfl⟩ := mem_terminalPins_iff.1 hpin
  obtain ⟨hnode, hterminal⟩ := mem_terminals_iff.1 (List.mem_of_getElem? hi)
  exact ⟨node, OrderedMap.get?_of_mem_values h.nodes_keyed hnode, rfl, hterminal, rfl, rfl, rfl⟩

/-- The terminals of one direction have pins with their places as numbers. -/
theorem exists_pin_of_terminal {i : Nat} {type : DataType} {node : Node}
    (hi : (patch.terminals direction)[i]? = some (type, node)) :
    ∃ pin ∈ patch.interface, node.Defines pin ∧ pin.order = UInt32.ofNat i := by
  obtain ⟨_, hterminal⟩ := mem_terminals_iff.1 (List.mem_of_getElem? hi)
  have hmem := mem_terminalPins_iff.2 ⟨i, type, node, hi, rfl⟩
  exact ⟨_, mem_interface_iff.2 (.inr ⟨direction, hmem⟩), ⟨rfl, hterminal, rfl, rfl, rfl⟩, rfl⟩

/-! ### The whole listing -/

/-- A list has the pins of a patch: the custom pins as they are stored and one pin for each terminal
node, nothing else, with different keys and in order. The terminals of one direction are numbered
from left to right. -/
structure Listing (patch : Patch) (pins : List Pin) : Prop where
  custom : ∀ key pin, patch.pins.get? key = some pin → pin ∈ pins
  terminal : ∀ id node, patch.nodes.get? id = some node → node.isTerminal →
    ∃! pin, pin ∈ pins ∧ node.Defines pin
  only : ∀ pin ∈ pins, patch.pins.get? pin.key = some pin ∨
    ∃ node, patch.nodes.get? node.id = some node ∧ node.Defines pin
  distinct : (pins.map Pin.key).Nodup
  sorted : pins.Pairwise Pin.Precedes
  numbered : ∀ direction, ∃ nodes : List Node, nodes.Pairwise Node.Precedes ∧
    (∀ node, node ∈ nodes ↔ patch.nodes.get? node.id = some node ∧
      ∃ type, node.terminal? = some (direction, type)) ∧
    ∀ i (hi : i < nodes.length), ∃ pin ∈ pins, nodes[i].Defines pin ∧ pin.order.toNat = i

/-- The terminals of a direction are in order in one way only, which numbers their pins. -/
theorem Listing.exists_pin {pins : List Pin} {nodes : List Node} (h : patch.Listing pins)
    (hsorted : nodes.Pairwise Node.Precedes)
    (hmem : ∀ node, node ∈ nodes ↔ patch.nodes.get? node.id = some node ∧
      ∃ type, node.terminal? = some (direction, type)) (i : Nat) (hi : i < nodes.length) :
    ∃ pin ∈ pins, nodes[i].Defines pin ∧ pin.order.toNat = i := by
  obtain ⟨found, hfound, hsame, hnumbered⟩ := h.numbered direction
  obtain rfl : found = nodes :=
    hfound.eq_of_mem_iff hsorted fun node => (hsame node).trans (hmem node).symm
  exact hnumbered i hi

theorem WellFormed.listing (h : patch.WellFormed)
    (hfew : ∀ direction, (patch.terminals direction).length < UInt32.size) :
    patch.Listing patch.interface := by
  constructor
  · intro key pin hpin
    exact mem_interface_iff.2 (.inl (OrderedMap.mem_values_iff.2 ⟨key, hpin⟩))
  · intro id node hnode hterminal
    obtain ⟨⟨direction, type⟩, htype⟩ := Option.isSome_iff_exists.1 hterminal
    have hmem := mem_terminals_iff.2 ⟨OrderedMap.mem_values_iff.2 ⟨id, hnode⟩, htype⟩
    obtain ⟨i, hi⟩ := List.mem_iff_getElem?.1 hmem
    obtain ⟨pin, hpin, hdefines, _⟩ := exists_pin_of_terminal hi
    refine ⟨pin, ⟨hpin, hdefines⟩, fun other ⟨hother, hotherDefines⟩ => ?_⟩
    exact List.inj_on_of_nodup_map h.nodup_interface hother hpin
      (hotherDefines.key.trans hdefines.key.symm)
  · intro pin hpin
    rcases mem_interface_iff.1 hpin with hcustom | ⟨direction, hterminal⟩
    · exact .inl (OrderedMap.get?_of_mem_values h.pins_keyed hcustom)
    · exact .inr (h.exists_node_of_mem_terminalPins hterminal)
  · exact h.nodup_interface
  · exact h.pairwise_interface
  · intro direction
    refine ⟨(patch.terminals direction).map Prod.snd,
      List.pairwise_map.2 h.pairwise_terminals_precedes, fun node => ?_, fun i hi => ?_⟩
    · simp only [List.mem_map, Prod.exists, exists_eq_right, mem_terminals_iff]
      rw [exists_and_left]
      refine and_congr_left fun _ => ?_
      exact ⟨OrderedMap.get?_of_mem_values h.nodes_keyed,
        fun hnode => OrderedMap.mem_values_iff.2 ⟨node.id, hnode⟩⟩
    · rw [List.length_map] at hi
      obtain ⟨pin, hpin, hdefines, horder⟩ :=
        exists_pin_of_terminal (List.getElem?_eq_getElem hi)
      have hsmall : i < UInt32.size := Nat.lt_trans hi (hfew direction)
      refine ⟨pin, hpin, by rwa [List.getElem_map], ?_⟩
      rw [horder, UInt32.toNat_ofNat_of_lt' hsmall]

/-- In a list in order no input follows an output. -/
theorem filter_isInput_append_filter_isOutput {pins : List Pin} (h : pins.Pairwise Pin.Precedes) :
    pins.filter Pin.isInput ++ pins.filter Pin.isOutput = pins := by
  induction pins with
  | nil => rfl
  | cons pin pins ih =>
    obtain ⟨hfirst, hrest⟩ := List.pairwise_cons.1 h
    cases hdirection : pin.direction with
    | input => simp [Pin.isInput, Pin.isOutput, hdirection, ih hrest]
    | output =>
      have hlater : ∀ other ∈ pins, other.direction = .output := by
        intro other hother
        rcases hfirst other hother with ⟨hinput, _⟩ | ⟨hsame, _⟩
        · exact absurd (hinput.symm.trans hdirection) (by decide)
        · exact hsame.symm.trans hdirection
      have hinputs : (pin :: pins).filter Pin.isInput = [] := by
        simp +contextual [List.filter_eq_nil_iff, Pin.isInput, hdirection, hlater]
      have houtputs : (pin :: pins).filter Pin.isOutput = pin :: pins := by
        simp +contextual [List.filter_eq_self, Pin.isOutput, hdirection, hlater]
      rw [hinputs, houtputs, List.nil_append]

theorem WellFormed.isSome_pin?_iff {key : PinKey} (h : patch.WellFormed) :
    (patch.pin? key).isSome ↔ patch.pins.contains key ∨
      ∃ node, patch.nodes.get? key.toNodeId = some node ∧ node.isTerminal := by
  rw [Option.isSome_iff_exists]
  constructor
  · rintro ⟨pin, hpin⟩
    rcases h.custom_or_terminal hpin with hcustom | ⟨node, hnode, hterminal⟩
    · exact .inl (OrderedMap.contains_iff.2 ⟨pin, hcustom⟩)
    · exact .inr ⟨node, hnode, Option.isSome_iff_exists.2 ⟨_, hterminal⟩⟩
  · rintro (hcustom | ⟨node, hnode, hterminal⟩)
    · obtain ⟨pin, hpin⟩ := OrderedMap.contains_iff.1 hcustom
      exact ⟨pin, h.pin?_of_custom hpin⟩
    · obtain ⟨⟨direction, type⟩, htype⟩ := Option.isSome_iff_exists.1 hterminal
      obtain ⟨pin, hpin, _⟩ := h.pin?_of_terminal hnode htype
      exact ⟨pin, hpin⟩

/-- The interface lists the pins of a patch in order, first all inputs and then all outputs, and a
key finds the pin that has it, which is there for the keys of custom pins and the identifiers of
terminal nodes. Numbers of pins have 32 bits, which bounds the terminals of a direction. -/
theorem interface_correct (h : patch.Reachable)
    (hfew : ∀ direction, (patch.terminals direction).length < UInt32.size) :
    patch.Listing patch.interface ∧ patch.inputs ++ patch.outputs = patch.interface ∧
      (∀ key pin, patch.pin? key = some pin ↔ pin ∈ patch.interface ∧ pin.key = key) ∧
      ∀ key, (patch.pin? key).isSome ↔ patch.pins.contains key ∨
        ∃ node, patch.nodes.get? key.toNodeId = some node ∧ node.isTerminal := by
  have hwell := h.wellFormed
  exact ⟨hwell.listing hfew, filter_isInput_append_filter_isOutput hwell.pairwise_interface,
    fun _ _ => hwell.pin?_eq_some_iff, fun _ => hwell.isSome_pin?_iff⟩

end Patch

/-! ### A mixer -/

namespace Mixer

def level : PinKey := ⟨"level", by decide⟩

def gain : PinKey := ⟨"gain", by decide⟩

/-- An input terminal at a place on the canvas. -/
def channel (id : NodeId) (x : Number) : Node :=
  { id, type := .terminalFor .input .number, position := ⟨x, .zero⟩ }

def left : Node := channel ⟨"ch2", by decide⟩ Number.zero.neg

def middle : Node := channel ⟨"ch1", by decide⟩ .zero

def right : Node := channel ⟨"ch0", by decide⟩ .nan

/-- Three channels, inserted from right to left. -/
def desk : Patch :=
  .run { path := ⟨"@/desk", by decide⟩ } [
    .insertPin { key := level, type := .number, direction := .output },
    .insertPin { key := gain, type := .number, direction := .input, order := 1 },
    .insertNode right, .insertNode middle, .insertNode left,
    .insertNode { id := ⟨"sum", by decide⟩, type := .terminalFor .output .number }]

/-- Zero with a minus sign is left of zero, and both are left of what is no number. -/
theorem pairwise_channels : [left, middle, right].Pairwise Node.Precedes := by
  have hzeros : left.position.x.rank + 1 = middle.position.x.rank := Number.rank_neg_zero
  have hleft : left.Precedes middle := .inl (by omega)
  have hright : ∀ node : Node, node.position.x.isNaN = false → node.Precedes right :=
    fun _ h => .inl (Number.lt_rank_of_isNaN rfl rfl h)
  simp [hleft, hright left rfl, hright middle rfl]

theorem mem_channels_iff (node : Node) : node ∈ [left, middle, right] ↔
    desk.nodes.get? node.id = some node ∧ ∃ type, node.terminal? = some (.input, type) := by
  have hchannels : ∀ node ∈ [left, middle, right],
      desk.nodes.get? node.id = some node ∧ node.terminal? = some (.input, .number) := by
    decide +kernel
  have hstored : ∀ node ∈ desk.nodes.values,
      node ∈ [left, middle, right] ∨ node.terminal? = some (.output, .number) := by
    decide +kernel
  constructor
  · intro hmem
    obtain ⟨hnode, hterminal⟩ := hchannels node hmem
    exact ⟨hnode, _, hterminal⟩
  · rintro ⟨hnode, type, hterminal⟩
    rcases hstored node (OrderedMap.mem_values_iff.2 ⟨_, hnode⟩) with hmem | houtput
    · exact hmem
    · exact nomatch hterminal.symm.trans houtput

theorem interface_desk :
    desk.nodes.size = 4 ∧ desk.pins.size = 2 ∧ desk.Listing desk.interface ∧
      desk.inputs ++ desk.outputs = desk.interface ∧ (∃ pin ∈ desk.interface, pin.key = gain) ∧
      (desk.pin? left.id.toPinKey).map (·.order.toNat) = some 0 ∧
      (desk.pin? middle.id.toPinKey).map (·.order.toNat) = some 1 ∧
      (desk.pin? right.id.toPinKey).map (·.order.toNat) = some 2 := by
  have hreachable : desk.Reachable := Patch.Reachable.run (.newPatch _) _
  have hsizes : desk.nodes.size = 4 ∧ desk.pins.size = 2 := by decide +kernel
  have hfew : ∀ direction, (desk.terminals direction).length < UInt32.size := fun direction =>
    Nat.lt_of_le_of_lt Patch.length_terminals_le (by rw [hsizes.1]; decide)
  obtain ⟨hlisting, happend, hfind, hfound⟩ := Patch.interface_correct hreachable hfew
  have hgain : desk.pins.contains gain := by decide +kernel
  obtain ⟨pin, hpin⟩ := Option.isSome_iff_exists.1 ((hfound gain).2 (.inl hgain))
  refine ⟨hsizes.1, hsizes.2, hlisting, happend, ⟨pin, (hfind gain pin).1 hpin⟩, ?_⟩
  have horder : ∀ i (hi : i < [left, middle, right].length),
      (desk.pin? [left, middle, right][i].id.toPinKey).map (·.order.toNat) = some i := by
    intro i hi
    obtain ⟨pin, hpin, hdefines, horder⟩ :=
      hlisting.exists_pin pairwise_channels mem_channels_iff i hi
    rw [(hfind _ pin).2 ⟨hpin, hdefines.key⟩, Option.map_some, horder]
  exact ⟨horder 0 (by decide), horder 1 (by decide), horder 2 (by decide)⟩

end Mixer

end Patchbay
