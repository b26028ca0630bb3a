import Patchbay.Proofs.Patch.WellFormed

/-! Building a patch from lists of parts: which lists can be put in one after another, and what has
been checked of every part of a list that was put in. -/

namespace Patchbay.Patch

variable {patch after : Patch} {nodes : List Node} {links : List Link} {pins : List Pin}

theorem not_isLinked_of_empty (hlinks : patch.links = .empty) (input : Endpoint) :
    ¬ patch.isLinked input := by
  intro hlinked
  obtain ⟨id, link, hlink, _⟩ := isLinked_iff.1 hlinked
  rw [hlinks] at hlink
  exact nomatch hlink

/-- Only links and custom pins stand against a node, and nodes do not change these. -/
theorem exists_insertNodes
    (hkeys : ∀ node ∈ nodes, node.isTerminal → patch.pins.get? node.id.toPinKey = none)
    (hunlinked : ∀ node ∈ nodes, ∀ key value, node.bound.get? key = some value →
      ¬ patch.isLinked ⟨node.id, key⟩) :
    ∃ after, nodes.foldlM insertNode patch = .ok after := by
  refine Outcome.exists_foldlM_eq_ok
    (I := fun rest p => p.links = patch.links ∧ p.pins = patch.pins ∧ ∀ node ∈ rest, node ∈ nodes)
    (fun node rest p ⟨hlinks, hpins, hrest⟩ => ?_) ⟨rfl, rfl, fun _ => id⟩
  have hnode := hrest node List.mem_cons_self
  refine ⟨_, insertNode_eq_ok_iff.2 ⟨?_, ?_, rfl⟩, hlinks, hpins,
    fun other hother => hrest other (List.mem_cons_of_mem _ hother)⟩
  · rw [hpins]
    exact hkeys node hnode
  · intro key value hvalue
    rw [isLinked, hlinks]
    exact hunlinked node hnode key value hvalue

/-- Pins with keys of their own, none of them the identifier of a terminal, can all be added. -/
theorem exists_insertPins (hpins : patch.pins = .empty)
    (hterminal : ∀ pin ∈ pins, ∀ node, patch.nodes.get? pin.key.toNodeId = some node →
      ¬ node.isTerminal)
    (hdiffer : pins.Pairwise fun a b => a.key ≠ b.key) :
    ∃ after, pins.foldlM insertPin patch = .ok after := by
  -- the keys of the pins that are left are free
  refine Outcome.exists_foldlM_eq_ok
    (I := fun rest p => p.nodes = patch.nodes ∧ (∀ pin ∈ rest, p.pins.get? pin.key = none) ∧
      (∀ pin ∈ rest, ∀ node, patch.nodes.get? pin.key.toNodeId = some node → ¬ node.isTerminal) ∧
      rest.Pairwise fun a b => a.key ≠ b.key)
    (fun pin rest p ⟨hnodes, hfree, hterminal, hdiffer⟩ => ?_)
    ⟨rfl, fun pin _ => by rw [hpins]; rfl, hterminal, hdiffer⟩
  obtain ⟨hfirst, hlater⟩ := List.pairwise_cons.1 hdiffer
  refine ⟨_, insertPin_eq_ok_iff.2 ⟨hfree pin List.mem_cons_self, ?_, rfl⟩, hnodes, ?_,
    fun other hother => hterminal other (List.mem_cons_of_mem _ hother), hlater⟩
  · rw [hnodes]
    exact hterminal pin List.mem_cons_self
  · intro other hother
    rw [OrderedMap.get?_insert_of_ne _ _ (hfirst other hother).symm]
    exact hfree other (List.mem_cons_of_mem _ hother)

/-- Both nodes of a link are there, and its input has no bound literal. -/
structure Attachable (patch : Patch) (link : Link) : Prop where
  input : patch.nodes.contains link.input.node
  output : patch.nodes.contains link.output.node
  unbound : ∀ node, patch.nodes.get? link.input.node = some node →
    node.bound.get? link.input.pin = none

theorem WellFormed.attachable (h : patch.WellFormed) {id : LinkId} {link : Link}
    (hlink : patch.links.get? id = some link) : patch.Attachable link :=
  ⟨(h.attached id link hlink).1, (h.attached id link hlink).2,
    fun node hnode => h.unbound id link node hlink hnode⟩

theorem Attachable.congr {other : Patch} {link : Link} (h : patch.Attachable link)
    (hnodes : other.nodes = patch.nodes) : other.Attachable link := by
  refine ⟨?_, ?_, ?_⟩ <;> rw [hnodes]
  · exact h.input
  · exact h.output
  · exact h.unbound

/-- Links with inputs of their own can all be put in where each of them alone can. -/
theorem exists_insertLinks (hattachable : ∀ link ∈ links, patch.Attachable link)
    (hfree : ∀ link ∈ links, ¬ patch.isLinked link.input)
    (hdiffer : ∀ link ∈ links, ∀ other ∈ links, link.id ≠ other.id → link.input ≠ other.input) :
    ∃ after, links.foldlM insertLink patch = .ok after := by
  have hnone : ∀ link ∈ links, ∀ id other, patch.links.get? id = some other →
      other.id ≠ link.id → other.input ≠ link.input :=
    fun link hlink id other hother _ hsame =>
      hfree link hlink (isLinked_iff.2 ⟨id, other, hother, hsame⟩)
  -- the inputs of the links that are left are free
  refine Outcome.exists_foldlM_eq_ok
    (I := fun rest p => p.nodes = patch.nodes ∧ (∀ link ∈ rest, link ∈ links) ∧
      ∀ link ∈ rest, ∀ id other, p.links.get? id = some other → other.id ≠ link.id →
        other.input ≠ link.input)
    (fun link rest p ⟨hnodes, hrest, hfree⟩ => ?_) ⟨rfl, fun _ => id, hnone⟩
  have hlink := hrest link List.mem_cons_self
  have hattached := hattachable link hlink
  refine ⟨_, insertLink_eq_ok_iff.2 ⟨?_, hfree link List.mem_cons_self, ?_, rfl⟩, hnodes,
    fun other hother => hrest other (List.mem_cons_of_mem _ hother), ?_⟩
  · rw [hnodes]
    exact ⟨hattached.input, hattached.output⟩
  · rw [hnodes]
    exact hattached.unbound
  · intro other hother id found hfound
    rcases OrderedMap.get?_insert_eq_some.1 hfound with ⟨_, rfl⟩ | ⟨_, hold⟩
    · exact hdiffer link hlink other (hrest other (List.mem_cons_of_mem _ hother))
    · exact hfree other (List.mem_cons_of_mem _ hother) id found hold

/-- Every link that was put in has been held against the nodes, which stay as they are. -/
theorem attachable_of_foldlM_insertLink (h : links.foldlM insertLink patch = .ok after)
    {link : Link} (hlink : link ∈ links) : patch.Attachable link := by
  induction links generalizing patch with
  | nil => exact nomatch hlink
  | cons first links ih =>
    obtain ⟨next, hnext, hrest⟩ := Outcome.foldlM_cons_eq_ok.1 h
    obtain ⟨⟨hinput, houtput⟩, _, hunbound, rfl⟩ := insertLink_eq_ok_iff.1 hnext
    rcases List.mem_cons.1 hlink with rfl | hlink
    · exact ⟨hinput, houtput, hunbound⟩
    · have hlater := ih hrest hlink
      exact ⟨hlater.input, hlater.output, hlater.unbound⟩

end Patchbay.Patch
