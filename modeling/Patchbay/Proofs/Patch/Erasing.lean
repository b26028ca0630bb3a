import Patchbay.Proofs.Project.Reachable

/-! Removing a node undoes adding it: the links that have been put in at the node in the meantime go
with it, and no link of the patch before can be at a node that was not there. -/

namespace Patchbay.Patch

variable {patch added grown next : Patch} {node : Node} {link : Link} {links : List Link}

/-- `grown` is `patch` with one node more and the same links away from that node. -/
structure Grows (patch : Patch) (node : Node) (grown : Patch) : Prop where
  frame : grown =
    { patch with nodes := patch.nodes.insert node.id node, links := grown.links }
  elsewhere : ∀ id link, ¬ link.touches node.id →
    (grown.links.get? id = some link ↔ patch.links.get? id = some link)

theorem grows_insertNode (h : patch.insertNode node = .ok added) : patch.Grows node added := by
  obtain ⟨_, _, rfl⟩ := insertNode_eq_ok_iff.1 h
  exact ⟨rfl, fun _ _ _ => Iff.rfl⟩

/-- A link at the new node, under an identifier that the patch does not have, may also take the
place of such a link. -/
theorem Grows.insertLink (h : patch.Grows node grown) (htouches : link.touches node.id)
    (hnew : patch.links.get? link.id = none) (hnext : grown.insertLink link = .ok next) :
    patch.Grows node next := by
  obtain ⟨_, _, _, rfl⟩ := insertLink_eq_ok_iff.1 hnext
  refine ⟨by rw [h.frame], fun id other hother => ?_⟩
  rw [OrderedMap.get?_insert_eq_some, h.elsewhere id other hother]
  constructor
  · rintro (⟨_, rfl⟩ | ⟨_, hold⟩)
    · exact absurd htouches hother
    · exact hold
  · intro hold
    refine .inr ⟨?_, hold⟩
    rintro rfl
    exact nomatch hnew.symm.trans hold

theorem Grows.run (h : patch.Grows node grown)
    (hlinks : ∀ link ∈ links, link.touches node.id ∧ patch.links.get? link.id = none) :
    patch.Grows node (grown.run (links.map .insertLink)) := by
  induction links generalizing grown with
  | nil => exact h
  | cons link links ih =>
    obtain ⟨⟨htouches, hnew⟩, hrest⟩ := List.forall_mem_cons.1 hlinks
    refine ih ?_ hrest
    -- a link that is refused leaves the patch as it was
    unfold attempt
    split
    · rename_i hnext
      exact h.insertLink htouches hnew hnext
    · exact h

/-- The nodes of a link are there, so it is not at a node that is not. -/
theorem WellFormed.not_touches (h : patch.WellFormed) {id : NodeId} {name : LinkId}
    (habsent : patch.nodes.get? id = none) (hlink : patch.links.get? name = some link) :
    ¬ link.touches id := by
  have hends := h.attached name link hlink
  have hnone := OrderedMap.contains_eq_false_iff.2 habsent
  rw [Link.touches, Bool.or_eq_true, decide_eq_true_eq, decide_eq_true_eq]
  rintro (rfl | rfl)
  · exact Bool.false_ne_true (hnone.symm.trans hends.1)
  · exact Bool.false_ne_true (hnone.symm.trans hends.2)

theorem Grows.eraseNode (h : patch.Grows node grown) (hwell : patch.WellFormed)
    (habsent : patch.nodes.get? node.id = none) : grown.eraseNode node.id = patch := by
  have hlinks : (grown.links.filter fun _ link => !link.touches node.id) = patch.links := by
    apply OrderedMap.ext
    intro id
    apply Option.ext
    intro link
    rw [OrderedMap.get?_filter_eq_some, Bool.not_eq_true', ← Bool.not_eq_true]
    constructor
    · rintro ⟨hlink, haway⟩
      exact (h.elsewhere id link haway).1 hlink
    · intro hlink
      have haway := hwell.not_touches habsent hlink
      exact ⟨(h.elsewhere id link haway).2 hlink, haway⟩
  have hpresent : grown.nodes.contains node.id := by
    rw [h.frame]
    exact OrderedMap.contains_insert.2 (.inl rfl)
  rw [Patch.eraseNode, if_pos hpresent, hlinks, h.frame, OrderedMap.erase_insert habsent]

/-- A node that was not there is added and links are put in at it, as far as they are accepted. When
the node is removed, the patch is what it was. -/
theorem eraseNode_undoes_insertNode (h : patch.Reachable)
    (habsent : patch.nodes.get? node.id = none) (hadded : patch.insertNode node = .ok added)
    (hlinks : ∀ link ∈ links, link.touches node.id ∧ patch.links.get? link.id = none) :
    (added.run (links.map .insertLink)).eraseNode node.id = patch :=
  ((grows_insertNode hadded).run hlinks).eraseNode h.wellFormed habsent

end Patchbay.Patch

/-! ### A dimmer for the lamps -/

namespace Patchbay.Lamps

def strength : PinKey := ⟨"strength", by decide⟩

def dimmer : Node := { id := ⟨"dimmer", by decide⟩, type := ⟨"@/dimmer", by decide⟩ }

/-- A link of the dimmer to itself, a link to a lamp with a literal, one from the switch, and one
that takes the place of the first. -/
def dimmerLinks : List Link :=
  [{ id := ⟨"loop", by decide⟩, input := ⟨dimmer.id, on⟩, output := ⟨dimmer.id, out⟩ },
    { id := ⟨"refused", by decide⟩, input := ⟨first, on⟩, output := ⟨dimmer.id, out⟩ },
    { id := ⟨"feed", by decide⟩, input := ⟨dimmer.id, strength⟩, output := ⟨switch, out⟩ },
    { id := ⟨"loop", by decide⟩, input := ⟨dimmer.id, on⟩, output := ⟨third, on⟩ }]

theorem eraseNode_dimmer : ∃ added, room.insertNode dimmer = .ok added ∧
    (added.run (dimmerLinks.map .insertLink)).links.size = room.links.size + 2 ∧
    (added.run (dimmerLinks.map .insertLink)).eraseNode dimmer.id = room := by
  have hrun : (room.insertNode dimmer).toOption.bind (fun added =>
      some (added.run (dimmerLinks.map .insertLink)).links.size) = some 3 := by
    decide +kernel
  obtain ⟨added, hadded, hsize⟩ := Outcome.exists_of_toOption_bind hrun
  have hroom : room.links.size = 1 := by decide +kernel
  have hlinks : ∀ link ∈ dimmerLinks, link.touches dimmer.id ∧
      room.links.get? link.id = none := by
    decide +kernel
  refine ⟨added, hadded, by rw [hroom]; exact Option.some.inj hsize, ?_⟩
  exact Patch.eraseNode_undoes_insertNode reachable_room (by decide +kernel) hadded hlinks

end Patchbay.Lamps
