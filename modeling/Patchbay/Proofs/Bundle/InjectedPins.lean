import Patchbay.Proofs.Bundle.Conversion
import Patchbay.Proofs.Patch.Building

/-! Pins that are injected and linked. The link would end at a bound literal and is refused, unless
its pin key is the identifier of a node: then the link goes to the pin that this node defines, while
the literal stays at the key as it is. -/

namespace Patchbay.Bundle

variable {bundle : Json} {project : Project} {entries : Entries} {entry : Entry} {id old : String}
  {patch : Patch} {wire : Wire} {e : WireEnd} {node : Instance}

/-- A pin of the node is marked as injected. -/
def Instance.Injects (node : Instance) (key : String) : Prop :=
  ∃ injection, node.pins.get? key = some injection ∧ injection.injected

/-- The input of a link is a pin that its node injects. -/
structure Entries.LinksInjected (entries : Entries) (id : String) (entry : Entry) (e : WireEnd)
    (node : Instance) : Prop where
  stored : entries.get? id = some entry
  linked : ∃ wire ∈ entry.links.values, wire.ends.head? = some e
  placed : entry.nodes.get? e.node = some node
  injected : node.Injects e.pin

/-- A link does not end at the pin that it names: the pin key stands for a node of the entry, and
the key that the link gets is not injected, or another node has the same derived identifier. -/
inductive Entry.Detours (entry : Entry) (id : String) (e : WireEnd) (node : Instance) : Prop where
  | pin (named : entry.nodes.contains e.pin)
    (free : ¬ node.Injects (entry.linkedKey id e.pin))
  | node {other : String} (placed : entry.nodes.contains other) (differs : other ≠ e.node)
    (same : NodeId.derived (seed id other) = NodeId.derived (seed id e.node))

theorem exists_toPatch_of_migrate (h : (migrate bundle).outcome = .ok project)
    (hentries : Bundle.entries bundle = .ok entries) (hentry : entries.get? id = some entry) :
    ∃ patch, (entry.toPatch entries id).outcome = .ok patch := by
  rw [outcome_migrate, hentries, Outcome.ok_bind] at h
  obtain ⟨patches, hmade, _⟩ := Outcome.foldlM_bind_eq_ok.1 h
  obtain ⟨patch, _, hpatch⟩ := Outcome.exists_image hmade (OrderedMap.mem_toList_iff.2 hentry)
  exact ⟨patch, hpatch⟩

theorem Entry.attachable_of_toPatch (h : (entry.toPatch entries id).outcome = .ok patch)
    (hwire : entry.links.get? old = some wire) :
    ∃ link, entry.link id old wire = .ok link ∧ patch.Attachable link := by
  rw [outcome_toPatch] at h
  obtain ⟨path, _, h⟩ := Outcome.bind_eq_ok.1 h
  obtain ⟨withPins, _, h⟩ := Outcome.bind_eq_ok.1 h
  obtain ⟨withNodes, _, h⟩ := Outcome.bind_eq_ok.1 h
  obtain ⟨links, hmade, hinserted⟩ := Outcome.foldlM_bind_eq_ok.1 h
  have hinserted := Outcome.foldlM_mapError_eq_ok.1 hinserted
  obtain ⟨link, hlink, hof⟩ := Outcome.exists_image hmade (OrderedMap.mem_toList_iff.2 hwire)
  refine ⟨link, hof, (Patch.attachable_of_foldlM_insertLink hinserted hlink).congr ?_⟩
  rw [Patch.foldlM_insertLink_eq_ok hinserted]

theorem Instance.Becomes.contains_of_injects {new : Node} (h : node.Becomes entries id old new)
    {pin : PinKey} (hinjects : node.Injects pin.text) : new.bound.contains pin := by
  obtain ⟨injection, hpin, hinjected⟩ := hinjects
  have hkept : (node.pins.filter fun _ injection => injection.injected).get? pin.text =
      some injection := OrderedMap.get?_filter_eq_some.2 ⟨hpin, hinjected⟩
  obtain ⟨found, hname, hcontains⟩ := h.bound.kept pin.text injection hkept
  obtain rfl : found = pin := Identifier.text_injective hname
  exact hcontains

/-- No link of a migrated entry ends at a pin that is injected under the link's own key, if the node
is not replaced by another one. -/
theorem Entry.not_injects_linkedKey (h : (entry.toPatch entries id).outcome = .ok patch)
    (hwire : entry.links.get? old = some wire) (hend : wire.ends.head? = some e)
    (hnode : entry.nodes.get? e.node = some node)
    (honly : ∀ other, entry.nodes.contains other →
      NodeId.derived (seed id other) = NodeId.derived (seed id e.node) → other = e.node) :
    ¬ node.Injects (entry.linkedKey id e.pin) := by
  obtain ⟨link, hlink, hattachable⟩ := attachable_of_toPatch h hwire
  obtain ⟨input, output, hends, hinput, _⟩ := (becomes_of_link hlink).ends
  obtain rfl : input = e := by simpa [hends] using hend
  obtain ⟨new, hnew⟩ := OrderedMap.contains_iff.1 hattachable.input
  obtain ⟨other, inst, hinst, hname, hbecomes⟩ :=
    (becomes_of_toPatch h).nodes.only link.input.node new hnew
  have hsame : NodeId.derived (seed id other) = NodeId.derived (seed id input.node) := by
    rw [← hinput.node]
    exact (Identifier.text_injective hname).symm
  obtain rfl := honly other (OrderedMap.contains_iff.2 ⟨inst, hinst⟩) hsame
  obtain rfl : inst = node := by simpa [hinst] using hnode
  intro hinjects
  rw [← hinput.pin] at hinjects
  have hbound := hbecomes.contains_of_injects hinjects
  simp [OrderedMap.contains, hattachable.unbound new hnew] at hbound

/-- A bundle with a link whose input is injected has no project, unless the link goes elsewhere. -/
theorem refused_or_detours (hentries : Bundle.entries bundle = .ok entries)
    (h : entries.LinksInjected id entry e node) :
    (∃ error, (migrate bundle).outcome = .error error) ∨ entry.Detours id e node := by
  cases hproject : (migrate bundle).outcome with
  | error error => exact .inl ⟨error, rfl⟩
  | ok project =>
    right
    obtain ⟨patch, hpatch⟩ := exists_toPatch_of_migrate hproject hentries h.stored
    obtain ⟨wire, hwire, hend⟩ := h.linked
    obtain ⟨old, hold⟩ := OrderedMap.mem_values_iff.1 hwire
    by_cases honly : ∀ other, entry.nodes.contains other →
        NodeId.derived (seed id other) = NodeId.derived (seed id e.node) → other = e.node
    · have hfree := Entry.not_injects_linkedKey hpatch hold hend h.placed honly
      refine .pin ?_ hfree
      -- any other key is the one that the link gets
      by_contra hnamed
      rw [Entry.linkedKey, if_neg hnamed] at hfree
      exact hfree h.injected
    · push Not at honly
      obtain ⟨other, hplaced, hsame, hdiffers⟩ := honly
      exact .node hplaced hdiffers hsame

/-! ### A lamp that is switched on twice -/

/-- A room where a switch is linked to a lamp at the pin `key`, which has a literal. -/
def doublyBound (key : String) : Json :=
  .object [
    ("nodeTypes", .object [
      ("lamp", .object [("pins", .object [
        (key, .object [("direction", .string "input"), ("type", .string "boolean")])])]),
      ("switch", .object [("pins", .object [
        ("out", .object [("direction", .string "output"), ("type", .string "boolean")])])])]),
    ("patches", .object [("room", .object [
      ("links", .object [("a", .object [("pins", .array [
        .object [("nodeId", .string "l"), ("pinKey", .string key)],
        .object [("nodeId", .string "s"), ("pinKey", .string "out")]])])]),
      ("nodes", .object [
        ("l", .object [("pins", .object [
          (key, .object [("injected", .boolean true), ("value", .boolean true)])]),
          ("typeId", .string "lamp")]),
        ("s", .object [("typeId", .string "switch")])])])])]

/-- The links of a bundle whose inputs are injected. -/
def Entries.injectedLinks (entries : Entries) : List (String × Entry × WireEnd × Instance) :=
  entries.toList.flatMap fun (id, entry) => entry.links.values.filterMap fun wire => do
    let e ← wire.ends.head?
    let node ← entry.nodes.get? e.node
    let injection ← node.pins.get? e.pin
    if injection.injected then some (id, entry, e, node) else none

theorem Entries.linksInjected_of_mem (h : (id, entry, e, node) ∈ entries.injectedLinks) :
    entries.LinksInjected id entry e node := by
  simp only [injectedLinks, List.mem_flatMap, List.mem_filterMap, Prod.exists,
    OrderedMap.mem_toList_iff, Option.bind_eq_bind, Option.bind_eq_some_iff,
    Option.ite_none_right_eq_some, Option.some.injEq, Prod.mk.injEq] at h
  obtain ⟨id, entry, hentry, wire, hwire, e, hend, node, hnode, injection, hpin, hinjected, rfl,
    rfl, rfl, rfl⟩ := h
  exact ⟨hentry, ⟨wire, hwire, hend⟩, hnode, injection, hpin, hinjected⟩

/-- The one link of a bundle with an injected input: its entry, its end and the entry's nodes. -/
theorem exists_linksInjected {room : String} {ends : String × String} {nodes : List String}
    (h : (Bundle.entries bundle).toOption.bind (fun entries => some (entries.injectedLinks.map
        fun c => (c.1, (c.2.2.1.node, c.2.2.1.pin), c.2.1.nodes.keys))) =
      some [(room, ends, nodes)]) :
    ∃ entries entry e node, Bundle.entries bundle = .ok entries ∧
      entries.LinksInjected room entry e node ∧ (e.node, e.pin) = ends ∧
      entry.nodes.keys = nodes := by
  obtain ⟨entries, hentries, hlisted⟩ := Outcome.exists_of_toOption_bind h
  have hmem : (room, ends, nodes) ∈ entries.injectedLinks.map
      fun c => (c.1, (c.2.2.1.node, c.2.2.1.pin), c.2.1.nodes.keys) := by
    rw [Option.some.inj hlisted]
    exact List.mem_singleton_self _
  obtain ⟨⟨id, entry, e, node⟩, hlink, hsame⟩ := List.mem_map.1 hmem
  obtain ⟨rfl, rfl, rfl⟩ := hsame
  exact ⟨entries, entry, e, node, hentries, Entries.linksInjected_of_mem hlink, rfl, rfl⟩

/-- Under a key that is no node, the lamp's pin is refused. -/
theorem refused_doublyBound :
    ∃ entries entry e node, Bundle.entries (doublyBound "on") = .ok entries ∧
      entries.LinksInjected "room" entry e node ∧
      ∃ error, (migrate (doublyBound "on")).outcome = .error error := by
  obtain ⟨entries, entry, e, node, hentries, hlink, hends, hnodes⟩ :=
    @exists_linksInjected (doublyBound "on") "room" ("l", "on") ["l", "s"] (by decide +kernel)
  obtain ⟨hnode, hpin⟩ := Prod.mk.inj hends
  refine ⟨entries, entry, e, node, hentries, hlink, ?_⟩
  rcases refused_or_detours hentries hlink with hrefused | hdetours
  · exact hrefused
  · cases hdetours with
    | pin hnamed _ =>
      rw [hpin, ← OrderedMap.mem_keys_iff, hnodes] at hnamed
      simp at hnamed
    | node hplaced hdiffers hsame =>
      rw [← OrderedMap.mem_keys_iff, hnodes] at hplaced
      obtain rfl : _ = "s" := by simpa [hnode ▸ hdiffers] using hplaced
      rw [hnode] at hsame
      have hapart : NodeId.derived (seed "room" "s") ≠ NodeId.derived (seed "room" "l") := by
        decide +kernel
      exact absurd hsame hapart

/-- The lamp's pin has the key of the switch: the lamp keeps its literal and gets the link. -/
theorem doublyBound_accepted :
    ∃ entries entry e node project, Bundle.entries (doublyBound "s") = .ok entries ∧
      entries.LinksInjected "room" entry e node ∧
      (migrate (doublyBound "s")).outcome = .ok project := by
  obtain ⟨entries, entry, e, node, hentries, hlink, _⟩ :=
    @exists_linksInjected (doublyBound "s") "room" ("l", "s") ["l", "s"] (by decide +kernel)
  have hrun : (migrate (doublyBound "s")).outcome.toOption.isSome := by decide +kernel
  obtain ⟨project, hproject⟩ := Option.isSome_iff_exists.1 hrun
  exact ⟨entries, entry, e, node, project, hentries, hlink,
    Outcome.toOption_eq_some_iff.1 hproject⟩

end Patchbay.Bundle
