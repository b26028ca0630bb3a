import Patchbay.Proofs.Bundle.Faithful
import Patchbay.Proofs.Project.Problems

/-! The pins at the ends of migrated links. The pin that a node defines gets a key from the entry
that has the node, while a link gets the keys of its pins from the entry that has the link. Where
these are not the same, the link may miss the pin that it means. -/

namespace Patchbay.Bundle

variable {bundle : Json} {project : Project} {entries : Entries} {entry type : Entry} {id : String}
  {patch : Patch} {e : WireEnd} {direction : Direction} {node : Instance}

/-! ### Consistent bundles -/

/-- The ends of a link with the directions of their pins: the input first, then the output. -/
def Wire.directedEnds (wire : Wire) : List (WireEnd × Direction) :=
  wire.ends.zip [.input, .output]

/-- The parts of an entry fit each other and the other entries: node types are there or are those of
terminals, pins stand under their own keys, a pin that names a node is the pin of that terminal, and
links run to inputs and from outputs. -/
structure Entry.Consistent (entry : Entry) (entries : Entries) : Prop where
  typed : ∀ node ∈ entry.nodes.values, entries.contains node.type ∨ node.terminal?.isSome
  keyed : ∀ pin ∈ entry.pins.toList, ∀ own ∈ pin.2.key, own = pin.1
  terminals : ∀ pin ∈ entry.pins.toList, ∀ terminal ∈ pin.2.node,
    identifierText? terminal = some pin.1 ∧ ∃ type ∈ pin.2.type?,
      (entry.nodes.get? pin.1).bind Instance.terminal? = some (pin.2.direction, type)
  wired : ∀ wire ∈ entry.links.values, ∀ e ∈ wire.directedEnds,
    ∀ node ∈ entry.nodes.get? e.1.node, ∀ type ∈ entries.get? node.type,
      ∃ slot ∈ type.pins.get? e.1.pin, slot.direction = e.2

instance : Decidable (entry.Consistent entries) :=
  decidable_of_iff (_ ∧ _ ∧ _ ∧ _)
    ⟨fun ⟨typed, keyed, terminals, wired⟩ => ⟨typed, keyed, terminals, wired⟩,
      fun h => ⟨h.typed, h.keyed, h.terminals, h.wired⟩⟩

/-- All entries of a bundle are consistent. -/
def Entries.Consistent (entries : Entries) : Prop :=
  ∀ entry ∈ entries.values, entry.Consistent entries

instance : Decidable entries.Consistent :=
  inferInstanceAs (Decidable (∀ entry ∈ entries.values, entry.Consistent entries))

/-- A link of the entry `id` has an end at a node whose type is an entry, too. -/
structure Entries.HasEnd (entries : Entries) (id : String) (entry : Entry) (e : WireEnd)
    (direction : Direction) (node : Instance) (type : Entry) : Prop where
  stored : entries.get? id = some entry
  linked : ∃ wire ∈ entry.links.values, (e, direction) ∈ wire.directedEnds
  placed : entry.nodes.get? e.node = some node
  known : entries.get? node.type = some type

/-! ### The pins of entries -/

/-- The key that a pin of an entry gets in the entry's own patch. -/
def Entry.ownKey (entry : Entry) (id key : String) : String :=
  if (entry.pins.get? key).any (·.node.isSome) then (NodeId.derived (seed id key)).text else key

/-- The patch of an entry has a pin of the given direction: one of its own, or one that a terminal
defines. -/
def Entry.Offers (entry : Entry) (id key : String) (direction : Direction) : Prop :=
  (∃ old slot, entry.pins.get? old = some slot ∧ slot.node = none ∧ slot.key.getD old = key ∧
    slot.direction = direction) ∨
  ∃ old node type, entry.nodes.get? old = some node ∧
    (NodeId.derived (seed id old)).text = key ∧ node.terminal? = some (direction, type)

theorem Entry.Carried.offers_iff (h : entry.Carried entries id patch) (hwell : patch.WellFormed)
    {key : PinKey} : patch.Offers key direction ↔ entry.Offers id key.text direction := by
  rw [hwell.offers_iff]
  refine or_congr ⟨?_, ?_⟩ ⟨?_, ?_⟩
  · rintro ⟨pin, hpin, hdirection⟩
    obtain ⟨old, slot, hslot, hname, hdescribes⟩ := h.pins.only key pin hpin
    obtain ⟨hstored, hnone⟩ := OrderedMap.get?_filter_eq_some.1 hslot
    exact ⟨old, slot, hstored, Option.isNone_iff_eq_none.1 hnone, hname.symm,
      hdescribes.direction.symm.trans hdirection⟩
  · rintro ⟨old, slot, hslot, hnone, hname, hdirection⟩
    have hkept : (entry.pins.filter fun _ slot => slot.node.isNone).get? old = some slot :=
      OrderedMap.get?_filter_eq_some.2 ⟨hslot, Option.isNone_iff_eq_none.2 hnone⟩
    obtain ⟨found, pin, hpin, htext, hdescribes⟩ := h.pins.exists_get? hkept
    obtain rfl : found = key := Identifier.text_injective (htext.trans hname)
    exact ⟨pin, hpin, hdescribes.direction.trans hdirection⟩
  · rintro ⟨node, type, hnode, hterminal⟩
    obtain ⟨old, inst, hinst, hname, hbecomes⟩ := h.nodes.only _ node hnode
    exact ⟨old, inst, type, hinst, hname.symm, hbecomes.terminal?.symm.trans hterminal⟩
  · rintro ⟨old, inst, type, hinst, hname, hterminal⟩
    obtain ⟨found, node, hnode, htext, hbecomes⟩ := h.nodes.exists_get? hinst
    obtain rfl : found = key.toNodeId := Identifier.text_injective (htext.trans hname)
    exact ⟨node, type, hnode, hbecomes.terminal?.trans hterminal⟩

/-- What an end of a link means is a pin of the type's patch, under the key that it has there. -/
theorem Entries.Consistent.offers_ownKey (hconsistent : entries.Consistent)
    (hend : entries.HasEnd id entry e direction node type) :
    type.Offers node.type (type.ownKey node.type e.pin) direction := by
  obtain ⟨wire, hwire, hmem⟩ := hend.linked
  have hentry := hconsistent entry (OrderedMap.mem_values_iff.2 ⟨id, hend.stored⟩)
  have htype := hconsistent type (OrderedMap.mem_values_iff.2 ⟨_, hend.known⟩)
  obtain ⟨slot, hslot, hdirection⟩ :=
    hentry.wired wire hwire _ hmem node hend.placed type hend.known
  have hlisted : (e.pin, slot) ∈ type.pins.toList := OrderedMap.mem_toList_iff.2 hslot
  unfold Entry.ownKey
  rw [Option.mem_def.1 hslot, Option.any_some]
  cases hnode : slot.node with
  | none =>
    refine .inl ⟨e.pin, slot, hslot, hnode, ?_, hdirection⟩
    cases hkey : slot.key with
    | none => rfl
    | some own => exact htype.keyed _ hlisted own hkey
  | some terminal =>
    obtain ⟨_, defined, _, hterminal⟩ := htype.terminals _ hlisted terminal hnode
    obtain ⟨inst, hinst, hterminal⟩ := Option.bind_eq_some_iff.1 hterminal
    rw [hdirection] at hterminal
    exact .inr ⟨e.pin, inst, defined, hinst, rfl, hterminal⟩

/-! ### The ends of links -/

theorem Wire.Becomes.exists_directedEnds {wire : Wire} {old : String} {new : Link}
    (h : wire.Becomes entry id old new) :
    ∃ input output, wire.directedEnds = [(input, .input), (output, .output)] ∧
      input.Becomes entry id new.input ∧ output.Becomes entry id new.output := by
  obtain ⟨input, output, hends, hinput, houtput⟩ := h.ends
  exact ⟨input, output, by rw [directedEnds, hends]; rfl, hinput, houtput⟩

section

variable (hwell : project.WellFormed)
  (hpatches : Corresponds entries project.patches (fun id _ => id) fun id entry patch =>
    entry.Carried entries id patch)

include hwell hpatches in
/-- An end of a link meets a pin exactly if the type's entry has one for the key of the link. -/
theorem meets_iff (hcarried : entry.Carried entries id patch) {endpoint : Endpoint}
    (hend : e.Becomes entry id endpoint) :
    project.Meets patch direction endpoint ↔
      ∀ node type, entry.nodes.get? e.node = some node → entries.get? node.type = some type →
        type.Offers node.type (entry.linkedKey id e.pin) direction := by
  have hname : endpoint.node.text = (NodeId.derived (seed id e.node)).text :=
    congrArg Identifier.text hend.node
  rw [← hend.pin]
  constructor
  · intro hmeets node type hnode htype
    obtain ⟨found, new, hnew, htext, hbecomes⟩ := hcarried.nodes.exists_get? hnode
    obtain rfl : found = endpoint.node := Identifier.text_injective (htext.trans hname.symm)
    obtain ⟨path, typePatch, htypePatch, hpath, htypeCarried⟩ := hpatches.exists_get? htype
    obtain rfl : path = new.type := text_inj.1 (hpath.trans hbecomes.type.symm)
    exact (htypeCarried.offers_iff (hwell.patches _ _ htypePatch)).1
      (hmeets new hnew typePatch htypePatch)
  · intro hoffers new hnew typePatch htypePatch
    -- the node at the endpoint is that of the end, as no other node has its derived identifier
    obtain ⟨inst, hinst⟩ := OrderedMap.contains_iff.1 hend.known
    have hbecomes := hcarried.nodes.like hinst hnew hname
    obtain ⟨_, type, htype, rfl, htypeCarried⟩ := hpatches.only _ typePatch htypePatch
    have hmeant := hoffers inst type hinst (hbecomes.type ▸ htype)
    rw [← hbecomes.type] at hmeant
    exact (htypeCarried.offers_iff (hwell.patches _ _ htypePatch)).2 hmeant

include hpatches in
/-- A node whose type is an entry has that entry's patch, and any other is a terminal. -/
theorem Entry.Consistent.knows (hconsistent : entry.Consistent entries)
    (hcarried : entry.Carried entries id patch) {found : NodeId} {new : Node}
    (hnew : patch.nodes.get? found = some new) : project.Knows new := by
  obtain ⟨old, inst, hinst, _, hbecomes⟩ := hcarried.nodes.only found new hnew
  rcases hconsistent.typed inst (OrderedMap.mem_values_iff.2 ⟨old, hinst⟩) with hknown | hterminal
  · obtain ⟨type, htype⟩ := OrderedMap.contains_iff.1 hknown
    obtain ⟨path, typePatch, htypePatch, hpath, _⟩ := hpatches.exists_get? htype
    obtain rfl : path = new.type := text_inj.1 (hpath.trans hbecomes.type.symm)
    exact .inr (OrderedMap.contains_iff.2 ⟨typePatch, htypePatch⟩)
  · refine .inl ?_
    rw [Node.isTerminal, hbecomes.terminal?]
    exact hterminal

include hwell hpatches in
/-- A migrated project has no problems exactly if every end of a link meets a pin under its key. -/
theorem problems_eq_nil_iff (hconsistent : entries.Consistent) :
    project.problems = [] ↔
      ∀ id entry e direction node type, entries.HasEnd id entry e direction node type →
        type.Offers node.type (entry.linkedKey id e.pin) direction := by
  rw [Project.problems_eq_nil_iff]
  constructor
  · rintro hsound id entry e direction node type ⟨hentry, ⟨wire, hwire, hmem⟩, hnode, htype⟩
    obtain ⟨path, patch, hpatch, _, hcarried⟩ := hpatches.exists_get? hentry
    obtain ⟨old, hold⟩ := OrderedMap.mem_values_iff.1 hwire
    obtain ⟨link, new, hnew, _, hbecomes⟩ := hcarried.links.exists_get? hold
    obtain ⟨input, output, hdirected, hinput, houtput⟩ := hbecomes.exists_directedEnds
    rw [hdirected] at hmem
    rcases List.mem_pair.1 hmem with hsame | hsame
    · cases hsame
      exact (meets_iff hwell hpatches hcarried hinput).1
        ((hsound path patch hpatch).inputs link new hnew) node type hnode htype
    · cases hsame
      exact (meets_iff hwell hpatches hcarried houtput).1
        ((hsound path patch hpatch).outputs link new hnew) node type hnode htype
  · intro hoffers path patch hpatch
    obtain ⟨id, entry, hentry, hpath, hcarried⟩ := hpatches.only path patch hpatch
    have hlinked : ∀ {link new}, patch.links.get? link = some new →
        project.Meets patch .input new.input ∧ project.Meets patch .output new.output := by
      intro link new hnew
      obtain ⟨old, wire, hold, _, hbecomes⟩ := hcarried.links.only link new hnew
      obtain ⟨input, output, hdirected, hinput, houtput⟩ := hbecomes.exists_directedEnds
      have hwire : wire ∈ entry.links.values := OrderedMap.mem_values_iff.2 ⟨old, hold⟩
      exact ⟨(meets_iff hwell hpatches hcarried hinput).2 fun node type hnode htype =>
          hoffers id entry input .input node type
            ⟨hentry, ⟨wire, hwire, by rw [hdirected]; simp⟩, hnode, htype⟩,
        (meets_iff hwell hpatches hcarried houtput).2 fun node type hnode htype =>
          hoffers id entry output .output node type
            ⟨hentry, ⟨wire, hwire, by rw [hdirected]; simp⟩, hnode, htype⟩⟩
    have hentryConsistent := hconsistent entry (OrderedMap.mem_values_iff.2 ⟨id, hentry⟩)
    exact ⟨fun _ _ hnode => hentryConsistent.knows hpatches hcarried hnode,
      fun _ _ hlink => (hlinked hlink).2, fun _ _ hlink => (hlinked hlink).1⟩

end

/-- In a consistent bundle an end of a link means a pin of its node's type, under the key that the
pin has there. The project has no problems exactly if all ends have pins under the keys that their
links got. -/
theorem problems_of_migrate (h : (migrate bundle).outcome = .ok project)
    (hentries : Bundle.entries bundle = .ok entries) (hapart : entries.SeedsApart)
    (hconsistent : entries.Consistent) :
    (∀ id entry e direction node type, entries.HasEnd id entry e direction node type →
      type.Offers node.type (type.ownKey node.type e.pin) direction) ∧
    (project.problems = [] ↔
      ∀ id entry e direction node type, entries.HasEnd id entry e direction node type →
        type.Offers node.type (entry.linkedKey id e.pin) direction) := by
  have hpatches := carried_of_migrate h hentries hapart
  exact ⟨fun _ _ _ _ _ _ hend => hconsistent.offers_ownKey hend,
    problems_eq_nil_iff (wellFormed_of_migrate h) hpatches hconsistent⟩

theorem consistent_oldRoom (h : Bundle.entries oldRoom = .ok entries) : entries.Consistent := by
  have hrun : (Bundle.entries oldRoom).toOption.bind (fun entries =>
      some (decide entries.Consistent)) = some true := by
    decide +kernel
  rw [h] at hrun
  exact of_decide_eq_true (Option.some.inj hrun)

theorem problems_oldRoom :
    ∃ entries project, Bundle.entries oldRoom = .ok entries ∧ entries.SeedsApart ∧
      entries.Consistent ∧ (migrate oldRoom).outcome = .ok project ∧
      (∀ id entry e direction node type, entries.HasEnd id entry e direction node type →
        type.Offers node.type (type.ownKey node.type e.pin) direction) ∧
      project.problems = [] ∧
      ∀ id entry e direction node type, entries.HasEnd id entry e direction node type →
        type.Offers node.type (entry.linkedKey id e.pin) direction := by
  obtain ⟨entries, project, hentries, hproject, _, hproblems, _⟩ := migrates_oldRoom
  have hapart := seedsApart_oldRoom hentries
  have hconsistent := consistent_oldRoom hentries
  obtain ⟨hown, hvalid⟩ := problems_of_migrate hproject hentries hapart hconsistent
  exact ⟨entries, project, hentries, hapart, hconsistent, hproject, hown, hproblems,
    hvalid.1 hproblems⟩

/-! ### A lamp whose pin is a terminal -/

/-- A lamp with a terminal of the identifier `1`, and a room where a switch is linked to its pin. -/
def oldLamp : Json :=
  .object [
    ("nodeTypes", .object [
      ("lamp", .object [
        ("nodes", .object [("1", .object [("typeId", .string "xod/built-in/input-boolean")])]),
        ("pins", .object [("1", .object [("direction", .string "input"), ("key", .string "1"),
          ("nodeId", .number (.whole 1)), ("type", .string "boolean")])])]),
      ("switch", .object [("pins", .object [("out", .object [("direction", .string "output"),
        ("key", .string "out"), ("type", .string "boolean")])])])]),
    ("patches", .object [("room", .object [
      ("links", .object [("a", .object [("pins", .array [
        .object [("nodeId", .string "l"), ("pinKey", .string "1")],
        .object [("nodeId", .string "s"), ("pinKey", .string "out")]])])]),
      ("nodes", .object [("l", .object [("typeId", .string "lamp")]),
        ("s", .object [("typeId", .string "switch")])])])])]

/-- The pin of the lamp has a key that is derived from its terminal, but the link in the room, which
has no such node, keeps the key `1`. -/
theorem foreign_terminal_missed :
    ∃ entries project, Bundle.entries oldLamp = .ok entries ∧ entries.Consistent ∧
      (migrate oldLamp).outcome = .ok project ∧
      project.problems.map ProjectError.message =
        ["lookup error: pin '1' not found on patch 'lamp'"] := by
  have hchecked : (Bundle.entries oldLamp).toOption.bind (fun entries =>
      some (decide entries.Consistent)) = some true := by
    decide +kernel
  have hrun : (migrate oldLamp).outcome.toOption.bind (fun project =>
      some (project.problems.map ProjectError.message)) =
        some ["lookup error: pin '1' not found on patch 'lamp'"] := by
    decide +kernel
  obtain ⟨entries, hentries, hconsistent⟩ := Outcome.exists_of_toOption_bind hchecked
  obtain ⟨project, hproject, hproblems⟩ := Outcome.exists_of_toOption_bind hrun
  exact ⟨entries, project, hentries, of_decide_eq_true (Option.some.inj hconsistent), hproject,
    Option.some.inj hproblems⟩

end Patchbay.Bundle
