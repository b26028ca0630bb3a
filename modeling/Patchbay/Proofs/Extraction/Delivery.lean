import Patchbay.Proofs.Extraction.Rewriting
import Patchbay.Proofs.Project.Reachable

/-! Extraction delivers every value: where a free literal has been there is now one link, which
comes from a new constant with this literal, and nothing else has been added. -/

namespace Patchbay

variable {flat r : Project} {entry : PatchPath} {library : Library} {settings : Settings}
  {patch after : Patch} {supplies : List Supply}

/-- What the identifiers for a literal of the entry patch are derived from. -/
def BoundValue.seed (entry : PatchPath) (b : BoundValue) : String :=
  entry.text ++ "/" ++ b.node.id.text ++ "/" ++ b.pin.text

/-- The identifiers that are derived for free values are no identifiers of the patch, and different
ones for different values. -/
structure Fresh (entry : PatchPath) (library : Library) (patch : Patch) : Prop where
  nodes_differ : ∀ b c : BoundValue, b.IsFree library patch → c.IsFree library patch →
    NodeId.derived (b.seed entry) = NodeId.derived (c.seed entry) → b = c
  links_differ : ∀ b c : BoundValue, b.IsFree library patch → c.IsFree library patch →
    LinkId.derived (b.seed entry) = LinkId.derived (c.seed entry) → b = c
  nodes_new : ∀ b : BoundValue, b.IsFree library patch →
    patch.nodes.get? (.derived (b.seed entry)) = none
  links_new : ∀ b : BoundValue, b.IsFree library patch →
    patch.links.get? (.derived (b.seed entry)) = none

/-- A literal now comes from a constant `c` along a link, the only one to the literal's pin. -/
structure Delivered (flat : Project) (entry : PatchPath) (library : Library) (settings : Settings)
    (patch after : Patch) (b : BoundValue) (c : Node) (link : Link) : Prop where
  unbound : ∃ node, after.nodes.get? b.node.id = some node ∧ node.bound.get? b.pin = none
  linked : after.links.get? (.derived (b.seed entry)) = some link
  input : link.input = ⟨b.node.id, b.pin⟩
  only : ∀ id rival, after.links.get? id = some rival → rival.input = ⟨b.node.id, b.pin⟩ →
    rival = link
  source : link.output.node = .derived (b.seed entry)
  added : after.nodes.get? link.output.node = some c
  new : ¬ patch.nodes.contains link.output.node
  type : ∃ type pin, flat.patches.get? b.node.type = some type ∧ type.pin? b.pin = some pin ∧
    settings.constantFor? pin.type = some c.type
  position : c.position = settings.placeholder
  value : ∃ constant first, library c.type = some constant ∧ constant.outputs.head? = some first ∧
    link.output.pin = first.key ∧ ∀ pin value, c.bound.get? pin = some value ↔
      pin = first.key ∧ value = b.value

/-- Every free value is delivered, no other literal is taken, and apart from the constants and their
links the patch is as it was. -/
structure Delivery (flat : Project) (entry : PatchPath) (library : Library) (settings : Settings)
    (patch after : Patch) : Prop where
  delivered : ∀ b : BoundValue, b.IsFree library patch →
    ∃ c link, Delivered flat entry library settings patch after b c link
  nodes_kept : ∀ id node, patch.nodes.get? id = some node →
    ∃ bound, after.nodes.get? id = some { node with bound } ∧
      ∀ pin value, bound.get? pin = some value ↔
        node.bound.get? pin = some value ∧ ¬ BoundValue.IsFree library patch ⟨node, pin, value⟩
  nodes : ∀ id, after.nodes.contains id ↔ patch.nodes.contains id ∨
    ∃ b : BoundValue, b.IsFree library patch ∧ NodeId.derived (b.seed entry) = id
  links_kept : ∀ id link, patch.links.get? id = some link → after.links.get? id = some link
  links : ∀ id, after.links.contains id ↔ patch.links.contains id ∨
    ∃ b : BoundValue, b.IsFree library patch ∧ LinkId.derived (b.seed entry) = id
  path : after.path = patch.path
  label : after.label = patch.label
  pins : after.pins = patch.pins
  impls : after.impls = patch.impls

namespace Extraction

/-! ### The supply of a free value -/

/-- The constant plays no part in the identifiers. -/
theorem seed_eq (e : Extract) : seed entry e = e.toBoundValue.seed entry := rfl

/-- Constant and output of a supply follow from the literal. -/
theorem supply_unique (hfound : Found flat library settings patch supplies) {s t : Supply}
    (hs : s ∈ supplies) (ht : t ∈ supplies) (h : s.toBoundValue = t.toBoundValue) : s = t := by
  have hconstant := Extract.isDeclared_iff.1 (hfound.declared s hs)
  rw [h, Extract.isDeclared_iff.1 (hfound.declared t ht)] at hconstant
  have hsame : s.constant = t.constant := (Option.some.inj hconstant).symm
  obtain ⟨constant, output, hlibrary, hhead, hkey⟩ := hfound.source s hs
  obtain ⟨constant', output', hlibrary', hhead', hkey'⟩ := hfound.source t ht
  rw [hsame, hlibrary'] at hlibrary
  cases hlibrary
  rw [hhead'] at hhead
  cases hhead
  have houtput : s.output = t.output := hkey.symm.trans hkey'
  have hextract : s.toExtract = t.toExtract := by
    show Extract.mk s.toBoundValue s.constant = Extract.mk t.toBoundValue t.constant
    rw [h, hsame]
  show Supply.mk s.toExtract s.output = Supply.mk t.toExtract t.output
  rw [hextract, houtput]

/-- The literals that an old node loses are its free values. -/
theorem bare_bound_eq_some_iff_not_isFree (hpatch : patch.WellFormed)
    (hfound : Found flat library settings patch supplies) {id : NodeId} {node : Node}
    {pin : PinKey} {value : Literal} (hnode : patch.nodes.get? id = some node) :
    (bare supplies node).bound.get? pin = some value ↔
      node.bound.get? pin = some value ∧ ¬ BoundValue.IsFree library patch ⟨node, pin, value⟩ := by
  have hid : node.id = id := hpatch.nodes_keyed id node hnode
  rw [bare_bound_eq_some, and_congr_right_iff]
  intro hbound
  constructor
  · intro hnone hfree
    obtain ⟨s, hs, hsame⟩ := hfound.all _ hfree
    exact hnone s hs (congrArg (·.node.id) hsame) (congrArg BoundValue.pin hsame)
  · intro hnotFree s hs hsid hspin
    have hisFree := hfound.isFree s hs
    have hstored := hisFree.stored
    rw [hsid, hid, hnode] at hstored
    have hvalue := hisFree.bound
    rw [← Option.some.inj hstored, hspin, hbound] at hvalue
    have hsame : s.toBoundValue = ⟨node, pin, value⟩ := by
      show BoundValue.mk s.node s.pin s.value = _
      rw [← Option.some.inj hstored, hspin, ← Option.some.inj hvalue]
    rw [hsame] at hisFree
    exact hnotFree hisFree

/-! ### Lookups in the new patch -/

section Lookups

variable {κ α : Type} [DecidableEq κ] {name : Supply → κ} {make : Supply → α} {old : Option α}

/-- Of the supplies with one name, the last decides. -/
theorem exists_lookup_of_mem {s : Supply} (hs : s ∈ supplies) :
    ∃ t ∈ supplies, name t = name s ∧
      ((supplies.reverse.find? fun t => name t = name s).map make).or old = some (make t) := by
  cases hfind : supplies.reverse.find? fun t => name t = name s with
  | none =>
    have hnone := List.find?_eq_none.1 hfind s (List.mem_reverse.2 hs)
    exact absurd (decide_eq_true rfl) hnone
  | some t =>
    have ht : t ∈ supplies := List.mem_reverse.1 (List.mem_of_find?_eq_some hfind)
    exact ⟨t, ht, by simpa using List.find?_some hfind, rfl⟩

theorem lookup_of_forall_ne {key : κ} (h : ∀ s ∈ supplies, name s ≠ key) :
    ((supplies.reverse.find? fun t => name t = key).map make).or old = old := by
  have hfind : (supplies.reverse.find? fun t => name t = key) = none := by
    rw [List.find?_eq_none]
    intro s hs hname
    exact h s (List.mem_reverse.1 hs) (of_decide_eq_true hname)
  rw [hfind]
  rfl

theorem isSome_lookup_iff {key : κ} :
    (((supplies.reverse.find? fun t => name t = key).map make).or old).isSome ↔
      old.isSome ∨ ∃ s ∈ supplies, name s = key := by
  rw [Option.isSome_or, Bool.or_eq_true, Option.isSome_map, List.find?_isSome, or_comm]
  simp only [List.mem_reverse, decide_eq_true_eq]

end Lookups

/-- Supplies stand for the free values. -/
theorem exists_supply_iff (hfound : Found flat library settings patch supplies)
    {p : BoundValue → Prop} :
    (∃ s ∈ supplies, p s.toBoundValue) ↔ ∃ b : BoundValue, b.IsFree library patch ∧ p b := by
  constructor
  · rintro ⟨s, hs, hp⟩
    exact ⟨s.toBoundValue, hfound.isFree s hs, hp⟩
  · rintro ⟨b, hb, hp⟩
    obtain ⟨s, hs, rfl⟩ := hfound.all b hb
    exact ⟨s, hs, hp⟩

section Rewritten

/-- Under an identifier that is derived for free values stands the constant of one of them. -/
theorem exists_get?_nodes_derived (hrewritten : Rewritten settings entry supplies patch after)
    {s : Supply} (hs : s ∈ supplies) :
    ∃ t ∈ supplies, NodeId.derived (t.seed entry) = .derived (s.seed entry) ∧
      after.nodes.get? (.derived (s.seed entry)) = some (constantNode settings entry t) := by
  rw [hrewritten.nodes]
  exact exists_lookup_of_mem hs

theorem exists_get?_links_derived (hrewritten : Rewritten settings entry supplies patch after)
    {s : Supply} (hs : s ∈ supplies) :
    ∃ t ∈ supplies, LinkId.derived (t.seed entry) = .derived (s.seed entry) ∧
      after.links.get? (.derived (s.seed entry)) = some (constantLink settings entry t) := by
  rw [hrewritten.links]
  exact exists_lookup_of_mem hs

variable (hfound : Found flat library settings patch supplies)
  (hrewritten : Rewritten settings entry supplies patch after)
include hfound hrewritten

theorem contains_nodes_iff {id : NodeId} :
    after.nodes.contains id ↔ patch.nodes.contains id ∨
      ∃ b : BoundValue, b.IsFree library patch ∧ NodeId.derived (b.seed entry) = id := by
  rw [OrderedMap.contains, hrewritten.nodes, isSome_lookup_iff, Option.isSome_map,
    ← exists_supply_iff hfound]
  simp only [constantNode, seed_eq, OrderedMap.contains]

theorem contains_links_iff {id : LinkId} :
    after.links.contains id ↔ patch.links.contains id ∨
      ∃ b : BoundValue, b.IsFree library patch ∧ LinkId.derived (b.seed entry) = id := by
  rw [OrderedMap.contains, hrewritten.links, isSome_lookup_iff, ← exists_supply_iff hfound]
  simp only [constantLink, seed_eq, OrderedMap.contains]

/-- A node whose identifier is derived for no free value is kept. -/
theorem get?_nodes_of_ne {id : NodeId} {node : Node} (h : patch.nodes.get? id = some node)
    (hne : ∀ b : BoundValue, b.IsFree library patch → NodeId.derived (b.seed entry) ≠ id) :
    after.nodes.get? id = some (bare supplies node) := by
  rw [hrewritten.nodes, lookup_of_forall_ne, h, Option.map_some]
  exact fun s hs => hne s.toBoundValue (hfound.isFree s hs)

theorem get?_links_of_ne {id : LinkId} {link : Link} (h : patch.links.get? id = some link)
    (hne : ∀ b : BoundValue, b.IsFree library patch → LinkId.derived (b.seed entry) ≠ id) :
    after.links.get? id = some link := by
  rw [hrewritten.links, lookup_of_forall_ne, h]
  exact fun s hs => hne s.toBoundValue (hfound.isFree s hs)

variable (hfresh : Fresh entry library patch)
include hfresh

theorem get?_nodes_derived {s : Supply} (hs : s ∈ supplies) :
    after.nodes.get? (.derived (s.seed entry)) = some (constantNode settings entry s) := by
  obtain ⟨t, ht, hid, hnode⟩ := exists_get?_nodes_derived hrewritten hs
  have hsame := hfresh.nodes_differ _ _ (hfound.isFree t ht) (hfound.isFree s hs) hid
  rwa [supply_unique hfound ht hs hsame] at hnode

theorem get?_links_derived {s : Supply} (hs : s ∈ supplies) :
    after.links.get? (.derived (s.seed entry)) = some (constantLink settings entry s) := by
  obtain ⟨t, ht, hid, hlink⟩ := exists_get?_links_derived hrewritten hs
  have hsame := hfresh.links_differ _ _ (hfound.isFree t ht) (hfound.isFree s hs) hid
  rwa [supply_unique hfound ht hs hsame] at hlink

theorem get?_nodes_old {id : NodeId} {node : Node} (h : patch.nodes.get? id = some node) :
    after.nodes.get? id = some (bare supplies node) := by
  refine get?_nodes_of_ne hfound hrewritten h ?_
  rintro b hb rfl
  exact nomatch (hfresh.nodes_new b hb).symm.trans h

theorem get?_links_old {id : LinkId} {link : Link} (h : patch.links.get? id = some link) :
    after.links.get? id = some link := by
  refine get?_links_of_ne hfound hrewritten h ?_
  rintro b hb rfl
  exact nomatch (hfresh.links_new b hb).symm.trans h

theorem delivered_of_supply (hafter : after.WellFormed) {s : Supply} (hs : s ∈ supplies) :
    Delivered flat entry library settings patch after s.toBoundValue
      (constantNode settings entry s) (constantLink settings entry s) := by
  have hisFree := hfound.isFree s hs
  obtain ⟨type, pin, htype, hpin, hconstant⟩ := hfound.declared s hs
  obtain ⟨constant, first, hlibrary, hhead, hkey⟩ := hfound.source s hs
  have hnode := get?_nodes_old hfound hrewritten hfresh hisFree.stored
  have hlink := get?_links_derived hfound hrewritten hfresh hs
  refine ⟨⟨_, hnode, ?_⟩, hlink, rfl, ?_, rfl, get?_nodes_derived hfound hrewritten hfresh hs, ?_,
    ⟨type, pin, htype, hpin, hconstant⟩, rfl, ⟨constant, first, hlibrary, hhead, hkey.symm, ?_⟩⟩
  · exact hafter.unbound _ _ _ hlink hnode
  · intro id rival hrival hinput
    by_cases hid : id = .derived (s.seed entry)
    · subst hid
      exact Option.some.inj (hrival.symm.trans hlink)
    · exact absurd hinput (hafter.single _ _ _ _ hrival hlink hid)
  · intro hold
    obtain ⟨node, hnode⟩ := OrderedMap.contains_iff.1 hold
    exact nomatch (hfresh.nodes_new _ hisFree).symm.trans hnode
  · intro pin value
    show (OrderedMap.empty.insert s.output s.value).get? pin = some value ↔ _
    rw [OrderedMap.get?_insert_eq_some, hkey]
    simp [eq_comm]

end Rewritten

theorem extracted_of_extract (hflat : flat.Reachable)
    (hpatch : flat.patches.get? entry = some patch)
    (h : (flat.extract entry library settings).outcome = .ok r) :
    ∃ after supplies, Extracted flat entry library settings r patch after supplies := by
  obtain ⟨found, after, supplies, hextracted⟩ := exists_extracted hflat.wellFormed h
  obtain rfl : found = patch := Option.some.inj (hextracted.before.symm.trans hpatch)
  exact ⟨after, supplies, hextracted⟩

/-- With fresh identifiers every free value of the entry patch is delivered, and nothing else
changes there. -/
theorem delivers (hflat : flat.Reachable) (hpatch : flat.patches.get? entry = some patch)
    (hfresh : Fresh entry library patch)
    (h : (flat.extract entry library settings).outcome = .ok r) :
    ∃ after, r.patches.get? entry = some after ∧
      Delivery flat entry library settings patch after := by
  obtain ⟨found, after, supplies, hextracted⟩ := exists_extracted hflat.wellFormed h
  obtain rfl : found = patch := Option.some.inj (hextracted.before.symm.trans hpatch)
  have hfound := hextracted.found
  have hrewritten := hextracted.rewritten
  have hwell := hflat.wellFormed.patches entry found hpatch
  refine ⟨after, hextracted.result, ?_, ?_, ?_, ?_, ?_, hrewritten.path, hrewritten.label,
    hrewritten.pins, hrewritten.impls⟩
  · intro b hb
    obtain ⟨s, hs, rfl⟩ := hfound.all b hb
    exact ⟨_, _, delivered_of_supply hfound hrewritten hfresh hextracted.wellFormed hs⟩
  · intro id node hnode
    exact ⟨(bare supplies node).bound, get?_nodes_old hfound hrewritten hfresh hnode,
      fun pin value => bare_bound_eq_some_iff_not_isFree hwell hfound hnode⟩
  · exact fun id => contains_nodes_iff hfound hrewritten
  · exact fun id link => get?_links_old hfound hrewritten hfresh
  · exact fun id => contains_links_iff hfound hrewritten

open Lamps in
theorem fresh_room : Fresh main shelf.library room := by
  have hdecided : (room.boundValues.map fun b => NodeId.derived (b.seed main)).Nodup ∧
      (room.boundValues.map fun b => LinkId.derived (b.seed main)).Nodup ∧
      (∀ b ∈ room.boundValues, room.nodes.get? (.derived (b.seed main)) = none) ∧
      ∀ b ∈ room.boundValues, room.links.get? (.derived (b.seed main)) = none := by
    decide +kernel
  obtain ⟨hnodes, hlinks, hnodesNew, hlinksNew⟩ := hdecided
  exact ⟨fun b c hb hc => List.inj_on_of_nodup_map hnodes hb.mem_boundValues hc.mem_boundValues,
    fun b c hb hc => List.inj_on_of_nodup_map hlinks hb.mem_boundValues hc.mem_boundValues,
    fun b hb => hnodesNew b hb.mem_boundValues, fun b hb => hlinksNew b hb.mem_boundValues⟩

open Lamps in
theorem delivers_lamps : ∃ r after, (project.extract main shelf.library {}).outcome = .ok r ∧
    r.patches.get? main = some after ∧ Delivery project main shelf.library {} room after := by
  obtain ⟨r, hr, _⟩ := exists_extract
  obtain ⟨after, hafter, hdelivery⟩ := delivers reachable_project get?_room fresh_room hr
  exact ⟨r, after, hr, hafter, hdelivery⟩

end Extraction

end Patchbay
