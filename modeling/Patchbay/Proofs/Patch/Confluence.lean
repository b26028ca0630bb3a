import Patchbay.Proofs.Project.Reachable

/-! Building a patch out of parts. Whatever the order in which nodes, custom pins and links are put
in, the same patch comes out, and parts that can be put in at all can also be put in kind by kind:
first the nodes, then the pins and the links last. -/

namespace Patchbay

/-- What can be put into a patch. -/
inductive Part where
  | node (node : Node)
  | pin (pin : Pin)
  | link (link : Link)

namespace Part

/-- Where a part is stored. Names of different kinds are different. -/
inductive Name where
  | node (id : NodeId)
  | pin (key : PinKey)
  | link (id : LinkId)
deriving DecidableEq

def name : Part → Name
  | .node n => .node n.id
  | .pin p => .pin p.key
  | .link l => .link l.id

def change : Part → Patch.Change
  | .node n => .insertNode n
  | .pin p => .insertPin p
  | .link l => .insertLink l

def byKind (nodes : List Node) (pins : List Pin) (links : List Link) : List Part :=
  nodes.map .node ++ pins.map .pin ++ links.map .link

/-- No link comes before a node. -/
def NodesBeforeLinks (parts : List Part) : Prop :=
  parts.Pairwise fun a b => ∀ l n, a = .link l → b ≠ .node n

theorem nodesBeforeLinks_byKind (nodes : List Node) (pins : List Pin) (links : List Link) :
    NodesBeforeLinks (byKind nodes pins links) := by
  simp [NodesBeforeLinks, byKind, List.pairwise_append, List.pairwise_map, List.pairwise_of_forall]

end Part

namespace Patch

variable {patch after next : Patch} {part : Part} {parts rest : List Part} {name : Part.Name}

/-- Puts in parts one after another, as long as none is refused. -/
def build (patch : Patch) (parts : List Part) : Except StructuralError Patch :=
  parts.foldlM (fun p part => p.change part.change) patch

/-- The part that is stored under a name. -/
def part? (patch : Patch) : Part.Name → Option Part
  | .node id => (patch.nodes.get? id).map .node
  | .pin key => (patch.pins.get? key).map .pin
  | .link id => (patch.links.get? id).map .link

@[simp] theorem part?_node_eq_some {id : NodeId} {node : Node} :
    patch.part? (.node id) = some (.node node) ↔ patch.nodes.get? id = some node := by
  simp [part?]

@[simp] theorem part?_pin_eq_some {key : PinKey} {pin : Pin} :
    patch.part? (.pin key) = some (.pin pin) ↔ patch.pins.get? key = some pin := by
  simp [part?]

@[simp] theorem part?_link_eq_some {id : LinkId} {link : Link} :
    patch.part? (.link id) = some (.link link) ↔ patch.links.get? id = some link := by
  simp [part?]

/-- Path, label and implementations, which parts do not change. -/
def title (patch : Patch) : PatchPath × Option String × OrderedMap String String :=
  (patch.path, patch.label, patch.impls)

/-- A patch is known by its title and its parts. -/
theorem eq_of_part?_eq {a b : Patch} (htitle : a.title = b.title)
    (h : ∀ name, a.part? name = b.part? name) : a = b := by
  have hnodes : a.nodes = b.nodes := OrderedMap.ext fun id =>
    Option.map_injective (fun _ _ => Part.node.inj) (h (.node id))
  have hpins : a.pins = b.pins := OrderedMap.ext fun key =>
    Option.map_injective (fun _ _ => Part.pin.inj) (h (.pin key))
  have hlinks : a.links = b.links := OrderedMap.ext fun id =>
    Option.map_injective (fun _ _ => Part.link.inj) (h (.link id))
  cases a
  cases b
  simp_all [title]

/-! ### One part -/

/-- The part is stored under its name, and nothing else changes. -/
theorem part?_of_change (h : patch.change part.change = .ok after) :
    after.part? name = if name = part.name then some part else patch.part? name := by
  cases part with
  | node node =>
    obtain ⟨_, _, rfl⟩ := insertNode_eq_ok_iff.1 h
    cases name with
    | node id =>
      simp only [part?, Part.name, OrderedMap.map_get?_insert, Part.Name.node.injEq]
    | pin _ => rfl
    | link _ => rfl
  | pin pin =>
    obtain ⟨_, _, rfl⟩ := insertPin_eq_ok_iff.1 h
    cases name with
    | pin key =>
      simp only [part?, Part.name, OrderedMap.map_get?_insert, Part.Name.pin.injEq]
    | node _ => rfl
    | link _ => rfl
  | link link =>
    obtain ⟨_, _, _, rfl⟩ := insertLink_eq_ok_iff.1 h
    cases name with
    | link id =>
      simp only [part?, Part.name, OrderedMap.map_get?_insert, Part.Name.link.injEq]
    | node _ => rfl
    | pin _ => rfl

theorem title_of_change (h : patch.change part.change = .ok after) : after.title = patch.title := by
  cases part with
  | node node =>
    obtain ⟨_, _, rfl⟩ := insertNode_eq_ok_iff.1 h
    rfl
  | pin pin =>
    obtain ⟨_, _, rfl⟩ := insertPin_eq_ok_iff.1 h
    rfl
  | link link =>
    obtain ⟨_, _, _, rfl⟩ := insertLink_eq_ok_iff.1 h
    rfl

/-! ### Many parts -/

/-- The parts have names of their own, which the patch does not have. -/
structure HasRoomFor (patch : Patch) (parts : List Part) : Prop where
  free : ∀ part ∈ parts, patch.part? part.name = none
  differ : parts.Pairwise fun a b => a.name ≠ b.name

theorem HasRoomFor.perm {order : List Part} (h : patch.HasRoomFor parts)
    (hperm : order.Perm parts) : patch.HasRoomFor order :=
  ⟨fun part hpart => h.free part (hperm.mem_iff.1 hpart),
    (hperm.pairwise_iff Ne.symm).2 h.differ⟩

theorem HasRoomFor.change (h : patch.HasRoomFor (part :: rest))
    (hnext : patch.change part.change = .ok next) : next.HasRoomFor rest := by
  obtain ⟨hfirst, hrest⟩ := List.pairwise_cons.1 h.differ
  refine ⟨fun other hother => ?_, hrest⟩
  rw [part?_of_change hnext, if_neg (hfirst other hother).symm]
  exact h.free other (List.mem_cons_of_mem _ hother)

/-- A patch and the parts that it lacks make up the other patch. -/
structure Lacks (patch : Patch) (parts : List Part) (after : Patch) : Prop where
  title : after.title = patch.title
  parts : ∀ name part,
    after.part? name = some part ↔ patch.part? name = some part ∨ part ∈ parts ∧ part.name = name

theorem lacks_cons_iff (hfree : patch.part? part.name = none)
    (hnext : patch.change part.change = .ok next) :
    patch.Lacks (part :: rest) after ↔ next.Lacks rest after := by
  have hstored : ∀ name other, next.part? name = some other ↔
      patch.part? name = some other ∨ other = part ∧ part.name = name := by
    intro name other
    rw [part?_of_change hnext]
    by_cases hname : name = part.name
    · subst hname
      simp [hfree, eq_comm]
    · simp [hname, Ne.symm hname]
  have hparts : ∀ name other,
      patch.part? name = some other ∨ other ∈ part :: rest ∧ other.name = name ↔
        next.part? name = some other ∨ other ∈ rest ∧ other.name = name := by
    intro name other
    rw [hstored, List.mem_cons, or_and_right, or_assoc]
    refine or_congr_right (or_congr_left (and_congr_right fun h => ?_))
    rw [h]
  constructor
  · exact fun h => ⟨h.title.trans (title_of_change hnext).symm,
      fun name other => (h.parts name other).trans (hparts name other)⟩
  · exact fun h => ⟨h.title.trans (title_of_change hnext),
      fun name other => (h.parts name other).trans (hparts name other).symm⟩

theorem lacks_of_build (hroom : patch.HasRoomFor parts) (h : patch.build parts = .ok after) :
    patch.Lacks parts after := by
  induction parts generalizing patch with
  | nil =>
    cases h
    exact ⟨rfl, by simp⟩
  | cons part rest ih =>
    obtain ⟨next, hnext, hrest⟩ := Outcome.foldlM_cons_eq_ok.1 h
    have hfree := hroom.free part List.mem_cons_self
    exact (lacks_cons_iff hfree hnext).2 (ih (hroom.change hnext) hrest)

theorem Lacks.perm {order : List Part} (h : patch.Lacks order after) (hperm : order.Perm parts) :
    patch.Lacks parts after :=
  ⟨h.title, fun name part => by rw [h.parts, hperm.mem_iff]⟩

theorem Lacks.unique {a b : Patch} (ha : patch.Lacks parts a) (hb : patch.Lacks parts b) : a = b :=
  eq_of_part?_eq (ha.title.trans hb.title.symm) fun name =>
    Option.ext fun part => (ha.parts name part).trans (hb.parts name part).symm

/-! ### Parts that a well-formed patch has more -/

/-- Another patch has all parts of a patch. -/
structure Within (patch after : Patch) : Prop where
  nodes : ∀ id node, patch.nodes.get? id = some node → after.nodes.get? id = some node
  pins : ∀ key pin, patch.pins.get? key = some pin → after.pins.get? key = some pin
  links : ∀ id link, patch.links.get? id = some link → after.links.get? id = some link

theorem Lacks.within (h : patch.Lacks parts after) : patch.Within after := by
  have hkept : ∀ name part, patch.part? name = some part → after.part? name = some part :=
    fun name part hpart => (h.parts name part).2 (.inl hpart)
  exact ⟨fun _ _ hnode => part?_node_eq_some.1 (hkept _ _ (part?_node_eq_some.2 hnode)),
    fun _ _ hpin => part?_pin_eq_some.1 (hkept _ _ (part?_pin_eq_some.2 hpin)),
    fun _ _ hlink => part?_link_eq_some.1 (hkept _ _ (part?_link_eq_some.2 hlink))⟩

theorem Lacks.contains_node (h : patch.Lacks parts after) (hnone : ∀ node, .node node ∉ parts)
    {id : NodeId} (hid : after.nodes.contains id) : patch.nodes.contains id := by
  obtain ⟨node, hnode⟩ := OrderedMap.contains_iff.1 hid
  rcases (h.parts _ _).1 (part?_node_eq_some.2 hnode) with hold | ⟨hmem, _⟩
  · exact OrderedMap.contains_iff.2 ⟨node, part?_node_eq_some.1 hold⟩
  · exact absurd hmem (hnone node)

section

variable (hwithin : patch.Within after) (hafter : after.WellFormed)
include hwithin hafter

theorem exists_insertNode_of_within {node : Node} (hnode : after.nodes.get? node.id = some node) :
    ∃ next, patch.insertNode node = .ok next := by
  refine ⟨_, insertNode_eq_ok_iff.2 ⟨fun hterminal => ?_, fun key value hvalue hlinked => ?_, rfl⟩⟩
  · by_contra hsome
    obtain ⟨pin, hpin⟩ := Option.ne_none_iff_exists'.1 hsome
    exact hafter.distinct _ pin _ node (hwithin.pins _ pin hpin) hnode hterminal rfl
  · obtain ⟨id, link, hlink, hinput⟩ := isLinked_iff.1 hlinked
    have hnone := hafter.unbound id link node (hwithin.links id link hlink) (by rwa [hinput])
    rw [hinput, hvalue] at hnone
    exact nomatch hnone

theorem exists_insertPin_of_within {pin : Pin} (hpin : after.pins.get? pin.key = some pin)
    (hfree : patch.pins.get? pin.key = none) : ∃ next, patch.insertPin pin = .ok next := by
  refine ⟨_, insertPin_eq_ok_iff.2 ⟨hfree, fun node hnode hterminal => ?_, rfl⟩⟩
  exact hafter.distinct _ pin _ node hpin (hwithin.nodes _ node hnode) hterminal rfl

theorem exists_insertLink_of_within {link : Link} (hlink : after.links.get? link.id = some link)
    (hinput : patch.nodes.contains link.input.node)
    (houtput : patch.nodes.contains link.output.node) :
    ∃ next, patch.insertLink link = .ok next := by
  refine ⟨_, insertLink_eq_ok_iff.2 ⟨⟨hinput, houtput⟩, fun id other hother hne hsame => ?_,
    fun node hnode => ?_, rfl⟩⟩
  · have hkept := hwithin.links id other hother
    have hid : link.id ≠ id := fun he => hne ((hafter.links_keyed id other hkept).trans he.symm)
    exact hafter.single _ id link other hlink hkept hid hsame.symm
  · exact hafter.unbound _ link node hlink (hwithin.nodes _ node hnode)

end

/-- The parts that a well-formed patch has more can be put in if no link comes before a node. -/
theorem Lacks.exists_build (h : patch.Lacks parts after) (hafter : after.WellFormed)
    (hroom : patch.HasRoomFor parts) (hstaged : Part.NodesBeforeLinks parts) :
    ∃ built, patch.build parts = .ok built := by
  -- whatever has been put in, the rest is what is lacking
  refine Outcome.exists_foldlM_eq_ok
    (I := fun rest p => p.Lacks rest after ∧ p.HasRoomFor rest ∧ Part.NodesBeforeLinks rest)
    (fun part rest p ⟨hlacks, hroom, hstaged⟩ => ?_) ⟨h, hroom, hstaged⟩
  obtain ⟨hfirst, hlater⟩ := List.pairwise_cons.1 hstaged
  have hfree := hroom.free part List.mem_cons_self
  have hpart := (hlacks.parts part.name part).2 (.inr ⟨List.mem_cons_self, rfl⟩)
  have hnext : ∃ next, p.change part.change = .ok next := by
    cases part with
    | node node =>
      exact exists_insertNode_of_within hlacks.within hafter (part?_node_eq_some.1 hpart)
    | pin pin =>
      exact exists_insertPin_of_within hlacks.within hafter (part?_pin_eq_some.1 hpart)
        (Option.map_eq_none_iff.1 hfree)
    | link link =>
      have hlink := part?_link_eq_some.1 hpart
      obtain ⟨hinput, houtput⟩ := hafter.attached _ link hlink
      have hnone : ∀ node, .node node ∉ Part.link link :: rest := by
        intro node hmem
        rcases List.mem_cons.1 hmem with heq | hmem
        · exact nomatch heq
        · exact hfirst _ hmem link node rfl rfl
      exact exists_insertLink_of_within hlacks.within hafter hlink
        (hlacks.contains_node hnone hinput) (hlacks.contains_node hnone houtput)
  obtain ⟨next, hnext⟩ := hnext
  exact ⟨next, hnext, (lacks_cons_iff hfree hnext).1 hlacks, hroom.change hnext, hlater⟩

theorem WellFormed.build (h : patch.WellFormed) (hafter : patch.build parts = .ok after) :
    after.WellFormed :=
  Outcome.foldlM_keeps (fun _ _ _ _ hp hc => WellFormed.change hp hc) h hafter

/-- Parts with new names of their own give the same patch in whatever order they are put in, and if
they can be put in in some order, then also with all nodes first, all pins next and all links
last. -/
theorem build_confluent (h : patch.Reachable) (hnew : ∀ part ∈ parts, patch.part? part.name = none)
    (hdiffer : parts.Pairwise fun a b => a.name ≠ b.name) :
    (∀ first second a b, first.Perm parts → second.Perm parts →
      patch.build first = .ok a → patch.build second = .ok b → a = b) ∧
    ∀ order after, order.Perm parts → patch.build order = .ok after →
      ∀ nodes pins links, (Part.byKind nodes pins links).Perm parts →
        patch.build (Part.byKind nodes pins links) = .ok after := by
  have hroom : patch.HasRoomFor parts := ⟨hnew, hdiffer⟩
  have hlacks : ∀ {order after}, order.Perm parts → patch.build order = .ok after →
      patch.Lacks parts after :=
    fun hperm hbuild => (lacks_of_build (hroom.perm hperm) hbuild).perm hperm
  constructor
  · intro first second a b hfirst hsecond ha hb
    exact (hlacks hfirst ha).unique (hlacks hsecond hb)
  · intro order after hperm hbuild nodes pins links hkinds
    have hafter := h.wellFormed.build hbuild
    have hlacking := (hlacks hperm hbuild).perm hkinds.symm
    obtain ⟨built, hbuilt⟩ := hlacking.exists_build hafter (hroom.perm hkinds)
      (Part.nodesBeforeLinks_byKind nodes pins links)
    rw [hbuilt, (hlacks hkinds hbuilt).unique (hlacks hperm hbuild)]

end Patch

/-! ### A plant -/

namespace Plant

def flow : PinKey := ⟨"flow", by decide⟩

def pump : NodeId := ⟨"pump", by decide⟩

def valve : NodeId := ⟨"valve", by decide⟩

/-- A pump and a valve without a link. -/
def plant : Patch :=
  .run { path := ⟨"@/plant", by decide⟩ } [
    .insertNode { id := pump, type := ⟨"@/pump", by decide⟩ },
    .insertNode { id := valve, type := ⟨"@/valve", by decide⟩ }]

def probe : Node :=
  { id := ⟨"probe", by decide⟩, type := ⟨"@/probe", by decide⟩
    bound := .ofList [(flow, .boolean true)] }

def limit : Pin := { key := ⟨"limit", by decide⟩, type := .number, direction := .input }

def pipe : Link := { id := ⟨"pipe", by decide⟩, input := ⟨valve, flow⟩, output := ⟨pump, flow⟩ }

def parts : List Part := Part.byKind [probe] [limit] [pipe]

/-- The link can also come first, since its nodes are there already. -/
theorem build_plant :
    ∃ built, plant.build parts.reverse = .ok built ∧ plant.build parts = .ok built := by
  have hreachable : plant.Reachable := Patch.Reachable.run (.newPatch _) _
  have hnew : ∀ part ∈ parts, plant.part? part.name = none := by
    simp only [← Option.isNone_iff_eq_none]
    decide +kernel
  have hdiffer : parts.Pairwise fun a b => a.name ≠ b.name := by decide +kernel
  have hrun : (plant.build parts.reverse).toOption.isSome := by decide +kernel
  obtain ⟨built, hsome⟩ := Option.isSome_iff_exists.1 hrun
  have hbuilt := Outcome.toOption_eq_some_iff.1 hsome
  have hbyKind := (Patch.build_confluent hreachable hnew hdiffer).2
  exact ⟨built, hbuilt, hbyKind _ _ (List.reverse_perm _) hbuilt [probe] [limit] [pipe] .rfl⟩

end Plant

end Patchbay
