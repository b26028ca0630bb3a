import Patchbay.Proofs.Bundle.Faithful
import Patchbay.Proofs.Bundle.InjectedPins

/-! The bundles that have a project. What is asked of the parts of an entry is said by itself, and a
bundle migrates exactly if all of its entries meet it, if derived identifiers do not collide. -/

namespace Patchbay.Bundle

open MigrationError

variable {bundle : Json} {project : Project} {entries : Entries} {entry : Entry}
  {id key old : String} {patch : Patch} {slot : Slot} {node : Instance} {wire : Wire} {e : WireEnd}

/-! ### Acceptable parts -/

/-- A slot has a visible key, its own or the one that it stands under, and a type. -/
structure Slot.Acceptable (slot : Slot) (key : String) : Prop where
  visible : Text.isBlank (slot.key.getD key) = false
  typed : slot.type?.isSome

/-- A literal fits the type that is declared, if that is a basic one. -/
def Injection.Suits (injection : Injection) (declared : Option DataType) : Prop :=
  ∀ value ∈ injection.value, ∀ type ∈ declared, type.isPrimitive → value.fits type

/-- The type of a node is a path, and the pins that it injects have visible keys and literals that
suit the slots which the bundle has for the pins. -/
structure Instance.Acceptable (node : Instance) (entries : Entries) : Prop where
  type : PatchPath.fault? node.type = none
  visible : ∀ key, node.Injects key → Text.isBlank key = false
  suits : ∀ key injection, node.pins.get? key = some injection → injection.injected →
    injection.Suits ((entries.slot? node.type key).bind Slot.type?)

/-- An end of a link is at a node of the entry. Its pin key stands for a node or is visible. -/
structure WireEnd.Acceptable (e : WireEnd) (entry : Entry) : Prop where
  known : entry.nodes.contains e.node
  visible : ¬ entry.nodes.contains e.pin → Text.isBlank e.pin = false

/-- A link has two ends. -/
def Wire.Acceptable (wire : Wire) (entry : Entry) : Prop :=
  ∃ input output, wire.ends = [input, output] ∧ input.Acceptable entry ∧ output.Acceptable entry

/-- The node and the pin key at which a link ends after the migration. -/
def Entry.target (entry : Entry) (id : String) (e : WireEnd) : NodeId × String :=
  (.derived (seed id e.node), entry.linkedKey id e.pin)

/-- The parts of an entry are acceptable and do not stand in each other's way. -/
structure Entry.Acceptable (entry : Entry) (entries : Entries) (id : String) : Prop where
  path : PatchPath.fault? id = none
  slots : ∀ key slot, entry.pins.get? key = some slot → slot.node = none → slot.Acceptable key
  keys_differ : ∀ key slot other rival, entry.pins.get? key = some slot → slot.node = none →
    entry.pins.get? other = some rival → rival.node = none →
    slot.key.getD key = rival.key.getD other → key = other
  keys_free : ∀ key slot old node, entry.pins.get? key = some slot → slot.node = none →
    entry.nodes.get? old = some node → node.terminal?.isSome →
    slot.key.getD key ≠ (NodeId.derived (seed id old)).text
  nodes : ∀ old node, entry.nodes.get? old = some node → node.Acceptable entries
  links : ∀ old wire, entry.links.get? old = some wire → wire.Acceptable entry
  inputs_differ : ∀ old wire e other rival f, entry.links.get? old = some wire →
    wire.ends.head? = some e → entry.links.get? other = some rival → rival.ends.head? = some f →
    entry.target id e = entry.target id f → old = other
  inputs_free : ∀ old wire e node, entry.links.get? old = some wire → wire.ends.head? = some e →
    entry.nodes.get? e.node = some node → ¬ node.Injects (entry.linkedKey id e.pin)

/-! ### What has a project is acceptable -/

theorem Slot.Describes.acceptable {pin : Pin} (h : slot.Describes pin) {found : PinKey}
    (hkey : found.text = slot.key.getD key) : slot.Acceptable key :=
  ⟨hkey ▸ found.visible, by rw [h.type]; rfl⟩

theorem Injection.Gives.suits {injection : Injection} {declared : Option DataType} {value : Literal}
    (h : injection.Gives declared value) : injection.Suits declared := by
  intro own hown type htype hprimitive
  have hchosen := h.chosen
  rw [Option.mem_def.1 hown, Option.getD_some] at hchosen
  exact hchosen ▸ h.fits type htype hprimitive

theorem Instance.Becomes.acceptable {new : Node} (h : node.Becomes entries id old new) :
    node.Acceptable entries := by
  have hbound : ∀ key injection, node.pins.get? key = some injection → injection.injected →
      ∃ pin value, new.bound.get? pin = some value ∧ pin.text = key ∧
        injection.Gives ((entries.slot? node.type key).bind Slot.type?) value := by
    intro key injection hpin hinjected
    exact h.bound.exists_get? (OrderedMap.get?_filter_eq_some.2 ⟨hpin, hinjected⟩)
  constructor
  · rw [← h.type]
    exact new.type.valid
  · rintro key ⟨injection, hpin, hinjected⟩
    obtain ⟨pin, _, _, rfl, _⟩ := hbound key injection hpin hinjected
    exact pin.visible
  · intro key injection hpin hinjected
    obtain ⟨_, _, _, _, hgives⟩ := hbound key injection hpin hinjected
    exact hgives.suits

theorem WireEnd.Becomes.acceptable {new : Endpoint} (h : e.Becomes entry id new) :
    e.Acceptable entry := by
  refine ⟨h.known, fun hnamed => ?_⟩
  have hpin := h.pin
  rw [Entry.linkedKey, if_neg hnamed] at hpin
  exact hpin ▸ new.pin.visible

theorem Wire.Becomes.acceptable {new : Link} (h : wire.Becomes entry id old new) :
    wire.Acceptable entry := by
  obtain ⟨input, output, hends, hinput, houtput⟩ := h.ends
  exact ⟨input, output, hends, hinput.acceptable, houtput.acceptable⟩

theorem Wire.Becomes.input {new : Link} (h : wire.Becomes entry id old new)
    (hend : wire.ends.head? = some e) : e.Becomes entry id new.input := by
  obtain ⟨input, output, hends, hinput, _⟩ := h.ends
  obtain rfl : input = e := by simpa [hends] using hend
  exact hinput

theorem Wire.Becomes.input_eq_iff {rival : Wire} {f : WireEnd} {other : String}
    {new rivalNew : Link} (h : wire.Becomes entry id old new) (he : wire.ends.head? = some e)
    (hrival : rival.Becomes entry id other rivalNew) (hf : rival.ends.head? = some f) :
    new.input = rivalNew.input ↔ entry.target id e = entry.target id f := by
  have hinput := h.input he
  have hrivalInput := hrival.input hf
  rw [Entry.target, Entry.target, Prod.mk.injEq, ← hinput.node, ← hinput.pin, ← hrivalInput.node,
    ← hrivalInput.pin]
  constructor
  · rintro hsame
    rw [hsame]
    exact ⟨rfl, rfl⟩
  · rintro ⟨hnode, hpin⟩
    cases hone : new.input
    cases htwo : rivalNew.input
    rw [hone, htwo] at hnode hpin
    rw [Endpoint.mk.injEq]
    exact ⟨hnode, Identifier.text_injective hpin⟩

theorem Entry.acceptable_of_toPatch (hapart : entries.SeedsApart)
    (hentry : entries.get? id = some entry) (h : (entry.toPatch entries id).outcome = .ok patch) :
    entry.Acceptable entries id := by
  have hbecomes := becomes_of_toPatch h
  have hcarried := Entries.SeedsApart.carried hentry hapart hbecomes
  have hwell := wellFormed_of_toPatch h
  have hown : ∀ {key slot}, entry.pins.get? key = some slot → slot.node = none →
      (entry.pins.filter fun _ slot => slot.node.isNone).get? key = some slot :=
    fun hslot hnone => OrderedMap.get?_filter_eq_some.2 ⟨hslot, Option.isNone_iff_eq_none.2 hnone⟩
  constructor
  · rw [← hbecomes.path]
    exact patch.path.valid
  · intro key slot hslot hnone
    obtain ⟨found, pin, _, hname, hdescribes⟩ := hcarried.pins.exists_get? (hown hslot hnone)
    exact hdescribes.acceptable hname
  · intro key slot other rival hslot hnone hrival hrivalNone hsame
    exact hcarried.pins.apart key slot other rival (hown hslot hnone) (hown hrival hrivalNone) hsame
  · intro key slot old node hslot hnone hnode hterminal hsame
    obtain ⟨found, pin, hpin, hname, _⟩ := hcarried.pins.exists_get? (hown hslot hnone)
    obtain ⟨nodeId, new, hnew, hid, hinstance⟩ := hcarried.nodes.exists_get? hnode
    have hnewTerminal : new.isTerminal := by rwa [Node.isTerminal, hinstance.terminal?]
    exact hwell.distinct found pin nodeId new hpin hnew hnewTerminal
      (hname.trans (hsame.trans hid.symm))
  · intro old node hnode
    obtain ⟨_, _, _, _, hinstance⟩ := hcarried.nodes.exists_get? hnode
    exact hinstance.acceptable
  · intro old wire hwire
    obtain ⟨_, _, _, _, hlink⟩ := hcarried.links.exists_get? hwire
    exact hlink.acceptable
  · intro old wire e other rival f hwire he hrival hf hsame
    obtain ⟨one, link, hlink, hone, hlinkBecomes⟩ := hcarried.links.exists_get? hwire
    obtain ⟨two, rivalLink, hrivalLink, htwo, hrivalBecomes⟩ := hcarried.links.exists_get? hrival
    have hinput : link.input = rivalLink.input :=
      (hlinkBecomes.input_eq_iff he hrivalBecomes hf).2 hsame
    -- links with one input have one identifier
    by_cases hid : one = two
    · exact hcarried.links.apart old wire other rival hwire hrival
        (hone.symm.trans (hid ▸ htwo))
    · exact absurd hinput (hwell.single one two link rivalLink hlink hrivalLink hid)
  · intro old wire e node hwire he hnode
    refine Entry.not_injects_linkedKey h hwire he hnode fun other hother hsame => ?_
    exact Entries.SeedsApart.eq_of_derived hentry hapart hother
      (OrderedMap.contains_iff.2 ⟨node, hnode⟩) hsame

/-! ### What is acceptable has a project -/

theorem Slot.Acceptable.exists_toPin (h : slot.Acceptable key) :
    ∃ pin, slot.toPin key = .ok pin := by
  obtain ⟨found, hfound⟩ := Identifier.exists_parse_iff.2 h.visible
  obtain ⟨type, htype⟩ := Option.isSome_iff_exists.1 h.typed
  obtain ⟨name, hname, htype⟩ := Option.bind_eq_some_iff.1 htype
  unfold Slot.toPin Pin.parse
  rw [hfound, hname, Option.getD_some, DataType.parse_of_ofText? htype]
  exact ⟨_, rfl⟩

theorem Injection.Suits.exists_literal {injection : Injection} {declared : Option DataType}
    (h : injection.Suits declared) (pin : PinKey) (type : String) :
    ∃ value, (injection.literal declared pin type).outcome = .ok value := by
  unfold Injection.literal
  cases hown : injection.value with
  | some value =>
    have hfits : (declared.filter fun expected => expected.isPrimitive && !value.fits expected) =
        none := by
      rw [Option.filter_eq_none_iff]
      intro expected hexpected
      have := h value hown expected hexpected
      simpa using this
    simp only [hfits]
    exact ⟨value, rfl⟩
  | none =>
    cases hdefault : declared.bind DataType.default? with
    | some value => exact ⟨value, rfl⟩
    | none => exact ⟨.boolean false, rfl⟩

theorem Instance.Acceptable.exists_toNode (h : node.Acceptable entries) :
    ∃ new, (node.toNode entries id old).outcome = .ok new := by
  obtain ⟨type, htype⟩ := PatchPath.exists_parse_iff.2 h.type
  have hbinding : ∀ c ∈ (node.pins.filter fun _ injection => injection.injected).toList,
      ∃ binding, node.binding entries c = .ok binding := by
    rintro ⟨key, injection⟩ hmem
    obtain ⟨hpin, hinjected⟩ := OrderedMap.get?_filter_eq_some.1 (OrderedMap.mem_toList_iff.1 hmem)
    obtain ⟨pin, hkey⟩ := Identifier.exists_parse_iff.2 (h.visible key ⟨injection, hpin, hinjected⟩)
    obtain ⟨value, hvalue⟩ := (h.suits key injection hpin hinjected).exists_literal pin node.type
    rw [← Entries.declaredType?_eq] at hvalue
    exact ⟨(pin, value), Outcome.bind_eq_ok.2 ⟨pin, Outcome.ok_of_mapError.2 hkey,
      Outcome.bind_eq_ok.2 ⟨value, hvalue, rfl⟩⟩⟩
  obtain ⟨bindings, hbindings⟩ := Outcome.exists_mapM_eq_ok hbinding
  rw [outcome_toNode]
  exact ⟨_, Outcome.bind_eq_ok.2 ⟨type, Outcome.ok_of_mapError.2 htype,
    Outcome.foldlM_bind_eq_ok.2 ⟨bindings, hbindings, Outcome.foldlM_pure_eq_ok⟩⟩⟩

theorem WireEnd.Acceptable.exists_endpoint (h : e.Acceptable entry) :
    ∃ endpoint, entry.endpoint id old e = .ok endpoint := by
  unfold Entry.endpoint Entry.nodeId?
  rw [if_pos h.known]
  by_cases hnamed : entry.nodes.contains e.pin
  · rw [if_pos hnamed]
    exact ⟨_, rfl⟩
  · obtain ⟨pin, hpin⟩ := Identifier.exists_parse_iff.2 (h.visible hnamed)
    rw [if_neg hnamed, hpin]
    exact ⟨_, rfl⟩

theorem Wire.Acceptable.exists_link (h : wire.Acceptable entry) :
    ∃ link, entry.link id old wire = .ok link := by
  obtain ⟨input, output, hends, hinput, houtput⟩ := h
  obtain ⟨first, hfirst⟩ : ∃ first, entry.endpoint id old input = .ok first :=
    hinput.exists_endpoint
  obtain ⟨second, hsecond⟩ : ∃ second, entry.endpoint id old output = .ok second :=
    houtput.exists_endpoint
  refine ⟨⟨.derived (seed id old), first, second⟩, ?_⟩
  rw [Entry.link, hends]
  exact Outcome.bind_eq_ok.2 ⟨first, hfirst, Outcome.bind_eq_ok.2 ⟨second, hsecond, rfl⟩⟩

/-! ### The stages of an entry -/

section Stages

variable (h : entry.Acceptable entries id)
include h

theorem Entry.Acceptable.exists_pins (hnodes : patch.nodes = .empty) (hpins : patch.pins = .empty) :
    ∃ pins after, (entry.pins.filter fun _ slot => slot.node.isNone).toList.mapM
        (fun e => validated (e.2.toPin e.1)) = .ok pins ∧
      pins.foldlM Patch.insertPin patch = .ok after ∧
      Mirrors (entry.pins.filter fun _ slot => slot.node.isNone) after.pins
        (fun key slot => slot.key.getD key) fun _ slot pin => slot.Describes pin := by
  have hown : ∀ {key slot},
      (entry.pins.filter fun _ slot => slot.node.isNone).get? key = some slot →
        entry.pins.get? key = some slot ∧ slot.node = none := by
    intro key slot hslot
    obtain ⟨hstored, hnone⟩ := OrderedMap.get?_filter_eq_some.1 hslot
    exact ⟨hstored, Option.isNone_iff_eq_none.1 hnone⟩
  have hdescribes : ∀ key slot pin, validated (Slot.toPin slot key) = .ok pin →
      text pin.key = slot.key.getD key ∧ slot.Describes pin :=
    fun key slot pin hpin => Slot.describes_of_toPin (Outcome.ok_of_mapError.1 hpin)
  obtain ⟨pins, hmade⟩ : ∃ pins, (entry.pins.filter fun _ slot => slot.node.isNone).toList.mapM
      (fun e => validated (e.2.toPin e.1)) = .ok pins := by
    refine Outcome.exists_mapM_eq_ok fun e he => ?_
    obtain ⟨hstored, hnone⟩ := hown (OrderedMap.mem_toList_iff.1 he)
    obtain ⟨pin, hpin⟩ := (h.slots e.1 e.2 hstored hnone).exists_toPin
    exact ⟨pin, Outcome.ok_of_mapError.2 hpin⟩
  have hdiffer : pins.Pairwise fun a b => a.key ≠ b.key := by
    have hnames := OrderedMap.pairwise_toList fun key slot other rival hslot hrival hsame =>
      h.keys_differ key slot other rival (hown hslot).1 (hown hslot).2 (hown hrival).1
        (hown hrival).2 hsame
    refine Outcome.pairwise_of_mapM hmade hnames fun e _ f _ a b ha hb hname hkey => hname ?_
    rw [← (hdescribes e.1 e.2 a ha).1, ← (hdescribes f.1 f.2 b hb).1, hkey]
  have hterminal : ∀ pin ∈ pins, ∀ node, patch.nodes.get? pin.key.toNodeId = some node →
      ¬ node.isTerminal := by
    intro pin _ node hnode
    rw [hnodes] at hnode
    exact nomatch hnode
  obtain ⟨after, hafter⟩ := Patch.exists_insertPins hpins hterminal hdiffer
  refine ⟨pins, after, hmade, hafter, ?_⟩
  rw [Patch.foldlM_insertPin_eq_ok hafter, hpins]
  exact Mirrors.of_mapM hmade hdescribes

theorem Entry.Acceptable.exists_nodes (hlinks : patch.links = .empty)
    (hnodes : patch.nodes = .empty)
    (hpins : Mirrors (entry.pins.filter fun _ slot => slot.node.isNone) patch.pins
      (fun key slot => slot.key.getD key) fun _ slot pin => slot.Describes pin) :
    ∃ nodes after, entry.nodes.toList.mapM (fun e => (e.2.toNode entries id e.1).outcome) =
        .ok nodes ∧
      nodes.foldlM Patch.insertNode patch = .ok after ∧
      Mirrors entry.nodes after.nodes (fun old _ => (NodeId.derived (seed id old)).text)
        fun old node new => node.Becomes entries id old new := by
  have hbecomes : ∀ old (node : Instance) new, (node.toNode entries id old).outcome = .ok new →
      text new.id = (NodeId.derived (seed id old)).text ∧ node.Becomes entries id old new := by
    intro old node new hnew
    have hinstance := Instance.becomes_of_toNode hnew
    exact ⟨congrArg Identifier.text hinstance.id, hinstance⟩
  obtain ⟨nodes, hmade⟩ : ∃ nodes,
      entry.nodes.toList.mapM (fun e => (e.2.toNode entries id e.1).outcome) = .ok nodes :=
    Outcome.exists_mapM_eq_ok fun e he =>
      (h.nodes e.1 e.2 (OrderedMap.mem_toList_iff.1 he)).exists_toNode
  have hkeys : ∀ node ∈ nodes, node.isTerminal → patch.pins.get? node.id.toPinKey = none := by
    intro node hnode hterminal
    obtain ⟨⟨old, inst⟩, hinst, hnew⟩ := Outcome.exists_source hmade hnode
    obtain ⟨hid, hinstance⟩ := hbecomes old inst node hnew
    cases hpin : patch.pins.get? node.id.toPinKey with
    | none => rfl
    | some pin =>
      obtain ⟨key, slot, hslot, hname, _⟩ := hpins.only _ pin hpin
      obtain ⟨hstored, hnone⟩ := OrderedMap.get?_filter_eq_some.1 hslot
      rw [Node.isTerminal, hinstance.terminal?] at hterminal
      exact absurd (hname.symm.trans hid) (h.keys_free key slot old inst hstored
        (Option.isNone_iff_eq_none.1 hnone) (OrderedMap.mem_toList_iff.1 hinst) hterminal)
  obtain ⟨after, hafter⟩ := Patch.exists_insertNodes hkeys fun _ _ _ _ _ =>
    Patch.not_isLinked_of_empty hlinks _
  refine ⟨nodes, after, hmade, hafter, ?_⟩
  rw [Patch.foldlM_insertNode_eq_ok hafter, hnodes]
  exact Mirrors.of_mapM hmade hbecomes

variable (hapart : entries.SeedsApart) (hentry : entries.get? id = some entry)
include hapart hentry

theorem Entry.Acceptable.attachable
    (hnodes : Mirrors entry.nodes patch.nodes (fun old _ => (NodeId.derived (seed id old)).text)
      fun old node new => node.Becomes entries id old new)
    (hwire : entry.links.get? old = some wire) {link : Link}
    (hlink : wire.Becomes entry id old link) : patch.Attachable link := by
  obtain ⟨input, output, hends, hinput, houtput⟩ := hlink.ends
  have hplaced : ∀ {e : WireEnd} {new : Endpoint}, e.Becomes entry id new →
      patch.nodes.contains new.node := by
    intro e new he
    obtain ⟨node, hnode⟩ := OrderedMap.contains_iff.1 he.known
    obtain ⟨found, hname, hcontains⟩ := hnodes.kept e.node node hnode
    rwa [he.node, ← Identifier.text_injective hname]
  refine ⟨hplaced hinput, hplaced houtput, fun new hnew => ?_⟩
  obtain ⟨other, node, hnode, hname, hbecomes⟩ := hnodes.only _ new hnew
  -- the node at the input is that of the wire, which does not inject the pin of the link
  have hsame : other = input.node := by
    refine Entries.SeedsApart.eq_of_derived hentry hapart
      (OrderedMap.contains_iff.2 ⟨node, hnode⟩) hinput.known ?_
    rw [← hinput.node]
    exact (Identifier.text_injective hname).symm
  have hfree := h.inputs_free old wire input node hwire (by rw [hends]; rfl) (hsame ▸ hnode)
  rw [← hinput.pin] at hfree
  cases hbound : new.bound.get? link.input.pin with
  | none => rfl
  | some value =>
    obtain ⟨key, injection, hinjection, rfl, _⟩ := hbecomes.bound.only _ value hbound
    exact absurd ⟨injection, OrderedMap.get?_filter_eq_some.1 hinjection⟩ hfree

theorem Entry.Acceptable.exists_links (hlinks : patch.links = .empty)
    (hnodes : Mirrors entry.nodes patch.nodes (fun old _ => (NodeId.derived (seed id old)).text)
      fun old node new => node.Becomes entries id old new) :
    ∃ links after, entry.links.toList.mapM (fun e => entry.link id e.1 e.2) = .ok links ∧
      links.foldlM Patch.insertLink patch = .ok after := by
  obtain ⟨links, hmade⟩ : ∃ links,
      entry.links.toList.mapM (fun e => entry.link id e.1 e.2) = .ok links :=
    Outcome.exists_mapM_eq_ok fun e he =>
      (h.links e.1 e.2 (OrderedMap.mem_toList_iff.1 he)).exists_link
  have hattachable : ∀ link ∈ links, patch.Attachable link := by
    intro link hlink
    obtain ⟨⟨old, wire⟩, hwire, hnew⟩ := Outcome.exists_source hmade hlink
    exact h.attachable hapart hentry hnodes (OrderedMap.mem_toList_iff.1 hwire)
      (Entry.becomes_of_link hnew)
  have hdiffer : ∀ link ∈ links, ∀ rival ∈ links, link.id ≠ rival.id →
      link.input ≠ rival.input := by
    intro link hlink rival hrival hne hsame
    obtain ⟨⟨old, wire⟩, hwire, hlink⟩ := Outcome.exists_source hmade hlink
    obtain ⟨⟨other, rivalWire⟩, hrivalWire, hrival⟩ := Outcome.exists_source hmade hrival
    have hlinkBecomes := Entry.becomes_of_link hlink
    have hrivalBecomes := Entry.becomes_of_link hrival
    obtain ⟨e, _, he, _⟩ := hlinkBecomes.ends
    obtain ⟨f, _, hf, _⟩ := hrivalBecomes.ends
    have he : wire.ends.head? = some e := by rw [he]; rfl
    have hf : rivalWire.ends.head? = some f := by rw [hf]; rfl
    have hkeys := h.inputs_differ old wire e other rivalWire f
      (OrderedMap.mem_toList_iff.1 hwire) he (OrderedMap.mem_toList_iff.1 hrivalWire) hf
      ((hlinkBecomes.input_eq_iff he hrivalBecomes hf).1 hsame)
    exact hne (by rw [hlinkBecomes.id, hrivalBecomes.id, hkeys])
  obtain ⟨after, hafter⟩ := Patch.exists_insertLinks hattachable
    (fun _ _ => Patch.not_isLinked_of_empty hlinks _) hdiffer
  exact ⟨links, after, hmade, hafter⟩

theorem Entry.Acceptable.exists_toPatch :
    ∃ patch, (entry.toPatch entries id).outcome = .ok patch := by
  obtain ⟨path, hpath⟩ := PatchPath.exists_parse_iff.2 h.path
  let start : Patch := { path, label := entry.label }
  have hstart : start.nodes = .empty ∧ start.pins = .empty := ⟨rfl, rfl⟩
  obtain ⟨pins, withPins, hpinsMade, hpins, hpinsMirrored⟩ := h.exists_pins hstart.1 hstart.2
  obtain ⟨hlinksNone, hnodesNone⟩ : withPins.links = .empty ∧ withPins.nodes = .empty := by
    rw [Patch.foldlM_insertPin_eq_ok hpins]
    exact ⟨rfl, rfl⟩
  obtain ⟨nodes, withNodes, hnodesMade, hnodes, hnodesMirrored⟩ :=
    h.exists_nodes hlinksNone hnodesNone hpinsMirrored
  let withImpls := entry.impls.toList.foldl (fun patch e => patch.addImpl e.1 e.2) withNodes
  have himpls : withImpls.nodes = withNodes.nodes ∧ withImpls.links = .empty := by
    show (List.foldl _ withNodes _).nodes = _ ∧ (List.foldl _ withNodes _).links = _
    rw [Patch.foldl_addImpl, Patch.foldlM_insertNode_eq_ok hnodes]
    exact ⟨rfl, hlinksNone⟩
  rw [← himpls.1] at hnodesMirrored
  obtain ⟨links, patch, hlinksMade, hlinks⟩ :=
    h.exists_links hapart hentry himpls.2 hnodesMirrored
  refine ⟨patch, ?_⟩
  rw [outcome_toPatch]
  exact Outcome.bind_eq_ok.2 ⟨path, Outcome.ok_of_mapError.2 hpath,
    Outcome.bind_eq_ok.2 ⟨withPins, Outcome.foldlM_bind_eq_ok.2
      ⟨pins, hpinsMade, Outcome.foldlM_mapError_eq_ok.2 hpins⟩,
    Outcome.bind_eq_ok.2 ⟨withNodes, Outcome.foldlM_bind_eq_ok.2
      ⟨nodes, hnodesMade, Outcome.foldlM_mapError_eq_ok.2 hnodes⟩,
    Outcome.foldlM_bind_eq_ok.2 ⟨links, hlinksMade, Outcome.foldlM_mapError_eq_ok.2 hlinks⟩⟩⟩⟩

end Stages

/-! ### Bundles -/

/-- All entries of a bundle are acceptable. -/
def Entries.Acceptable (entries : Entries) : Prop :=
  ∀ id entry, entries.get? id = some entry → entry.Acceptable entries id

theorem entries_eq_ok_iff :
    Bundle.entries bundle = .ok entries ↔ ∃ merged, merge bundle = .ok merged ∧
      ∀ id, (merged.get? id).map Entry.ofFields = (entries.get? id).map .ok := by
  have hsame : ∀ merged : OrderedMap String Fields,
      (∀ id, (merged.get? id).map (fun fields => (Entry.ofFields fields).mapError .undecodable) =
        (entries.get? id).map (.ok : Entry → Except MigrationError Entry)) ↔
      ∀ id, (merged.get? id).map Entry.ofFields = (entries.get? id).map .ok := by
    intro merged
    refine forall_congr' fun id => ?_
    cases merged.get? id <;> cases entries.get? id <;> simp
  unfold Bundle.entries
  simp only [Outcome.bind_eq_ok, Outcome.ok_of_mapError, traverse_eq_ok_iff, hsame]

theorem exists_migrate_iff (hentries : Bundle.entries bundle = .ok entries)
    (hapart : entries.SeedsApart) :
    (∃ project, (migrate bundle).outcome = .ok project) ↔ entries.Acceptable := by
  constructor
  · rintro ⟨project, hproject⟩ id entry hentry
    obtain ⟨patch, hpatch⟩ := exists_toPatch_of_migrate hproject hentries hentry
    exact Entry.acceptable_of_toPatch hapart hentry hpatch
  · intro h
    obtain ⟨patches, hmade⟩ : ∃ patches,
        entries.toList.mapM (fun e => (e.2.toPatch entries e.1).outcome) = .ok patches := by
      refine Outcome.exists_mapM_eq_ok fun e he => ?_
      have hentry := OrderedMap.mem_toList_iff.1 he
      exact (h e.1 e.2 hentry).exists_toPatch hapart hentry
    rw [outcome_migrate, hentries, Outcome.ok_bind]
    exact ⟨_, Outcome.foldlM_bind_eq_ok.2 ⟨patches, hmade, Outcome.foldlM_pure_eq_ok⟩⟩

/-- A bundle has a project exactly if its parts can be merged, all entries can be read, and every
entry is acceptable. -/
theorem accepts_exactly_acceptable
    (hapart : ∀ entries, Bundle.entries bundle = .ok entries → entries.SeedsApart) :
    (∃ project, (migrate bundle).outcome = .ok project) ↔
      ∃ merged, ∃ entries : Entries, merge bundle = .ok merged ∧
        (∀ id, (merged.get? id).map Entry.ofFields = (entries.get? id).map .ok) ∧
        entries.Acceptable := by
  constructor
  · rintro ⟨project, hproject⟩
    obtain ⟨entries, hentries⟩ := exists_entries_of_migrate hproject
    obtain ⟨merged, hmerged, hread⟩ := entries_eq_ok_iff.1 hentries
    have hacceptable :=
      (exists_migrate_iff hentries (hapart entries hentries)).1 ⟨project, hproject⟩
    exact ⟨merged, entries, hmerged, hread, hacceptable⟩
  · rintro ⟨merged, entries, hmerged, hread, hacceptable⟩
    have hentries := entries_eq_ok_iff.2 ⟨merged, hmerged, hread⟩
    exact (exists_migrate_iff hentries (hapart entries hentries)).2 hacceptable

theorem acceptable_oldRoom :
    (∀ entries, Bundle.entries oldRoom = .ok entries → entries.SeedsApart) ∧
      ∃ merged, ∃ entries : Entries, merge oldRoom = .ok merged ∧
        (∀ id, (merged.get? id).map Entry.ofFields = (entries.get? id).map .ok) ∧
        entries.Acceptable := by
  have hapart : ∀ entries, Bundle.entries oldRoom = .ok entries → entries.SeedsApart :=
    fun _ => seedsApart_oldRoom
  obtain ⟨_, project, _, hproject, _⟩ := migrates_oldRoom
  exact ⟨hapart, (accepts_exactly_acceptable hapart).1 ⟨project, hproject⟩⟩

end Patchbay.Bundle
