import Patchbay.Proofs.Bundle.Steps
import Patchbay.Proofs.Mirrors
import Patchbay.Proofs.Patch.WellFormed
import Patchbay.Proofs.Texts

/-! What the parts of a bundle become: every slot a pin, every instance a node with the literals of
its injected pins, every wire a link, and every entry a patch of these. -/

namespace Patchbay

theorem DataType.isSome_default? (type : DataType) : type.default?.isSome = type.isPrimitive := by
  cases type <;> rfl

namespace Bundle

open MigrationError

variable {entries : Entries} {entry : Entry} {patch old : String}

/-! ### Pins -/

/-- The type that a slot declares, by its name of today. -/
def Slot.type? (slot : Slot) : Option DataType :=
  slot.type.bind fun name => DataType.ofText? (currentTypeName name)

/-- The slot that the entry of a node type has under a pin key. -/
def Entries.slot? (entries : Entries) (type pin : String) : Option Slot :=
  (entries.get? type).bind fun entry => entry.pins.get? pin

theorem Entries.declaredType?_eq (type pin : String) :
    entries.declaredType? type pin = (entries.slot? type pin).bind Slot.type? := by
  rw [Entries.slot?, Option.bind_assoc]
  rfl

/-- A pin is as a slot says. -/
structure Slot.Describes (slot : Slot) (pin : Pin) : Prop where
  type : slot.type? = some pin.type
  direction : pin.direction = slot.direction
  order : pin.order = slot.index
  label : pin.label = slot.label
  injected : pin.injected = false
  value : pin.value = none

theorem Slot.describes_of_toPin {slot : Slot} {pin : Pin} (h : slot.toPin old = .ok pin) :
    pin.key.text = slot.key.getD old ∧ slot.Describes pin := by
  unfold Slot.toPin Pin.parse at h
  obtain ⟨parsed, hparsed, hpin⟩ := Outcome.bind_eq_ok.1 h
  obtain ⟨key, hkey, hparsed⟩ := Outcome.bind_eq_ok.1 hparsed
  obtain ⟨type, htype, hparsed⟩ := Outcome.bind_eq_ok.1 hparsed
  cases hparsed
  cases hpin
  refine ⟨Identifier.text_of_parse hkey, ?_, rfl, rfl, rfl, rfl, rfl⟩
  have hname := DataType.ofText?_of_parse htype
  cases hslot : slot.type with
  | none =>
    -- the empty text names no type
    rw [hslot] at hname
    exact nomatch hname
  | some name =>
    rw [hslot] at hname
    rw [Slot.type?, hslot]
    exact hname

/-! ### Literals -/

/-- The literal of an injected pin: one of its own, or else the default of the declared type, or
else `false`. It fits a basic type that is declared. -/
structure Injection.Gives (injection : Injection) (declared : Option DataType) (value : Literal) :
    Prop where
  chosen : value = injection.value.getD ((declared.bind DataType.default?).getD (.boolean false))
  fits : ∀ type, declared = some type → type.isPrimitive → value.fits type

theorem Injection.gives_of_literal {injection : Injection} {declared : Option DataType}
    {pin : PinKey} {type : String} {value : Literal}
    (h : (injection.literal declared pin type).outcome = .ok value) :
    injection.Gives declared value := by
  unfold Injection.literal at h
  cases hvalue : injection.value with
  | some own =>
    rw [hvalue] at h
    simp only at h
    cases hmisfit : declared.filter fun expected => expected.isPrimitive && !own.fits expected with
    | some expected =>
      rw [hmisfit] at h
      exact nomatch h
    | none =>
      rw [hmisfit] at h
      cases h
      refine ⟨by rw [hvalue]; rfl, fun expected hdeclared hprimitive => ?_⟩
      rw [Option.filter_eq_none_iff] at hmisfit
      simpa [hprimitive] using hmisfit expected hdeclared
  | none =>
    rw [hvalue] at h
    simp only at h
    cases hdefault : declared.bind DataType.default? with
    | some value =>
      rw [hdefault] at h
      cases h
      obtain ⟨expected, rfl, hexpected⟩ := Option.bind_eq_some_iff.1 hdefault
      refine ⟨by rw [hvalue, hdefault]; rfl, fun type htype _ => ?_⟩
      cases htype
      exact DataType.fits_default? hexpected
    | none =>
      rw [hdefault] at h
      cases h
      refine ⟨by rw [hvalue, hdefault]; rfl, fun type htype hprimitive => ?_⟩
      -- a basic type has a default
      rw [htype, Option.bind_some] at hdefault
      rw [← DataType.isSome_default?, hdefault] at hprimitive
      exact nomatch hprimitive

/-! ### Nodes -/

/-- The node of an instance. Of its pins, those that are injected have literals, which go by the type
of the slot that the bundle has for the pin. -/
structure Instance.Becomes (node : Instance) (entries : Entries) (patch old : String)
    (new : Node) : Prop where
  id : new.id = .derived (seed patch old)
  type : new.type.text = node.type
  position : new.position = node.position
  label : new.label = none
  bound : Corresponds (node.pins.filter fun _ injection => injection.injected) new.bound
    (fun key _ => key) fun key injection value =>
      injection.Gives ((entries.slot? node.type key).bind Slot.type?) value

/-- The direction and type of the pin that an instance defines, if it is a terminal. -/
def Instance.terminal? (node : Instance) : Option (Direction × DataType) :=
  (PatchPath.ofText node.type).toOption.bind PatchPath.terminal?

theorem Instance.Becomes.terminal? {node : Instance} {new : Node}
    (h : node.Becomes entries patch old new) : new.terminal? = node.terminal? := by
  rw [Instance.terminal?, ← h.type, PatchPath.ofText_text]
  rfl

theorem Instance.becomes_of_toNode {node : Instance} {new : Node}
    (h : (node.toNode entries patch old).outcome = .ok new) :
    node.Becomes entries patch old new := by
  rw [outcome_toNode] at h
  obtain ⟨type, htype, h⟩ := Outcome.bind_eq_ok.1 h
  obtain ⟨bindings, hbindings, hnew⟩ := Outcome.foldlM_bind_eq_ok.1 h
  rw [List.foldlM_pure, Outcome.pure_eq_ok, Node.foldl_bind] at hnew
  rw [← hnew]
  refine ⟨rfl, PatchPath.text_of_parse (Outcome.ok_of_mapError.1 htype), rfl, rfl, ?_⟩
  refine (Mirrors.of_mapM hbindings fun key injection c hc => ?_).corresponds
  obtain ⟨pin, hpin, hc⟩ := Outcome.bind_eq_ok.1 hc
  obtain ⟨value, hvalue, hc⟩ := Outcome.bind_eq_ok.1 hc
  cases hc
  rw [Entries.declaredType?_eq] at hvalue
  exact ⟨Identifier.text_of_parse (Outcome.ok_of_mapError.1 hpin),
    Injection.gives_of_literal hvalue⟩

/-! ### Links -/

/-- The pin key that the links of an entry get for an old one: that of the pin which a node defines,
where it is the identifier of a node. -/
def Entry.linkedKey (entry : Entry) (patch key : String) : String :=
  if entry.nodes.contains key then (NodeId.derived (seed patch key)).text else key

/-- The endpoint of an end of a link: a pin of a node that the entry has. -/
structure WireEnd.Becomes (e : WireEnd) (entry : Entry) (patch : String) (new : Endpoint) :
    Prop where
  known : entry.nodes.contains e.node
  node : new.node = .derived (seed patch e.node)
  pin : new.pin.text = entry.linkedKey patch e.pin

/-- The link of a wire. -/
structure Wire.Becomes (wire : Wire) (entry : Entry) (patch old : String) (new : Link) :
    Prop where
  id : new.id = .derived (seed patch old)
  ends : ∃ input output, wire.ends = [input, output] ∧ input.Becomes entry patch new.input ∧
    output.Becomes entry patch new.output

theorem Entry.becomes_of_endpoint {link : String} {e : WireEnd} {new : Endpoint}
    (h : entry.endpoint patch link e = .ok new) : e.Becomes entry patch new := by
  unfold Entry.endpoint Entry.nodeId? at h
  by_cases hnode : entry.nodes.contains e.node
  · by_cases hpin : entry.nodes.contains e.pin
    · simp only [if_pos hnode, if_pos hpin, Except.ok.injEq] at h
      rw [← h]
      exact ⟨hnode, rfl, by rw [Entry.linkedKey, if_pos hpin, NodeId.toPinKey]⟩
    · simp only [if_pos hnode, if_neg hpin] at h
      obtain ⟨pin, hparse, h⟩ := Outcome.bind_eq_ok.1 h
      rw [Outcome.pure_eq_ok] at h
      rw [← h]
      refine ⟨hnode, rfl, ?_⟩
      rw [Entry.linkedKey, if_neg hpin]
      exact Identifier.text_of_parse (Outcome.ok_of_mapError.1 hparse)
  · rw [if_neg hnode] at h
    exact nomatch h

theorem Entry.becomes_of_link {wire : Wire} {new : Link} (h : entry.link patch old wire = .ok new) :
    wire.Becomes entry patch old new := by
  unfold Entry.link at h
  split at h
  · rename_i input output hends
    obtain ⟨first, hfirst, h⟩ := Outcome.bind_eq_ok.1 h
    obtain ⟨second, hsecond, h⟩ := Outcome.bind_eq_ok.1 h
    rw [Outcome.pure_eq_ok] at h
    rw [← h]
    exact ⟨rfl, input, output, hends, becomes_of_endpoint hfirst, becomes_of_endpoint hsecond⟩
  · exact nomatch h

/-! ### Patches -/

/-- The patch of an entry. Its own pins and its links and nodes are those of the entry under new
names, of which those of nodes and links are derived from the old ones. -/
structure Entry.Becomes (entry : Entry) (entries : Entries) (id : String) (new : Patch) :
    Prop where
  path : new.path.text = id
  label : new.label = entry.label
  impls : new.impls = entry.impls
  pins : Corresponds (entry.pins.filter fun _ slot => slot.node.isNone) new.pins
    (fun key slot => slot.key.getD key) fun _ slot pin => slot.Describes pin
  nodes : Mirrors entry.nodes new.nodes (fun old _ => (NodeId.derived (seed id old)).text)
    fun old node result => node.Becomes entries id old result
  links : Mirrors entry.links new.links (fun old _ => (LinkId.derived (seed id old)).text)
    fun old wire result => wire.Becomes entry id old result

theorem Entry.becomes_of_toPatch {id : String} {new : Patch}
    (h : (entry.toPatch entries id).outcome = .ok new) : entry.Becomes entries id new := by
  rw [outcome_toPatch] at h
  obtain ⟨path, hpath, h⟩ := Outcome.bind_eq_ok.1 h
  obtain ⟨withPins, hpins, h⟩ := Outcome.bind_eq_ok.1 h
  obtain ⟨withNodes, hnodes, hlinks⟩ := Outcome.bind_eq_ok.1 h
  obtain ⟨pins, hpinsMade, hpins⟩ := Outcome.foldlM_bind_eq_ok.1 hpins
  obtain ⟨nodes, hnodesMade, hnodes⟩ := Outcome.foldlM_bind_eq_ok.1 hnodes
  obtain ⟨links, hlinksMade, hlinks⟩ := Outcome.foldlM_bind_eq_ok.1 hlinks
  -- no stage reads what an earlier one has put in place, apart from checks that have succeeded
  have hpins := Outcome.foldlM_mapError_eq_ok.1 hpins
  have hwithPins := Patch.foldlM_insertPin_eq_ok hpins
  have hwithNodes := Patch.foldlM_insertNode_eq_ok (Outcome.foldlM_mapError_eq_ok.1 hnodes)
  have hnew := Patch.foldlM_insertLink_eq_ok (Outcome.foldlM_mapError_eq_ok.1 hlinks)
  rw [Patch.foldl_addImpl, hwithNodes, hwithPins] at hnew
  rw [hnew]
  constructor
  · exact PatchPath.text_of_parse (Outcome.ok_of_mapError.1 hpath)
  · rfl
  · exact OrderedMap.ofList_toList entry.impls
  · refine Corresponds.of_mapM hpinsMade (fun key slot pin hpin => ?_)
      (Patch.nodup_of_foldlM_insertPin hpins)
    exact Slot.describes_of_toPin (Outcome.ok_of_mapError.1 hpin)
  · refine Mirrors.of_mapM hnodesMade fun old node result hresult => ?_
    have hbecomes := Instance.becomes_of_toNode hresult
    exact ⟨congrArg Identifier.text hbecomes.id, hbecomes⟩
  · refine Mirrors.of_mapM hlinksMade fun old wire result hresult => ?_
    have hbecomes := Entry.becomes_of_link hresult
    exact ⟨congrArg Identifier.text hbecomes.id, hbecomes⟩

/-! ### Projects -/

theorem exists_entries_of_migrate {bundle : Json} {project : Project}
    (h : (migrate bundle).outcome = .ok project) :
    ∃ entries, Bundle.entries bundle = .ok entries := by
  rw [outcome_migrate] at h
  obtain ⟨entries, hentries, _⟩ := Outcome.bind_eq_ok.1 h
  exact ⟨entries, hentries⟩

/-- The patches of a migrated bundle are those of its entries. -/
theorem corresponds_of_migrate {bundle : Json} {project : Project}
    (h : (migrate bundle).outcome = .ok project) (hentries : Bundle.entries bundle = .ok entries) :
    project.authors = (author? bundle).toList ∧
      Corresponds entries project.patches (fun id _ => id) fun id entry patch =>
        entry.Becomes entries id patch := by
  rw [outcome_migrate, hentries, Outcome.ok_bind] at h
  obtain ⟨patches, hmade, hproject⟩ := Outcome.foldlM_bind_eq_ok.1 h
  rw [List.foldlM_pure, Outcome.pure_eq_ok, Project.foldl_store] at hproject
  rw [← hproject]
  refine ⟨rfl, (Mirrors.of_mapM hmade fun id entry patch hpatch => ?_).corresponds⟩
  have hbecomes := Entry.becomes_of_toPatch hpatch
  exact ⟨hbecomes.path, hbecomes⟩

end Bundle

end Patchbay
