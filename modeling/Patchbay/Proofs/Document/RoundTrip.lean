import Patchbay.Proofs.Document.Loading
import Patchbay.Proofs.Json.ReadBack
import Patchbay.Proofs.Json.Representable
import Patchbay.Proofs.Texts

/-! Documents round-trip: a project with finite numbers is read back from the document that it is
written as. -/

namespace Patchbay

open Json Json.Record

/-! ### Finite numbers -/

def Position.IsFinite (position : Position) : Prop := position.x.isFinite ∧ position.y.isFinite

def Literal.IsFinite : Literal → Prop
  | number value => value.isFinite
  | _ => True

structure Node.IsFinite (node : Node) : Prop where
  position : node.position.IsFinite
  bound : ∀ pin value, node.bound.get? pin = some value → value.IsFinite

def Pin.IsFinite (pin : Pin) : Prop := ∀ value, pin.value = some value → value.IsFinite

structure PatchDocument.IsFinite (document : PatchDocument) : Prop where
  nodes : ∀ id node, document.nodes.get? id = some node → node.IsFinite
  pins : ∀ key pin, document.pins.get? key = some pin → pin.IsFinite

def ProjectDocument.IsFinite (document : ProjectDocument) : Prop :=
  ∀ path stored, document.patches.get? path = some stored → stored.IsFinite

/-- Positions, bound literals and default literals of pins are finite. -/
def Project.IsFinite (project : Project) : Prop :=
  ∀ path patch, project.patches.get? path = some patch → patch.document.IsFinite

/-! ### Texts -/

theorem checkedBy_eq_ok {α : Type} {parse : String → Except ValidationError α} {s : String} {a : α}
    (h : parse s = .ok a) : checkedBy parse s = .ok a := by
  rw [checkedBy, h]
  rfl

theorem decodeValue_checked {α : Type} {parse : String → Except ValidationError α} {s : String}
    {a : α} (h : parse s = .ok a) :
    decodeValue (Decoder.string.refine (checkedBy parse)) (.string s) = .ok a := by
  show (checkedBy parse s).mapError DecodeError.refused = _
  rw [checkedBy_eq_ok h]
  rfl

theorem Identifier.decodeValue_toJson {kind : Identifier.Kind} (id : Identifier kind) :
    decodeValue Identifier.decoder id.toJson = .ok id := decodeValue_checked id.parse_text

theorem PatchPath.decodeValue_toJson (path : PatchPath) :
    decodeValue PatchPath.decoder path.toJson = .ok path := decodeValue_checked path.parse_text

theorem DataType.decodeValue_toJson (type : DataType) :
    decodeValue DataType.decoder type.toJson = .ok type := decodeValue_checked type.parse_text

theorem Direction.decodeValue_toJson (direction : Direction) :
    decodeValue Direction.decoder direction.toJson = .ok direction := by
  cases direction <;> rfl

/-! ### Numbers and literals -/

theorem Number.decodeValue_ofNumber {x : Number} (h : x.isFinite) :
    decodeValue Decoder.number (.ofNumber x) = .ok x := by
  rw [Json.ofNumber, if_pos h]
  rfl

theorem decodeValue_uint32 (n : UInt32) : decodeValue Decoder.uint32 (.ofNat n.toNat) = .ok n := by
  have hlt : n.toNat < 0x100000000 := n.toNat_lt
  have hword : (Numeral.whole n.toNat).toUInt32? = some n := by
    rw [Numeral.toUInt32?, if_pos (by omega), Int.toNat_natCast, UInt32.ofNat_toNat]
  rw [decodeValue, Json.ofNat, Source.ofJson, Decoder.uint32]
  simp only [hword]

theorem Literal.IsFinite.decodeValue_toJson {value : Literal} (h : value.IsFinite) :
    decodeValue Literal.decoder value.toJson = .ok value := by
  cases value with
  | number x =>
    have hx : x.isFinite := h
    rw [Literal.toJson, Json.ofNumber, if_pos hx]
    rfl
  | _ => rfl

theorem Literal.toJson_ne_null {value : Literal} (h : value.IsFinite) : value.toJson ≠ .null := by
  cases value with
  | number x =>
    have hx : x.isFinite := h
    rw [Literal.toJson, Json.ofNumber, if_pos hx]
    exact nofun
  | _ => exact nofun

/-! ### Nodes, links and pins -/

theorem obtains_text {written : List (String × Option Json)} {name : String} {text? : Option String}
    (h : (name, text?.map .string) ∈ written) :
    Obtains written name Decoder.string.option (some none) text? :=
  obtains_optional h fun _ _ => ⟨rfl, nofun⟩

theorem obtains_unless_empty {κ α : Type} [TextKey κ] {written : List (String × Option Json)}
    {name : String} {d : Decoder (OrderedMap κ α)} {write : α → Json} {m : OrderedMap κ α}
    (hmem : (name, if m.isEmpty then none else some (Json.ofMap write m)) ∈ written)
    (h : decodeValue d (Json.ofMap write m) = .ok m) :
    Obtains written name d (some .empty) m := by
  by_cases hempty : m.isEmpty
  · rw [if_pos hempty] at hmem
    have hm : m = .empty := OrderedMap.ext fun key => OrderedMap.get?_eq_none_of_isEmpty hempty key
    exact .absent hmem (congrArg some hm.symm)
  · rw [if_neg hempty] at hmem
    exact .present hmem h

theorem Position.IsFinite.decodeValue_toJson {position : Position} (h : position.IsFinite) :
    decodeValue Position.decoder position.toJson = .ok position := by
  have hnodup : (List.map Prod.fst [("x", some (Json.ofNumber position.x)),
      ("y", some (Json.ofNumber position.y))]).Nodup := by
    show ["x", "y"].Nodup
    decide
  have hx := Number.decodeValue_ofNumber h.1
  have hy := Number.decodeValue_ofNumber h.2
  exact decodeValue_of_reads (reads_pure Position.mk
    |>.field hnodup (by simp) (.present (by simp) hx)
    |>.field hnodup (by simp) (.present (by simp) hy))

theorem Node.IsFinite.decodeValue_toJson {node : Node} (h : node.IsFinite) :
    decodeValue Node.decoder node.toJson = .ok node := by
  have hnodup : (List.map Prod.fst [
      ("id", some node.id.toJson),
      ("type", some node.type.toJson),
      ("position", some node.position.toJson),
      ("boundValues", some (Json.ofMap Literal.toJson node.bound)),
      ("label", node.label.map .string)]).Nodup := by
    show ["id", "type", "position", "boundValues", "label"].Nodup
    decide
  have hbound := decodeValue_map (fun pin : PinKey => checkedBy_eq_ok pin.parse_text)
    fun pin value hvalue => (h.bound pin value hvalue).decodeValue_toJson
  exact decodeValue_of_reads (reads_pure Node.mk
    |>.field hnodup (by simp) (.present (by simp) node.id.decodeValue_toJson)
    |>.field hnodup (by simp) (.present (by simp) node.type.decodeValue_toJson)
    |>.field hnodup (by simp) (.present (by simp) h.position.decodeValue_toJson)
    |>.field hnodup (by simp) (.present (by simp) hbound)
    |>.field hnodup (by simp) (obtains_text (by simp)))

theorem Endpoint.decodeValue_toJson (e : Endpoint) :
    decodeValue Endpoint.decoder e.toJson = .ok e := by
  have hnodup : (List.map Prod.fst [
      ("nodeId", some e.node.toJson), ("pinKey", some e.pin.toJson)]).Nodup := by
    show ["nodeId", "pinKey"].Nodup
    decide
  exact decodeValue_of_reads (reads_pure Endpoint.mk
    |>.field hnodup (by simp) (.present (by simp) e.node.decodeValue_toJson)
    |>.field hnodup (by simp) (.present (by simp) e.pin.decodeValue_toJson))

theorem Link.decodeValue_toJson (link : Link) :
    decodeValue Link.decoder link.toJson = .ok link := by
  have hnodup : (List.map Prod.fst [
      ("id", some link.id.toJson),
      ("input", some link.input.toJson),
      ("output", some link.output.toJson)]).Nodup := by
    show ["id", "input", "output"].Nodup
    decide
  exact decodeValue_of_reads (reads_pure Link.mk
    |>.field hnodup (by simp) (.present (by simp) link.id.decodeValue_toJson)
    |>.field hnodup (by simp) (.present (by simp) link.input.decodeValue_toJson)
    |>.field hnodup (by simp) (.present (by simp) link.output.decodeValue_toJson))

theorem Pin.IsFinite.decodeValue_toJson {pin : Pin} (h : pin.IsFinite) :
    decodeValue Pin.decoder pin.toJson = .ok pin := by
  have hnodup : (List.map Prod.fst [
      ("key", some pin.key.toJson),
      ("type", some pin.type.toJson),
      ("direction", some pin.direction.toJson),
      ("order", some (Json.ofNat pin.order.toNat)),
      ("injected", some (.boolean pin.injected)),
      ("value", pin.value.map Literal.toJson),
      ("label", pin.label.map .string)]).Nodup := by
    show ["key", "type", "direction", "order", "injected", "value", "label"].Nodup
    decide
  have hvalue : ∀ value, pin.value = some value →
      decodeValue Literal.decoder value.toJson = .ok value ∧ value.toJson ≠ .null :=
    fun value hsome => ⟨(h value hsome).decodeValue_toJson, Literal.toJson_ne_null (h value hsome)⟩
  have hinjected : decodeValue Decoder.boolean (.boolean pin.injected) = .ok pin.injected := rfl
  exact decodeValue_of_reads (reads_pure Pin.mk
    |>.field hnodup (by simp) (.present (by simp) pin.key.decodeValue_toJson)
    |>.field hnodup (by simp) (.present (by simp) pin.type.decodeValue_toJson)
    |>.field hnodup (by simp) (.present (by simp) pin.direction.decodeValue_toJson)
    |>.field hnodup (by simp) (.present (by simp) (decodeValue_uint32 pin.order))
    |>.field hnodup (by simp) (.present (by simp) hinjected)
    |>.field hnodup (by simp) (obtains_optional (by simp) hvalue)
    |>.field hnodup (by simp) (obtains_text (by simp)))

/-! ### Patches and projects -/

theorem PatchDocument.IsFinite.decodeValue_toJson {document : PatchDocument}
    (h : document.IsFinite) : decodeValue PatchDocument.decoder document.toJson = .ok document := by
  have hnodup : (List.map Prod.fst [
      ("label", document.label.map .string),
      ("nodes", some (Json.ofMap Node.toJson document.nodes)),
      ("links", some (Json.ofMap Link.toJson document.links)),
      ("pins", some (Json.ofMap Pin.toJson document.pins)),
      ("impls", if document.impls.isEmpty then none
        else some (Json.ofMap .string document.impls))]).Nodup := by
    show ["label", "nodes", "links", "pins", "impls"].Nodup
    decide
  have hnodes := decodeValue_map (fun id : NodeId => checkedBy_eq_ok id.parse_text)
    fun id node hnode => (h.nodes id node hnode).decodeValue_toJson
  have hlinks := decodeValue_map (m := document.links)
    (fun id : LinkId => checkedBy_eq_ok id.parse_text) fun _ link _ => link.decodeValue_toJson
  have hpins := decodeValue_map (fun key : PinKey => checkedBy_eq_ok key.parse_text)
    fun key pin hpin => (h.pins key pin hpin).decodeValue_toJson
  have himpls : decodeValue (Decoder.map .ok Decoder.string) (Json.ofMap .string document.impls) =
      .ok document.impls :=
    decodeValue_map (fun _ => rfl) fun _ _ _ => rfl
  exact decodeValue_of_reads (reads_pure PatchDocument.mk
    |>.field hnodup (by simp) (obtains_text (by simp))
    |>.field hnodup (by simp) (.present (by simp) hnodes)
    |>.field hnodup (by simp) (.present (by simp) hlinks)
    |>.field hnodup (by simp) (.present (by simp) hpins)
    |>.field hnodup (by simp) (obtains_unless_empty (by simp) himpls))

theorem ProjectDocument.IsFinite.decodeValue_toJson {document : ProjectDocument}
    (h : document.IsFinite) :
    decodeValue ProjectDocument.decoder document.toJson = .ok document := by
  have hnodup : (List.map Prod.fst [
      ("patches", some (Json.ofMap PatchDocument.toJson document.patches)),
      ("authors", some (.array (document.authors.map .string)))]).Nodup := by
    show ["patches", "authors"].Nodup
    decide
  have hpatches := decodeValue_map (fun path : PatchPath => checkedBy_eq_ok path.parse_text)
    fun path stored hstored => (h path stored hstored).decodeValue_toJson
  have hauthors : decodeValue Decoder.string.list (.array (document.authors.map .string)) =
      .ok document.authors :=
    decodeValue_list fun _ _ => rfl
  exact decodeValue_of_reads (reads_pure ProjectDocument.mk
    |>.field hnodup (by simp) (.present (by simp) hpatches)
    |>.field hnodup (by simp) (.present (by simp) hauthors))

/-- A well-formed project is read back from its document. -/
theorem Project.ofJson_toJson {project : Project} (hwell : project.WellFormed)
    (h : project.IsFinite) : Project.ofJson project.toJson = .ok project := by
  have hdocument : project.document.IsFinite := by
    intro path stored hstored
    obtain ⟨patch, hpatch, rfl⟩ := ProjectDocument.get?_document_eq_some.1 hstored
    exact h path patch hpatch
  have hproject := ProjectDocument.toProject_document hwell
  exact Outcome.bind_eq_ok.2 ⟨project.document, hdocument.decodeValue_toJson,
    Outcome.ok_of_mapError.2 (Outcome.ok_of_mapError.2 hproject)⟩

/-! ### What is read is finite -/

theorem Literal.gives_decoder : Literal.decoder.Gives Literal.IsFinite := by
  intro origin source value hsource h
  -- other values are read for their own faults, and then there is no literal of their kind
  have hjson : ∀ {x : Except DecodeError Json}, (do
      let _ ← x
      .error .noVariant : Except DecodeError Literal) ≠ .ok value := by
    intro x hx
    obtain ⟨_, _, hx⟩ := Outcome.bind_eq_ok.1 hx
    exact nomatch hx
  cases source with
  | boolean _ =>
    cases h
    trivial
  | number n =>
    cases n with
    | some n =>
      cases h
      exact Numeral.isFinite_toNumber hsource
    | none => exact absurd h hjson
  | string s =>
    cases s with
    | some _ =>
      cases h
      trivial
    | none => exact absurd h hjson
  | _ => exact absurd h hjson

theorem Position.gives_decoder : Position.decoder.Gives Position.IsFinite := by
  have hmk : (Record.pure Position.mk).Gives fun g =>
      ∀ x : Number, x.isFinite → ∀ y : Number, y.isFinite → (g x y).IsFinite :=
    gives_pure fun _ hx _ hy => ⟨hx, hy⟩
  refine Gives.decoder (.field (.field hmk Decoder.gives_number ?_) Decoder.gives_number ?_)
  · exact nofun
  · exact nofun

theorem Node.gives_decoder : Node.decoder.Gives Node.IsFinite := by
  have hmk : (Record.pure Node.mk).Gives fun g => ∀ id type position, position.IsFinite →
      ∀ bound, (∀ pin value, bound.get? pin = some value → value.IsFinite) →
        ∀ label, (g id type position bound label).IsFinite :=
    gives_pure fun _ _ _ hposition _ hbound _ => ⟨hposition, hbound⟩
  refine Gives.decoder (.anyField (.field (.field (.anyField (.anyField hmk))
    Position.gives_decoder ?_) (Decoder.gives_map Literal.gives_decoder) ?_))
  · rintro _ ⟨⟩
    exact ⟨rfl, rfl⟩
  · rintro _ ⟨⟩
    exact nofun

theorem Pin.gives_decoder : Pin.decoder.Gives Pin.IsFinite := by
  have hmk : (Record.pure Pin.mk).Gives fun g => ∀ key type direction order injected value,
      (∀ literal, value = some literal → literal.IsFinite) →
        ∀ label, (g key type direction order injected value label).IsFinite :=
    gives_pure fun _ _ _ _ _ _ hvalue _ => hvalue
  refine Gives.decoder (.anyField (.field (.anyField (.anyField (.anyField (.anyField
    (.anyField hmk))))) (Decoder.gives_option Literal.gives_decoder) ?_))
  rintro _ ⟨⟩
  exact nofun

theorem PatchDocument.gives_decoder : PatchDocument.decoder.Gives PatchDocument.IsFinite := by
  have hmk : (Record.pure PatchDocument.mk).Gives fun g => ∀ label nodes,
      (∀ id node, nodes.get? id = some node → node.IsFinite) → ∀ links pins,
      (∀ key pin, pins.get? key = some pin → pin.IsFinite) →
        ∀ impls, (g label nodes links pins impls).IsFinite :=
    gives_pure fun _ _ hnodes _ _ hpins _ => ⟨hnodes, hpins⟩
  refine Gives.decoder (.anyField (.field (.anyField (.field (.anyField hmk)
    (Decoder.gives_map Node.gives_decoder) ?_)) (Decoder.gives_map Pin.gives_decoder) ?_))
  · rintro _ ⟨⟩
    exact nofun
  · rintro _ ⟨⟩
    exact nofun

theorem ProjectDocument.gives_decoder :
    ProjectDocument.decoder.Gives ProjectDocument.IsFinite := by
  have hmk : (Record.pure ProjectDocument.mk).Gives fun g => ∀ patches,
      (∀ path stored, patches.get? path = some stored → stored.IsFinite) →
        ∀ authors, (g patches authors).IsFinite :=
    gives_pure fun _ hpatches _ => hpatches
  refine Gives.decoder (.anyField (.field hmk (Decoder.gives_map PatchDocument.gives_decoder) ?_))
  rintro _ ⟨⟩
  exact nofun

theorem Project.isFinite_of_decoder {origin : Origin} {source : Source} {project : Project}
    (hsource : source.isRepresentable) (h : Project.decoder origin source = .ok project) :
    project.IsFinite := by
  obtain ⟨document, hdocument, hproject⟩ := Project.exists_document h
  obtain ⟨_, rfl⟩ := ProjectDocument.toProject_eq_ok_iff.1 hproject
  intro path patch hpatch
  rw [ProjectDocument.verbatim, OrderedMap.get?_map] at hpatch
  obtain ⟨stored, hstored, rfl⟩ := Option.map_eq_some_iff.1 hpatch
  exact ProjectDocument.gives_decoder _ _ document hsource hdocument path stored hstored

theorem Project.isFinite_of_ofJson {value : Json} {project : Project}
    (hvalue : value.isRepresentable) (h : Project.ofJson value = .ok project) :
    project.IsFinite :=
  isFinite_of_decoder hvalue h

/-- A reachable project with finite numbers is read back from the value that it is written as, and
so is every project that has been read from a value. -/
theorem Project.round_trips :
    (∀ project : Project, project.Reachable → project.IsFinite →
      Project.ofJson project.toJson = .ok project) ∧
    ∀ (value : Json) (project : Project), value.isRepresentable →
      Project.ofJson value = .ok project → Project.ofJson project.toJson = .ok project := by
  constructor
  · exact fun project hreachable hfinite => Project.ofJson_toJson hreachable.wellFormed hfinite
  · intro value project hvalue h
    exact Project.ofJson_toJson (Project.reachable_of_ofJson h).wellFormed
      (Project.isFinite_of_ofJson hvalue h)

/-- A document with fields left out, coordinates as integers in an array, a member that is no field
and an integer that no number is equal to. -/
def Json.terseDocument : Json :=
  .object [("patches", .object [("@/main", .object [("nodes", .object [("dial", .object [
    ("boundValues", .object [("level", .number (.whole 9007199254740993))]),
    ("id", .string "dial"),
    ("label", .null),
    ("note", .boolean true),
    ("position", .array [.number (.whole 3), .number (.whole (-2))]),
    ("type", .string "@/lamp")])])])])]

/-- What is read from the document round-trips, and so it does with an author added. -/
theorem Project.round_trips_terse : terseDocument.isRepresentable ∧
    ∃ read, Project.ofJson terseDocument = .ok read ∧ read.patches.size = 1 ∧
      Project.ofJson read.toJson = .ok read ∧
      (read.addAuthor "somebody").Reachable ∧ (read.addAuthor "somebody").IsFinite ∧
      Project.ofJson (read.addAuthor "somebody").toJson = .ok (read.addAuthor "somebody") := by
  have hvalue : terseDocument.isRepresentable := by decide
  have hrun : (Project.ofJson terseDocument).toOption.bind (fun read => some read.patches.size) =
      some 1 := by
    decide +kernel
  obtain ⟨read, hread, hsize⟩ := Outcome.exists_of_toOption_bind hrun
  have hreachable : (read.addAuthor "somebody").Reachable :=
    .authored "somebody" (Project.reachable_of_ofJson hread)
  have hread' : read.IsFinite := Project.isFinite_of_ofJson hvalue hread
  have hfinite : (read.addAuthor "somebody").IsFinite := hread'
  obtain ⟨hwritten, hreadAgain⟩ := Project.round_trips
  exact ⟨hvalue, read, hread, Option.some.inj hsize, hreadAgain terseDocument read hvalue hread,
    hreachable, hfinite, hwritten _ hreachable hfinite⟩

end Patchbay
