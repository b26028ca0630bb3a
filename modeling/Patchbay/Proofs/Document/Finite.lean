import Patchbay.Proofs.Document.RoundTrip

/-! A well-formed project is read back from its document exactly if its numbers are finite. What is
written has numbers of 64 bits whatever the project, as `null` stands for any other number, and what
has been loaded is finite. -/

namespace Patchbay

open Json

/-! ### What is written -/

namespace Json

@[simp] theorem isRepresentable_string (s : String) : (string s).isRepresentable := rfl

@[simp] theorem isRepresentable_boolean (value : Bool) : (boolean value).isRepresentable := rfl

theorem isRepresentable_array {items : List Json} :
    (array items).isRepresentable ↔ ∀ item ∈ items, item.isRepresentable := by
  rw [isRepresentable, Source.ofJson, Source.isRepresentable_array, Source.ofItems_eq_map,
    List.forall_mem_map]
  rfl

theorem isRepresentable_object {members : List (String × Json)} :
    (object members).isRepresentable ↔ ∀ e ∈ members, e.2.isRepresentable := by
  rw [isRepresentable, Source.ofJson, Source.isRepresentable_object, Source.ofMembers_eq_map,
    List.forall_mem_map]
  rfl

@[simp] theorem isRepresentable_ofNumber (x : Number) : (ofNumber x).isRepresentable := by
  unfold ofNumber
  split
  · assumption
  · rfl

theorem isRepresentable_uint32 (n : UInt32) : (ofNat n.toNat).isRepresentable := by
  have hn : n.toNat < 2 ^ 32 := n.toNat_lt
  show (Numeral.whole n.toNat).isRepresentable
  simp only [Numeral.isRepresentable, Bool.and_eq_true, decide_eq_true_eq]
  omega

theorem isRepresentable_ofMap {κ α : Type} [TextKey κ] {write : α → Json} {m : OrderedMap κ α}
    (h : ∀ key value, m.get? key = some value → (write value).isRepresentable) :
    (ofMap write m).isRepresentable := by
  refine isRepresentable_object.2 (List.forall_mem_map.2 fun e he => ?_)
  exact h e.1 e.2 (OrderedMap.mem_toList_iff.1 he)

theorem isRepresentable_present {members : List (String × Option Json)}
    (h : ∀ e ∈ members, ∀ value ∈ e.2, value.isRepresentable) :
    (present members).isRepresentable := by
  refine isRepresentable_object.2 fun e he => ?_
  obtain ⟨⟨name, value?⟩, hmem, hvalue⟩ := List.mem_filterMap.1 he
  obtain ⟨value, hsome, rfl⟩ := Option.map_eq_some_iff.1 hvalue
  exact h (name, value?) hmem value hsome

end Json

@[simp] theorem Literal.isRepresentable_toJson (value : Literal) :
    value.toJson.isRepresentable := by
  cases value <;> simp [toJson]

@[simp] theorem Position.isRepresentable_toJson (position : Position) :
    position.toJson.isRepresentable := by
  simp [toJson, isRepresentable_object]

@[simp] theorem Endpoint.isRepresentable_toJson (e : Endpoint) : e.toJson.isRepresentable := by
  simp [toJson, isRepresentable_object, Identifier.toJson]

@[simp] theorem Link.isRepresentable_toJson (link : Link) : link.toJson.isRepresentable := by
  simp [toJson, isRepresentable_object, Identifier.toJson]

@[simp] theorem Node.isRepresentable_toJson (node : Node) : node.toJson.isRepresentable := by
  have hbound : (ofMap Literal.toJson node.bound).isRepresentable :=
    isRepresentable_ofMap fun _ value _ => value.isRepresentable_toJson
  refine isRepresentable_present ?_
  simp [Identifier.toJson, PatchPath.toJson, hbound]

@[simp] theorem Pin.isRepresentable_toJson (pin : Pin) : pin.toJson.isRepresentable := by
  refine isRepresentable_present ?_
  simp [Identifier.toJson, DataType.toJson, Direction.toJson, isRepresentable_uint32]

theorem PatchDocument.isRepresentable_toJson (document : PatchDocument) :
    document.toJson.isRepresentable := by
  have hnodes : (ofMap Node.toJson document.nodes).isRepresentable :=
    isRepresentable_ofMap fun _ node _ => node.isRepresentable_toJson
  have hlinks : (ofMap Link.toJson document.links).isRepresentable :=
    isRepresentable_ofMap fun _ link _ => link.isRepresentable_toJson
  have hpins : (ofMap Pin.toJson document.pins).isRepresentable :=
    isRepresentable_ofMap fun _ pin _ => pin.isRepresentable_toJson
  have himpls : (ofMap .string document.impls).isRepresentable :=
    isRepresentable_ofMap fun _ source _ => isRepresentable_string source
  refine isRepresentable_present ?_
  simp [hnodes, hlinks, hpins, himpls]

theorem Project.isRepresentable_toJson (project : Project) : project.toJson.isRepresentable := by
  have hpatches : (ofMap PatchDocument.toJson project.document.patches).isRepresentable :=
    isRepresentable_ofMap fun _ document _ => document.isRepresentable_toJson
  refine isRepresentable_object.2 ?_
  simp [hpatches, isRepresentable_array]

/-! ### What is read -/

/-- A project comes from a document, which is a text or a value. -/
inductive Project.IsLoaded (project : Project) : Prop where
  | text {s : String} (h : Project.ofText s = .ok project)
  | value {value : Json} (representable : value.isRepresentable)
    (h : Project.ofJson value = .ok project)

theorem Project.IsLoaded.isFinite {project : Project} (h : project.IsLoaded) :
    project.IsFinite := by
  cases h with
  | text h =>
    obtain ⟨source, hsource, hread⟩ := Json.exists_source_of_decodeText h
    exact Project.isFinite_of_decoder hsource hread
  | value hvalue h => exact Project.isFinite_of_ofJson hvalue h

theorem Project.IsLoaded.reachable {project : Project} (h : project.IsLoaded) :
    project.Reachable := by
  cases h with
  | text h => exact Project.reachable_of_ofText h
  | value _ h => exact Project.reachable_of_ofJson h

theorem Project.reads_back_iff {project : Project} (h : project.WellFormed) :
    Project.ofJson project.toJson = .ok project ↔ project.IsFinite :=
  ⟨fun hread => Project.isFinite_of_ofJson project.isRepresentable_toJson hread,
    fun hfinite => Project.ofJson_toJson h hfinite⟩

end Patchbay
