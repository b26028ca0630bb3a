import Patchbay.Extraction
import Patchbay.Proofs.Patch.WellFormed

/-! The free values of a patch, said without the search for them, and what the search finds: an
extraction that succeeds has one supply for each free value, with the constant of its declared
type. -/

namespace Patchbay

variable {flat : Project} {entry : PatchPath} {library : Library} {settings : Settings}
  {patch : Patch}

/-- A literal that an extraction takes away: its node is stored in the patch and no terminal, and
its pin has no link and is no output of the node's type in the library. -/
structure BoundValue.IsFree (library : Library) (patch : Patch) (b : BoundValue) : Prop where
  stored : patch.nodes.get? b.node.id = some b.node
  bound : b.node.bound.get? b.pin = some b.value
  ordinary : ¬ b.node.isTerminal
  unlinked : ¬ patch.isLinked ⟨b.node.id, b.pin⟩
  notOutput : ∀ type, library b.node.type = some type → ∀ output ∈ type.outputs, output.key ≠ b.pin

/-- The literals of all nodes. -/
def Patch.boundValues (patch : Patch) : List BoundValue :=
  patch.nodes.values.flatMap fun node =>
    node.bound.toList.map fun (pin, value) => { node, pin, value }

theorem BoundValue.IsFree.mem_boundValues {b : BoundValue} (h : b.IsFree library patch) :
    b ∈ patch.boundValues := by
  have hnode : b.node ∈ patch.nodes.values := OrderedMap.mem_values_iff.2 ⟨b.node.id, h.stored⟩
  have hbound : (b.pin, b.value) ∈ b.node.bound.toList := OrderedMap.mem_toList_iff.2 h.bound
  exact List.mem_flatMap.2 ⟨b.node, hnode, List.mem_map.2 ⟨_, hbound, rfl⟩⟩

instance BoundValue.decidableIsFree (library : Library) (patch : Patch) :
    DecidablePred (BoundValue.IsFree library patch) := fun b =>
  decidable_of_iff (patch.nodes.get? b.node.id = some b.node ∧
      b.node.bound.get? b.pin = some b.value ∧ ¬ b.node.isTerminal ∧
      ¬ patch.isLinked ⟨b.node.id, b.pin⟩ ∧
      ∀ type ∈ library b.node.type, ∀ output ∈ type.outputs, output.key ≠ b.pin)
    ⟨fun ⟨hstored, hbound, hordinary, hunlinked, hnotOutput⟩ =>
      ⟨hstored, hbound, hordinary, hunlinked, hnotOutput⟩,
    fun h => ⟨h.stored, h.bound, h.ordinary, h.unlinked, h.notOutput⟩⟩

/-- The free values of a node, in the order of their pins. -/
def Patch.freeValuesOf (library : Library) (patch : Patch) (node : Node) : List BoundValue :=
  (node.bound.toList.map fun (pin, value) => { node, pin, value }).filter (·.IsFree library patch)

/-- The constant of an extract is that of the pin that the project declares. -/
def Extract.IsDeclared (flat : Project) (settings : Settings) (e : Extract) : Prop :=
  ∃ type pin, flat.patches.get? e.node.type = some type ∧ type.pin? e.pin = some pin ∧
    settings.constantFor? pin.type = some e.constant

/-- The patch that makes the constant of a literal. -/
def BoundValue.constant? (flat : Project) (settings : Settings) (b : BoundValue) :
    Option PatchPath := do
  let type ← flat.patches.get? b.node.type
  let pin ← type.pin? b.pin
  settings.constantFor? pin.type

theorem Extract.isDeclared_iff {e : Extract} :
    e.IsDeclared flat settings ↔ e.constant? flat settings = some e.constant := by
  simp [IsDeclared, BoundValue.constant?, Option.bind_eq_some_iff]

/-- A supply comes out of the first output that the library's patch for its constant has. -/
def Supply.HasSource (library : Library) (s : Supply) : Prop :=
  ∃ constant output, library s.constant = some constant ∧ constant.outputs.head? = some output ∧
    output.key = s.output

namespace Extraction

theorem mem_linkedInputs_iff {id : NodeId} {pin : PinKey} :
    pin ∈ patch.linkedInputs id ↔ patch.isLinked ⟨id, pin⟩ := by
  rw [Patch.linkedInputs, OrderedMap.mem_keys_ofList]
  simp only [List.mem_map, Patch.linksTo, List.mem_filter, Patch.isLinked, List.any_eq_true,
    decide_eq_true_eq, Prod.mk.injEq]
  constructor
  · rintro ⟨_, link, ⟨hlink, rfl⟩, rfl, _⟩
    exact ⟨link, hlink, rfl⟩
  · rintro ⟨link, hlink, hinput⟩
    exact ⟨(), link, ⟨hlink, by rw [hinput]⟩, by rw [hinput], trivial⟩

theorem occupied_iff {type : Patch} {node : Node} {pin : PinKey} :
    occupied patch type node pin ↔
      patch.isLinked ⟨node.id, pin⟩ ∨ ∃ output ∈ type.outputs, output.key = pin := by
  rw [occupied, Bool.or_eq_true, List.contains_iff_mem, List.contains_iff_mem, mem_linkedInputs_iff,
    List.mem_map]

theorem require_eq_ok_iff {path : PatchPath} {found : Patch} :
    library.require path = .ok found ↔ library path = some found := by
  unfold Library.require
  split <;> simp [*]

/-! ### Free values of a node -/

section Node

variable {node : Node} {free : List BoundValue}

theorem mem_freeValuesOf_iff {b : BoundValue} :
    b ∈ patch.freeValuesOf library node ↔ b.node = node ∧ b.IsFree library patch := by
  simp only [Patch.freeValuesOf, List.mem_filter, List.mem_map, decide_eq_true_eq]
  constructor
  · rintro ⟨⟨e, _, rfl⟩, hb⟩
    exact ⟨rfl, hb⟩
  · rintro ⟨rfl, hb⟩
    exact ⟨⟨(b.pin, b.value), OrderedMap.mem_toList_iff.2 hb.bound, rfl⟩, hb⟩

theorem freeValuesOf_eq_nil (h : node.bound.isEmpty || node.isTerminal) :
    patch.freeValuesOf library node = [] := by
  refine List.eq_nil_iff_forall_not_mem.2 fun b hb => ?_
  obtain ⟨rfl, hfree⟩ := mem_freeValuesOf_iff.1 hb
  rcases Bool.or_eq_true_iff.1 h with hempty | hterminal
  · exact nomatch hfree.bound.symm.trans (OrderedMap.get?_eq_none_of_isEmpty hempty b.pin)
  · exact hfree.ordinary hterminal

/-- The search goes through the literals of one node and keeps the free ones. It asks the library
for the type of every node that could have some. -/
theorem freeValues_eq (hstored : patch.nodes.get? node.id = some node) :
    freeValues library patch node = if node.bound.isEmpty || node.isTerminal then .ok []
      else (library.require node.type).map fun _ => patch.freeValuesOf library node := by
  unfold freeValues
  split
  · rfl
  · rename_i hsome
    rw [Bool.or_eq_true_iff, not_or] at hsome
    cases hrequire : library.require node.type with
    | error e => rfl
    | ok type =>
      have htype := require_eq_ok_iff.1 hrequire
      have hkept : ∀ e ∈ node.bound.toList, (!occupied patch type node e.1) =
          decide (BoundValue.IsFree library patch ⟨node, e.1, e.2⟩) := by
        intro e he
        rw [Bool.eq_iff_iff, Bool.not_eq_true', ← Bool.not_eq_true, occupied_iff, not_or,
          decide_eq_true_iff]
        constructor
        · rintro ⟨hunlinked, houtput⟩
          refine ⟨hstored, OrderedMap.mem_toList_iff.1 he, hsome.2, hunlinked, ?_⟩
          intro other hother output hmem hkey
          cases htype.symm.trans hother
          exact houtput ⟨output, hmem, hkey⟩
        · rintro hb
          exact ⟨hb.unlinked, fun ⟨output, hmem, hkey⟩ => hb.notOutput type htype output hmem hkey⟩
      show Except.ok _ = Except.ok _
      rw [List.filter_congr hkept, Patch.freeValuesOf, List.filter_map]
      rfl

variable (hstored : patch.nodes.get? node.id = some node)
  (hfree : freeValues library patch node = .ok free)
include hstored hfree

theorem eq_freeValuesOf : free = patch.freeValuesOf library node := by
  rw [freeValues_eq hstored] at hfree
  split at hfree
  · rename_i hnone
    cases hfree
    exact (freeValuesOf_eq_nil hnone).symm
  · obtain ⟨_, _, hlist⟩ := Outcome.map_eq_ok.1 hfree
    exact hlist.symm

theorem mem_freeValues_iff {b : BoundValue} :
    b ∈ free ↔ b.node = node ∧ b.IsFree library patch := by
  rw [eq_freeValuesOf hstored hfree]
  exact mem_freeValuesOf_iff

theorem isSome_type_of_freeValues {pin : PinKey} {value : Literal}
    (hbound : node.bound.get? pin = some value) (hordinary : ¬ node.isTerminal) :
    ∃ type, library node.type = some type := by
  rw [freeValues_eq hstored] at hfree
  split at hfree
  · rename_i hnone
    rcases Bool.or_eq_true_iff.1 hnone with hempty | hterminal
    · exact nomatch hbound.symm.trans (OrderedMap.get?_eq_none_of_isEmpty hempty pin)
    · exact absurd hterminal hordinary
  · obtain ⟨type, htype, _⟩ := Outcome.map_eq_ok.1 hfree
    exact ⟨type, require_eq_ok_iff.1 htype⟩

end Node

/-! ### Extracts and supplies -/

theorem extract_eq_ok {type : Patch} {b : BoundValue} {e : Extract}
    (h : extract settings type b = .ok e) :
    e.toBoundValue = b ∧
      ∃ pin, type.pin? b.pin = some pin ∧ settings.constantFor? pin.type = some e.constant := by
  unfold extract at h
  split at h
  · exact nomatch h
  · rename_i pin hpin
    split at h
    · exact nomatch h
    · rename_i constant hconstant
      cases h
      exact ⟨rfl, pin, hpin, hconstant⟩

/-- The search through one node gives an extract for each of its free values. -/
theorem extractsOf_eq_ok {node : Node} {found : List Extract}
    (hstored : patch.nodes.get? node.id = some node)
    (h : extractsOf flat library settings patch node = .ok found) :
    (∀ e ∈ found, e.toBoundValue.IsFree library patch ∧ e.IsDeclared flat settings) ∧
      ∀ b : BoundValue, b.node = node → b.IsFree library patch →
        ∃ e ∈ found, e.toBoundValue = b := by
  obtain ⟨free, hfree, hrest⟩ := Outcome.bind_eq_ok.1 h
  rw [Outcome.ok_of_mapError] at hfree
  have hmem : ∀ b, b ∈ free ↔ b.node = node ∧ b.IsFree library patch := fun b =>
    mem_freeValues_iff hstored hfree
  split at hrest
  · cases hrest
    exact ⟨nofun, fun b hnode hb => nomatch (hmem b).2 ⟨hnode, hb⟩⟩
  · obtain ⟨type, htype, hextract⟩ := Outcome.bind_eq_ok.1 hrest
    rw [Outcome.ok_of_mapError, Project.require, require_eq_ok_iff] at htype
    constructor
    · intro e he
      obtain ⟨b, hb, hbe⟩ := Outcome.exists_source hextract he
      obtain ⟨rfl, pin, hpin, hconstant⟩ := extract_eq_ok hbe
      obtain ⟨rfl, hisFree⟩ := (hmem _).1 hb
      exact ⟨hisFree, type, pin, htype, hpin, hconstant⟩
    · intro b hnode hb
      obtain ⟨e, he, hbe⟩ := Outcome.exists_image hextract ((hmem b).2 ⟨hnode, hb⟩)
      exact ⟨e, he, (extract_eq_ok hbe).1⟩

theorem isDeclared_of_extracts {found : List Extract}
    (hkeyed : ∀ id node, patch.nodes.get? id = some node → node.id = id)
    (h : extracts flat library settings patch = .ok found) {e : Extract} (he : e ∈ found) :
    e.toBoundValue.IsFree library patch ∧ e.IsDeclared flat settings := by
  obtain ⟨lists, hlists, hflatten⟩ := Outcome.bind_eq_ok.1 h
  cases hflatten
  obtain ⟨l, hl, he⟩ := List.mem_flatten.1 he
  obtain ⟨node, hnode, hof⟩ := Outcome.exists_source hlists hl
  exact (extractsOf_eq_ok (OrderedMap.get?_of_mem_values hkeyed hnode) hof).1 e he

theorem supply_eq_ok {e : Extract} {s : Supply} (h : supply library e = .ok s) :
    s.toExtract = e ∧ s.HasSource library := by
  obtain ⟨constant, hconstant, hrest⟩ := Outcome.bind_eq_ok.1 h
  rw [Outcome.ok_of_mapError, require_eq_ok_iff] at hconstant
  split at hrest
  · exact nomatch hrest
  · rename_i output _ houtputs
    cases hrest
    exact ⟨rfl, constant, output, hconstant, by rw [houtputs]; rfl, rfl⟩

/-- What an extraction has found before it rewrites the entry patch: one supply at least for each
free value, supplies for free values only, and the types of all nodes that could have some. -/
structure Found (flat : Project) (library : Library) (settings : Settings) (patch : Patch)
    (supplies : List Supply) : Prop where
  isFree : ∀ s ∈ supplies, s.toBoundValue.IsFree library patch
  declared : ∀ s ∈ supplies, s.IsDeclared flat settings
  source : ∀ s ∈ supplies, s.HasSource library
  all : ∀ b : BoundValue, b.IsFree library patch → ∃ s ∈ supplies, s.toBoundValue = b
  known : ∀ id node pin value, patch.nodes.get? id = some node →
    node.bound.get? pin = some value → ¬ node.isTerminal → ∃ type, library node.type = some type

theorem found_of_extracts {found : List Extract} {supplies : List Supply}
    (hkeyed : ∀ id node, patch.nodes.get? id = some node → node.id = id)
    (hfound : extracts flat library settings patch = .ok found)
    (hsupplies : found.mapM (supply library) = .ok supplies) :
    Found flat library settings patch supplies := by
  have hsource : ∀ s ∈ supplies, s.toExtract ∈ found ∧ s.HasSource library := by
    intro s hs
    obtain ⟨e, he, hes⟩ := Outcome.exists_source hsupplies hs
    obtain ⟨rfl, hfrom⟩ := supply_eq_ok hes
    exact ⟨he, hfrom⟩
  have hextracts : ∀ s ∈ supplies, s.toBoundValue.IsFree library patch ∧
      s.IsDeclared flat settings :=
    fun s hs => isDeclared_of_extracts hkeyed hfound (hsource s hs).1
  obtain ⟨lists, hlists, hflatten⟩ := Outcome.bind_eq_ok.1 hfound
  cases hflatten
  refine ⟨fun s hs => (hextracts s hs).1, fun s hs => (hextracts s hs).2,
    fun s hs => (hsource s hs).2, ?_, ?_⟩
  · intro b hb
    obtain ⟨l, hl, hof⟩ :=
      Outcome.exists_image hlists (OrderedMap.mem_values_iff.2 ⟨b.node.id, hb.stored⟩)
    obtain ⟨e, he, hbe⟩ := (extractsOf_eq_ok hb.stored hof).2 b rfl hb
    obtain ⟨s, hs, hes⟩ := Outcome.exists_image hsupplies (List.mem_flatten.2 ⟨l, hl, he⟩)
    exact ⟨s, hs, by rw [(supply_eq_ok hes).1, hbe]⟩
  · intro id node pin value hnode hbound hordinary
    obtain rfl := hkeyed id node hnode
    obtain ⟨l, _, hof⟩ := Outcome.exists_image hlists (OrderedMap.mem_values_iff.2 ⟨node.id, hnode⟩)
    obtain ⟨free, hfree, _⟩ := Outcome.bind_eq_ok.1 hof
    rw [Outcome.ok_of_mapError] at hfree
    exact isSome_type_of_freeValues hnode hfree hbound hordinary

end Extraction

end Patchbay
