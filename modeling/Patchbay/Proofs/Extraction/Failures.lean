import Patchbay.Proofs.Extraction.Storing
import Patchbay.Proofs.Extraction.Supplying

/-! When an extraction fails, and of what: each failure is said of the entry patch, the project and
the library alone, and the first of them is what an extraction returns. Once all free values have
constants nothing can fail any more. -/

namespace Patchbay

variable {flat : Project} {entry : PatchPath} {library : Library} {settings : Settings}
  {patch : Patch} {node : Node} {b : BoundValue}

/-- What an extraction asks of its inputs: the project has the entry, the library the type of every
ordinary node with literals, the project a pin of a basic type for every free value, and the library
a constant with an output for it. -/
structure Extractable (flat : Project) (entry : PatchPath) (library : Library) (settings : Settings)
    (patch : Patch) : Prop where
  stored : flat.patches.get? entry = some patch
  known : ∀ id node, patch.nodes.get? id = some node → ¬ node.bound.isEmpty → ¬ node.isTerminal →
    ∃ type, library node.type = some type
  declared : ∀ b : BoundValue, b.IsFree library patch → ∃ type pin,
    flat.patches.get? b.node.type = some type ∧ type.pin? b.pin = some pin ∧ pin.type.isPrimitive
  supplied : ∀ path, patch.Needs flat library settings path →
    ∃ constant, library path = some constant ∧ constant.outputs ≠ []

namespace Extraction

/-- A patch is not there. -/
def missing? (library : Library) (path : PatchPath) : Option ExtractionError :=
  if (library path).isSome then none else some (.lookup (.patchNotFound path))

/-- The project lacks the type of a free value's node, this type lacks the pin, or the type of the
pin is a custom one. -/
def undeclared? (flat : Project) (b : BoundValue) : Option ExtractionError :=
  match flat.patches.get? b.node.type with
  | none => some (.lookup (.patchNotFound b.node.type))
  | some type =>
    match type.pin? b.pin with
    | none => some (.unknownPin b.node.type b.pin)
    | some pin => if pin.type.isPrimitive then none else some (.noConstantForType b.pin pin.type)

/-- The library lacks the constant of a free value, or this has no output. -/
def unsupplied? (flat : Project) (library : Library) (settings : Settings) (b : BoundValue) :
    Option ExtractionError := do
  let path ← b.constant? flat settings
  match library path with
  | none => some (.lookup (.patchNotFound path))
  | some constant => if constant.outputs = [] then some (.constantWithoutOutput path) else none

/-- What fails at a node: nothing if it is a terminal or has no literals. -/
def nodeFailures (flat : Project) (library : Library) (patch : Patch) (node : Node) :
    List ExtractionError :=
  if node.bound.isEmpty || node.isTerminal then []
  else (missing? library node.type).toList ++
    (patch.freeValuesOf library node).filterMap (undeclared? flat)

/-- What fails at an entry patch: first at its nodes, in their order, then with the constants. -/
def patchFailures (flat : Project) (library : Library) (settings : Settings) (patch : Patch) :
    List ExtractionError :=
  patch.nodes.values.flatMap (nodeFailures flat library patch) ++
    (patch.nodes.values.flatMap (patch.freeValuesOf library)).filterMap
      (unsupplied? flat library settings)

/-- All that keeps an extraction from success, in the order in which it is looked for. -/
def failures (flat : Project) (entry : PatchPath) (library : Library) (settings : Settings) :
    List ExtractionError :=
  match flat.patches.get? entry with
  | none => [.lookup (.patchNotFound entry)]
  | some patch => patchFailures flat library settings patch

open Outcome (failure? failure?_eq_some_iff failure?_eq_none_iff failure?_mapM)

/-! ### The search -/

theorem failure?_extract {own : Patch} (hown : flat.patches.get? b.node.type = some own)
    (hpath : own.path = b.node.type) :
    failure? (extract settings own b) = undeclared? flat b := by
  unfold extract undeclared?
  rw [hown]
  cases hpin : own.pin? b.pin with
  | none => simp [failure?, hpin, hpath]
  | some pin =>
    have hconstant := settings.constantFor?_isSome pin.type
    cases hfor : settings.constantFor? pin.type with
    | none =>
      rw [hfor] at hconstant
      simp [failure?, hpin, hfor, ← hconstant]
    | some constant =>
      rw [hfor] at hconstant
      simp [failure?, hpin, hfor, ← hconstant]

/-- The free values of a node are looked up in its type one by one. Without the type the first of
them fails. -/
theorem failure?_declarations (hflat : flat.WellFormed) {free : List BoundValue}
    (hnode : ∀ c ∈ b :: free, c.node = node) :
    failure? ((flat.require node.type).mapError ExtractionError.lookup >>= fun own =>
        (b :: free).mapM (extract settings own)) =
      (b :: free).findSome? (undeclared? flat) := by
  cases hown : flat.patches.get? node.type with
  | none =>
    have hrequire : flat.require node.type = .error (.patchNotFound node.type) := by
      rw [Project.require, Library.require, Project.library, hown]
    have hfirst : undeclared? flat b = some (.lookup (.patchNotFound node.type)) := by
      rw [undeclared?, hnode b List.mem_cons_self, hown]
    rw [hrequire, List.findSome?_cons, hfirst]
    rfl
  | some own =>
    rw [show flat.require node.type = .ok own from require_eq_ok_iff.2 hown]
    refine failure?_mapM fun c hc => failure?_extract ?_ ?_
    · rw [hnode c hc, hown]
    · rw [hnode c hc, hflat.keyed node.type own hown]

theorem failure?_extractsOf (hflat : flat.WellFormed)
    (hstored : patch.nodes.get? node.id = some node) :
    failure? (extractsOf flat library settings patch node) =
      (nodeFailures flat library patch node).head? := by
  rw [extractsOf, freeValues_eq hstored, nodeFailures]
  split
  · rfl
  · rw [List.head?_append, Option.head?_toList, List.head?_filterMap, Library.require, missing?]
    cases library node.type with
    | none => rfl
    | some type =>
      have hnode : ∀ b ∈ patch.freeValuesOf library node, b.node = node :=
        fun b hb => (mem_freeValuesOf_iff.1 hb).1
      show failure? (Except.ok (patch.freeValuesOf library node) >>= _) =
        (patch.freeValuesOf library node).findSome? (undeclared? flat)
      cases hfree : patch.freeValuesOf library node with
      | nil => rfl
      | cons b free =>
        rw [hfree] at hnode
        exact failure?_declarations hflat hnode

theorem failure?_extracts (hflat : flat.WellFormed) (hpatch : patch.WellFormed) :
    failure? (extracts flat library settings patch) =
      (patch.nodes.values.flatMap (nodeFailures flat library patch)).head? := by
  rw [extracts, Outcome.failure?_bind_pure, List.head?_flatMap]
  exact failure?_mapM fun node hnode =>
    failure?_extractsOf hflat (OrderedMap.get?_of_mem_values hpatch.nodes_keyed hnode)

/-- A search that succeeds has found all free values, in their order. -/
theorem map_of_extractsOf {found : List Extract} (hstored : patch.nodes.get? node.id = some node)
    (h : extractsOf flat library settings patch node = .ok found) :
    found.map Extract.toBoundValue = patch.freeValuesOf library node := by
  obtain ⟨free, hfree, hrest⟩ := Outcome.bind_eq_ok.1 h
  rw [Outcome.ok_of_mapError] at hfree
  rw [← eq_freeValuesOf hstored hfree]
  split at hrest
  · cases hrest
    rfl
  · obtain ⟨own, _, hextracts⟩ := Outcome.bind_eq_ok.1 hrest
    have hsame := Outcome.map_eq_of_mapM hextracts fun b _ e he => (extract_eq_ok he).1
    rw [hsame, List.map_id']

theorem map_of_extracts {found : List Extract} (hpatch : patch.WellFormed)
    (h : extracts flat library settings patch = .ok found) :
    found.map Extract.toBoundValue =
      patch.nodes.values.flatMap (patch.freeValuesOf library) := by
  obtain ⟨lists, hlists, hflatten⟩ := Outcome.bind_eq_ok.1 h
  cases hflatten
  rw [List.map_flatten, List.flatMap_def, Outcome.map_eq_of_mapM hlists fun node hnode found =>
    map_of_extractsOf (OrderedMap.get?_of_mem_values hpatch.nodes_keyed hnode)]

/-! ### The constants -/

theorem failure?_supply {e : Extract} (he : e.IsDeclared flat settings) :
    failure? (supply library e) = unsupplied? flat library settings e.toBoundValue := by
  rw [unsupplied?, Extract.isDeclared_iff.1 he, Option.bind_eq_bind, Option.bind_some]
  unfold supply Library.require
  cases hlibrary : library e.constant with
  | none => rfl
  | some constant =>
    simp only [Except.mapError, Outcome.ok_bind]
    cases constant.outputs <;> simp

/-- Supplies that have been found are put in place. -/
theorem failure?_rewriting {supplies : List Supply} (hpatch : patch.WellFormed)
    (hunused : Unused entry library patch)
    (hfound : Found flat library settings patch supplies) :
    failure? (if supplies.isEmpty then return {}
      else do
        let patch ← (supplied settings entry supplies patch).mapError ExtractionError.structural
        return { stored := (definitions library supplies).toList ++ [(entry, patch)]
                 count := supplies.length } : Except ExtractionError Extraction) = none := by
  split
  · rfl
  · obtain ⟨after, hafter⟩ := exists_supplied hfound hpatch hunused
    rw [hafter]
    rfl

theorem failure?_extraction (hflat : flat.WellFormed)
    (hunused : ∀ patch, flat.patches.get? entry = some patch → Unused entry library patch) :
    failure? (flat.extraction entry library settings) =
      (failures flat entry library settings).head? := by
  unfold Project.extraction failures Project.require Library.require Project.library
  cases hentry : flat.patches.get? entry with
  | none => rfl
  | some patch =>
    have hpatch := hflat.patches entry patch hentry
    have hextracts : failure? (extracts flat library settings patch) =
        (patch.nodes.values.flatMap (nodeFailures flat library patch)).head? :=
      failure?_extracts hflat hpatch
    show failure? (extracts flat library settings patch >>= _) =
      (patchFailures flat library settings patch).head?
    rw [patchFailures, List.head?_append, ← hextracts]
    cases hfound : extracts flat library settings patch with
    | error e => rfl
    | ok found =>
      have hsupplies : failure? (found.mapM (supply library)) =
          found.findSome? (unsupplied? flat library settings ∘ Extract.toBoundValue) :=
        failure?_mapM fun e he =>
          failure?_supply (isDeclared_of_extracts hpatch.nodes_keyed hfound he).2
      rw [← map_of_extracts hpatch hfound, List.head?_filterMap, List.findSome?_map]
      show failure? (found.mapM (supply library) >>= _) = _
      rw [← hsupplies]
      cases hmade : found.mapM (supply library) with
      | error e => rfl
      | ok supplies =>
        exact failure?_rewriting hpatch (hunused patch hentry)
          (found_of_extracts hpatch.nodes_keyed hfound hmade)

/-! ### No failure -/

theorem missing?_eq_none_iff {path : PatchPath} :
    missing? library path = none ↔ ∃ found, library path = some found := by
  rw [missing?, ← Option.isSome_iff_exists]
  split <;> simp [*]

theorem undeclared?_eq_none_iff : undeclared? flat b = none ↔
    ∃ type pin, flat.patches.get? b.node.type = some type ∧ type.pin? b.pin = some pin ∧
      pin.type.isPrimitive := by
  unfold undeclared?
  cases flat.patches.get? b.node.type with
  | none => simp
  | some type => cases hpin : type.pin? b.pin <;> simp [hpin]

theorem unsupplied?_eq_none_iff : unsupplied? flat library settings b = none ↔
    ∀ path, b.constant? flat settings = some path →
      ∃ constant, library path = some constant ∧ constant.outputs ≠ [] := by
  unfold unsupplied?
  cases b.constant? flat settings with
  | none => simp
  | some path => cases hlibrary : library path <;> simp [hlibrary]

theorem needs_iff {path : PatchPath} : patch.Needs flat library settings path ↔
    ∃ b : BoundValue, b.IsFree library patch ∧ b.constant? flat settings = some path := by
  constructor
  · rintro ⟨e, he, hdeclared, rfl⟩
    exact ⟨e.toBoundValue, he, Extract.isDeclared_iff.1 hdeclared⟩
  · rintro ⟨b, hb, hpath⟩
    exact ⟨{ b with constant := path }, hb, Extract.isDeclared_iff.2 hpath, rfl⟩

theorem nodeFailures_eq_nil_iff : nodeFailures flat library patch node = [] ↔
    (¬ node.bound.isEmpty → ¬ node.isTerminal → ∃ type, library node.type = some type) ∧
      ∀ b ∈ patch.freeValuesOf library node, undeclared? flat b = none := by
  unfold nodeFailures
  split
  · rename_i hnone
    rw [freeValuesOf_eq_nil hnone]
    rcases Bool.or_eq_true_iff.1 hnone with h | h <;> simp [h]
  · rename_i hsome
    rw [Bool.or_eq_true_iff, not_or] at hsome
    rw [List.append_eq_nil_iff, Option.toList_eq_nil_iff, missing?_eq_none_iff,
      List.filterMap_eq_nil_iff]
    simp [hsome]

theorem patchFailures_eq_nil_iff : patchFailures flat library settings patch = [] ↔
    (∀ id node, patch.nodes.get? id = some node → nodeFailures flat library patch node = []) ∧
      ∀ b : BoundValue, b.IsFree library patch → unsupplied? flat library settings b = none := by
  have hfree : ∀ b : BoundValue,
      b ∈ patch.nodes.values.flatMap (patch.freeValuesOf library) ↔ b.IsFree library patch := by
    intro b
    rw [List.mem_flatMap]
    constructor
    · rintro ⟨node, _, hb⟩
      exact (mem_freeValuesOf_iff.1 hb).2
    · intro hb
      exact ⟨b.node, OrderedMap.mem_values_iff.2 ⟨b.node.id, hb.stored⟩,
        mem_freeValuesOf_iff.2 ⟨rfl, hb⟩⟩
  rw [patchFailures, List.append_eq_nil_iff, List.flatMap_eq_nil_iff, List.filterMap_eq_nil_iff]
  simp only [hfree, OrderedMap.mem_values_iff, forall_exists_index]
  rw [forall_comm]

theorem failures_eq_nil_iff : failures flat entry library settings = [] ↔
    ∃ patch, Extractable flat entry library settings patch := by
  unfold failures
  cases hentry : flat.patches.get? entry with
  | none => exact ⟨nofun, fun ⟨patch, h⟩ => nomatch hentry.symm.trans h.stored⟩
  | some patch =>
    show patchFailures flat library settings patch = [] ↔ _
    simp only [patchFailures_eq_nil_iff, nodeFailures_eq_nil_iff, unsupplied?_eq_none_iff,
      undeclared?_eq_none_iff]
    constructor
    · rintro ⟨hnodes, hfree⟩
      refine ⟨patch, hentry, fun id node hnode => (hnodes id node hnode).1, fun b hb => ?_, ?_⟩
      · exact (hnodes b.node.id b.node hb.stored).2 b (mem_freeValuesOf_iff.2 ⟨rfl, hb⟩)
      · intro path hneeds
        obtain ⟨b, hb, hpath⟩ := needs_iff.1 hneeds
        exact hfree b hb path hpath
    · rintro ⟨found, h⟩
      obtain rfl : patch = found := Option.some.inj (hentry.symm.trans h.stored)
      refine ⟨fun id node hnode => ⟨h.known id node hnode, fun b hb => ?_⟩,
        fun b hb path hpath => ?_⟩
      · exact h.declared b (mem_freeValuesOf_iff.1 hb).2
      · exact h.supplied path (needs_iff.2 ⟨b, hb, hpath⟩)

theorem failure?_outcome : failure? (flat.extract entry library settings).outcome =
    failure? (flat.extraction entry library settings) := by
  unfold Project.extract Project.reportedExtraction
  simp only [Traced.outcome_bind, Traced.outcome_ofExcept]
  cases flat.extraction entry library settings <;> rfl

/-- With unused identifiers an extraction succeeds exactly if its inputs have what it asks of them,
and otherwise it returns the first of its failures. -/
theorem succeeds_or_first_failure (hflat : flat.Reachable)
    (hunused : ∀ patch, flat.patches.get? entry = some patch → Unused entry library patch) :
    ((∃ r, (flat.extract entry library settings).outcome = .ok r) ↔
      ∃ patch, Extractable flat entry library settings patch) ∧
    ∀ e, (flat.extract entry library settings).outcome = .error e ↔
      (failures flat entry library settings).head? = some e := by
  have hfirst : failure? (flat.extract entry library settings).outcome =
      (failures flat entry library settings).head? := by
    rw [failure?_outcome, failure?_extraction hflat.wellFormed hunused]
  constructor
  · rw [← failure?_eq_none_iff, hfirst, List.head?_eq_none_iff]
    exact failures_eq_nil_iff
  · intro e
    rw [← failure?_eq_some_iff, hfirst]

open Lamps in
theorem unused_room : Unused main library room := by
  have hdecided : ∀ b ∈ room.boundValues, room.nodes.get? (.derived (b.seed main)) = none ∧
      room.pins.get? (NodeId.derived (b.seed main)).toPinKey = none := by
    decide +kernel
  exact ⟨fun b hb => (hdecided b hb.mem_boundValues).1,
    fun b hb => (hdecided b hb.mem_boundValues).2⟩

open Lamps in
/-- The project itself lacks the constant. -/
theorem first_failure_lamps :
    (∃ patch, Extractable project main shelf.library {} patch) ∧
    (project.extract main project.library {}).outcome =
      .error (.lookup (.patchNotFound Constants.standard.boolean)) := by
  have hunused : ∀ library patch, project.patches.get? main = some patch →
      Unused main library patch := by
    intro library patch hpatch
    cases get?_room.symm.trans hpatch
    exact unused_room
  obtain ⟨r, hr, _⟩ := exists_extract
  constructor
  · exact (succeeds_or_first_failure reachable_project (hunused _)).1.1 ⟨r, hr⟩
  · refine ((succeeds_or_first_failure reachable_project (hunused _)).2 _).2 ?_
    decide +kernel

end Extraction

end Patchbay
