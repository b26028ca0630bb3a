import Mathlib.Data.List.Induction
import Patchbay.Proofs.Extraction.FreeValues
import Patchbay.Proofs.Project.WellFormed

/-! How an extraction rewrites the entry patch: every node and every link of the new patch is told
from the supplies and the old patch, and nothing but nodes and links is touched. -/

namespace Patchbay.Extraction

variable {flat : Project} {entry : PatchPath} {library : Library} {settings : Settings}
  {patch after : Patch} {supplies : List Supply}

/-- A node without the literals that the supplies take from it. -/
def bare (supplies : List Supply) (node : Node) : Node :=
  { node with
    bound := node.bound.filter fun pin _ =>
      !supplies.any fun s => s.node.id = node.id && s.pin = pin }

theorem bare_bound_eq_some {node : Node} {pin : PinKey} {value : Literal} :
    (bare supplies node).bound.get? pin = some value ↔
      node.bound.get? pin = some value ∧ ∀ s ∈ supplies, s.node.id = node.id → s.pin ≠ pin := by
  rw [bare, OrderedMap.get?_filter_eq_some]
  simp [List.any_eq_false]

theorem bare_of_forall_ne {node : Node} (h : ∀ s ∈ supplies, s.node.id ≠ node.id) :
    bare supplies node = node := by
  have hbound : (bare supplies node).bound = node.bound := by
    apply OrderedMap.ext
    intro pin
    apply Option.ext
    intro value
    rw [bare_bound_eq_some]
    exact ⟨And.left, fun hb => ⟨hb, fun s hs hid => absurd hid (h s hs)⟩⟩
  exact congrArg (fun bound => { node with bound }) hbound

theorem unbind_bare {node : Node} {s : Supply} (h : s.node.id = node.id) :
    (bare supplies node).unbind s.pin = bare (supplies ++ [s]) node := by
  have hbound :
      ((bare supplies node).unbind s.pin).bound = (bare (supplies ++ [s]) node).bound := by
    apply OrderedMap.ext
    intro pin
    apply Option.ext
    intro value
    rw [Node.unbind, OrderedMap.get?_erase_eq_some, bare_bound_eq_some, bare_bound_eq_some]
    constructor
    · rintro ⟨hne, hb, hall⟩
      refine ⟨hb, fun t ht hid => ?_⟩
      rcases List.mem_append.1 ht with ht | ht
      · exact hall t ht hid
      · obtain rfl := List.mem_singleton.1 ht
        exact hne.symm
    · rintro ⟨hb, hall⟩
      exact ⟨(hall s (by simp) h).symm, hb, fun t ht => hall t (List.mem_append_left _ ht)⟩
  exact congrArg (fun bound => { node with bound }) hbound

theorem bare_append_of_ne {node : Node} {s : Supply} (h : s.node.id ≠ node.id) :
    bare (supplies ++ [s]) node = bare supplies node := by
  simp [bare, h]

/-- The accumulated nodes: those that supplies come from, without what all supplies take. -/
theorem get?_bareNodes {id : NodeId}
    (hsame : ∀ s ∈ supplies, ∀ t ∈ supplies, s.node.id = t.node.id → s.node = t.node) :
    (bareNodes supplies).get? id =
      (supplies.find? (·.node.id = id)).map fun s => bare supplies s.node := by
  induction supplies using List.reverseRecOn with
  | nil => rfl
  | append_singleton supplies s ih =>
    have ih := ih fun t ht u hu => hsame t (List.mem_append_left _ ht) u (List.mem_append_left _ hu)
    rw [bareNodes, List.foldl_append, List.foldl_cons, List.foldl_nil, ← bareNodes,
      List.find?_append]
    by_cases hs : s.node.id = id
    · subst hs
      rw [OrderedMap.get?_insert_self, ih]
      cases hfind : supplies.find? (·.node.id = s.node.id) with
      | none =>
        have hnone : ∀ t ∈ supplies, t.node.id ≠ s.node.id := by
          simpa using List.find?_eq_none.1 hfind
        have hunbind : (bare supplies s.node).unbind s.pin = bare (supplies ++ [s]) s.node :=
          unbind_bare rfl
        rw [bare_of_forall_ne hnone] at hunbind
        simp [hunbind]
      | some t =>
        have hid : t.node.id = s.node.id := by simpa using List.find?_some hfind
        have hnode : t.node = s.node :=
          hsame t (List.mem_append_left _ (List.mem_of_find?_eq_some hfind)) s (by simp) hid
        simp [hnode, unbind_bare]
    · rw [OrderedMap.get?_insert_of_ne _ _ (Ne.symm hs), ih, List.find?_singleton]
      simp only [hs, decide_false, Bool.false_eq_true, if_false, Option.or_none]
      refine Option.map_congr fun t ht => ?_
      have hid : t.node.id = id := by simpa using List.find?_some ht
      exact (bare_append_of_ne (by rwa [hid])).symm

section Stored

variable (hstored : ∀ s ∈ supplies, patch.nodes.get? s.node.id = some s.node)
include hstored

theorem get?_bareNodes_of_stored (id : NodeId) :
    (bareNodes supplies).get? id =
      (supplies.find? (·.node.id = id)).map fun s => bare supplies s.node :=
  get?_bareNodes fun s hs t ht hid =>
    Option.some.inj ((hstored s hs).symm.trans (hid ▸ hstored t ht))

theorem keyed_bareNodes (id : NodeId) (node : Node)
    (hnode : (bareNodes supplies).get? id = some node) : node.id = id := by
  rw [get?_bareNodes_of_stored hstored, Option.map_eq_some_iff] at hnode
  obtain ⟨s, hs, rfl⟩ := hnode
  exact (by simpa using List.find?_some hs : s.node.id = id)

/-- The nodes after the old ones have been bared and the constants stored. -/
theorem get?_replaced (hkeyed : ∀ id node, patch.nodes.get? id = some node → node.id = id)
    (id : NodeId) :
    ((supplies.map (constantNode settings entry)).foldl (fun m node => m.insert node.id node) <|
      (bareNodes supplies).values.foldl (fun m node => m.insert node.id node) patch.nodes).get? id =
    ((supplies.reverse.find? fun s => (constantNode settings entry s).id = id).map
      (constantNode settings entry)).or ((patch.nodes.get? id).map (bare supplies)) := by
  have hold : ((bareNodes supplies).get? id).or (patch.nodes.get? id) =
      (patch.nodes.get? id).map (bare supplies) := by
    rw [get?_bareNodes_of_stored hstored]
    cases hfind : supplies.find? (·.node.id = id) with
    | some s =>
      obtain rfl : s.node.id = id := by simpa using List.find?_some hfind
      rw [hstored s (List.mem_of_find?_eq_some hfind)]
      rfl
    | none =>
      cases hnode : patch.nodes.get? id with
      | none => rfl
      | some node =>
        obtain rfl := hkeyed id node hnode
        have hnone : ∀ s ∈ supplies, s.node.id ≠ node.id := by
          simpa using List.find?_eq_none.1 hfind
        simp [bare_of_forall_ne hnone]
  rw [List.foldl_map, OrderedMap.get?_foldl_insert,
    OrderedMap.get?_foldl_insert_values (keyed_bareNodes hstored), hold]

end Stored

/-- The new entry patch, entry by entry. Of two constants with one identifier the later stays. -/
structure Rewritten (settings : Settings) (entry : PatchPath) (supplies : List Supply)
    (patch after : Patch) : Prop where
  nodes : ∀ id, after.nodes.get? id =
    ((supplies.reverse.find? fun s => (constantNode settings entry s).id = id).map
      (constantNode settings entry)).or ((patch.nodes.get? id).map (bare supplies))
  links : ∀ id, after.links.get? id =
    ((supplies.reverse.find? fun s => (constantLink settings entry s).id = id).map
      (constantLink settings entry)).or (patch.links.get? id)
  path : after.path = patch.path
  label : after.label = patch.label
  pins : after.pins = patch.pins
  impls : after.impls = patch.impls

theorem constant_or_bare (hrewritten : Rewritten settings entry supplies patch after) {id : NodeId}
    {node : Node} (hnode : after.nodes.get? id = some node) :
    (∃ s ∈ supplies, node = constantNode settings entry s) ∨
      ∃ old, patch.nodes.get? id = some old ∧ node = bare supplies old := by
  rw [hrewritten.nodes, Option.or_eq_some_iff, Option.map_eq_some_iff] at hnode
  rcases hnode with ⟨s, hs, rfl⟩ | ⟨_, hbare⟩
  · exact .inl ⟨s, List.mem_reverse.1 (List.mem_of_find?_eq_some hs), rfl⟩
  · obtain ⟨old, hold, rfl⟩ := Option.map_eq_some_iff.1 hbare
    exact .inr ⟨old, hold, rfl⟩

theorem constant_or_old (hrewritten : Rewritten settings entry supplies patch after) {id : LinkId}
    {link : Link} (hlink : after.links.get? id = some link) :
    (∃ s ∈ supplies, link = constantLink settings entry s) ∨ patch.links.get? id = some link := by
  rw [hrewritten.links, Option.or_eq_some_iff, Option.map_eq_some_iff] at hlink
  rcases hlink with ⟨s, hs, rfl⟩ | ⟨_, hold⟩
  · exact .inl ⟨s, List.mem_reverse.1 (List.mem_of_find?_eq_some hs), rfl⟩
  · exact .inr hold

theorem rewritten_of_supplied (hfound : Found flat library settings patch supplies)
    (hkeyed : ∀ id node, patch.nodes.get? id = some node → node.id = id)
    (h : supplied settings entry supplies patch = .ok after) :
    Rewritten settings entry supplies patch after := by
  obtain ⟨stripped, hstripped, hrest⟩ := Outcome.bind_eq_ok.1 h
  obtain ⟨joined, hjoined, hlinked⟩ := Outcome.bind_eq_ok.1 hrest
  obtain rfl := Patch.foldlM_insertNode_eq_ok hstripped
  obtain rfl := Patch.foldlM_insertNode_eq_ok hjoined
  obtain rfl := Patch.foldlM_insertLink_eq_ok hlinked
  refine ⟨get?_replaced (fun s hs => (hfound.isFree s hs).stored) hkeyed, fun id => ?_,
    rfl, rfl, rfl, rfl⟩
  show ((supplies.map (constantLink settings entry)).foldl
    (fun m link => m.insert link.id link) patch.links).get? id = _
  rw [List.foldl_map, OrderedMap.get?_foldl_insert]

theorem wellFormed_of_supplied (hpatch : patch.WellFormed)
    (h : supplied settings entry supplies patch = .ok after) : after.WellFormed := by
  obtain ⟨stripped, hstripped, hrest⟩ := Outcome.bind_eq_ok.1 h
  obtain ⟨joined, hjoined, hlinked⟩ := Outcome.bind_eq_ok.1 hrest
  have hwellStripped : stripped.WellFormed :=
    Outcome.foldlM_keeps (fun _ _ _ _ hp => hp.insertNode) hpatch hstripped
  have hwellJoined : joined.WellFormed :=
    Outcome.foldlM_keeps (fun _ _ _ _ hp => hp.insertNode) hwellStripped hjoined
  exact Outcome.foldlM_keeps (fun _ _ _ _ hp => hp.insertLink) hwellJoined hlinked

/-! ### The project -/

theorem outcome_extract_eq_ok {r : Project} :
    (flat.extract entry library settings).outcome = .ok r ↔
      ∃ x, flat.extraction entry library settings = .ok x ∧ x.apply flat = r := by
  unfold Project.extract Project.reportedExtraction
  simp only [Traced.outcome_bind, Traced.outcome_ofExcept]
  rcases flat.extraction entry library settings with e | x
  · exact ⟨nofun, nofun⟩
  · show Except.ok (x.apply flat) = Except.ok r ↔ _
    simp

/-- An extraction stores nothing if it has found no supply, and otherwise the constants that it
needs and the rewritten entry patch. -/
theorem extraction_eq_ok {x : Extraction} (h : flat.extraction entry library settings = .ok x) :
    ∃ patch found supplies, flat.patches.get? entry = some patch ∧
      extracts flat library settings patch = .ok found ∧
      found.mapM (supply library) = .ok supplies ∧
      (supplies = [] ∧ x.stored = [] ∨ supplies ≠ [] ∧ ∃ after,
        supplied settings entry supplies patch = .ok after ∧
        x.stored = (definitions library supplies).toList ++ [(entry, after)]) := by
  obtain ⟨patch, hpatch, h⟩ := Outcome.bind_eq_ok.1 h
  obtain ⟨found, hfound, h⟩ := Outcome.bind_eq_ok.1 h
  obtain ⟨supplies, hsupplies, h⟩ := Outcome.bind_eq_ok.1 h
  rw [Outcome.ok_of_mapError, Project.require, require_eq_ok_iff] at hpatch
  refine ⟨patch, found, supplies, hpatch, hfound, hsupplies, ?_⟩
  split at h
  · rename_i hempty
    cases h
    exact .inl ⟨List.isEmpty_iff.1 hempty, rfl⟩
  · rename_i hsome
    obtain ⟨after, hafter, h⟩ := Outcome.bind_eq_ok.1 h
    cases h
    rw [Outcome.ok_of_mapError] at hafter
    exact .inr ⟨fun hnil => hsome (List.isEmpty_iff.2 hnil), after, hafter, rfl⟩

/-- A definition that an extraction stores is what the library has at its path. -/
theorem library_eq_of_mem_definitions {path : PatchPath} {definition : Patch}
    (h : (path, definition) ∈ (definitions library supplies).toList) :
    library path = some definition := by
  have hmem := OrderedMap.mem_of_get?_ofList (OrderedMap.mem_toList_iff.1 h)
  obtain ⟨s, _, hs⟩ := List.mem_filterMap.1 hmem
  simp only [Option.map_eq_some_iff, Prod.mk.injEq] at hs
  obtain ⟨_, hfound, rfl, rfl⟩ := hs
  exact hfound

theorem wellFormed_apply {x : Extraction} (hflat : flat.WellFormed)
    (hstored : ∀ path patch, (path, patch) ∈ x.stored → patch.WellFormed) :
    (x.apply flat).WellFormed := by
  refine List.foldlRecOn x.stored _ hflat fun project hproject e he => ?_
  exact hproject.store (hstored e.1 e.2 he) e.1

/-- With a library of well-formed patches an extraction keeps the project well-formed. -/
theorem wellFormed_of_extract {r : Project} (hflat : flat.WellFormed)
    (hlibrary : ∀ path patch, library path = some patch → patch.WellFormed)
    (h : (flat.extract entry library settings).outcome = .ok r) : r.WellFormed := by
  obtain ⟨x, hx, rfl⟩ := outcome_extract_eq_ok.1 h
  obtain ⟨patch, _, supplies, hpatch, _, _, hstored⟩ := extraction_eq_ok hx
  refine wellFormed_apply hflat fun path stored hmem => ?_
  rcases hstored with ⟨_, hnone⟩ | ⟨_, after, hafter, hall⟩
  · rw [hnone] at hmem
    exact nomatch hmem
  · rw [hall] at hmem
    rcases List.mem_append.1 hmem with hdefinition | hentry
    · exact hlibrary path stored (library_eq_of_mem_definitions hdefinition)
    · cases List.mem_singleton.1 hentry
      exact wellFormed_of_supplied (hflat.patches entry patch hpatch) hafter

/-- What an extraction that succeeds has done: it has found the supplies of the entry patch and
rewritten that patch. -/
structure Extracted (flat : Project) (entry : PatchPath) (library : Library) (settings : Settings)
    (r : Project) (patch after : Patch) (supplies : List Supply) : Prop where
  before : flat.patches.get? entry = some patch
  found : Found flat library settings patch supplies
  rewritten : Rewritten settings entry supplies patch after
  wellFormed : after.WellFormed
  result : r.patches.get? entry = some after

theorem exists_extracted {r : Project} (hflat : flat.WellFormed)
    (h : (flat.extract entry library settings).outcome = .ok r) :
    ∃ patch after supplies, Extracted flat entry library settings r patch after supplies := by
  obtain ⟨x, hx, rfl⟩ := outcome_extract_eq_ok.1 h
  obtain ⟨patch, found, supplies, hpatch, hextracts, hsupplies, hstored⟩ := extraction_eq_ok hx
  have hwell := hflat.patches entry patch hpatch
  have hfound := found_of_extracts hwell.nodes_keyed hextracts hsupplies
  rcases hstored with ⟨rfl, hnone⟩ | ⟨_, after, hafter, hall⟩
  · have hsame : x.apply flat = flat := by rw [Extraction.apply, hnone, List.foldl_nil]
    have hrewritten : Rewritten settings entry [] patch patch := by
      refine ⟨fun id => ?_, fun _ => rfl, rfl, rfl, rfl, rfl⟩
      cases hnode : patch.nodes.get? id with
      | none => rfl
      | some node =>
        simp [bare_of_forall_ne]
    exact ⟨patch, patch, [], hpatch, hfound, hrewritten, hwell, by rwa [hsame]⟩
  · have hrewritten := rewritten_of_supplied hfound hwell.nodes_keyed hafter
    have hpath : { after with path := entry } = after := by
      rw [← hflat.keyed entry patch hpatch, ← hrewritten.path]
    refine ⟨patch, after, supplies, hpatch, hfound, hrewritten, wellFormed_of_supplied hwell hafter,
      ?_⟩
    rw [Extraction.apply, hall, List.foldl_append, List.foldl_cons, List.foldl_nil]
    exact (OrderedMap.get?_insert_self _ _ _).trans (congrArg some hpath)

end Patchbay.Extraction
