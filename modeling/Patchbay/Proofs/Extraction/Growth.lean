import Patchbay.Proofs.Document.Loading
import Patchbay.Proofs.Extraction.Delivery

/-! How much an extraction adds: one constant and one link for each seed of a free value. Seeds are
texts with slashes between the names, and names may have slashes of their own, so that two values
can share a seed; then the constant of the first gives way to that of the second. -/

namespace Patchbay

deriving instance DecidableEq for BoundValue

variable {flat r : Project} {entry : PatchPath} {library : Library} {settings : Settings}
  {patch : Patch}

/-- The free values of a patch. -/
def Patch.freeValues (library : Library) (patch : Patch) : Set BoundValue :=
  {b | b.IsFree library patch}

/-- Different seeds give different identifiers, none of which the patch has. -/
structure SeedsApart (entry : PatchPath) (library : Library) (patch : Patch) : Prop where
  nodes_differ : ∀ b ∈ patch.freeValues library, ∀ c ∈ patch.freeValues library,
    NodeId.derived (b.seed entry) = NodeId.derived (c.seed entry) → b.seed entry = c.seed entry
  links_differ : ∀ b ∈ patch.freeValues library, ∀ c ∈ patch.freeValues library,
    LinkId.derived (b.seed entry) = LinkId.derived (c.seed entry) → b.seed entry = c.seed entry
  nodes_new : ∀ b ∈ patch.freeValues library, patch.nodes.get? (.derived (b.seed entry)) = none
  links_new : ∀ b ∈ patch.freeValues library, patch.links.get? (.derived (b.seed entry)) = none

theorem Fresh.seedsApart (h : Fresh entry library patch) : SeedsApart entry library patch :=
  ⟨fun b hb c hc hid => congrArg _ (h.nodes_differ b c hb hc hid),
    fun b hb c hc hid => congrArg _ (h.links_differ b c hb hc hid), h.nodes_new, h.links_new⟩

namespace Extraction

theorem finite_freeValues : (patch.freeValues library).Finite :=
  patch.boundValues.finite_toSet.subset fun _ hb => hb.mem_boundValues

/-- A free value is known by its node's identifier and its pin. -/
theorem eq_of_isFree {b c : BoundValue} (hb : b.IsFree library patch) (hc : c.IsFree library patch)
    (hnode : b.node.id = c.node.id) (hpin : b.pin = c.pin) : b = c := by
  obtain ⟨node, pin, value⟩ := b
  obtain ⟨node', pin', value'⟩ := c
  have hstored := hc.stored
  rw [← hnode, hb.stored] at hstored
  cases hstored
  cases hpin
  cases hb.bound.symm.trans hc.bound
  rfl

theorem takeWhile_ne_slash {name rest : List Char} (h : '/' ∉ name) :
    (name ++ '/' :: rest).takeWhile (· ≠ '/') = name := by
  have hname : ∀ c ∈ name, decide (c ≠ '/') := fun c hc =>
    decide_eq_true fun hslash => h (hslash ▸ hc)
  rw [List.takeWhile_append_of_pos hname, List.takeWhile_cons_of_neg (by simp), List.append_nil]

/-- A slash in front of the pin cannot be taken for one of the node's. -/
theorem seed_injOn_of_no_slash
    (h : ∀ b ∈ patch.freeValues library, '/' ∉ b.node.id.text.toList) :
    (patch.freeValues library).InjOn (BoundValue.seed entry) := by
  intro b hb c hc hseed
  have hlist := congrArg String.toList hseed
  have hslash : "/".toList = ['/'] := rfl
  simp only [BoundValue.seed, String.toList_append, List.append_assoc, List.append_cancel_left_eq,
    hslash, List.cons_append, List.cons_inj_right] at hlist
  have hnode : b.node.id.text.toList = c.node.id.text.toList := by
    rw [← takeWhile_ne_slash (h b hb), hlist, takeWhile_ne_slash (h c hc)]
  rw [hnode, List.append_cancel_left_eq, List.cons_inj_right] at hlist
  exact eq_of_isFree hb hc (text_inj.1 (String.toList_injective hnode))
    (text_inj.1 (String.toList_injective hlist))

/-- Identifiers that differ where seeds do are as many as the seeds. -/
theorem ncard_derived {kind : Identifier.Kind} {derive : String → Identifier kind}
    (hdiffer : ∀ b ∈ patch.freeValues library, ∀ c ∈ patch.freeValues library,
      derive (b.seed entry) = derive (c.seed entry) → b.seed entry = c.seed entry) :
    (derive '' (BoundValue.seed entry '' patch.freeValues library)).ncard =
      (BoundValue.seed entry '' patch.freeValues library).ncard := by
  apply Set.InjOn.ncard_image
  rintro _ ⟨b, hb, rfl⟩ _ ⟨c, hc, rfl⟩ hid
  exact hdiffer b hb c hc hid

/-- The identifiers of new entries, as a set: an entry is new if its identifier is derived from the
seed of a free value. -/
theorem size_eq_add_seeds {kind : Identifier.Kind} {derive : String → Identifier kind}
    {α : Type} {before after : OrderedMap (Identifier kind) α}
    (hdiffer : ∀ b ∈ patch.freeValues library, ∀ c ∈ patch.freeValues library,
      derive (b.seed entry) = derive (c.seed entry) → b.seed entry = c.seed entry)
    (hnew : ∀ b ∈ patch.freeValues library, before.get? (derive (b.seed entry)) = none)
    (h : ∀ id, after.contains id ↔ before.contains id ∨
      ∃ b : BoundValue, b.IsFree library patch ∧ derive (b.seed entry) = id) :
    after.size = before.size + (BoundValue.seed entry '' patch.freeValues library).ncard := by
  rw [← ncard_derived hdiffer]
  apply OrderedMap.size_eq_add_ncard ((finite_freeValues.image _).image _)
  · rintro _ ⟨_, ⟨b, hb, rfl⟩, rfl⟩
    exact hnew b hb
  · intro id
    rw [h, Set.image_image]
    rfl

/-- The entry patch grows by as many constants and links as there are seeds, so by one for each free
value exactly if no two of these share a seed, as when no node has a slash in its identifier. -/
theorem grows_by_seeds (hflat : flat.Reachable) (hpatch : flat.patches.get? entry = some patch)
    (hapart : SeedsApart entry library patch)
    (h : (flat.extract entry library settings).outcome = .ok r) :
    ∃ after, r.patches.get? entry = some after ∧
      after.nodes.size =
        patch.nodes.size + (BoundValue.seed entry '' patch.freeValues library).ncard ∧
      after.links.size =
        patch.links.size + (BoundValue.seed entry '' patch.freeValues library).ncard ∧
      ((after.nodes.size = patch.nodes.size + (patch.freeValues library).ncard ∧
          after.links.size = patch.links.size + (patch.freeValues library).ncard) ↔
        (patch.freeValues library).InjOn (BoundValue.seed entry)) ∧
      ((∀ b ∈ patch.freeValues library, '/' ∉ b.node.id.text.toList) →
        (patch.freeValues library).InjOn (BoundValue.seed entry)) := by
  obtain ⟨after, supplies, hextracted⟩ := extracted_of_extract hflat hpatch h
  have hnodes := size_eq_add_seeds hapart.nodes_differ hapart.nodes_new
    fun id => contains_nodes_iff hextracted.found hextracted.rewritten
  have hlinks := size_eq_add_seeds hapart.links_differ hapart.links_new
    fun id => contains_links_iff hextracted.found hextracted.rewritten
  refine ⟨after, hextracted.result, hnodes, hlinks, ?_, seed_injOn_of_no_slash⟩
  -- seeds are no fewer than values exactly if no two values share one
  rw [← Set.ncard_image_iff finite_freeValues, hnodes, hlinks]
  omega

open Lamps in
theorem grows_lamps : ∃ r after, (project.extract main shelf.library {}).outcome = .ok r ∧
    r.patches.get? main = some after ∧
    after.nodes.size = room.nodes.size + (room.freeValues shelf.library).ncard ∧
    after.links.size = room.links.size + (room.freeValues shelf.library).ncard := by
  obtain ⟨r, hr, _⟩ := exists_extract
  obtain ⟨after, hafter, _, _, hsizes, hslash⟩ :=
    grows_by_seeds reachable_project get?_room fresh_room.seedsApart hr
  have hplain : ∀ b ∈ room.boundValues, '/' ∉ b.node.id.text.toList := by decide +kernel
  exact ⟨r, after, hr, hafter, hsizes.2 (hslash fun b hb => hplain b hb.mem_boundValues)⟩

end Extraction

/-! ### Two nodes with one seed -/

namespace Slashes

open Lamps (main source)

/-- A patch with one input. -/
def sink (path : PatchPath) (key : PinKey) : Patch :=
  .run { path } [.insertPin { key, type := .boolean, direction := .input }]

def short : PinKey := ⟨"tone", by decide⟩

def long : PinKey := ⟨"low/tone", by decide⟩

def shortSink : Patch := sink ⟨"@/short", by decide⟩ short

def longSink : Patch := sink ⟨"@/long", by decide⟩ long

def horn : Node :=
  { id := ⟨"horn", by decide⟩, type := longSink.path, bound := .ofList [(long, .boolean true)] }

def hornLow : Node :=
  { id := ⟨"horn/low", by decide⟩
    type := shortSink.path
    bound := .ofList [(short, .boolean false)] }

def pair : Patch := .run { path := main } [.insertNode horn, .insertNode hornLow]

def project : Project :=
  ((Project.store {} longSink.path longSink).store shortSink.path shortSink).store main pair

def shelf : Project :=
  ((Project.store {} longSink.path longSink).store shortSink.path shortSink).store
    Constants.standard.boolean (source Constants.standard.boolean)

theorem reachable_sink (path : PatchPath) (key : PinKey) : (sink path key).Reachable :=
  Patch.Reachable.run (.newPatch path) _

theorem reachable_project : project.Reachable :=
  .stored main (.stored _ (.stored _ .newProject (reachable_sink _ _)) (reachable_sink _ _))
    (Patch.Reachable.run (.newPatch main) _)

theorem freeValues_pair :
    pair.freeValues shelf.library =
      {⟨horn, long, .boolean true⟩, ⟨hornLow, short, .boolean false⟩} := by
  have hunlinked : ∀ input, ¬ pair.isLinked input := by
    rintro input hlinked
    obtain ⟨id, link, hlink, _⟩ := Patch.isLinked_iff.1 hlinked
    exact nomatch (show pair.links.get? id = none from rfl).symm.trans hlink
  have hlong : shelf.library longSink.path = some longSink := by decide +kernel
  have hshort : shelf.library shortSink.path = some shortSink := by decide +kernel
  have hlongOutputs : longSink.outputs = [] := by decide +kernel
  have hshortOutputs : shortSink.outputs = [] := by decide +kernel
  ext b
  constructor
  · intro hb
    have hall : pair.boundValues =
        [⟨horn, long, .boolean true⟩, ⟨hornLow, short, .boolean false⟩] := by
      decide +kernel
    simpa [hall] using BoundValue.IsFree.mem_boundValues hb
  · rintro (rfl | rfl)
    · refine ⟨by decide +kernel, by decide +kernel, by decide +kernel, hunlinked _, ?_⟩
      intro type htype
      cases hlong.symm.trans htype
      rw [hlongOutputs]
      exact nofun
    · refine ⟨by decide +kernel, by decide +kernel, by decide +kernel, hunlinked _, ?_⟩
      intro type htype
      cases hshort.symm.trans htype
      rw [hshortOutputs]
      exact nofun

theorem seedsApart_pair : SeedsApart main shelf.library pair := by
  have hseed : ∀ b ∈ pair.freeValues shelf.library, b.seed main = "@/main/horn/low/tone" := by
    rw [freeValues_pair]
    rintro b (rfl | rfl) <;> decide +kernel
  have hnew : pair.nodes.get? (.derived "@/main/horn/low/tone") = none := by decide +kernel
  -- there is one seed only, so nothing is asked of different ones
  refine ⟨fun b hb c hc _ => (hseed b hb).trans (hseed c hc).symm,
    fun b hb c hc _ => (hseed b hb).trans (hseed c hc).symm, fun b hb => ?_, fun b _ => rfl⟩
  rw [hseed b hb]
  exact hnew

/-- Both values have the seed `@/main/horn/low/tone`, so that one constant and one link take the
place of two values. -/
theorem shared_seed_loses_value : ∃ r after,
    (∃ document : ProjectDocument, document.toProject = .ok project) ∧
    (project.extract main shelf.library {}).outcome = .ok r ∧
    project.patches.get? main = some pair ∧ r.patches.get? main = some after ∧
    SeedsApart main shelf.library pair ∧ pair.pins = .empty ∧
    (pair.freeValues shelf.library).ncard = 2 ∧
    after.nodes.size = pair.nodes.size + 1 ∧ after.links.size = pair.links.size + 1 := by
  have hloaded := ProjectDocument.toProject_document reachable_project.wellFormed
  have hncard : (pair.freeValues shelf.library).ncard = 2 := by
    rw [freeValues_pair]
    exact Set.ncard_pair (by decide +kernel)
  have hrun : (project.extract main shelf.library {}).outcome.toOption.bind (fun r =>
      (r.patches.get? main).map fun after => (after.nodes.size, after.links.size)) =
        some (3, 1) := by
    decide +kernel
  obtain ⟨r, hr, hsizes⟩ := Outcome.exists_of_toOption_bind hrun
  obtain ⟨after, hafter, hsizes⟩ := Option.map_eq_some_iff.1 hsizes
  have hpair : pair.nodes.size = 2 ∧ pair.links.size = 0 := by decide +kernel
  refine ⟨r, after, ⟨_, hloaded⟩, hr, by decide +kernel, hafter, seedsApart_pair, rfl, hncard,
    ?_⟩
  rw [hpair.1, hpair.2]
  exact Prod.mk.inj hsizes

end Slashes

end Patchbay
