import Patchbay.Proofs.Extraction.Delivery
import Patchbay.Proofs.Patch.TopologicalOrder

/-! Extraction makes no cycle and breaks none: links are added only out of new nodes, into which no
link leads. -/

namespace Patchbay

open Relation

variable {flat r : Project} {entry : PatchPath} {library : Library} {settings : Settings}
  {patch after : Patch} {supplies : List Supply}

namespace Patch

/-- The links of another patch are those of a patch and links from nodes that the patch does not
have to nodes that it has. -/
structure GainsSources (patch after : Patch) : Prop where
  kept : ∀ a b, patch.Feeds a b → after.Feeds a b
  target : ∀ a b, after.Feeds a b → patch.nodes.contains b
  old : ∀ a b, after.Feeds a b → patch.nodes.contains a → patch.Feeds a b

namespace GainsSources

variable (h : patch.GainsSources after)
include h

theorem path_of_path {a b : NodeId} (ha : patch.nodes.contains a)
    (hpath : TransGen after.Feeds a b) : TransGen patch.Feeds a b := by
  -- a path out of an old node goes on to old nodes
  induction hpath using TransGen.head_induction_on with
  | single hfeeds => exact .single (h.old _ _ hfeeds ha)
  | head hfeeds _ ih => exact .head (h.old _ _ hfeeds ha) (ih (h.target _ _ hfeeds))

theorem cycle_iff {n : NodeId} : TransGen after.Feeds n n ↔ TransGen patch.Feeds n n := by
  constructor
  · intro hcycle
    obtain ⟨_, _, hlast⟩ := TransGen.tail'_iff.1 hcycle
    exact h.path_of_path (h.target _ _ hlast) hcycle
  · exact TransGen.mono h.kept n n

theorem exists_topologicalOrder_iff (hpatch : patch.WellFormed) (hafter : after.WellFormed) :
    (∃ order, after.topologicalOrder = .ok order) ↔
      ∃ order, patch.topologicalOrder = .ok order := by
  simp only [exists_topologicalOrder_iff_acyclic, hpatch, hafter, h.cycle_iff]

end GainsSources

end Patch

namespace Extraction

section

variable (hfound : Found flat library settings patch supplies)
  (hrewritten : Rewritten settings entry supplies patch after)
  (hfresh : Fresh entry library patch)
include hfound hrewritten hfresh

theorem feeds_derived {b : BoundValue} (hb : b.IsFree library patch) :
    after.Feeds (.derived (b.seed entry)) b.node.id := by
  obtain ⟨s, hs, rfl⟩ := hfound.all b hb
  exact ⟨_, _, get?_links_derived hfound hrewritten hfresh hs, rfl, rfl⟩

theorem gainsSources (hpatch : patch.WellFormed) : patch.GainsSources after := by
  constructor
  · rintro _ _ ⟨id, link, hlink, rfl, rfl⟩
    exact ⟨id, link, get?_links_old hfound hrewritten hfresh hlink, rfl, rfl⟩
  · rintro _ _ ⟨id, link, hlink, rfl, rfl⟩
    rcases constant_or_old hrewritten hlink with ⟨s, hs, rfl⟩ | hold
    · exact OrderedMap.contains_iff.2 ⟨s.node, (hfound.isFree s hs).stored⟩
    · exact (hpatch.attached id link hold).1
  · rintro _ _ ⟨id, link, hlink, rfl, rfl⟩ hstored
    rcases constant_or_old hrewritten hlink with ⟨s, hs, rfl⟩ | hold
    · obtain ⟨old, hold⟩ := OrderedMap.contains_iff.1 hstored
      exact nomatch (hfresh.nodes_new _ (hfound.isFree s hs)).symm.trans hold
    · exact ⟨id, link, hold, rfl, rfl⟩

end

/-- With fresh identifiers the entry patch has a topological order after an extraction exactly if it
had one before, and the constant of a literal comes before the node that has had the literal. -/
theorem extract_topologicalOrder (hflat : flat.Reachable)
    (hpatch : flat.patches.get? entry = some patch) (hfresh : Fresh entry library patch)
    (h : (flat.extract entry library settings).outcome = .ok r) :
    ∃ after, r.patches.get? entry = some after ∧
      ((∃ order, after.topologicalOrder = .ok order) ↔
        ∃ order, patch.topologicalOrder = .ok order) ∧
      ∀ order, after.topologicalOrder = .ok order →
        ∀ b : BoundValue, b.IsFree library patch →
          ∃ c, after.nodes.get? (.derived (b.seed entry)) = some c ∧
            after.Feeds c.id b.node.id ∧ c.id ∈ order ∧ b.node.id ∈ order ∧
            order.idxOf c.id < order.idxOf b.node.id := by
  obtain ⟨after, supplies, hextracted⟩ := extracted_of_extract hflat hpatch h
  have hwell := hflat.wellFormed.patches entry patch hpatch
  have hafter := hextracted.wellFormed
  have hgains := gainsSources hextracted.found hextracted.rewritten hfresh hwell
  refine ⟨after, hextracted.result, hgains.exists_topologicalOrder_iff hwell hafter,
    fun order horder b hb => ?_⟩
  obtain ⟨_, hmem, hforward⟩ := Patch.topologicalOrder_eq_ok hafter horder
  have hfeeds := feeds_derived hextracted.found hextracted.rewritten hfresh hb
  obtain ⟨c, hc⟩ := OrderedMap.contains_iff.1 (hfeeds.contains_source hafter)
  rw [← hafter.nodes_keyed _ c hc] at hfeeds
  exact ⟨c, hc, hfeeds, (hmem _).2 (hfeeds.contains_source hafter),
    (hmem _).2 (hfeeds.contains_target hafter), hforward _ _ hfeeds⟩

open Lamps in
theorem extract_topologicalOrder_lamps :
    ∃ r after order, (project.extract main shelf.library {}).outcome = .ok r ∧
      r.patches.get? main = some after ∧ after.topologicalOrder = .ok order ∧
      ∃ c, after.nodes.get? (.derived "@/main/first/on") = some c ∧ after.Feeds c.id first ∧
        order.idxOf c.id < order.idxOf first := by
  obtain ⟨r, hr, _⟩ := exists_extract
  obtain ⟨after, hafter, hiff, hbefore⟩ :=
    extract_topologicalOrder reachable_project get?_room fresh_room hr
  have hordered := Patch.exists_topologicalOrder_iff_acyclic reachable_room.wellFormed
  obtain ⟨order, horder⟩ := hiff.2 (hordered.2 acyclic_room)
  obtain ⟨b, _, hseed, hnode, hfree⟩ : ∃ b ∈ room.boundValues,
      b.seed main = "@/main/first/on" ∧ b.node.id = first ∧ b.IsFree shelf.library room := by
    decide +kernel
  obtain ⟨c, hc, hconstant, _, _, hlt⟩ := hbefore order horder b hfree
  rw [hseed] at hc
  rw [hnode] at hconstant hlt
  exact ⟨r, after, order, hr, hafter, horder, c, hc, hconstant, hlt⟩

end Extraction

end Patchbay
