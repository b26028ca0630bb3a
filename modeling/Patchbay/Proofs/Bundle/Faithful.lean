import Patchbay.Proofs.Bundle.BoundValues

/-! Migration is faithful: the patches of a migrated bundle correspond to its entries one for one,
and so do their pins, nodes, literals and links, if derived identifiers do not collide. -/

namespace Patchbay.Bundle

variable {bundle : Json} {project : Project} {entries : Entries} {entry : Entry} {id : String}
  {patch : Patch}

/-- What the identifiers of nodes are derived from. -/
def Entries.nodeSeeds (entries : Entries) : List String :=
  entries.toList.flatMap fun (id, entry) => entry.nodes.keys.map (seed id)

/-- What the identifiers of links are derived from. -/
def Entries.linkSeeds (entries : Entries) : List String :=
  entries.toList.flatMap fun (id, entry) => entry.links.keys.map (seed id)

/-- Different seeds of a bundle give different identifiers. -/
structure Entries.SeedsApart (entries : Entries) : Prop where
  nodes : ∀ s ∈ entries.nodeSeeds, ∀ t ∈ entries.nodeSeeds,
    NodeId.derived s = NodeId.derived t → s = t
  links : ∀ s ∈ entries.linkSeeds, ∀ t ∈ entries.linkSeeds,
    LinkId.derived s = LinkId.derived t → s = t

/-- A patch has what the entry has, one for one, under names of today. -/
structure Entry.Carried (entry : Entry) (entries : Entries) (id : String) (patch : Patch) :
    Prop where
  label : patch.label = entry.label
  impls : patch.impls = entry.impls
  pins : Corresponds (entry.pins.filter fun _ slot => slot.node.isNone) patch.pins
    (fun key slot => slot.key.getD key) fun _ slot pin => slot.Describes pin
  nodes : Corresponds entry.nodes patch.nodes (fun old _ => (NodeId.derived (seed id old)).text)
    fun old node new => node.Becomes entries id old new
  links : Corresponds entry.links patch.links (fun old _ => (LinkId.derived (seed id old)).text)
    fun old wire new => wire.Becomes entry id old new

theorem seed_right_inj {old other : String} (h : seed id old = seed id other) : old = other :=
  String.append_right_inj _ |>.1 h

section

variable {old : String} (hentry : entries.get? id = some entry)
include hentry

theorem Entries.seed_mem_nodeSeeds (hold : entry.nodes.contains old) :
    seed id old ∈ entries.nodeSeeds :=
  List.mem_flatMap.2 ⟨_, OrderedMap.mem_toList_iff.2 hentry, List.mem_map_of_mem
    (OrderedMap.mem_keys_iff.2 hold)⟩

theorem Entries.seed_mem_linkSeeds {wire : Wire} (hwire : entry.links.get? old = some wire) :
    seed id old ∈ entries.linkSeeds :=
  List.mem_flatMap.2 ⟨_, OrderedMap.mem_toList_iff.2 hentry, List.mem_map_of_mem
    (OrderedMap.mem_keys_iff.2 (OrderedMap.contains_iff.2 ⟨wire, hwire⟩))⟩

theorem Entries.SeedsApart.eq_of_derived (hapart : entries.SeedsApart) {other : String}
    (hold : entry.nodes.contains old) (hother : entry.nodes.contains other)
    (h : NodeId.derived (seed id old) = NodeId.derived (seed id other)) : old = other :=
  seed_right_inj (hapart.nodes _ (seed_mem_nodeSeeds hentry hold) _
    (seed_mem_nodeSeeds hentry hother) h)

theorem Entries.SeedsApart.carried (hapart : entries.SeedsApart)
    (h : entry.Becomes entries id patch) : entry.Carried entries id patch := by
  refine ⟨h.label, h.impls, h.pins, ⟨h.nodes, ?_⟩, ⟨h.links, ?_⟩⟩
  · intro old node other rival hold hother hname
    exact eq_of_derived hentry hapart (OrderedMap.contains_iff.2 ⟨node, hold⟩)
      (OrderedMap.contains_iff.2 ⟨rival, hother⟩) (Identifier.text_injective hname)
  · intro old wire other rival hold hother hname
    exact seed_right_inj (hapart.links _ (seed_mem_linkSeeds hentry hold) _
      (seed_mem_linkSeeds hentry hother) (Identifier.text_injective hname))

end

theorem toList_author? :
    (author? bundle).toList =
      match (bundle.member? "meta").bind (·.member? "author") with
      | some (.string author) => [author]
      | _ => [] := by
  unfold author?
  cases hmeta : bundle.member? "meta" with
  | none => rfl
  | some info =>
    cases hauthor : info.member? "author" with
    | none => simp [hauthor]
    | some author => cases author <;> simp [hauthor]

theorem corresponds_entries (h : Bundle.entries bundle = .ok entries) :
    ∃ merged, merge bundle = .ok merged ∧
      Corresponds merged entries (fun id _ => id) fun _ fields entry =>
        Entry.ofFields fields = .ok entry := by
  obtain ⟨merged, hmerged, h⟩ := Outcome.bind_eq_ok.1 h
  refine ⟨merged, Outcome.ok_of_mapError.1 hmerged, ?_⟩
  have hentries := corresponds_of_traverse h
  exact ⟨hentries.toMirrors.mono fun _ _ _ _ hread => Outcome.ok_of_mapError.1 hread,
    hentries.apart⟩

theorem carried_of_migrate (h : (migrate bundle).outcome = .ok project)
    (hentries : Bundle.entries bundle = .ok entries) (hapart : entries.SeedsApart) :
    Corresponds entries project.patches (fun id _ => id) fun id entry patch =>
      entry.Carried entries id patch := by
  obtain ⟨_, hpatches⟩ := corresponds_of_migrate h hentries
  exact ⟨hpatches.toMirrors.mono fun _ _ _ hentry hbecomes =>
    Entries.SeedsApart.carried hentry hapart hbecomes, hpatches.apart⟩

/-- A migrated bundle has one patch for each entry, which carries all of the entry. -/
theorem faithful_of_migrate (h : (migrate bundle).outcome = .ok project)
    (hentries : Bundle.entries bundle = .ok entries) (hapart : entries.SeedsApart) :
    (project.authors = match (bundle.member? "meta").bind (·.member? "author") with
      | some (.string author) => [author]
      | _ => []) ∧
    ∃ merged, merge bundle = .ok merged ∧
      Corresponds merged project.patches (fun id _ => id) fun id fields patch =>
        ∃ entry, Entry.ofFields fields = .ok entry ∧ entry.Carried entries id patch := by
  have hauthors := (corresponds_of_migrate h hentries).1.trans toList_author?
  have hpatches := carried_of_migrate h hentries hapart
  obtain ⟨merged, hmerged, hread⟩ := corresponds_entries hentries
  refine ⟨hauthors, merged, hmerged, Mirrors.corresponds ⟨?_, ?_⟩⟩
  · intro id fields hfields
    obtain ⟨key, entry, hentry, rfl, _⟩ := hread.exists_get? hfields
    exact hpatches.kept key entry hentry
  · intro path patch hpatch
    obtain ⟨id, entry, hentry, hpath, hcarried⟩ := hpatches.only path patch hpatch
    obtain ⟨key, fields, hfields, rfl, hdecoded⟩ := hread.only id entry hentry
    exact ⟨id, fields, hfields, hpath, entry, hdecoded, hcarried⟩

/-! ### A room of an older form -/

theorem seedsApart_oldRoom (h : Bundle.entries oldRoom = .ok entries) : entries.SeedsApart := by
  have hrun : (Bundle.entries oldRoom).toOption.bind (fun entries =>
      some (entries.nodeSeeds, entries.linkSeeds)) = some (["room/l", "room/s"], ["room/a"]) := by
    decide +kernel
  have hapart : NodeId.derived "room/l" ≠ NodeId.derived "room/s" := by decide +kernel
  rw [h] at hrun
  obtain ⟨hnodes, hlinks⟩ := Prod.mk.inj (Option.some.inj hrun)
  constructor
  · rw [hnodes]
    simp [hapart, hapart.symm]
  · rw [hlinks]
    simp

theorem faithful_oldRoom :
    ∃ entries project merged, Bundle.entries oldRoom = .ok entries ∧ entries.SeedsApart ∧
      (migrate oldRoom).outcome = .ok project ∧ project.patches.size = 3 ∧
      project.authors = ["ada"] ∧ merge oldRoom = .ok merged ∧
      Corresponds merged project.patches (fun id _ => id) fun id fields patch =>
        ∃ entry, Entry.ofFields fields = .ok entry ∧ entry.Carried entries id patch := by
  obtain ⟨entries, project, hentries, hproject, hsize, _⟩ := migrates_oldRoom
  have hapart := seedsApart_oldRoom hentries
  obtain ⟨hauthors, merged, hmerged, hpatches⟩ := faithful_of_migrate hproject hentries hapart
  exact ⟨entries, project, merged, hentries, hapart, hproject, hsize, hauthors, hmerged, hpatches⟩

end Patchbay.Bundle
