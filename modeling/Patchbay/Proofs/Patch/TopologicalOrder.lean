import Mathlib.Logic.Relation
import Patchbay.Patch.TopologicalOrder
import Patchbay.Proofs.Project.Reachable

/-! The topological order is found exactly if no node feeds itself through others. The first search
sees to it that a node comes after one that it feeds only if the two lie on a cycle; the second
search looks for such a pair. -/

namespace Patchbay

open Relation

namespace Patch

variable {patch : Patch} {unseen finished stack : List NodeId} {id : NodeId}

/-- Some link goes from the first node to the second. -/
def Feeds (patch : Patch) (a b : NodeId) : Prop :=
  ∃ id link, patch.links.get? id = some link ∧ link.output.node = a ∧ link.input.node = b

/-- The second node is reached from the first along links, or is the first itself. -/
abbrev Leads (patch : Patch) : NodeId → NodeId → Prop := ReflTransGen patch.Feeds

theorem Feeds.contains_source {a b : NodeId} (hwell : patch.WellFormed) (h : patch.Feeds a b) :
    patch.nodes.contains a := by
  obtain ⟨id, link, hlink, rfl, _⟩ := h
  exact (hwell.attached id link hlink).2

theorem Feeds.contains_target {a b : NodeId} (hwell : patch.WellFormed) (h : patch.Feeds a b) :
    patch.nodes.contains b := by
  obtain ⟨id, link, hlink, _, rfl⟩ := h
  exact (hwell.attached id link hlink).1

theorem mem_successors_iff (hwell : patch.WellFormed) {b : NodeId} :
    b ∈ patch.successors id ↔ patch.Feeds id b := by
  simp only [successors, linksFrom, List.mem_filter, List.mem_reverse, List.mem_map,
    OrderedMap.mem_values_iff, decide_eq_true_eq]
  constructor
  · rintro ⟨⟨link, ⟨⟨key, hlink⟩, hsource⟩, htarget⟩, _⟩
    exact ⟨key, link, hlink, hsource, htarget⟩
  · intro h
    have hstored := h.contains_target hwell
    obtain ⟨key, link, hlink, hsource, htarget⟩ := h
    exact ⟨⟨link, ⟨⟨key, hlink⟩, hsource⟩, htarget⟩, hstored⟩

theorem mem_predecessors_iff (hwell : patch.WellFormed) {a : NodeId} :
    a ∈ patch.predecessors id ↔ patch.Feeds a id := by
  simp only [predecessors, linksTo, List.mem_filter, List.mem_reverse, List.mem_map,
    OrderedMap.mem_values_iff, decide_eq_true_eq]
  constructor
  · rintro ⟨⟨link, ⟨⟨key, hlink⟩, htarget⟩, hsource⟩, _⟩
    exact ⟨key, link, hlink, hsource, htarget⟩
  · intro h
    have hstored := h.contains_source hwell
    obtain ⟨key, link, hlink, hsource, htarget⟩ := h
    exact ⟨⟨link, ⟨⟨key, hlink⟩, htarget⟩, hsource⟩, hstored⟩

/-! ### The first search -/

/-- A node that the search has met and not finished yet. -/
structure Open (patch : Patch) (unseen finished : List NodeId) (id : NodeId) : Prop where
  stored : patch.nodes.contains id
  seen : id ∉ unseen
  unfinished : id ∉ finished

/-- Open nodes wait on the stack: what lies above one is reached from it, and what it feeds has been
met or lies above it. -/
structure Waiting (patch : Patch) (unseen finished stack : List NodeId) : Prop where
  stored : ∀ id ∈ stack, patch.nodes.contains id
  waits : ∀ id, patch.Open unseen finished id → id ∈ stack
  reached : ∀ id above below, patch.Open unseen finished id → stack = above ++ id :: below →
    id ∉ above → ∀ x ∈ above, patch.Leads id x
  pending : ∀ id above below, patch.Open unseen finished id → stack = above ++ id :: below →
    id ∉ above → ∀ b, patch.Feeds id b → b ∉ unseen ∨ b ∈ above

/-- A node that is finished before one that it feeds is reached from that one. -/
structure Finished (patch : Patch) (unseen finished : List NodeId) : Prop where
  stored : ∀ id ∈ finished, patch.nodes.contains id
  seen : ∀ id ∈ finished, id ∉ unseen
  nodup : finished.Nodup
  closed : ∀ a ∈ finished, ∀ b, patch.Feeds a b → b ∈ finished ∨ patch.Leads b a
  ordered : finished.Pairwise fun a b => patch.Feeds b a → patch.Leads a b

/-- What holds at every step of the first search. -/
structure Search (patch : Patch) (unseen finished stack : List NodeId) : Prop where
  nodup : unseen.Nodup
  loopless : ∀ id, patch.nodes.contains id → id ∉ unseen → ¬ patch.Feeds id id
  waiting : patch.Waiting unseen finished stack
  finished : patch.Finished unseen finished

theorem Waiting.of_forall_not_open (hstored : ∀ id ∈ stack, patch.nodes.contains id)
    (h : ∀ id, ¬ patch.Open unseen finished id) : patch.Waiting unseen finished stack :=
  ⟨hstored, fun x hopen => absurd hopen (h x), fun x _ _ hopen => absurd hopen (h x),
    fun x _ _ hopen => absurd hopen (h x)⟩

/-- The part of a stack above a node that has not just been pushed. -/
theorem split_of_push {pushed above below : List NodeId} {x : NodeId} (hx : x ∉ pushed)
    (heq : pushed ++ id :: stack = above ++ x :: below) :
    x = id ∧ above = pushed ∨
      ∃ rest, stack = rest ++ x :: below ∧ above = pushed ++ id :: rest := by
  rcases List.append_eq_append_iff.1 heq with ⟨rest, habove, hrest⟩ | ⟨rest, hpushed, hrest⟩
  · cases rest with
    | nil =>
      obtain ⟨rfl, -⟩ := List.cons_eq_cons.1 hrest
      exact .inl ⟨rfl, by rw [habove, List.append_nil]⟩
    | cons y rest =>
      obtain ⟨rfl, hbelow⟩ := List.cons_eq_cons.1 hrest
      exact .inr ⟨rest, hbelow, habove⟩
  · cases rest with
    | nil =>
      obtain ⟨rfl, -⟩ := List.cons_eq_cons.1 hrest
      exact .inl ⟨rfl, by rw [hpushed, List.append_nil]⟩
    | cons y rest =>
      obtain ⟨rfl, -⟩ := List.cons_eq_cons.1 hrest
      exact absurd (by rw [hpushed]; simp) hx

/-- A node is met: what it feeds and has not been met is pushed above it. -/
theorem Waiting.meet {pushed : List NodeId} (h : patch.Waiting unseen finished (id :: stack))
    (hstored : ∀ x ∈ pushed, patch.nodes.contains x)
    (hpushed : ∀ x, x ∈ pushed ↔ patch.Feeds id x ∧ x ∈ unseen.erase id) :
    patch.Waiting (unseen.erase id) finished (pushed ++ id :: stack) := by
  have hopenOld : ∀ x, x ≠ id → patch.Open (unseen.erase id) finished x →
      patch.Open unseen finished x := fun x hne hopen =>
    ⟨hopen.stored, fun hmem => hopen.seen ((List.mem_erase_of_ne hne).2 hmem), hopen.unfinished⟩
  have hnotPushed : ∀ x, patch.Open (unseen.erase id) finished x → x ∉ pushed :=
    fun x hopen hx => hopen.seen ((hpushed x).1 hx).2
  constructor
  · intro x hx
    rcases List.mem_append.1 hx with hx | hx
    · exact hstored x hx
    · exact h.stored x hx
  · intro x hopen
    by_cases hne : x = id
    · simp [hne]
    · exact List.mem_append_right _ (h.waits x (hopenOld x hne hopen))
  · intro x above below hopen heq hnotAbove y hy
    rcases split_of_push (hnotPushed x hopen) heq with ⟨rfl, rfl⟩ | ⟨rest, rfl, rfl⟩
    · exact ReflTransGen.single ((hpushed y).1 hy).1
    · rw [List.mem_append, not_or] at hnotAbove
      have hne : x ≠ id := fun he => hnotAbove.2 (by simp [he])
      have hreached := h.reached x (id :: rest) below (hopenOld x hne hopen) rfl hnotAbove.2
      rcases List.mem_append.1 hy with hy | hy
      · exact (hreached id List.mem_cons_self).tail ((hpushed y).1 hy).1
      · exact hreached y hy
  · intro x above below hopen heq hnotAbove b hb
    rcases split_of_push (hnotPushed x hopen) heq with ⟨rfl, rfl⟩ | ⟨rest, rfl, rfl⟩
    · by_cases hmem : b ∈ unseen.erase x
      · exact .inr ((hpushed b).2 ⟨hb, hmem⟩)
      · exact .inl hmem
    · rw [List.mem_append, not_or] at hnotAbove
      have hne : x ≠ id := fun he => hnotAbove.2 (by simp [he])
      rcases h.pending x (id :: rest) below (hopenOld x hne hopen) rfl hnotAbove.2 b hb with hb | hb
      · exact .inl fun hmem => hb (List.mem_of_mem_erase hmem)
      · exact .inr (List.mem_append_right _ hb)

/-- A node that is open no longer leaves the stack. -/
theorem Waiting.leave {others : List NodeId} (h : patch.Waiting unseen finished (id :: stack))
    (hid : id ∉ unseen) (hothers : ∀ x, x ∉ others → x ≠ id ∧ x ∉ finished) :
    patch.Waiting unseen others stack := by
  have hopenOld : ∀ x, patch.Open unseen others x → x ≠ id ∧ patch.Open unseen finished x :=
    fun x hopen => ⟨(hothers x hopen.unfinished).1, hopen.stored, hopen.seen,
      (hothers x hopen.unfinished).2⟩
  constructor
  · exact fun x hx => h.stored x (List.mem_cons_of_mem _ hx)
  · intro x hopen
    obtain ⟨hne, hold⟩ := hopenOld x hopen
    exact List.mem_of_ne_of_mem hne (h.waits x hold)
  · rintro x above below hopen rfl hnotAbove y hy
    obtain ⟨hne, hold⟩ := hopenOld x hopen
    exact h.reached x (id :: above) below hold rfl
      (List.not_mem_cons_of_ne_of_not_mem hne hnotAbove) y (List.mem_cons_of_mem _ hy)
  · rintro x above below hopen rfl hnotAbove b hb
    obtain ⟨hne, hold⟩ := hopenOld x hopen
    rcases h.pending x (id :: above) below hold rfl
      (List.not_mem_cons_of_ne_of_not_mem hne hnotAbove) b hb with hb | hb
    · exact .inl hb
    · rcases List.mem_cons.1 hb with rfl | hb
      · exact .inl hid
      · exact .inr hb

/-- What an open node on top of the stack feeds is finished, or open and thus below it. -/
theorem Waiting.finished_or_leads (hwell : patch.WellFormed)
    (h : patch.Waiting unseen finished (id :: stack)) (hopen : patch.Open unseen finished id)
    {b : NodeId} (hb : patch.Feeds id b) : b ∈ finished ∨ patch.Leads b id := by
  have hseen : b ∉ unseen :=
    (h.pending id [] stack hopen rfl List.not_mem_nil b hb).resolve_right List.not_mem_nil
  by_cases hfinished : b ∈ finished
  · exact .inl hfinished
  · right
    have hopenTarget : patch.Open unseen finished b :=
      ⟨hb.contains_target hwell, hseen, hfinished⟩
    obtain ⟨above, below, heq, hnotAbove⟩ := List.eq_append_cons_of_mem (h.waits b hopenTarget)
    cases above with
    | nil =>
      obtain ⟨rfl, -⟩ := List.cons_eq_cons.1 heq
      exact ReflTransGen.refl
    | cons y above =>
      obtain ⟨rfl, -⟩ := List.cons_eq_cons.1 heq
      exact h.reached b (id :: above) below hopenTarget heq hnotAbove id List.mem_cons_self

theorem Finished.add (h : patch.Finished unseen finished) (hopen : patch.Open unseen finished id)
    (hfeeds : ∀ b, patch.Feeds id b → b ∈ finished ∨ patch.Leads b id) :
    patch.Finished unseen (id :: finished) := by
  constructor
  · intro x hx
    rcases List.mem_cons.1 hx with rfl | hx
    · exact hopen.stored
    · exact h.stored x hx
  · intro x hx
    rcases List.mem_cons.1 hx with rfl | hx
    · exact hopen.seen
    · exact h.seen x hx
  · exact List.nodup_cons.2 ⟨hopen.unfinished, h.nodup⟩
  · intro a ha b hb
    rcases List.mem_cons.1 ha with rfl | ha
    · exact (hfeeds b hb).imp_left (List.mem_cons_of_mem _)
    · exact (h.closed a ha b hb).imp_left (List.mem_cons_of_mem _)
  · refine List.pairwise_cons.2 ⟨fun b hb hback => ?_, h.ordered⟩
    exact (h.closed b hb id hback).resolve_left hopen.unfinished

/-! ### Steps and runs of the first search -/

/-- Before anything has been met. -/
theorem search_nil : Search patch patch.nodes.keys [] [] := by
  have hopen : ∀ id, ¬ patch.Open patch.nodes.keys [] id := fun id hopen =>
    hopen.seen (OrderedMap.mem_keys_iff.2 hopen.stored)
  refine ⟨OrderedMap.keys_nodup, ?_, .of_forall_not_open nofun hopen,
    ⟨nofun, nofun, List.nodup_nil, nofun, List.Pairwise.nil⟩⟩
  exact fun id hid hnot => absurd (OrderedMap.mem_keys_iff.2 hid) hnot

theorem Search.start (h : patch.Search unseen finished []) (hstored : patch.nodes.contains id) :
    patch.Search unseen finished [id] := by
  refine ⟨h.nodup, h.loopless, .of_forall_not_open ?_ ?_, h.finished⟩
  · intro x hx
    rwa [List.mem_singleton.1 hx]
  · exact fun x hopen => nomatch h.waiting.waits x hopen

theorem Search.meet (hwell : patch.WellFormed) (h : patch.Search unseen finished (id :: stack))
    (hloop : id ∉ patch.successors id) :
    patch.Search (unseen.erase id) finished
      (((patch.successors id).filter (· ∈ unseen.erase id)).reverse ++ id :: stack) := by
  have hpushed : ∀ x, x ∈ ((patch.successors id).filter (· ∈ unseen.erase id)).reverse ↔
      patch.Feeds id x ∧ x ∈ unseen.erase id := by
    intro x
    rw [List.mem_reverse, List.mem_filter, mem_successors_iff hwell, decide_eq_true_eq]
  have hfinished := h.finished
  refine ⟨h.nodup.erase id, ?_, h.waiting.meet ?_ hpushed, hfinished.stored, ?_, hfinished.nodup,
    hfinished.closed, hfinished.ordered⟩
  · intro x hx hseen
    by_cases hne : x = id
    · subst hne
      rwa [← mem_successors_iff hwell]
    · exact h.loopless x hx fun hmem => hseen ((List.mem_erase_of_ne hne).2 hmem)
  · exact fun x hx => ((hpushed x).1 hx).1.contains_target hwell
  · exact fun x hx hmem => hfinished.seen x hx (List.mem_of_mem_erase hmem)

theorem Search.leave (hwell : patch.WellFormed) (h : patch.Search unseen finished (id :: stack))
    (hid : id ∉ unseen) :
    patch.Search unseen (if id ∈ finished then finished else id :: finished) stack := by
  split
  · rename_i hfinished
    refine ⟨h.nodup, h.loopless, h.waiting.leave hid fun x hx => ⟨?_, hx⟩, h.finished⟩
    rintro rfl
    exact hx hfinished
  · rename_i hunfinished
    have hopen : patch.Open unseen finished id :=
      ⟨h.waiting.stored id List.mem_cons_self, hid, hunfinished⟩
    exact ⟨h.nodup, h.loopless,
      h.waiting.leave hid fun x hx => ⟨List.ne_of_not_mem_cons hx, List.not_mem_of_not_mem_cons hx⟩,
      h.finished.add hopen fun b hb => h.waiting.finished_or_leads hwell hopen hb⟩

/-- A search that ends has met all nodes of the stack and finished all nodes that it has met. -/
theorem search_of_descend (hwell : patch.WellFormed) (h : patch.Search unseen finished stack)
    {result : List NodeId × List NodeId}
    (hresult : patch.descend unseen finished stack = .ok result) :
    patch.Search result.1 result.2 [] ∧ (∀ id ∈ stack, id ∉ result.1) ∧
      ∀ id ∈ result.1, id ∈ unseen := by
  induction unseen, finished, stack using descend.induct patch with
  | case1 unseen finished =>
    rw [descend] at hresult
    cases hresult
    exact ⟨h, nofun, fun _ hid => hid⟩
  | case2 unseen finished id stack hid hloop =>
    rw [descend, dif_pos hid, if_pos hloop] at hresult
    exact nomatch hresult
  | case3 unseen finished id stack hid hloop next ih =>
    rw [descend, dif_pos hid, if_neg hloop] at hresult
    obtain ⟨hsearch, hmet, hsub⟩ := ih (h.meet hwell hloop) hresult
    exact ⟨hsearch, fun x hx => hmet x (List.mem_append_right _ hx),
      fun x hx => List.mem_of_mem_erase (hsub x hx)⟩
  | case4 unseen finished id stack hid ih =>
    rw [descend, dif_neg hid] at hresult
    obtain ⟨hsearch, hmet, hsub⟩ := ih (h.leave hwell hid) hresult
    refine ⟨hsearch, fun x hx => ?_, hsub⟩
    rcases List.mem_cons.1 hx with rfl | hx
    · exact fun hmem => hid (hsub x hmem)
    · exact hmet x hx

/-- A search is given up at a node that feeds itself. -/
theorem feeds_of_descend (hwell : patch.WellFormed) {n : NodeId}
    (hresult : patch.descend unseen finished stack = .error n) : patch.Feeds n n := by
  induction unseen, finished, stack using descend.induct patch with
  | case1 unseen finished =>
    rw [descend] at hresult
    exact nomatch hresult
  | case2 unseen finished id stack hid hloop =>
    rw [descend, dif_pos hid, if_pos hloop] at hresult
    cases hresult
    exact (mem_successors_iff hwell).1 hloop
  | case3 unseen finished id stack hid hloop next ih =>
    rw [descend, dif_pos hid, if_neg hloop] at hresult
    exact ih hresult
  | case4 unseen finished id stack hid ih =>
    rw [descend, dif_neg hid] at hresult
    exact ih hresult

theorem search_of_foldlM (hwell : patch.WellFormed) {ids : List NodeId}
    (hids : ∀ id ∈ ids, patch.nodes.contains id) {state result : List NodeId × List NodeId}
    (h : patch.Search state.1 state.2 [])
    (hresult : ids.foldlM patch.searchFrom state = .ok result) :
    patch.Search result.1 result.2 [] ∧ (∀ id ∈ ids, id ∉ result.1) ∧
      ∀ id ∈ result.1, id ∈ state.1 := by
  induction ids generalizing state with
  | nil =>
    cases hresult
    exact ⟨h, nofun, fun _ hid => hid⟩
  | cons id ids ih =>
    obtain ⟨next, hnext, hrest⟩ := Outcome.foldlM_cons_eq_ok.1 hresult
    have hstep : patch.Search next.1 next.2 [] ∧ id ∉ next.1 ∧ ∀ x ∈ next.1, x ∈ state.1 := by
      unfold searchFrom at hnext
      split at hnext
      · have hstart := h.start (hids id List.mem_cons_self)
        obtain ⟨hsearch, hmet, hsub⟩ := search_of_descend hwell hstart hnext
        exact ⟨hsearch, hmet id (List.mem_singleton_self id), hsub⟩
      · rename_i hmet
        cases hnext
        exact ⟨h, hmet, fun _ hx => hx⟩
    obtain ⟨hsearch, hid, hsub⟩ := hstep
    obtain ⟨hsearchEnd, hmet, hsubEnd⟩ :=
      ih (fun x hx => hids x (List.mem_cons_of_mem _ hx)) hsearch hrest
    refine ⟨hsearchEnd, fun x hx => ?_, fun x hx => hsub x (hsubEnd x hx)⟩
    rcases List.mem_cons.1 hx with rfl | hx
    · exact fun hmem => hid (hsubEnd x hmem)
    · exact hmet x hx

/-- The first search lists every node once, and a node before one that feeds it only if it leads to
that one. -/
theorem finishOrder_eq_ok (hwell : patch.WellFormed) {order : List NodeId}
    (h : patch.finishOrder = .ok order) :
    order.Nodup ∧ (∀ id, id ∈ order ↔ patch.nodes.contains id) ∧ (∀ id, ¬ patch.Feeds id id) ∧
      order.Pairwise fun a b => patch.Feeds b a → patch.Leads a b := by
  unfold finishOrder at h
  cases hstate : patch.nodes.keys.foldlM patch.searchFrom (patch.nodes.keys, []) with
  | error e =>
    rw [hstate] at h
    exact nomatch h
  | ok state =>
    rw [hstate] at h
    obtain rfl : state.2 = order := Except.ok.inj h
    obtain ⟨hsearch, hmet, _⟩ :=
      search_of_foldlM hwell (fun id => OrderedMap.mem_keys_iff.1) search_nil hstate
    have hseen : ∀ id, patch.nodes.contains id → id ∉ state.1 := fun id hid =>
      hmet id (OrderedMap.mem_keys_iff.2 hid)
    refine ⟨hsearch.finished.nodup, fun id => ⟨hsearch.finished.stored id, fun hid => ?_⟩,
      fun id hloop => ?_, hsearch.finished.ordered⟩
    · by_contra hunfinished
      exact nomatch hsearch.waiting.waits id ⟨hid, hseen id hid, hunfinished⟩
    · have hid := hloop.contains_source hwell
      exact hsearch.loopless id hid (hseen id hid) hloop

theorem finishOrder_eq_error (hwell : patch.WellFormed) {n : NodeId}
    (h : patch.finishOrder = .error n) : patch.Feeds n n := by
  unfold finishOrder at h
  cases hstate : patch.nodes.keys.foldlM patch.searchFrom (patch.nodes.keys, []) with
  | ok state =>
    rw [hstate] at h
    exact nomatch h
  | error e =>
    rw [hstate] at h
    obtain rfl : e = n := Except.error.inj h
    obtain ⟨state, id, _, hstep⟩ := Outcome.exists_step_of_foldlM_eq_error hstate
    unfold searchFrom at hstep
    split at hstep
    · exact feeds_of_descend hwell hstep
    · exact nomatch hstep

/-! ### The second search -/

/-- Against the links the search meets only nodes that directly feed the first one: it is given up
at one of them, if any has not been met, and otherwise ends. -/
theorem ascend_singleton (hwell : patch.WellFormed) (hid : id ∈ unseen) :
    (patch.ascend false unseen [id] = .ok (unseen.erase id) ∧
        ∀ j ∈ unseen.erase id, ¬ patch.Feeds j id) ∨
      ∃ j ∈ unseen.erase id, patch.Feeds j id ∧ patch.ascend false unseen [id] = .error j := by
  have hmem : ∀ j, j ∈ ((patch.predecessors id).filter (· ∈ unseen.erase id)).reverse ↔
      patch.Feeds j id ∧ j ∈ unseen.erase id := by
    intro j
    rw [List.mem_reverse, List.mem_filter, mem_predecessors_iff hwell, decide_eq_true_eq]
  have hfirst : patch.ascend false unseen [id] = patch.ascend true (unseen.erase id)
      (((patch.predecessors id).filter (· ∈ unseen.erase id)).reverse ++ []) := by
    rw [ascend, dif_pos hid, if_neg Bool.false_ne_true]
  rw [List.append_nil] at hfirst
  cases hnext : ((patch.predecessors id).filter (· ∈ unseen.erase id)).reverse with
  | nil =>
    have hends : patch.ascend true (unseen.erase id) [] = .ok (unseen.erase id) := by rw [ascend]
    rw [hnext, hends] at hfirst
    refine .inl ⟨hfirst, fun j hj hfeeds => ?_⟩
    have hnone := (hmem j).2 ⟨hfeeds, hj⟩
    rw [hnext] at hnone
    exact List.not_mem_nil hnone
  | cons j rest =>
    obtain ⟨hfeeds, hj⟩ := (hmem j).1 (hnext ▸ List.mem_cons_self)
    have hfails : patch.ascend true (unseen.erase id) (j :: rest) = .error j := by
      rw [ascend, dif_pos hj, if_pos rfl]
    rw [hnext, hfails] at hfirst
    exact .inr ⟨j, hj, hfeeds, hfirst⟩

theorem ascend_eq_ok (hwell : patch.WellFormed) (hid : id ∈ unseen) {rest : List NodeId}
    (h : patch.ascend false unseen [id] = .ok rest) :
    rest = unseen.erase id ∧ ∀ j ∈ rest, ¬ patch.Feeds j id := by
  rcases ascend_singleton hwell hid with ⟨hends, hnone⟩ | ⟨j, _, _, hfails⟩
  · obtain rfl := Except.ok.inj (h.symm.trans hends)
    exact ⟨rfl, hnone⟩
  · exact nomatch h.symm.trans hfails

theorem ascend_eq_error (hwell : patch.WellFormed) (hid : id ∈ unseen) {j : NodeId}
    (h : patch.ascend false unseen [id] = .error j) :
    j ∈ unseen.erase id ∧ patch.Feeds j id := by
  rcases ascend_singleton hwell hid with ⟨hends, _⟩ | ⟨i, hi, hfeeds, hfails⟩
  · exact nomatch h.symm.trans hends
  · obtain rfl := Except.error.inj (h.symm.trans hfails)
    exact ⟨hi, hfeeds⟩

theorem mem_erase_iff_of_cons {order : List NodeId} (hunseen : unseen.Nodup) (hid : id ∉ order)
    (hsame : ∀ x, x ∈ unseen ↔ x ∈ id :: order) (x : NodeId) : x ∈ unseen.erase id ↔ x ∈ order := by
  rw [hunseen.mem_erase_iff, hsame, List.mem_cons]
  constructor
  · exact fun hx => hx.2.resolve_left hx.1
  · exact fun hx => ⟨fun he => hid (he ▸ hx), .inr hx⟩

/-- The second search goes through an order as long as no node is fed by a later one. -/
theorem pairwise_of_foldlM_ascend (hwell : patch.WellFormed) {order rest : List NodeId}
    (horder : order.Nodup) (hunseen : unseen.Nodup) (hsame : ∀ id, id ∈ unseen ↔ id ∈ order)
    (h : order.foldlM (fun unseen id => patch.ascend false unseen [id]) unseen = .ok rest) :
    order.Pairwise fun a b => ¬ patch.Feeds b a := by
  induction order generalizing unseen with
  | nil => exact List.Pairwise.nil
  | cons id order ih =>
    obtain ⟨next, hnext, hrest⟩ := Outcome.foldlM_cons_eq_ok.1 h
    obtain ⟨rfl, hnone⟩ := ascend_eq_ok hwell ((hsame id).2 List.mem_cons_self) hnext
    obtain ⟨hnotMem, horder⟩ := List.nodup_cons.1 horder
    have hnext := mem_erase_iff_of_cons hunseen hnotMem hsame
    exact List.pairwise_cons.2 ⟨fun j hj => hnone j ((hnext j).2 hj),
      ih horder (hunseen.erase id) hnext hrest⟩

/-- The second search is given up at a node that comes after one it feeds. -/
theorem cycle_of_foldlM_ascend (hwell : patch.WellFormed) {order : List NodeId}
    (horder : order.Nodup) (hunseen : unseen.Nodup) (hsame : ∀ id, id ∈ unseen ↔ id ∈ order)
    (hback : order.Pairwise fun a b => patch.Feeds b a → patch.Leads a b) {j : NodeId}
    (h : order.foldlM (fun unseen id => patch.ascend false unseen [id]) unseen = .error j) :
    TransGen patch.Feeds j j := by
  induction order generalizing unseen with
  | nil => exact nomatch h
  | cons id order ih =>
    have hid : id ∈ unseen := (hsame id).2 List.mem_cons_self
    obtain ⟨hnotMem, horder⟩ := List.nodup_cons.1 horder
    obtain ⟨hfirst, hback⟩ := List.pairwise_cons.1 hback
    have hnext := mem_erase_iff_of_cons hunseen hnotMem hsame
    rw [List.foldlM_cons] at h
    cases hstep : patch.ascend false unseen [id] with
    | error e =>
      rw [hstep] at h
      obtain rfl : e = j := Except.error.inj h
      obtain ⟨hlater, hfeeds⟩ := ascend_eq_error hwell hid hstep
      exact TransGen.head' hfeeds (hfirst e ((hnext e).1 hlater) hfeeds)
    | ok next =>
      rw [hstep] at h
      obtain ⟨rfl, _⟩ := ascend_eq_ok hwell hid hstep
      exact ih horder (hunseen.erase id) hnext hback h

/-! ### Both searches -/

/-- The order is a list of all nodes in which every node comes after those that feed it. -/
theorem topologicalOrder_eq_ok (hwell : patch.WellFormed) {order : List NodeId}
    (h : patch.topologicalOrder = .ok order) :
    order.Nodup ∧ (∀ id, id ∈ order ↔ patch.nodes.contains id) ∧
      ∀ a b, patch.Feeds a b → order.idxOf a < order.idxOf b := by
  obtain ⟨found, hfound, h⟩ := Outcome.bind_eq_ok.1 (Outcome.ok_of_mapError.1 h)
  obtain ⟨rest, hrest, h⟩ := Outcome.bind_eq_ok.1 h
  cases h
  obtain ⟨hnodup, hmem, hloopless, _⟩ := finishOrder_eq_ok hwell hfound
  have hsame : ∀ id, id ∈ patch.nodes.keys ↔ id ∈ order := fun id => by
    rw [hmem, OrderedMap.mem_keys_iff]
  have hforward := pairwise_of_foldlM_ascend hwell hnodup OrderedMap.keys_nodup hsame hrest
  refine ⟨hnodup, hmem, fun a b hfeeds => ?_⟩
  have ha := List.idxOf_lt_length_iff.2 ((hmem a).2 (hfeeds.contains_source hwell))
  have hb := List.idxOf_lt_length_iff.2 ((hmem b).2 (hfeeds.contains_target hwell))
  by_contra hnot
  rcases Nat.lt_or_eq_of_le (Nat.le_of_not_lt hnot) with hlt | heq
  · have hno := List.pairwise_iff_getElem.1 hforward _ _ hb ha hlt
    rw [List.getElem_idxOf hb, List.getElem_idxOf ha] at hno
    exact hno hfeeds
  · have hsame : b = a := by
      rw [← List.getElem_idxOf hb, ← List.getElem_idxOf ha]
      simp [heq]
    exact hloopless a (hsame ▸ hfeeds)

/-- The node that is reported lies on a cycle. -/
theorem topologicalOrder_eq_error (hwell : patch.WellFormed) {e : StructuralError}
    (h : patch.topologicalOrder = .error e) :
    ∃ n, e = .cycleDetected n ∧ TransGen patch.Feeds n n := by
  obtain ⟨n, hn, rfl⟩ := Outcome.error_of_mapError.1 h
  refine ⟨n, rfl, ?_⟩
  rcases Outcome.bind_eq_error.1 hn with hfound | ⟨order, hfound, hn⟩
  · exact TransGen.single (finishOrder_eq_error hwell hfound)
  · obtain ⟨hnodup, hmem, _, hback⟩ := finishOrder_eq_ok hwell hfound
    have hsame : ∀ id, id ∈ patch.nodes.keys ↔ id ∈ order := fun id => by
      rw [hmem, OrderedMap.mem_keys_iff]
    rcases Outcome.bind_eq_error.1 hn with hascend | ⟨_, _, hn⟩
    · exact cycle_of_foldlM_ascend hwell hnodup OrderedMap.keys_nodup hsame hback hascend
    · exact nomatch hn

/-- Along links the places in an order grow, so that no node leads back to itself. -/
theorem acyclic_of_topologicalOrder (hwell : patch.WellFormed) {order : List NodeId}
    (h : patch.topologicalOrder = .ok order) (n : NodeId) : ¬ TransGen patch.Feeds n n := by
  obtain ⟨_, _, hforward⟩ := topologicalOrder_eq_ok hwell h
  have hgrow : ∀ a b, TransGen patch.Feeds a b → order.idxOf a < order.idxOf b := by
    intro a b hpath
    induction hpath with
    | single hfeeds => exact hforward _ _ hfeeds
    | tail _ hfeeds ih => exact Nat.lt_trans ih (hforward _ _ hfeeds)
  exact fun hcycle => Nat.lt_irrefl _ (hgrow n n hcycle)

theorem exists_topologicalOrder_iff_acyclic (hwell : patch.WellFormed) :
    (∃ order, patch.topologicalOrder = .ok order) ↔ ∀ n, ¬ TransGen patch.Feeds n n := by
  constructor
  · rintro ⟨order, horder⟩
    exact acyclic_of_topologicalOrder hwell horder
  · intro hacyclic
    cases hresult : patch.topologicalOrder with
    | ok order => exact ⟨order, rfl⟩
    | error e =>
      obtain ⟨n, _, hcycle⟩ := topologicalOrder_eq_error hwell hresult
      exact absurd hcycle (hacyclic n)

/-- A topological order is found exactly if the links form no cycle. It lists every node once, and
every link goes from a node to a later one. Otherwise a node on a cycle is reported. -/
theorem topologicalOrder_correct (h : patch.Reachable) :
    ((∃ order, patch.topologicalOrder = .ok order) ↔ ∀ n, ¬ TransGen patch.Feeds n n) ∧
      (∀ order, patch.topologicalOrder = .ok order →
        order.Nodup ∧ (∀ id, id ∈ order ↔ patch.nodes.contains id) ∧
        ∀ link ∈ patch.links.values,
          order.idxOf link.output.node < order.idxOf link.input.node) ∧
      ∀ e, patch.topologicalOrder = .error e →
        ∃ n, e = .cycleDetected n ∧ patch.nodes.contains n ∧ TransGen patch.Feeds n n := by
  have hwell := h.wellFormed
  refine ⟨exists_topologicalOrder_iff_acyclic hwell, ?_, ?_⟩
  · intro order horder
    obtain ⟨hnodup, hmem, hforward⟩ := topologicalOrder_eq_ok hwell horder
    refine ⟨hnodup, hmem, fun link hlink => ?_⟩
    obtain ⟨id, hlink⟩ := OrderedMap.mem_values_iff.1 hlink
    exact hforward _ _ ⟨id, link, hlink, rfl, rfl⟩
  · intro e he
    obtain ⟨n, rfl, hcycle⟩ := topologicalOrder_eq_error hwell he
    obtain ⟨_, hfeeds, _⟩ := TransGen.head'_iff.1 hcycle
    exact ⟨n, rfl, hfeeds.contains_source hwell, hcycle⟩

end Patch

namespace Lamps

theorem ends_of_mem_room_links : ∀ link ∈ room.links.values,
    link.output.node = switch ∧ link.input.node = third := by
  decide +kernel

/-- Nothing feeds the switch, which alone feeds a lamp. -/
theorem acyclic_room (n : NodeId) : ¬ TransGen room.Feeds n n := by
  have hfeeds : ∀ a b, room.Feeds a b → a = switch ∧ b = third := by
    rintro a b ⟨id, link, hlink, rfl, rfl⟩
    exact ends_of_mem_room_links link (OrderedMap.mem_values_iff.2 ⟨id, hlink⟩)
  intro hcycle
  obtain ⟨_, hhead, _⟩ := TransGen.head'_iff.1 hcycle
  obtain ⟨_, _, htail⟩ := TransGen.tail'_iff.1 hcycle
  exact absurd ((hfeeds _ _ hhead).1.symm.trans (hfeeds _ _ htail).2) (by decide)

end Lamps

open Lamps in
theorem Patch.topologicalOrder_lamps : ∃ order, room.topologicalOrder = .ok order ∧
    order.idxOf switch < order.idxOf third := by
  obtain ⟨hiff, hordered, _⟩ := topologicalOrder_correct reachable_room
  obtain ⟨order, horder⟩ := hiff.2 acyclic_room
  obtain ⟨link, hlink⟩ : ∃ link, link ∈ room.links.values :=
    List.exists_mem_of_length_pos (by decide +kernel)
  obtain ⟨houtput, hinput⟩ := ends_of_mem_room_links link hlink
  have hlater := (hordered order horder).2.2 link hlink
  rw [houtput, hinput] at hlater
  exact ⟨order, horder, hlater⟩

end Patchbay
