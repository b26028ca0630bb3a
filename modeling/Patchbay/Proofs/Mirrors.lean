import Patchbay.Proofs.OrderedMap
import Patchbay.Proofs.Outcome

/-! Maps that have been made of other maps, entry by entry and under new names. Two entries may get
one name; where they do not, the new entries correspond to the old ones one for one. -/

namespace Patchbay

variable {κ κ' α β γ ε : Type} [TextKey κ] [TextKey κ'] {old : OrderedMap κ α}
  {new : OrderedMap κ' β} {name : κ → α → String} {Like : κ → α → β → Prop}

/-- The names of all old entries are in the new map, and every new entry stems from an old one,
whose name it has and which it is like. -/
structure Mirrors (old : OrderedMap κ α) (new : OrderedMap κ' β) (name : κ → α → String)
    (Like : κ → α → β → Prop) : Prop where
  kept : ∀ key a, old.get? key = some a → ∃ id, text id = name key a ∧ new.contains id
  only : ∀ id b, new.get? id = some b →
    ∃ key a, old.get? key = some a ∧ text id = name key a ∧ Like key a b

/-- New entries correspond one for one to old ones, whose names they have and which they are
like. -/
structure Corresponds (old : OrderedMap κ α) (new : OrderedMap κ' β) (name : κ → α → String)
    (Like : κ → α → β → Prop) : Prop extends Mirrors old new name Like where
  apart : ∀ key a other b, old.get? key = some a → old.get? other = some b →
    name key a = name other b → key = other

namespace Mirrors

theorem mono {Weaker : κ → α → β → Prop} (h : Mirrors old new name Like)
    (hlike : ∀ key a b, old.get? key = some a → Like key a b → Weaker key a b) :
    Mirrors old new name Weaker := by
  refine ⟨h.kept, fun id b hb => ?_⟩
  obtain ⟨key, a, ha, hname, hab⟩ := h.only id b hb
  exact ⟨key, a, ha, hname, hlike key a b ha hab⟩

/-- A map is mirrored by what has been made of its entries one after another. -/
theorem of_mapM [DecidableEq κ'] {make : κ × α → Except ε γ} {made : List γ} {keyOf : γ → κ'}
    {valueOf : γ → β} (hmade : old.toList.mapM make = .ok made)
    (hlike : ∀ key a c, make (key, a) = .ok c →
      text (keyOf c) = name key a ∧ Like key a (valueOf c)) :
    Mirrors old (made.foldl (fun m c => m.insert (keyOf c) (valueOf c)) .empty) name Like := by
  constructor
  · intro key a ha
    -- the value may give way to a later one, but its key is taken from then on
    obtain ⟨c, hc, hmake⟩ := Outcome.exists_image hmade (OrderedMap.mem_toList_iff.2 ha)
    have hfound : (made.reverse.find? (keyOf · = keyOf c)).isSome :=
      List.find?_isSome.2 ⟨c, List.mem_reverse.2 hc, by simp⟩
    refine ⟨keyOf c, (hlike key a c hmake).1, ?_⟩
    rw [OrderedMap.contains, OrderedMap.get?_foldl_insert, Option.isSome_or, Option.isSome_map,
      hfound, Bool.true_or]
  · intro id b hb
    rw [OrderedMap.get?_foldl_insert, OrderedMap.get?_empty, Option.or_none,
      Option.map_eq_some_iff] at hb
    obtain ⟨c, hfound, rfl⟩ := hb
    obtain rfl : keyOf c = id := by simpa using List.find?_some hfound
    obtain ⟨⟨key, a⟩, ha, hmake⟩ :=
      Outcome.exists_source hmade (List.mem_reverse.1 (List.mem_of_find?_eq_some hfound))
    exact ⟨key, a, OrderedMap.mem_toList_iff.1 ha, hlike key a c hmake⟩

end Mirrors

/-- Entries that have been made with different names correspond to what they were made of. -/
theorem Corresponds.of_mapM [DecidableEq κ'] {make : κ × α → Except ε γ} {made : List γ}
    {keyOf : γ → κ'} {valueOf : γ → β} (hmade : old.toList.mapM make = .ok made)
    (hlike : ∀ key a c, make (key, a) = .ok c →
      text (keyOf c) = name key a ∧ Like key a (valueOf c))
    (hapart : (made.map keyOf).Nodup) :
    Corresponds old (made.foldl (fun m c => m.insert (keyOf c) (valueOf c)) .empty) name Like := by
  refine ⟨.of_mapM hmade hlike, fun key a other b ha hb hname => ?_⟩
  have hnames : made.map (fun c => text (keyOf c)) = old.toList.map fun e => name e.1 e.2 :=
    Outcome.map_eq_of_mapM hmade fun e _ c hc => (hlike e.1 e.2 c hc).1
  have hnodup : (old.toList.map fun e => name e.1 e.2).Nodup := by
    rw [← hnames]
    exact List.pairwise_map.2 ((List.pairwise_map.1 hapart).imp (mt text_inj.1))
  have hsame := List.inj_on_of_nodup_map hnodup (OrderedMap.mem_toList_iff.2 ha)
    (OrderedMap.mem_toList_iff.2 hb) hname
  exact congrArg Prod.fst hsame

namespace Corresponds

variable (h : Corresponds old new name Like)
include h

/-- An old entry has one new entry, which is like it. -/
theorem exists_get? {key : κ} {a : α} (ha : old.get? key = some a) :
    ∃ id b, new.get? id = some b ∧ text id = name key a ∧ Like key a b := by
  obtain ⟨id, hname, hcontains⟩ := h.kept key a ha
  obtain ⟨b, hb⟩ := OrderedMap.contains_iff.1 hcontains
  obtain ⟨other, a', ha', hname', hlike⟩ := h.only id b hb
  obtain rfl : key = other := h.apart key a other a' ha ha' (hname.symm.trans hname')
  cases ha.symm.trans ha'
  exact ⟨id, b, hb, hname, hlike⟩

theorem like {key : κ} {a : α} {id : κ'} {b : β} (ha : old.get? key = some a)
    (hb : new.get? id = some b) (hname : text id = name key a) : Like key a b := by
  obtain ⟨other, a', ha', hname', hlike⟩ := h.only id b hb
  obtain rfl : key = other := h.apart key a other a' ha ha' (hname.symm.trans hname')
  cases ha.symm.trans ha'
  exact hlike

end Corresponds

/-- Under its own names, a map corresponds to one that mirrors it. -/
theorem Mirrors.corresponds (h : Mirrors old new (fun key _ => text key) Like) :
    Corresponds old new (fun key _ => text key) Like :=
  ⟨h, fun _ _ _ _ _ _ hname => text_inj.1 hname⟩

/-- Values that are sent through a function correspond to what they were. -/
theorem corresponds_of_traverse [DecidableEq κ] {f : κ → α → Except ε β}
    {read : OrderedMap κ β} (h : old.traverse f = .ok read) :
    Corresponds old read (fun key _ => text key) fun key a b => f key a = .ok b := by
  have hsteps : (fun (read : OrderedMap κ β) (e : κ × α) =>
        (do return read.insert e.1 (← f e.1 e.2) : Except ε (OrderedMap κ β))) =
      fun read e => (do return (e.1, ← f e.1 e.2)) >>= fun c : κ × β =>
        pure (read.insert c.1 c.2) := by
    funext read e
    cases f e.1 e.2 <;> rfl
  rw [OrderedMap.traverse, hsteps] at h
  obtain ⟨made, hmade, hstored⟩ := Outcome.foldlM_bind_eq_ok.1 h
  rw [List.foldlM_pure, Outcome.pure_eq_ok] at hstored
  rw [← hstored]
  refine (Mirrors.of_mapM hmade fun key a c hmake => ?_).corresponds
  obtain ⟨b, hb, hc⟩ := Outcome.bind_eq_ok.1 hmake
  cases hc
  exact ⟨rfl, hb⟩

/-- Entries with names of their own are apart in key order, too. -/
theorem OrderedMap.pairwise_toList {m : OrderedMap κ α} {name : κ → α → String}
    (hapart : ∀ key a other b, m.get? key = some a → m.get? other = some b →
      name key a = name other b → key = other) :
    m.toList.Pairwise fun e e' => name e.1 e.2 ≠ name e'.1 e'.2 := by
  refine m.sorted.imp_of_mem fun {e e'} he he' hlt hname => ?_
  have hsame := hapart e.1 e.2 e'.1 e'.2 (OrderedMap.mem_toList_iff.1 he)
    (OrderedMap.mem_toList_iff.1 he') hname
  exact String.lt_irrefl _ (hsame ▸ hlt)

theorem get?_of_traverse [DecidableEq κ] {f : κ → α → Except ε β} {read : OrderedMap κ β}
    (h : old.traverse f = .ok read) (key : κ) :
    (old.get? key).map (f key) = (read.get? key).map .ok := by
  have hread := corresponds_of_traverse h
  cases hold : old.get? key with
  | none =>
    cases hnew : read.get? key with
    | none => rfl
    | some b =>
      obtain ⟨other, a, ha, hname, _⟩ := hread.only key b hnew
      rw [text_inj.1 hname, ha] at hold
      exact nomatch hold
  | some a =>
    obtain ⟨other, b, hb, hname, hmade⟩ := hread.exists_get? hold
    obtain rfl := text_inj.1 hname
    rw [hb, Option.map_some, Option.map_some, hmade]

theorem exists_traverse_eq_ok {f : κ → α → Except ε β}
    (h : ∀ key a, old.get? key = some a → ∃ b, f key a = .ok b) :
    ∃ read, old.traverse f = .ok read := by
  refine Outcome.exists_foldlM_eq_ok (I := fun rest _ => ∀ e ∈ rest, ∃ b, f e.1 e.2 = .ok b)
    (fun e rest read hrest => ?_) fun e he => h e.1 e.2 (OrderedMap.mem_toList_iff.1 he)
  obtain ⟨b, hb⟩ := hrest e List.mem_cons_self
  exact ⟨read.insert e.1 b, by rw [hb]; rfl, fun e he => hrest e (List.mem_cons_of_mem _ he)⟩

/-- Values are sent through a function one by one. -/
theorem traverse_eq_ok_iff [DecidableEq κ] {f : κ → α → Except ε β} {read : OrderedMap κ β} :
    old.traverse f = .ok read ↔ ∀ key, (old.get? key).map (f key) = (read.get? key).map .ok := by
  refine ⟨get?_of_traverse, fun h => ?_⟩
  obtain ⟨found, hfound⟩ : ∃ found, old.traverse f = .ok found := by
    refine exists_traverse_eq_ok fun key a ha => ?_
    have hkey := h key
    rw [ha, Option.map_some, eq_comm, Option.map_eq_some_iff] at hkey
    obtain ⟨b, _, hb⟩ := hkey
    exact ⟨b, hb.symm⟩
  have hsame : found = read := by
    apply OrderedMap.ext
    intro key
    have hkey := (get?_of_traverse hfound key).symm.trans (h key)
    exact Option.map_injective (fun _ _ => Except.ok.inj) hkey
  rw [hfound, hsame]

end Patchbay
