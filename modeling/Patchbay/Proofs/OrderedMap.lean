import Mathlib.Data.List.Nodup
import Mathlib.Data.Set.Card
import Patchbay.OrderedMap

/-! More about finite maps: membership of keys after a change or a merge, and lookups after the
entries of a list have been stored one after another. -/

namespace Patchbay.OrderedMap

variable {κ α β : Type} [TextKey κ] {m : OrderedMap κ α} {key other : κ} {value : α}

theorem contains_iff : m.contains key ↔ ∃ value, m.get? key = some value := by
  rw [contains, Option.isSome_iff_exists]

theorem contains_eq_false_iff : m.contains key = false ↔ m.get? key = none := by
  simp [contains]

theorem get?_eq_none_of_isEmpty (h : m.isEmpty) (key : κ) : m.get? key = none := by
  rw [get?, List.isEmpty_iff.1 h, lookup]

theorem get?_insert_eq_some {new : α} :
    (m.insert key new).get? other = some value ↔
      other = key ∧ new = value ∨ other ≠ key ∧ m.get? other = some value := by
  rw [get?_insert]
  split
  · rename_i h
    simp [text_inj.1 h]
  · rename_i h
    simp [mt text_inj.2 h]

theorem contains_insert : (m.insert key value).contains other ↔ other = key ∨ m.contains other := by
  simp only [contains, get?_insert, ← text_inj (a := other)]
  split <;> simp [*]

theorem map_get?_insert [DecidableEq κ] (f : α → β) :
    ((m.insert key value).get? other).map f =
      if other = key then some (f value) else (m.get? other).map f := by
  simp only [get?_insert, text_inj, apply_ite (Option.map f), Option.map_some]

theorem get?_erase_eq_some :
    (m.erase key).get? other = some value ↔ other ≠ key ∧ m.get? other = some value := by
  rw [get?_erase]
  split
  · rename_i h
    simp [text_inj.1 h]
  · rename_i h
    simp [mt text_inj.2 h]

theorem erase_insert (h : m.get? key = none) : (m.insert key value).erase key = m := by
  apply ext
  intro other
  rw [get?_erase, get?_insert]
  split
  · rename_i hsame
    rw [text_inj.1 hsame, h]
  · rfl

theorem get?_filter_eq_some {keep : κ → α → Bool} :
    (m.filter keep).get? key = some value ↔ m.get? key = some value ∧ keep key value := by
  rw [get?_filter, Option.filter_eq_some_iff]

theorem mem_toList_iff : (key, value) ∈ m.toList ↔ m.get? key = some value :=
  get?_eq_some_iff.symm

theorem keys_nodup : m.keys.Nodup :=
  List.pairwise_map.2 (m.sorted.imp fun {a b} (hlt : text a.1 < text b.1) (heq : a.1 = b.1) =>
    String.lt_irrefl _ (heq ▸ hlt))

theorem contains_mergeWith {f : α → α → α} {a b : OrderedMap κ α} :
    (mergeWith f a b).contains key ↔ a.contains key ∨ b.contains key := by
  simp only [contains, get?_mergeWith]
  cases b.get? key <;> simp

/-- Where both maps have an inner map, the inner entries of the second stand in front. -/
theorem get?_bind_mergeWith_override {κ' : Type} [TextKey κ'] {a b : OrderedMap κ (OrderedMap κ' α)}
    {name : κ'} :
    ((mergeWith .override a b).get? key).bind (·.get? name) =
      ((b.get? key).bind (·.get? name)).or ((a.get? key).bind (·.get? name)) := by
  rw [get?_mergeWith]
  cases b.get? key with
  | none => simp
  | some new =>
    cases a.get? key with
    | none => simp
    | some old => simp [get?_override]

theorem lookup_toList {m : OrderedMap String α} {name : String} :
    m.toList.lookup name = m.get? name := by
  rw [toList, get?]
  induction m.entries with
  | nil => rfl
  | cons e rest ih =>
    rw [List.lookup_cons, lookup, ih]
    by_cases h : name = e.1
    · simp [h]
    · simp [h, beq_eq_false_iff_ne.2 h, text_inj]

theorem size_eq_ncard [DecidableEq κ] : m.size = {key | m.contains key}.ncard := by
  have hkeys : {key | m.contains key} = (m.keys.toFinset : Set κ) := by
    ext key
    simp [mem_keys_iff]
  rw [hkeys, Set.ncard_coe_finset, List.toFinset_card_of_nodup keys_nodup, keys, List.length_map,
    size]

/-- A map grows by the number of its new keys. -/
theorem size_eq_add_ncard [DecidableEq κ] {larger : OrderedMap κ β} {new : Set κ}
    (hfinite : new.Finite) (hnew : ∀ key ∈ new, m.get? key = none)
    (h : ∀ key, larger.contains key ↔ m.contains key ∨ key ∈ new) :
    larger.size = m.size + new.ncard := by
  have hunion : {key | larger.contains key} = {key | m.contains key} ∪ new := Set.ext h
  have hdisjoint : Disjoint {key | m.contains key} new := by
    rw [Set.disjoint_right]
    intro key hkey hold
    exact absurd (contains_eq_false_iff.2 (hnew key hkey)) (by simpa using hold)
  have hold : {key | m.contains key}.Finite :=
    m.keys.finite_toSet.subset fun key hkey => mem_keys_iff.2 hkey
  rw [size_eq_ncard, hunion, Set.ncard_union_eq hdisjoint hold hfinite, size_eq_ncard]

/-- Of the entries that a list stores under one key, the last stays. -/
theorem get?_foldl_insert [DecidableEq κ] {keyOf : β → κ} {valueOf : β → α} {l : List β} :
    (l.foldl (fun m b => m.insert (keyOf b) (valueOf b)) m).get? key =
      ((l.reverse.find? (keyOf · = key)).map valueOf).or (m.get? key) := by
  induction l generalizing m with
  | nil => rfl
  | cons b l ih =>
    rw [List.foldl_cons, ih, List.reverse_cons, List.find?_append]
    cases l.reverse.find? (keyOf · = key) with
    | some last => rfl
    | none =>
      rw [get?_insert, Option.none_or, Option.map_none, Option.none_or]
      by_cases h : keyOf b = key
      · simp [h]
      · rw [if_neg fun he => h (text_inj.1 he).symm]
        simp [h]

/-- A map whose values know their keys is stored value by value. -/
theorem get?_foldl_insert_values [DecidableEq κ] {stored : OrderedMap κ α} {keyOf : α → κ}
    (hkeyed : ∀ key value, stored.get? key = some value → keyOf value = key) :
    (stored.values.foldl (fun m value => m.insert (keyOf value) value) m).get? key =
      (stored.get? key).or (m.get? key) := by
  rw [get?_foldl_insert, Option.map_id']
  congr 1
  cases hfind : stored.values.reverse.find? (keyOf · = key) with
  | none =>
    cases hget : stored.get? key with
    | none => rfl
    | some value =>
      have := List.find?_eq_none.1 hfind value
        (List.mem_reverse.2 (mem_values_iff.2 ⟨key, hget⟩))
      simp [hkeyed key value hget] at this
  | some value =>
    obtain ⟨other, hother⟩ :=
      mem_values_iff.1 (List.mem_reverse.1 (List.mem_of_find?_eq_some hfind))
    obtain rfl : keyOf value = key := by simpa using List.find?_some hfind
    rw [← hother, hkeyed other value hother]

theorem foldl_insert_values_eq [DecidableEq κ] {stored : OrderedMap κ α} {keyOf : α → κ}
    (hkeyed : ∀ key value, stored.get? key = some value → keyOf value = key) :
    stored.values.foldl (fun m value => m.insert (keyOf value) value) empty = stored := by
  apply ext
  intro key
  rw [get?_foldl_insert_values hkeyed, get?_empty, Option.or_none]

theorem get?_of_mem_values {keyOf : α → κ}
    (hkeyed : ∀ key value, m.get? key = some value → keyOf value = key) (h : value ∈ m.values) :
    m.get? (keyOf value) = some value := by
  obtain ⟨key, hkey⟩ := mem_values_iff.1 h
  rwa [hkeyed key value hkey]

theorem pairwise_values {keyOf : α → κ}
    (hkeyed : ∀ key value, m.get? key = some value → keyOf value = key) :
    m.values.Pairwise fun a b => keyOf a ≠ keyOf b := by
  refine List.pairwise_map.2 (m.sorted.imp_of_mem fun {a b} ha hb hlt heq => ?_)
  rw [hkeyed a.1 a.2 (get?_eq_some_iff.2 ha), hkeyed b.1 b.2 (get?_eq_some_iff.2 hb)] at heq
  exact String.lt_irrefl _ (heq ▸ hlt)

theorem find?_reverse_toList [DecidableEq κ] {stored : OrderedMap κ α} :
    stored.toList.reverse.find? (·.1 = key) = (stored.get? key).map (key, ·) := by
  cases hget : stored.get? key with
  | none =>
    refine List.find?_eq_none.2 fun e he hkey => ?_
    obtain rfl : e.1 = key := of_decide_eq_true hkey
    exact nomatch hget.symm.trans (mem_toList_iff.1 (List.mem_reverse.1 he))
  | some value =>
    cases hfind : stored.toList.reverse.find? (·.1 = key) with
    | none =>
      have hmem : (key, value) ∈ stored.toList.reverse :=
        List.mem_reverse.2 (mem_toList_iff.2 hget)
      exact absurd (decide_eq_true rfl) (List.find?_eq_none.1 hfind _ hmem)
    | some e =>
      obtain ⟨found, old⟩ := e
      obtain rfl : found = key := by simpa using List.find?_some hfind
      have hold := mem_toList_iff.1 (List.mem_reverse.1 (List.mem_of_find?_eq_some hfind))
      rw [Option.some.inj (hold.symm.trans hget)]
      rfl

/-- A map is stored entry by entry. -/
theorem foldl_insert_toList_eq [DecidableEq κ] (stored : OrderedMap κ β) (f : κ → β → α) :
    stored.toList.foldl (fun m e => m.insert e.1 (f e.1 e.2)) empty = stored.map f := by
  apply ext
  intro key
  have hlast : (stored.toList.foldl (fun m e => m.insert e.1 (f e.1 e.2)) empty).get? key =
      ((stored.toList.reverse.find? (·.1 = key)).map fun e => f e.1 e.2).or (empty.get? key) :=
    get?_foldl_insert
  rw [hlast, find?_reverse_toList, get?_empty, Option.or_none, Option.map_map, get?_map]
  rfl

theorem ofList_toList [DecidableEq κ] (m : OrderedMap κ α) : ofList m.toList = m := by
  have hmap : m.map (fun _ value => value) = m := by
    apply ext
    intro key
    rw [get?_map, Option.map_id']
  exact (foldl_insert_toList_eq m fun _ value => value).trans hmap

theorem get?_ofList [DecidableEq κ] {l : List (κ × α)} :
    (ofList l).get? key = (l.reverse.find? (·.1 = key)).map Prod.snd := by
  rw [ofList, get?_foldl_insert, get?_empty, Option.or_none]

theorem mem_of_get?_ofList [DecidableEq κ] {l : List (κ × α)}
    (h : (ofList l).get? key = some value) : (key, value) ∈ l := by
  rw [get?_ofList, Option.map_eq_some_iff] at h
  obtain ⟨e, hfound, rfl⟩ := h
  obtain rfl : e.1 = key := by simpa using List.find?_some hfound
  exact List.mem_reverse.1 (List.mem_of_find?_eq_some hfound)

theorem mem_keys_ofList [DecidableEq κ] {l : List (κ × α)} :
    key ∈ (ofList l).keys ↔ ∃ value, (key, value) ∈ l := by
  rw [mem_keys_iff, contains_iff]
  constructor
  · rintro ⟨value, h⟩
    exact ⟨value, mem_of_get?_ofList h⟩
  · rintro ⟨value, h⟩
    have hfound : (l.reverse.find? (·.1 = key)).isSome := by
      rw [List.find?_isSome]
      exact ⟨(key, value), List.mem_reverse.2 h, by simp⟩
    obtain ⟨e, he⟩ := Option.isSome_iff_exists.1 hfound
    exact ⟨e.2, by rw [get?_ofList, he, Option.map_some]⟩

end Patchbay.OrderedMap
