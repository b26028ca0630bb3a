/-! Finite maps whose keys are ordered by their text: lookup, insertion and removal, and the fact
that maps with the same lookups are equal. -/

namespace Patchbay

/-- A type whose values are told apart by a text. -/
class TextKey (κ : Type) where
  text : κ → String
  text_injective : ∀ {a b : κ}, text a = text b → a = b

export TextKey (text)

instance : TextKey String := ⟨id, id⟩

theorem text_inj {κ : Type} [TextKey κ] {a b : κ} : text a = text b ↔ a = b :=
  ⟨TextKey.text_injective, fun h => h ▸ rfl⟩

/-- A finite map: its entries have strictly increasing keys, by code points. -/
structure OrderedMap (κ α : Type) [TextKey κ] where
  entries : List (κ × α)
  sorted : entries.Pairwise (fun a b => text a.1 < text b.1)

namespace OrderedMap

variable {κ α β : Type} [TextKey κ]

/-- Lookup in a list of entries: the first entry with the key. -/
def lookup (key : κ) : List (κ × α) → Option α
  | [] => none
  | (other, value) :: rest => if text key = text other then some value else lookup key rest

/-- Insertion in front of the first larger key; an entry with the same key is replaced. -/
def place (key : κ) (value : α) : List (κ × α) → List (κ × α)
  | [] => [(key, value)]
  | (other, old) :: rest =>
    if text key = text other then (key, value) :: rest
    else if text key < text other then (key, value) :: (other, old) :: rest
    else (other, old) :: place key value rest

theorem mem_place {key : κ} {value : α} {e : κ × α} {l : List (κ × α)}
    (h : e ∈ place key value l) : e = (key, value) ∨ e ∈ l := by
  induction l with
  | nil => simpa [place] using h
  | cons hd rest ih =>
    unfold place at h
    split at h
    · simp only [List.mem_cons] at h ⊢
      exact h.imp id Or.inr
    · split at h
      · simpa [List.mem_cons] using h
      · rcases List.mem_cons.1 h with h | h
        · exact Or.inr (h ▸ List.mem_cons_self)
        · exact (ih h).imp id (List.mem_cons_of_mem _)

theorem sorted_place (key : κ) (value : α) {l : List (κ × α)}
    (h : l.Pairwise (fun a b => text a.1 < text b.1)) :
    (place key value l).Pairwise (fun a b => text a.1 < text b.1) := by
  induction l with
  | nil => simp [place]
  | cons hd rest ih =>
    have hr := (List.pairwise_cons.1 h).1
    unfold place
    split
    · rename_i heq
      exact (h.of_cons).cons fun e he => by simpa [heq] using hr e he
    · rename_i hne
      split
      · rename_i hlt
        refine h.cons fun e he => ?_
        rcases List.mem_cons.1 he with rfl | he
        · exact hlt
        · exact String.lt_trans hlt (hr e he)
      · rename_i hnlt
        refine (ih h.of_cons).cons fun e he => ?_
        rcases mem_place he with rfl | he
        · exact Std.lt_of_le_of_ne (String.not_lt.1 hnlt) (Ne.symm hne)
        · exact hr e he

/-- The map without entries. -/
def empty : OrderedMap κ α := ⟨[], .nil⟩

instance : EmptyCollection (OrderedMap κ α) := ⟨empty⟩

instance : Inhabited (OrderedMap κ α) := ⟨empty⟩

/-- The value stored under `key`. -/
def get? (m : OrderedMap κ α) (key : κ) : Option α := lookup key m.entries

/-- Whether `key` has a value. -/
def contains (m : OrderedMap κ α) (key : κ) : Bool := (m.get? key).isSome

/-- Stores `value` under `key`, in place of any value there. -/
def insert (m : OrderedMap κ α) (key : κ) (value : α) : OrderedMap κ α :=
  ⟨place key value m.entries, sorted_place key value m.sorted⟩

/-- The entries that satisfy `keep`. -/
def filter (m : OrderedMap κ α) (keep : κ → α → Bool) : OrderedMap κ α :=
  ⟨m.entries.filter fun e => keep e.1 e.2, m.sorted.filter _⟩

/-- Drops the entry of `key`, if there is one. -/
def erase (m : OrderedMap κ α) (key : κ) : OrderedMap κ α :=
  m.filter fun other _ => text other ≠ text key

/-- The entries in key order. -/
def toList (m : OrderedMap κ α) : List (κ × α) := m.entries

/-- The keys in order. -/
def keys (m : OrderedMap κ α) : List κ := m.entries.map Prod.fst

/-- The values in key order. -/
def values (m : OrderedMap κ α) : List α := m.entries.map Prod.snd

/-- The number of entries. -/
def size (m : OrderedMap κ α) : Nat := m.entries.length

/-- Whether there is no entry. -/
def isEmpty (m : OrderedMap κ α) : Bool := m.entries.isEmpty

/-- The map of a list of entries, where later entries replace earlier ones. -/
def ofList (l : List (κ × α)) : OrderedMap κ α := l.foldl (fun m e => m.insert e.1 e.2) empty

/-- The same keys with their values sent through `f`. -/
def map (m : OrderedMap κ α) (f : κ → α → β) : OrderedMap κ β :=
  ⟨m.entries.map fun e => (e.1, f e.1 e.2), List.pairwise_map.2 m.sorted⟩

/-- The values sent through a function that may fail, in key order. -/
def traverse {ε : Type} (m : OrderedMap κ α) (f : κ → α → Except ε β) :
    Except ε (OrderedMap κ β) :=
  m.entries.foldlM (fun read e => do return read.insert e.1 (← f e.1 e.2)) empty

/-- The entries of two maps; `f` joins the values of keys that are in both. -/
def mergeWith (f : α → α → α) (a b : OrderedMap κ α) : OrderedMap κ α :=
  b.entries.foldl (fun m e => m.insert e.1 (((m.get? e.1).map (f · e.2)).getD e.2)) a

/-- The entries of two maps; the second decides about keys that are in both. -/
def override (a b : OrderedMap κ α) : OrderedMap κ α := mergeWith (fun _ new => new) a b

/-- Whether two maps have the same keys, and values that `same` accepts. -/
def agreesBy (same : α → β → Bool) (a : OrderedMap κ α) (b : OrderedMap κ β) : Bool :=
  a.size = b.size &&
    (a.entries.zip b.entries).all fun (x, y) => text x.1 = text y.1 && same x.2 y.2

instance [DecidableEq α] [DecidableEq κ] : DecidableEq (OrderedMap κ α) := fun a b =>
  decidable_of_iff (a.entries = b.entries) (by cases a; cases b; simp)

@[ext] theorem ext_entries {a b : OrderedMap κ α} (h : a.entries = b.entries) : a = b := by
  cases a; cases b; simpa using h

/-! ### Lookups -/

theorem lookup_eq_some_iff {key : κ} {value : α} {l : List (κ × α)}
    (h : l.Pairwise (fun a b => text a.1 < text b.1)) :
    lookup key l = some value ↔ (key, value) ∈ l := by
  induction l with
  | nil => simp [lookup]
  | cons hd rest ih =>
    obtain ⟨other, old⟩ := hd
    have hr := (List.pairwise_cons.1 h).1
    unfold lookup
    split
    · rename_i heq
      have heq' : key = other := text_inj.1 heq
      subst heq'
      simp only [Option.some.injEq, List.mem_cons, Prod.mk.injEq, true_and]
      refine ⟨fun h => .inl h.symm, fun h => h.elim Eq.symm fun hm => ?_⟩
      exact absurd (hr _ hm) (String.lt_irrefl _)
    · rename_i hne
      rw [ih h.of_cons]
      simp only [List.mem_cons, Prod.mk.injEq]
      exact ⟨.inr, fun h => h.elim (fun h => absurd (h.1 ▸ rfl) hne) id⟩

theorem get?_eq_some_iff {m : OrderedMap κ α} {key : κ} {value : α} :
    m.get? key = some value ↔ (key, value) ∈ m.entries := lookup_eq_some_iff m.sorted

theorem mem_values_iff {m : OrderedMap κ α} {value : α} :
    value ∈ m.values ↔ ∃ key, m.get? key = some value := by
  simp [values, get?_eq_some_iff]

theorem mem_keys_iff {m : OrderedMap κ α} {key : κ} : key ∈ m.keys ↔ m.contains key = true := by
  simp [keys, contains, Option.isSome_iff_exists, get?_eq_some_iff]

/-- Maps with the same lookups are equal. -/
theorem ext {a b : OrderedMap κ α} (h : ∀ key, a.get? key = b.get? key) : a = b := by
  apply ext_entries
  have hm : ∀ e, e ∈ a.entries ↔ e ∈ b.entries := fun e => by
    rw [← get?_eq_some_iff (m := a), ← get?_eq_some_iff (m := b), h]
  have nodup : ∀ m : OrderedMap κ α, m.entries.Nodup := fun m =>
    m.sorted.imp fun {x y} (hlt : text x.1 < text y.1) (heq : x = y) =>
      absurd (heq ▸ hlt) (String.lt_irrefl _)
  have perm : a.entries.Perm b.entries := by
    rw [List.perm_ext_iff_of_nodup (nodup a) (nodup b)]
    exact hm
  refine perm.eq_of_pairwise (fun x y _ _ hxy hyx => ?_) a.sorted b.sorted
  exact absurd (String.lt_trans hxy hyx) (String.lt_irrefl _)

@[simp] theorem get?_empty (key : κ) : (empty : OrderedMap κ α).get? key = none := rfl

theorem lookup_place (key other : κ) (value : α) (l : List (κ × α)) :
    lookup other (place key value l) =
      if text other = text key then some value else lookup other l := by
  induction l with
  | nil => simp [place, lookup]
  | cons hd rest ih =>
    unfold place
    split
    · rename_i heq
      simp only [lookup, heq]
      split <;> rfl
    · rename_i hne
      split
      · rfl
      · simp only [lookup, ih]
        split
        · rename_i h1
          rw [if_neg (fun h2 : text other = text key => hne (h2 ▸ h1))]
        · rfl

theorem get?_insert (m : OrderedMap κ α) (key other : κ) (value : α) :
    (m.insert key value).get? other = if text other = text key then some value else m.get? other :=
  lookup_place key other value m.entries

@[simp] theorem get?_insert_self (m : OrderedMap κ α) (key : κ) (value : α) :
    (m.insert key value).get? key = some value := by
  simp [get?_insert]

theorem get?_insert_of_ne (m : OrderedMap κ α) {key other : κ} (value : α) (h : other ≠ key) :
    (m.insert key value).get? other = m.get? other := by
  rw [get?_insert, if_neg (mt text_inj.1 h)]

theorem get?_filter (m : OrderedMap κ α) (keep : κ → α → Bool) (key : κ) :
    (m.filter keep).get? key = (m.get? key).filter (keep key) := by
  apply Option.ext
  intro value
  rw [get?_eq_some_iff, Option.filter_eq_some_iff, get?_eq_some_iff]
  simp [filter]

theorem get?_erase (m : OrderedMap κ α) (key other : κ) :
    (m.erase key).get? other = if text other = text key then none else m.get? other := by
  rw [erase, get?_filter]
  split
  · rename_i h
    cases m.get? other <;> simp [Option.filter, h]
  · rename_i h
    cases m.get? other <;> simp [Option.filter, h]

theorem get?_map (m : OrderedMap κ α) (f : κ → α → β) (key : κ) :
    (m.map f).get? key = (m.get? key).map (f key) := by
  have : ∀ l : List (κ × α), lookup key (l.map fun e => (e.1, f e.1 e.2)) =
      (lookup key l).map (f key) := fun l => by
    induction l with
    | nil => rfl
    | cons hd rest ih =>
      simp only [List.map_cons, lookup, ih]
      split
      · rename_i h
        rw [text_inj.1 h]
        rfl
      · rfl
  exact this m.entries

theorem lookup_eq_none_of_lt {key : κ} {l : List (κ × α)}
    (h : ∀ e ∈ l, text key < text e.1) : lookup key l = none := by
  induction l with
  | nil => rfl
  | cons e rest ih =>
    have hlt := h e List.mem_cons_self
    rw [lookup, if_neg fun heq => String.lt_irrefl _ (heq ▸ hlt),
      ih fun e he => h e (List.mem_cons_of_mem _ he)]

/-- Where both maps have the key, the values are joined; otherwise the one value stays. -/
theorem get?_mergeWith (f : α → α → α) (a b : OrderedMap κ α) (key : κ) :
    (mergeWith f a b).get? key = match b.get? key with
      | some new => some (((a.get? key).map (f · new)).getD new)
      | none => a.get? key := by
  have step : ∀ l : List (κ × α), l.Pairwise (fun x y => text x.1 < text y.1) →
      ∀ m : OrderedMap κ α,
        (l.foldl (fun m e => m.insert e.1 (((m.get? e.1).map (f · e.2)).getD e.2)) m).get? key =
          match lookup key l with
          | some new => some (((m.get? key).map (f · new)).getD new)
          | none => m.get? key := fun l h => by
    induction l with
    | nil => exact fun _ => rfl
    | cons e rest ih =>
      intro m
      obtain ⟨first, later⟩ := List.pairwise_cons.1 h
      rw [List.foldl_cons, ih later, get?_insert]
      by_cases hk : text key = text e.1
      · obtain rfl := text_inj.1 hk
        rw [lookup_eq_none_of_lt first]
        simp [lookup]
      · simp [lookup, hk]
  exact step b.entries b.sorted a

theorem get?_override (a b : OrderedMap κ α) (key : κ) :
    (a.override b).get? key = (b.get? key).or (a.get? key) := by
  rw [override, get?_mergeWith]
  cases b.get? key <;> cases a.get? key <;> rfl

end OrderedMap

end Patchbay
