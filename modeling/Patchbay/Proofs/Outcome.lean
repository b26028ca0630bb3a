import Mathlib.Data.List.Forall2

/-! Computations that may fail: what is known of the parts of one that succeeded, and what a
succeeding fold keeps. -/

namespace Patchbay.Outcome

variable {ε δ α β : Type}

theorem bind_eq_ok {x : Except ε α} {f : α → Except ε β} {b : β} :
    x >>= f = .ok b ↔ ∃ a, x = .ok a ∧ f a = .ok b := by
  cases x with
  | error e => exact ⟨nofun, fun ⟨a, h, _⟩ => nomatch h⟩
  | ok a => exact ⟨fun h => ⟨a, rfl, h⟩, fun ⟨_, h, h'⟩ => by cases h; exact h'⟩

theorem ok_bind (a : α) (f : α → Except ε β) : Except.ok a >>= f = f a := rfl

theorem bind_eq_error {x : Except ε α} {f : α → Except ε β} {e : ε} :
    x >>= f = .error e ↔ x = .error e ∨ ∃ a, x = .ok a ∧ f a = .error e := by
  cases x with
  | error d =>
    refine ⟨fun h => .inl (by cases h; rfl), fun h => ?_⟩
    rcases h with h | ⟨_, h, _⟩
    · cases h
      rfl
    · exact nomatch h
  | ok a =>
    refine ⟨fun h => .inr ⟨a, rfl, h⟩, fun h => ?_⟩
    rcases h with h | ⟨_, h, h'⟩
    · exact nomatch h
    · cases h
      exact h'

theorem map_eq_ok {x : Except ε α} {f : α → β} {b : β} :
    x.map f = .ok b ↔ ∃ a, x = .ok a ∧ f a = b := by
  cases x with
  | error e => exact ⟨nofun, fun ⟨_, h, _⟩ => nomatch h⟩
  | ok a => exact ⟨fun h => ⟨a, rfl, Except.ok.inj h⟩, fun ⟨_, h, hb⟩ => by cases h; rw [← hb]; rfl⟩

theorem pure_eq_ok {a b : α} : (pure a : Except ε α) = .ok b ↔ a = b :=
  ⟨Except.ok.inj, congrArg _⟩

theorem ite_error_eq_ok {c : Bool} {e : ε} {x : Except ε α} {a : α} :
    (if c then .error e else x) = .ok a ↔ c = false ∧ x = .ok a := by
  cases c with
  | true => exact ⟨nofun, fun h => nomatch h.1⟩
  | false => exact ⟨fun h => ⟨rfl, h⟩, And.right⟩

theorem toOption_eq_some_iff {x : Except ε α} {a : α} : x.toOption = some a ↔ x = .ok a := by
  cases x <;> simp [Except.toOption]

theorem exists_of_toOption_bind {x : Except ε α} {f : α → Option β} {b : β}
    (h : x.toOption.bind f = some b) : ∃ a, x = .ok a ∧ f a = some b := by
  cases x with
  | error e => exact nomatch h
  | ok a => exact ⟨a, rfl, h⟩

/-- Another error text does not make a computation succeed or fail. -/
@[simp] theorem ok_of_mapError {x : Except ε α} {reword : ε → δ} {result : α} :
    x.mapError reword = .ok result ↔ x = .ok result := by
  rcases x with e | a
  · exact ⟨nofun, nofun⟩
  · simp [Except.mapError]

theorem error_of_mapError {x : Except ε α} {reword : ε → δ} {d : δ} :
    x.mapError reword = .error d ↔ ∃ e, x = .error e ∧ reword e = d := by
  rcases x with e | a
  · simp [Except.mapError]
  · exact ⟨nofun, nofun⟩

theorem foldlM_cons_eq_ok {f : β → α → Except ε β} {a : α} {l : List α} {b c : β} :
    (a :: l).foldlM f b = .ok c ↔ ∃ b', f b a = .ok b' ∧ l.foldlM f b' = .ok c := by
  rw [List.foldlM_cons]
  exact bind_eq_ok

theorem foldlM_pure_eq_ok {f : β → α → β} {l : List α} {b : β} :
    l.foldlM (fun b a => pure (f b a)) b = (.ok (l.foldl f b) : Except ε β) :=
  List.foldlM_pure

/-- A fold whose steps all succeed, through a list that has been made of another. -/
theorem foldlM_map_eq_ok {γ : Type} {f : β → γ → Except ε β} {g : β → α → β} {make : α → γ}
    {l : List α} {b : β} (h : ∀ b, ∀ a ∈ l, f b (make a) = .ok (g b a)) :
    (l.map make).foldlM f b = .ok (l.foldl g b) := by
  induction l generalizing b with
  | nil => rfl
  | cons a l ih =>
    have hrest : ∀ b, ∀ a ∈ l, f b (make a) = .ok (g b a) :=
      fun b a ha => h b a (List.mem_cons_of_mem _ ha)
    exact foldlM_cons_eq_ok.2 ⟨g b a, h b a List.mem_cons_self, ih hrest⟩

/-- What every step of a fold keeps, the fold keeps. -/
theorem foldlM_keeps {f : β → α → Except ε β} {P : β → Prop} {l : List α} {b c : β}
    (step : ∀ b, ∀ a ∈ l, ∀ c, P b → f b a = .ok c → P c) (hb : P b)
    (h : l.foldlM f b = .ok c) : P c := by
  induction l generalizing b with
  | nil =>
    cases h
    exact hb
  | cons a l ih =>
    obtain ⟨b', hstep, hrest⟩ := foldlM_cons_eq_ok.1 h
    exact ih (fun b a ha => step b a (List.mem_cons_of_mem _ ha))
      (step b a List.mem_cons_self b' hb hstep) hrest

/-- A fold whose succeeding steps give what `g` gives. -/
theorem eq_foldl_of_foldlM {f : β → α → Except ε β} {g : β → α → β}
    (step : ∀ b a c, f b a = .ok c → c = g b a) {l : List α} {b c : β}
    (h : l.foldlM f b = .ok c) : c = l.foldl g b := by
  induction l generalizing b with
  | nil =>
    cases h
    rfl
  | cons a l ih =>
    obtain ⟨next, hnext, hrest⟩ := foldlM_cons_eq_ok.1 h
    rw [List.foldl_cons, ← step b a next hnext]
    exact ih hrest

/-- A fold succeeds if what is known of the items that are left lets the next step succeed. -/
theorem exists_foldlM_eq_ok {f : β → α → Except ε β} {I : List α → β → Prop}
    (step : ∀ a l b, I (a :: l) b → ∃ c, f b a = .ok c ∧ I l c) {l : List α} {b : β} (hb : I l b) :
    ∃ c, l.foldlM f b = .ok c := by
  induction l generalizing b with
  | nil => exact ⟨b, rfl⟩
  | cons a l ih =>
    obtain ⟨next, hnext, hkept⟩ := step a l b hb
    obtain ⟨c, hc⟩ := ih hkept
    exact ⟨c, foldlM_cons_eq_ok.2 ⟨next, hnext, hc⟩⟩

theorem exists_step_of_foldlM_eq_error {f : β → α → Except ε β} {l : List α} {b : β} {e : ε}
    (h : l.foldlM f b = .error e) : ∃ b' a, a ∈ l ∧ f b' a = .error e := by
  induction l generalizing b with
  | nil => exact nomatch h
  | cons a l ih =>
    rw [List.foldlM_cons, bind_eq_error] at h
    rcases h with hstep | ⟨b', _, h⟩
    · exact ⟨b, a, List.mem_cons_self, hstep⟩
    · obtain ⟨c, a', ha', hfail⟩ := ih h
      exact ⟨c, a', List.mem_cons_of_mem _ ha', hfail⟩

theorem foldlM_mapError_eq_ok {f : β → α → Except ε β} {reword : ε → δ} {l : List α} {b c : β} :
    l.foldlM (fun b a => (f b a).mapError reword) b = .ok c ↔ l.foldlM f b = .ok c := by
  induction l generalizing b with
  | nil => simp [pure_eq_ok]
  | cons a l ih => simp only [foldlM_cons_eq_ok, ok_of_mapError, ih]

/-- A list is sent through a function that may fail item by item. -/
theorem mapM_eq_ok_iff {f : α → Except ε β} {l : List α} {bs : List β} :
    l.mapM f = .ok bs ↔ List.Forall₂ (fun a b => f a = .ok b) l bs := by
  induction l generalizing bs with
  | nil =>
    rw [List.mapM_nil, pure_eq_ok, List.forall₂_nil_left_iff]
    exact eq_comm
  | cons a l ih =>
    rw [List.mapM_cons, bind_eq_ok, List.forall₂_cons_left_iff]
    simp only [bind_eq_ok, pure_eq_ok, ih]
    constructor
    · rintro ⟨b, hb, bs', hbs, rfl⟩
      exact ⟨b, bs', hb, hbs, rfl⟩
    · rintro ⟨b, bs', hb, hbs, rfl⟩
      exact ⟨b, hb, bs', hbs, rfl⟩

/-- A list on which a function never fails can be sent through it. -/
theorem exists_mapM_eq_ok {f : α → Except ε β} {l : List α} (h : ∀ a ∈ l, ∃ b, f a = .ok b) :
    ∃ bs, l.mapM f = .ok bs := by
  induction l with
  | nil => exact ⟨[], rfl⟩
  | cons a l ih =>
    obtain ⟨b, hb⟩ := h a List.mem_cons_self
    obtain ⟨bs, hbs⟩ := ih fun a ha => h a (List.mem_cons_of_mem _ ha)
    exact ⟨b :: bs, mapM_eq_ok_iff.2 (.cons hb (mapM_eq_ok_iff.1 hbs))⟩

/-- A fold that makes an item of its own in every step can make all of them first. -/
theorem foldlM_bind_eq_ok {γ : Type} {make : α → Except ε γ} {f : β → γ → Except ε β} {l : List α}
    {b c : β} :
    l.foldlM (fun b a => make a >>= f b) b = .ok c ↔
      ∃ made, l.mapM make = .ok made ∧ made.foldlM f b = .ok c := by
  induction l generalizing b with
  | nil => simp [pure_eq_ok]
  | cons a l ih =>
    simp only [foldlM_cons_eq_ok, bind_eq_ok, ih, List.mapM_cons, pure_eq_ok]
    constructor
    · rintro ⟨next, ⟨item, hitem, hnext⟩, made, hmade, hfold⟩
      exact ⟨item :: made, ⟨item, hitem, made, hmade, rfl⟩,
        foldlM_cons_eq_ok.2 ⟨next, hnext, hfold⟩⟩
    · rintro ⟨_, ⟨item, hitem, made, hmade, rfl⟩, hfold⟩
      obtain ⟨next, hnext, hrest⟩ := foldlM_cons_eq_ok.1 hfold
      exact ⟨next, ⟨item, hitem, hnext⟩, made, hmade, hrest⟩

section Mapped

variable {f : α → Except ε β} {l : List α} {bs : List β} (h : l.mapM f = .ok bs)
include h

theorem exists_source {b : β} (hb : b ∈ bs) : ∃ a ∈ l, f a = .ok b := by
  have hall := mapM_eq_ok_iff.1 h
  clear h
  induction hall with
  | nil => exact nomatch hb
  | cons hstep _ ih =>
    rcases List.mem_cons.1 hb with rfl | hb
    · exact ⟨_, List.mem_cons_self, hstep⟩
    · obtain ⟨a, ha, hfa⟩ := ih hb
      exact ⟨a, List.mem_cons_of_mem _ ha, hfa⟩

theorem exists_image {a : α} (ha : a ∈ l) : ∃ b ∈ bs, f a = .ok b := by
  have hall := mapM_eq_ok_iff.1 h
  clear h
  induction hall with
  | nil => exact nomatch ha
  | cons hstep _ ih =>
    rcases List.mem_cons.1 ha with rfl | ha
    · exact ⟨_, List.mem_cons_self, hstep⟩
    · obtain ⟨b, hb, hfa⟩ := ih ha
      exact ⟨b, List.mem_cons_of_mem _ hb, hfa⟩

/-- Items stand in a relation if what they were made of does. -/
theorem pairwise_of_mapM {R : α → α → Prop} {S : β → β → Prop} (hl : l.Pairwise R)
    (hmade : ∀ a ∈ l, ∀ a' ∈ l, ∀ b b', f a = .ok b → f a' = .ok b' → R a a' → S b b') :
    bs.Pairwise S := by
  induction l generalizing bs with
  | nil =>
    cases h
    exact .nil
  | cons a l ih =>
    obtain ⟨b, bs, hb, hbs, rfl⟩ := List.forall₂_cons_left_iff.1 (mapM_eq_ok_iff.1 h)
    have hbs := mapM_eq_ok_iff.2 hbs
    obtain ⟨hfirst, hlater⟩ := List.pairwise_cons.1 hl
    refine List.pairwise_cons.2 ⟨fun b' hb' => ?_, ih hbs hlater fun a ha a' ha' =>
      hmade a (List.mem_cons_of_mem _ ha) a' (List.mem_cons_of_mem _ ha')⟩
    obtain ⟨a', ha', hfa'⟩ := exists_source hbs hb'
    exact hmade a List.mem_cons_self a' (List.mem_cons_of_mem _ ha') b b' hb hfa' (hfirst a' ha')

theorem map_eq_of_mapM {γ : Type} {g : β → γ} {k : α → γ}
    (hname : ∀ a ∈ l, ∀ b, f a = .ok b → g b = k a) : bs.map g = l.map k := by
  have hall := mapM_eq_ok_iff.1 h
  clear h
  induction hall with
  | nil => rfl
  | cons hstep _ ih =>
    rw [List.map_cons, List.map_cons, hname _ List.mem_cons_self _ hstep,
      ih fun a ha => hname a (List.mem_cons_of_mem _ ha)]

end Mapped

/-! ### The error of a computation -/

/-- The error of a computation that fails. -/
def failure? : Except ε α → Option ε
  | .error e => some e
  | .ok _ => none

@[simp] theorem failure?_error (e : ε) : failure? (.error e : Except ε α) = some e := rfl

@[simp] theorem failure?_pure (a : α) : failure? (pure a : Except ε α) = none := rfl

theorem failure?_eq_some_iff {x : Except ε α} {e : ε} : failure? x = some e ↔ x = .error e := by
  cases x <;> simp [failure?]

theorem failure?_eq_none_iff {x : Except ε α} : failure? x = none ↔ ∃ a, x = .ok a := by
  cases x <;> simp [failure?]

theorem failure?_bind_pure {x : Except ε α} {f : α → β} :
    failure? (x >>= fun a => pure (f a)) = failure? x := by
  cases x <;> rfl

/-- The items of a list are tried in order, and the first that fails is told. -/
theorem failure?_mapM {f : α → Except ε β} {l : List α} {fault? : α → Option ε}
    (h : ∀ a ∈ l, failure? (f a) = fault? a) : failure? (l.mapM f) = l.findSome? fault? := by
  induction l with
  | nil => rfl
  | cons a l ih =>
    have ih := ih fun a ha => h a (List.mem_cons_of_mem _ ha)
    rw [List.mapM_cons, List.findSome?_cons, ← h a List.mem_cons_self]
    cases f a with
    | error e => rfl
    | ok b =>
      rw [ok_bind, failure?_bind_pure, ih]
      rfl

end Patchbay.Outcome
