import Patchbay.Document.Scalars
import Patchbay.Proofs.OrderedMap
import Patchbay.Proofs.Outcome

/-! Reading back what has been written: lists, maps and records whose parts decode to what they were
made from do so as a whole. A record passes over members that are none of its fields, so that its
fields can be taken one by one. -/

namespace Patchbay.Json

variable {α β κ : Type}

/-! ### Values as documents -/

namespace Source

theorem ofItems_eq_map (items : List Json) : ofItems items = items.map ofJson := by
  induction items with
  | nil => rfl
  | cons item rest ih => rw [ofItems, ih, List.map_cons]

theorem ofMembers_eq_map (members : List (String × Json)) :
    ofMembers members = members.map fun e => (string (some e.1), ofJson e.2) := by
  induction members with
  | nil => rfl
  | cons e rest ih => rw [ofMembers, ih, List.map_cons]

mutual

theorem isWellFormed_ofJson : ∀ value : Json, (ofJson value).isWellFormed
  | .null | .boolean _ | .number _ | .string _ => rfl
  | .array items => wellFormedItems_ofItems items
  | .object members => wellFormedMembers_ofMembers members

theorem wellFormedItems_ofItems : ∀ items : List Json, wellFormedItems (ofItems items)
  | [] => rfl
  | item :: rest =>
    Bool.and_eq_true_iff.2 ⟨isWellFormed_ofJson item, wellFormedItems_ofItems rest⟩

theorem wellFormedMembers_ofMembers :
    ∀ members : List (String × Json), wellFormedMembers (ofMembers members)
  | [] => rfl
  | (_, value) :: rest =>
    Bool.and_eq_true_iff.2 ⟨isWellFormed_ofJson value, wellFormedMembers_ofMembers rest⟩

end

end Source

/-! ### Lists and maps -/

section Containers

variable {d : Decoder α} {write : α → Json}

theorem decodeValue_option {value : Json} {a : α} (h : decodeValue d value = .ok a)
    (hnull : value ≠ .null) : decodeValue d.option value = .ok (some a) := by
  have hmap : decodeValue d.option value = (decodeValue d value).map some := by
    cases value with
    | null => exact absurd rfl hnull
    | _ => rfl
  rw [hmap, h]
  rfl

theorem decodeValue_list {l : List α} (h : ∀ a ∈ l, decodeValue d (write a) = .ok a) :
    decodeValue d.list (.array (l.map write)) = .ok l := by
  show (Source.ofItems (l.map write)).mapM (d .value) = .ok l
  rw [Source.ofItems_eq_map, Outcome.mapM_eq_ok_iff, List.map_map, List.forall₂_map_left_iff,
    List.forall₂_same]
  exact h

/-- Entries are stored as they come. -/
theorem decodeValue_map [TextKey κ] [DecidableEq κ] {key : String → Except String κ}
    {m : OrderedMap κ α} (hkey : ∀ k : κ, key (text k) = .ok k)
    (h : ∀ k a, m.get? k = some a → decodeValue d (write a) = .ok a) :
    decodeValue (Decoder.map key d) (Json.ofMap write m) = .ok m := by
  have hmembers := Source.ofMembers_eq_map (m.toList.map fun e => (text e.1, write e.2))
  rw [List.map_map] at hmembers
  refine Outcome.bind_eq_ok.2 ⟨.value, rfl, ?_⟩
  refine (congrArg (List.foldlM _ _) hmembers).trans ?_
  rw [Outcome.foldlM_map_eq_ok (g := fun m e => m.insert e.1 e.2)]
  · exact congrArg _ (OrderedMap.ofList_toList m)
  · intro read e he
    show ((key (text e.1)).mapError DecodeError.refused >>= _) = _
    rw [hkey]
    have hvalue := h e.1 e.2 (OrderedMap.mem_toList_iff.1 he)
    exact Outcome.bind_eq_ok.2 ⟨e.1, rfl, Outcome.bind_eq_ok.2 ⟨e.2, hvalue, rfl⟩⟩

end Containers

/-! ### Records -/

namespace Record

variable {f : Record (α → β)} {r : Record α} {members : List (String × Json)} {g : α → β} {a : α}

/-- Whether members with the name are offered to a field. -/
def Takes (r : Record α) (name : String) : Prop :=
  ∃ state origin source, r.offer state name origin source ≠ none

/-- The record reads `a` from an object with the members, passing over some of them. -/
def Reads (r : Record α) (members : List (String × Json)) (a : α) : Prop :=
  ∃ state, (Source.ofMembers members).foldlM (r.step .value) r.start = .ok state ∧
    r.finish state = .ok a

theorem decodeValue_of_reads (h : r.Reads members a) :
    decodeValue r.decoder (.object members) = .ok a := by
  obtain ⟨state, hstate, hfinish⟩ := h
  exact Outcome.bind_eq_ok.2 ⟨.value, rfl, Outcome.bind_eq_ok.2 ⟨state, hstate, hfinish⟩⟩

section Step

variable {name : String} {value : Json} {s : f.State} {t : r.State} {origin : Origin}
  {source : Source}

theorem offer_seq_of_some {result : Except DecodeError f.State}
    (h : f.offer s name origin source = some result) :
    (f.seq r).offer (s, t) name origin source = some (result.map (·, t)) := by
  simp only [seq, h]

theorem offer_seq_of_none (h : f.offer s name origin source = none) :
    (f.seq r).offer (s, t) name origin source =
      (r.offer t name origin source).map fun result => result.map (s, ·) := by
  simp only [seq, h]

theorem step_of_offer_eq_some {state : r.State} {result : Except DecodeError r.State}
    (h : r.offer state name .value (.ofJson value) = some result) :
    r.step .value state (.string (some name), .ofJson value) = result := by
  refine (Outcome.ok_bind _ _).trans ?_
  simp only [h]

theorem step_of_offer_eq_none {state : r.State}
    (h : r.offer state name .value (.ofJson value) = none) :
    r.step .value state (.string (some name), .ofJson value) = .ok state := by
  refine (Outcome.ok_bind _ _).trans ?_
  simp only [h, Source.skip, Source.isWellFormed_ofJson, if_true]
  rfl

theorem step_seq (hapart : ∀ name, f.Takes name → ¬ r.Takes name) {s s' : f.State}
    {t t' : r.State} (hf : f.step .value s (.string (some name), .ofJson value) = .ok s')
    (hr : r.step .value t (.string (some name), .ofJson value) = .ok t') :
    (f.seq r).step .value (s, t) (.string (some name), .ofJson value) = .ok (s', t') := by
  cases hfirst : f.offer s name .value (.ofJson value) with
  | some result =>
    -- what `f` takes never gets to `r`, which would have passed over it
    have htakes : f.Takes name := ⟨s, .value, .ofJson value, by simp [hfirst]⟩
    have hpassed : r.offer t name .value (.ofJson value) = none := by
      by_contra hne
      exact hapart name htakes ⟨t, .value, .ofJson value, hne⟩
    rw [step_of_offer_eq_some hfirst] at hf
    rw [step_of_offer_eq_none hpassed] at hr
    cases hr
    rw [step_of_offer_eq_some (offer_seq_of_some hfirst), hf]
    rfl
  | none =>
    rw [step_of_offer_eq_none hfirst] at hf
    cases hf
    cases hsecond : r.offer t name .value (.ofJson value) with
    | some result =>
      rw [step_of_offer_eq_some hsecond] at hr
      have hoffer : (f.seq r).offer (s, t) name .value (.ofJson value) =
          some (result.map (s, ·)) := by
        rw [offer_seq_of_none hfirst, hsecond]
        rfl
      rw [step_of_offer_eq_some hoffer, hr]
      rfl
    | none =>
      rw [step_of_offer_eq_none hsecond] at hr
      cases hr
      apply step_of_offer_eq_none
      rw [offer_seq_of_none hfirst, hsecond]
      rfl

end Step

theorem reads_pure (a : α) : (pure a).Reads members a := by
  refine ⟨(), ?_, rfl⟩
  induction members with
  | nil => rfl
  | cons e rest ih => exact Outcome.foldlM_cons_eq_ok.2 ⟨(), step_of_offer_eq_none rfl, ih⟩

/-- Two records with fields of different names read the same object, each its own fields. -/
theorem Reads.seq (hf : f.Reads members g) (hr : r.Reads members a)
    (hapart : ∀ name, f.Takes name → ¬ r.Takes name) : (f.seq r).Reads members (g a) := by
  obtain ⟨s, hs, hg⟩ := hf
  obtain ⟨t, ht, ha⟩ := hr
  refine ⟨(s, t), ?_, Outcome.bind_eq_ok.2 ⟨g, hg, Outcome.bind_eq_ok.2 ⟨a, ha, rfl⟩⟩⟩
  -- `hf` and `hr` start where records start, but the runs are over what is left of the members
  have hfold : ∀ (members : List (String × Json)) (s' : f.State) (t' : r.State),
      (Source.ofMembers members).foldlM (f.step .value) s' = .ok s →
      (Source.ofMembers members).foldlM (r.step .value) t' = .ok t →
      (Source.ofMembers members).foldlM ((f.seq r).step .value) (s', t') = .ok (s, t) := by
    intro members
    induction members with
    | nil =>
      intro s' t' hs ht
      cases hs
      cases ht
      rfl
    | cons e rest ih =>
      intro s' t' hs ht
      obtain ⟨s₁, hs₁, hs⟩ := Outcome.foldlM_cons_eq_ok.1 hs
      obtain ⟨t₁, ht₁, ht⟩ := Outcome.foldlM_cons_eq_ok.1 ht
      exact Outcome.foldlM_cons_eq_ok.2 ⟨(s₁, t₁), step_seq hapart hs₁ ht₁, ih s₁ t₁ hs ht⟩
  exact hfold members f.start r.start hs ht

/-! ### Fields -/

section Field

variable {name : String} {d : Decoder α} {default? : Option α}

theorem foldlM_field_of_notMem (h : name ∉ members.map Prod.fst) (state : Option α) :
    (Source.ofMembers members).foldlM ((field name d default?).step .value) state =
      .ok state := by
  induction members with
  | nil => rfl
  | cons e rest ih =>
    rw [List.map_cons, List.mem_cons, not_or] at h
    refine Outcome.foldlM_cons_eq_ok.2 ⟨state, step_of_offer_eq_none ?_, ih h.2⟩
    exact if_neg (Ne.symm h.1)

theorem reads_field {value : Json} (hnodup : (members.map Prod.fst).Nodup)
    (hmem : (name, value) ∈ members) (hd : decodeValue d value = .ok a) :
    (field name d default?).Reads members a := by
  obtain ⟨before, after, rfl⟩ := List.append_of_mem hmem
  rw [List.map_append, List.map_cons, List.nodup_middle, List.nodup_cons, List.mem_append,
    not_or] at hnodup
  refine ⟨some a, ?_, rfl⟩
  rw [Source.ofMembers_eq_map, List.map_append, ← Source.ofMembers_eq_map, List.foldlM_append]
  have hstep : (field name d default?).step .value none (.string (some name), .ofJson value) =
      .ok (some a) := by
    refine (step_of_offer_eq_some (if_pos rfl)).trans ?_
    show (decodeValue d value).map some = _
    rw [hd]
    rfl
  refine Outcome.bind_eq_ok.2 ⟨none, foldlM_field_of_notMem hnodup.1.1 none, ?_⟩
  exact Outcome.foldlM_cons_eq_ok.2 ⟨some a, hstep, by
    rw [← Source.ofMembers_eq_map]; exact foldlM_field_of_notMem hnodup.1.2 (some a)⟩

theorem reads_field_default (h : name ∉ members.map Prod.fst) :
    (field name d (some a)).Reads members a :=
  ⟨none, foldlM_field_of_notMem h none, rfl⟩

end Field

/-! ### The names of fields -/

@[simp] theorem not_takes_pure (a : α) (name : String) : ¬ (pure a).Takes name :=
  fun ⟨_, _, _, h⟩ => h rfl

@[simp] theorem takes_field_iff {d : Decoder α} {default? : Option α} {name other : String} :
    (field name d default?).Takes other ↔ other = name := by
  constructor
  · rintro ⟨state, origin, source, h⟩
    by_contra hne
    exact h (if_neg hne)
  · rintro rfl
    exact ⟨none, .value, .null, fun h => nomatch (if_pos rfl).symm.trans h⟩

@[simp] theorem takes_seq_iff {name : String} :
    (f.seq r).Takes name ↔ f.Takes name ∨ r.Takes name := by
  constructor
  · rintro ⟨⟨s, t⟩, origin, source, h⟩
    cases hf : f.offer s name origin source with
    | some result => exact .inl ⟨s, origin, source, by simp [hf]⟩
    | none =>
      exact .inr ⟨t, origin, source, fun hr => h (by rw [offer_seq_of_none hf, hr]; rfl)⟩
  · rintro (⟨s, origin, source, h⟩ | ⟨t, origin, source, h⟩)
    · refine ⟨(s, r.start), origin, source, ?_⟩
      obtain ⟨result, hresult⟩ := Option.ne_none_iff_exists'.1 h
      rw [offer_seq_of_some hresult]
      exact Option.some_ne_none _
    · refine ⟨(f.start, t), origin, source, ?_⟩
      cases hf : f.offer f.start name origin source with
      | some result =>
        rw [offer_seq_of_some hf]
        exact Option.some_ne_none _
      | none =>
        rw [offer_seq_of_none hf]
        exact fun hnone => h (Option.map_eq_none_iff.1 hnone)

/-! ### Members that may be absent -/

section Present

variable {written : List (String × Option Json)}

/-- The members that are there. -/
def given (written : List (String × Option Json)) : List (String × Json) :=
  written.filterMap fun (name, value?) => value?.map (name, ·)

theorem mem_given_iff {name : String} {value : Json} :
    (name, value) ∈ given written ↔ (name, some value) ∈ written := by
  simp only [given, List.mem_filterMap, Option.map_eq_some_iff, Prod.mk.injEq]
  constructor
  · rintro ⟨⟨_, _⟩, hmem, _, rfl, rfl, rfl⟩
    exact hmem
  · exact fun hmem => ⟨(name, some value), hmem, value, rfl, rfl, rfl⟩

theorem nodup_given (h : (written.map Prod.fst).Nodup) : ((given written).map Prod.fst).Nodup := by
  induction written with
  | nil => exact List.nodup_nil
  | cons e rest ih =>
    obtain ⟨name, value?⟩ := e
    obtain ⟨hnew, hrest⟩ := List.nodup_cons.1 h
    cases value? with
    | none => exact ih hrest
    | some value =>
      refine List.nodup_cons.2 ⟨fun hmem => hnew ?_, ih hrest⟩
      obtain ⟨⟨_, other⟩, hother, rfl⟩ := List.mem_map.1 hmem
      exact List.mem_map.2 ⟨_, mem_given_iff.1 hother, rfl⟩

/-- What a field gets from an object: the value of its member, or its default. -/
inductive Obtains (written : List (String × Option Json)) (name : String) (d : Decoder α)
    (default? : Option α) (a : α) : Prop
  | present {value : Json} : (name, some value) ∈ written → decodeValue d value = .ok a →
      Obtains written name d default? a
  | absent : (name, none) ∈ written → default? = some a → Obtains written name d default? a

theorem obtains_optional {name : String} {d : Decoder α} {write : α → Json} {a? : Option α}
    (hmem : (name, a?.map write) ∈ written)
    (h : ∀ a, a? = some a → decodeValue d (write a) = .ok a ∧ write a ≠ .null) :
    Obtains written name d.option (some none) a? := by
  cases a? with
  | none => exact .absent hmem rfl
  | some a => exact .present hmem (decodeValue_option (h a rfl).1 (h a rfl).2)

theorem reads_of_obtains {name : String} {d : Decoder α} {default? : Option α}
    (hnodup : (written.map Prod.fst).Nodup) (h : Obtains written name d default? a) :
    (field name d default?).Reads (given written) a := by
  cases h with
  | present hmem hd => exact reads_field (nodup_given hnodup) (mem_given_iff.2 hmem) hd
  | absent hmem hdefault =>
    subst hdefault
    refine reads_field_default fun hgiven => ?_
    obtain ⟨⟨_, value⟩, hvalue, rfl⟩ := List.mem_map.1 hgiven
    exact nomatch List.inj_on_of_nodup_map hnodup hmem (mem_given_iff.1 hvalue) rfl

/-- One more field. -/
theorem Reads.field {name : String} {d : Decoder α} {default? : Option α}
    (hf : f.Reads (given written) g) (hnodup : (written.map Prod.fst).Nodup)
    (hnew : ¬ f.Takes name) (h : Obtains written name d default? a) :
    (f.seq (field name d default?)).Reads (given written) (g a) := by
  refine hf.seq (reads_of_obtains hnodup h) fun other hother htakes => ?_
  rw [takes_field_iff.1 htakes] at hother
  exact hnew hother

end Present

end Record

end Patchbay.Json
