import Patchbay.Proofs.Json.Representable

/-! The numbers in the text of a document have 64 bits: integers are gathered digit by digit as long
as they fit, and a real number that is not finite is refused. -/

namespace Patchbay.Json

/-! ### Numbers -/

theorem Spelling.gather_lt {n : Nat} {digits : List Nat} (h : n < 2 ^ 64) :
    (gather n digits).1 < 2 ^ 64 := by
  induction digits generalizing n with
  | nil => exact h
  | cons d rest ih =>
    unfold gather
    split
    · rename_i hfits
      exact ih hfits
    · exact h

theorem Spelling.isRepresentable_of_numeral? {s : Spelling} {n : Numeral}
    (h : s.numeral? = some n) : n.isRepresentable := by
  have hgathered : (gather 0 s.whole).1 < 2 ^ 64 := gather_lt (by decide)
  unfold numeral? at h
  generalize gather 0 s.whole = gathered at h hgathered
  obtain ⟨significand, dropped⟩ := gathered
  simp only at h hgathered
  split at h
  · split at h
    · cases h
      simp only [Numeral.isRepresentable, Bool.and_eq_true, decide_eq_true_eq]
      omega
    · split at h
      · cases h
        have hfinite : (Number.ofInt significand).isFinite :=
          Number.isFinite_ofInt (by omega) (by omega)
        rw [Numeral.isRepresentable, Number.isFinite_neg]
        exact hfinite
      · rename_i hsmall
        cases h
        simp only [Number.signBit] at hsmall
        simp only [Numeral.isRepresentable, Bool.and_eq_true, decide_eq_true_eq]
        omega
  · obtain ⟨x, hx, rfl⟩ := Option.map_eq_some_iff.1 h
    have hfinite := (Option.filter_eq_some_iff.1 hx).2
    rw [Numeral.isRepresentable]
    split
    · rwa [Number.isFinite_neg]
    · exact hfinite

/-! ### Documents -/

namespace Source

theorem isRepresentable_array {items : List Source} :
    (array items).isRepresentable ↔ ∀ item ∈ items, item.isRepresentable := representableItems_iff

theorem isRepresentable_object {members : List (Source × Source)} :
    (object members).isRepresentable ↔ ∀ e ∈ members, e.2.isRepresentable :=
  representableMembers_iff

/-- What the readers give has representable numbers if what was read before has. -/
structure ReadsRepresentable (fuel : Nat) : Prop where
  value : ∀ cs, (readValue fuel cs).1.isRepresentable
  items : ∀ read cs, (∀ item ∈ read, item.isRepresentable) →
    (readItems fuel read cs).1.isRepresentable
  members : ∀ read cs, (∀ e ∈ read, e.2.isRepresentable) →
    (readMembers fuel read cs).1.isRepresentable

namespace ReadsRepresentable

variable {fuel : Nat} (h : ReadsRepresentable fuel) (cs : List Char)
include h

theorem value_succ : (readValue (fuel + 1) cs).1.isRepresentable := by
  unfold readValue
  split
  · rfl
  · rfl
  · rfl
  · split <;> rfl
  · split
    · rfl
    · exact h.items [] _ nofun
  · split
    · rfl
    · exact h.members [] _ nofun
  · split
    · rename_i s rest _
      cases hnumeral : s.numeral? with
      | none => rfl
      | some n => exact Spelling.isRepresentable_of_numeral? hnumeral
    · rfl

theorem items_succ {read : List Source} (hread : ∀ item ∈ read, item.isRepresentable) :
    (readItems (fuel + 1) read cs).1.isRepresentable := by
  have hitem := h.value cs
  unfold readItems
  generalize readValue fuel cs = result at hitem
  obtain ⟨item, rest⟩ := result
  have hall : ∀ e ∈ item :: read, e.isRepresentable := List.forall_mem_cons.2 ⟨hitem, hread⟩
  simp only
  split
  · exact isRepresentable_array.2 fun e he => hall e (List.mem_reverse.1 he)
  · exact h.items _ _ hall
  · have hfault : ∀ e ∈ fault :: item :: read, e.isRepresentable :=
      List.forall_mem_cons.2 ⟨rfl, hall⟩
    exact isRepresentable_array.2 fun e he => hfault e (List.mem_reverse.1 he)

theorem members_succ {read : List (Source × Source)} (hread : ∀ e ∈ read, e.2.isRepresentable) :
    (readMembers (fuel + 1) read cs).1.isRepresentable := by
  have hclose : ∀ {last : List (Source × Source)}, (∀ e ∈ last, e.2.isRepresentable) →
      (object last.reverse).isRepresentable :=
    fun hlast => isRepresentable_object.2 fun e he => hlast e (List.mem_reverse.1 he)
  unfold readMembers
  split
  · split
    · rename_i rest _
      have hmember := h.value rest
      generalize readValue fuel rest = result at hmember
      obtain ⟨value, rest⟩ := result
      have hall : ∀ {name : Source}, ∀ e ∈ (name, value) :: read, e.2.isRepresentable :=
        List.forall_mem_cons.2 ⟨hmember, hread⟩
      simp only
      split
      · exact hclose hall
      · exact h.members _ _ hall
      · exact hclose (List.forall_mem_cons.2 ⟨rfl, hall⟩)
    · exact hclose (List.forall_mem_cons.2 ⟨rfl, hread⟩)
  · exact hclose (List.forall_mem_cons.2 ⟨rfl, hread⟩)

end ReadsRepresentable

theorem readsRepresentable (fuel : Nat) : ReadsRepresentable fuel := by
  induction fuel with
  | zero => exact ⟨fun _ => rfl, fun _ _ _ => rfl, fun _ _ _ => rfl⟩
  | succ fuel ih =>
    exact ⟨ih.value_succ, fun _ cs hread => ih.items_succ cs hread,
      fun _ cs hread => ih.members_succ cs hread⟩

theorem isRepresentable_ofText (s : String) : (ofText s).1.isRepresentable := by
  have hvalue := (readsRepresentable (2 * s.length + 2)).value s.toList
  unfold ofText
  generalize readValue (2 * s.length + 2) s.toList = result at hvalue
  exact hvalue

end Source

/-- What is decoded from a text is decoded from a document with representable numbers. -/
theorem exists_source_of_decodeText {α : Type} {d : Decoder α} {s : String} {a : α}
    (h : decodeText d s = .ok a) :
    ∃ source, source.isRepresentable ∧ d .fresh source = .ok a := by
  have hsource := Source.isRepresentable_ofText s
  unfold decodeText at h
  generalize Source.ofText s = read at h hsource
  obtain ⟨source, trailing⟩ := read
  obtain ⟨decoded, hdecoded, hend⟩ := Outcome.bind_eq_ok.1 h
  cases trailing with
  | true => exact nomatch hend
  | false =>
    cases hend
    exact ⟨source, hsource, hdecoded⟩

end Patchbay.Json
