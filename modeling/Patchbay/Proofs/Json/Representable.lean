import Patchbay.Proofs.Json.ReadBack
import Patchbay.Proofs.Numbers

/-! Documents whose numbers have 64 bits, and what decoders make of them: a property that holds of
all that the decoder of a part gives is carried through lists, maps and records. -/

namespace Patchbay

/-! ### Rounding integers -/

namespace Number

theorem significandOf_le (n : Nat) : significandOf n ≤ 2 ^ 53 := by
  have hn : n < 2 ^ (n.log2 + 1) := Nat.lt_log2_self
  unfold significandOf
  split
  · rename_i h
    have hscaled : n * 2 ^ (52 - n.log2) ≤ 2 ^ (n.log2 + 1) * 2 ^ (52 - n.log2) :=
      Nat.mul_le_mul_right _ (Nat.le_of_lt hn)
    rw [← Nat.pow_add, show n.log2 + 1 + (52 - n.log2) = 53 by omega] at hscaled
    rwa [Nat.shiftLeft_eq]
  · rename_i h
    have hquotient : n >>> (n.log2 - 52) < 2 ^ 53 := by
      rw [Nat.shiftRight_eq_div_pow, Nat.div_lt_iff_lt_mul (Nat.two_pow_pos _), ← Nat.pow_add,
        show 53 + (n.log2 - 52) = n.log2 + 1 by omega]
      exact hn
    unfold roundShift
    extract_lets quotient twice
    split <;> omega

theorem isFinite_neg (x : Number) : x.neg.isFinite = x.isFinite := by
  rw [isFinite, isFinite, magnitude_neg]

theorem isFinite_ofNat {n : Nat} (h : n < 2 ^ 64) : (ofNat n).isFinite := by
  unfold ofNat
  split
  · rfl
  · rename_i hn
    have hlog : n.log2 < 64 := (Nat.log2_lt hn).2 h
    have hle := significandOf_le n
    have hshift : (n.log2 + 1022) <<< 52 = (n.log2 + 1022) * 2 ^ 52 := Nat.shiftLeft_eq ..
    -- a carry to `2 ^ 53` only raises the exponent, which has room up to 2046
    have hbits : min (((n.log2 + 1022) <<< 52) + significandOf n) infinity.bits.toNat <
        2047 * 2 ^ 52 := by
      omega
    have hinfinity : infinity.magnitude = 2047 * 2 ^ 52 := by decide
    rw [isFinite, decide_eq_true_eq, hinfinity, magnitude, UInt64.toNat_ofNat']
    simp only [signBit]
    omega

theorem isFinite_ofInt {n : Int} (hlow : -(2 ^ 63) ≤ n) (hhigh : n < 2 ^ 64) :
    (ofInt n).isFinite := by
  have hn : n.natAbs < 2 ^ 64 := by omega
  unfold ofInt
  split
  · rw [isFinite_neg]
    exact isFinite_ofNat hn
  · exact isFinite_ofNat hn

end Number

namespace Json

/-! ### Numerals -/

variable {α β κ : Type}

/-- Integers have 64 bits, signed or not, and real numbers are finite. -/
def Numeral.isRepresentable : Numeral → Bool
  | whole n => -(2 ^ 63) ≤ n && n < 2 ^ 64
  | real x => x.isFinite

theorem Numeral.isFinite_toNumber {n : Numeral} (h : n.isRepresentable) : n.toNumber.isFinite := by
  cases n with
  | whole n =>
    obtain ⟨hlow, hhigh⟩ := Bool.and_eq_true_iff.1 h
    exact Number.isFinite_ofInt (of_decide_eq_true hlow) (of_decide_eq_true hhigh)
  | real x => exact h

namespace Source

mutual

/-- Whether all numbers of a document are representable. -/
def isRepresentable : Source → Bool
  | number (some n) => n.isRepresentable
  | array items => representableItems items
  | object members => representableMembers members
  | _ => true

def representableItems : List Source → Bool
  | [] => true
  | item :: rest => item.isRepresentable && representableItems rest

def representableMembers : List (Source × Source) → Bool
  | [] => true
  | (_, value) :: rest => value.isRepresentable && representableMembers rest

end

theorem representableItems_iff {items : List Source} :
    representableItems items ↔ ∀ item ∈ items, item.isRepresentable := by
  induction items with
  | nil => exact ⟨fun _ => nofun, fun _ => rfl⟩
  | cons item rest ih => rw [representableItems, Bool.and_eq_true, ih, List.forall_mem_cons]

theorem representableMembers_iff {members : List (Source × Source)} :
    representableMembers members ↔ ∀ e ∈ members, e.2.isRepresentable := by
  induction members with
  | nil => exact ⟨fun _ => nofun, fun _ => rfl⟩
  | cons e rest ih => rw [representableMembers, Bool.and_eq_true, ih, List.forall_mem_cons]

end Source

/-- Whether all numbers of a value are representable. -/
def isRepresentable (value : Json) : Bool := (Source.ofJson value).isRepresentable

/-! ### Decoders -/

/-- All that the decoder gives of documents with representable numbers has the property. -/
def Decoder.Gives (d : Decoder α) (P : α → Prop) : Prop :=
  ∀ origin source a, source.isRepresentable → d origin source = .ok a → P a

namespace Decoder

variable {d : Decoder α} {P : α → Prop}

theorem gives_number : number.Gives (·.isFinite) := by
  intro origin source x hsource h
  cases source with
  | number value =>
    cases value with
    | none => exact nomatch h
    | some n =>
      cases h
      exact Numeral.isFinite_toNumber hsource
  | _ => exact nomatch h

theorem gives_option (hd : d.Gives P) : d.option.Gives fun a? => ∀ a, a? = some a → P a := by
  rintro origin source found hsource h a rfl
  cases source with
  | null => exact nomatch h
  | _ =>
    obtain ⟨a', ha', hsome⟩ := Outcome.map_eq_ok.1 h
    cases hsome
    exact hd origin _ a hsource ha'

theorem gives_map [TextKey κ] {key : String → Except String κ} (hd : d.Gives P) :
    (map key d).Gives fun m => ∀ k a, m.get? k = some a → P a := by
  intro origin source m hsource h
  cases source with
  | object members =>
    have hmembers := Source.representableMembers_iff.1 hsource
    obtain ⟨inner, _, h⟩ := Outcome.bind_eq_ok.1 h
    have hempty : ∀ k a, (OrderedMap.empty : OrderedMap κ α).get? k = some a → P a := nofun
    refine Outcome.foldlM_keeps (P := fun m => ∀ k a, m.get? k = some a → P a)
      (fun before e he after hbefore hafter => ?_) hempty h
    obtain ⟨name, _, hafter⟩ := Outcome.bind_eq_ok.1 hafter
    obtain ⟨k, _, hafter⟩ := Outcome.bind_eq_ok.1 hafter
    obtain ⟨a, ha, hafter⟩ := Outcome.bind_eq_ok.1 hafter
    cases hafter
    intro other found hfound
    rcases OrderedMap.get?_insert_eq_some.1 hfound with ⟨_, rfl⟩ | ⟨_, hold⟩
    · exact hd inner e.2 a (hmembers e he) ha
    · exact hbefore other found hold
  | _ => exact nomatch h

end Decoder

/-! ### Records -/

/-- The property `P` of records follows from what is known of the fields so far, which every member
with representable numbers keeps; and so it does if the fields are items of an array. -/
structure Record.Keeps (r : Record α) (known : r.State → Prop) (P : α → Prop) : Prop where
  start : known r.start
  offer : ∀ state name origin source next, source.isRepresentable → known state →
    r.offer state name origin source = some (.ok next) → known next
  finish : ∀ state a, known state → r.finish state = .ok a → P a
  items : ∀ origin sources a rest, (∀ source ∈ sources, source.isRepresentable) →
    r.items origin sources = .ok (a, rest) → P a ∧ ∀ source ∈ rest, source.isRepresentable

/-- All records that are read from documents with representable numbers have the property. -/
def Record.Gives (r : Record α) (P : α → Prop) : Prop := ∃ known, r.Keeps known P

namespace Record

variable {f : Record (α → β)} {r : Record α} {P : α → Prop} {Q : β → Prop} {a : α}

theorem gives_pure (h : P a) : (pure a).Gives P := by
  refine ⟨fun _ => True, trivial, fun _ _ _ _ _ _ _ _ => trivial, ?_, ?_⟩
  · intro _ a' _ ha'
    cases ha'
    exact h
  · intro _ sources a' rest hsources hitems
    cases hitems
    exact ⟨h, hsources⟩

theorem gives_field {name : String} {d : Decoder α} {default? : Option α} (hd : d.Gives P)
    (hdefault : ∀ a, default? = some a → P a) : (field name d default?).Gives P := by
  refine ⟨fun state => ∀ a, state = some a → P a, nofun, ?_, ?_, ?_⟩
  · rintro state key origin source next hsource hstate hoffer a rfl
    obtain ⟨_, hresult⟩ := Option.ite_none_right_eq_some.1 hoffer
    cases state with
    | some old => exact nomatch hresult
    | none =>
      obtain ⟨found, hfound, hnext⟩ := Outcome.map_eq_ok.1 (Option.some.inj hresult)
      cases hnext
      exact hd origin source a hsource hfound
  · intro state a hstate hfinish
    cases state with
    | some _ =>
      cases hfinish
      exact hstate a rfl
    | none =>
      cases default? with
      | some _ =>
        cases hfinish
        exact hdefault a rfl
      | none => exact nomatch hfinish
  · intro origin sources a rest hsources hitems
    cases sources with
    | cons source sources =>
      obtain ⟨hsource, hsources⟩ := List.forall_mem_cons.1 hsources
      obtain ⟨found, hfound, hpair⟩ := Outcome.map_eq_ok.1 hitems
      cases hpair
      exact ⟨hd origin source a hsource hfound, hsources⟩
    | nil =>
      cases default? with
      | some _ =>
        cases hitems
        exact ⟨hdefault a rfl, nofun⟩
      | none => exact nomatch hitems

theorem Gives.seq (hf : f.Gives fun g => ∀ a, P a → Q (g a)) (hr : r.Gives P) :
    (f.seq r).Gives Q := by
  obtain ⟨knownF, hf⟩ := hf
  obtain ⟨knownR, hr⟩ := hr
  refine ⟨fun state => knownF state.1 ∧ knownR state.2, ⟨hf.start, hr.start⟩, ?_, ?_, ?_⟩
  · rintro ⟨s, t⟩ name origin source next hsource ⟨hs, ht⟩ hoffer
    cases hfirst : f.offer s name origin source with
    | some result =>
      rw [offer_seq_of_some hfirst] at hoffer
      obtain ⟨s', rfl, rfl⟩ := Outcome.map_eq_ok.1 (Option.some.inj hoffer)
      exact ⟨hf.offer s name origin source s' hsource hs hfirst, ht⟩
    | none =>
      rw [offer_seq_of_none hfirst] at hoffer
      obtain ⟨result, hsecond, hnext⟩ := Option.map_eq_some_iff.1 hoffer
      obtain ⟨t', rfl, rfl⟩ := Outcome.map_eq_ok.1 hnext
      exact ⟨hs, hr.offer t name origin source t' hsource ht hsecond⟩
  · rintro ⟨s, t⟩ b ⟨hs, ht⟩ hfinish
    obtain ⟨g, hg, hfinish⟩ := Outcome.bind_eq_ok.1 hfinish
    obtain ⟨a, ha, hb⟩ := Outcome.bind_eq_ok.1 hfinish
    cases hb
    exact hf.finish s g hs hg a (hr.finish t a ht ha)
  · intro origin sources b rest hsources hitems
    obtain ⟨⟨g, between⟩, hg, hitems⟩ := Outcome.bind_eq_ok.1 hitems
    obtain ⟨⟨a, after⟩, ha, hb⟩ := Outcome.bind_eq_ok.1 hitems
    cases hb
    obtain ⟨hg, hbetween⟩ := hf.items origin sources g between hsources hg
    obtain ⟨ha, hrest⟩ := hr.items origin between a _ hbetween ha
    exact ⟨hg a ha, hrest⟩

theorem Gives.decoder (h : r.Gives P) : r.decoder.Gives P := by
  obtain ⟨known, h⟩ := h
  intro origin source a hsource ha
  cases source with
  | object members =>
    have hmembers := Source.representableMembers_iff.1 hsource
    obtain ⟨inner, _, ha⟩ := Outcome.bind_eq_ok.1 ha
    obtain ⟨state, hstate, hfinish⟩ := Outcome.bind_eq_ok.1 ha
    refine h.finish state a (Outcome.foldlM_keeps (P := known) ?_ h.start hstate) hfinish
    intro before e he after hbefore hafter
    obtain ⟨name, _, hafter⟩ := Outcome.bind_eq_ok.1 hafter
    split at hafter
    · rename_i result hoffer
      cases hafter
      exact h.offer before name inner e.2 after (hmembers e he) hbefore hoffer
    · obtain ⟨_, _, hafter⟩ := Outcome.bind_eq_ok.1 hafter
      cases hafter
      exact hbefore
  | array items =>
    have hitems := Source.representableItems_iff.1 hsource
    obtain ⟨inner, _, ha⟩ := Outcome.bind_eq_ok.1 ha
    obtain ⟨⟨found, rest⟩, hfound, ha⟩ := Outcome.bind_eq_ok.1 ha
    have hP := (h.items inner items found rest hitems hfound).1
    cases rest with
    | nil =>
      cases ha
      exact hP
    | cons _ _ =>
      -- only tables may have more items than the record has fields
      cases origin with
      | table =>
        cases ha
        exact hP
      | _ => exact nomatch ha
  | _ => exact nomatch ha

/-- One more field. -/
theorem Gives.field {name : String} {d : Decoder α} {default? : Option α}
    (hf : f.Gives fun g => ∀ a, P a → Q (g a)) (hd : d.Gives P)
    (hdefault : ∀ a, default? = some a → P a) : (f.seq (Record.field name d default?)).Gives Q :=
  hf.seq (gives_field hd hdefault)

/-- One more field, of which nothing is known. -/
theorem Gives.anyField {name : String} {d : Decoder α} {default? : Option α}
    (hf : f.Gives fun g => ∀ a, Q (g a)) : (f.seq (Record.field name d default?)).Gives Q := by
  have hany : d.Gives fun _ => True := fun _ _ _ _ _ => trivial
  refine Gives.seq ?_ (gives_field hany fun _ _ => trivial)
  simpa using hf

end Record

end Json

end Patchbay
