/-! Blank text: white space in the sense of the Unicode property White_Space. -/

namespace Patchbay.Text

/-- The Unicode property White_Space. The zero-width space and the byte order mark lack it. -/
def isWhite (c : Char) : Bool :=
  (9 ≤ c.toNat && c.toNat ≤ 13) || c.toNat = 0x20 || c.toNat = 0x85 || c.toNat = 0xa0 ||
    c.toNat = 0x1680 || (0x2000 ≤ c.toNat && c.toNat ≤ 0x200a) || c.toNat = 0x2028 ||
    c.toNat = 0x2029 || c.toNat = 0x202f || c.toNat = 0x205f || c.toNat = 0x3000

/-- Whether a text is empty or holds white space only. -/
def isBlank (s : String) : Bool := s.toList.all isWhite

/-- A text with a visible character is not blank. -/
theorem isBlank_eq_false {s : String} {c : Char} (hc : c ∈ s.toList) (h : isWhite c = false) :
    isBlank s = false := by
  rw [isBlank, List.all_eq_false]
  exact ⟨c, hc, by simp [h]⟩

end Patchbay.Text
