import Mathlib.Tactic.Ring

/-!
# Multiples of an alignment
-/

namespace Zizium

theorem add_le_of_dvd_of_lt {a p q : ℕ} (hp : a ∣ p) (hq : a ∣ q) (h : p < q) : p+a ≤ q := by
  obtain ⟨i,rfl⟩ := hp
  obtain ⟨j,rfl⟩ := hq
  have hij : i < j := Nat.lt_of_mul_lt_mul_left h
  calc a*i+a = a*(i+1) := by ring
    _ ≤ a*j := Nat.mul_le_mul_left a hij

/-- Clearing the low bits of `first + mask` gives the first aligned place. -/
structure IsFirstAligned (alignment first page : ℕ) : Prop where
  dvd : alignment ∣ page
  le : first ≤ page
  lt : page < first+alignment

theorem isFirstAligned_mask (k first : ℕ) : IsFirstAligned (2^k) first
      (first+(2^k-1)-((first+(2^k-1)) &&& (2^k-1))) := by
  rw [Nat.and_two_pow_sub_one_eq_mod]
  exact ⟨Nat.dvd_sub_mod _,by omega,by omega⟩

theorem IsFirstAligned.le_of_dvd {alignment first page q : ℕ}
    (h : IsFirstAligned alignment first page) (hq : alignment ∣ q) (hle : first ≤ q) :
    page ≤ q := by
  by_contra hlt
  have := add_le_of_dvd_of_lt hq h.dvd (by omega)
  have := h.lt
  omega

end Zizium
