import Mathlib.Data.Nat.Bitwise

/-!
# Division by a reflected polynomial

The remainder of a message, taken bit by bit with the least significant bit first.  The division
is linear in exclusive or, and a burst no longer than the polynomial leaves a remainder.
-/

namespace Crc

open Nat Function

variable {p w x y n k : ℕ}

/-- One bit of the division by the polynomial `p`. -/
def step (p x : ℕ) : ℕ := (x >>> 1) ^^^ (if x.testBit 0 then p else 0)

theorem step_xor : step p (x ^^^ y) = step p x ^^^ step p y := by
  have hswap : ∀ a b c d : ℕ, (a ^^^ b) ^^^ (c ^^^ d) = (a ^^^ c) ^^^ (b ^^^ d) := by
    intro a b c d
    rw [Nat.xor_assoc,Nat.xor_assoc,← Nat.xor_assoc b,Nat.xor_comm b,Nat.xor_assoc]
  rw [step,step,step,shiftRight_xor_distrib,testBit_xor,hswap (x >>> 1)]
  cases x.testBit 0 <;> cases y.testBit 0 <;> simp

theorem step_two_mul : step p (2*x) = x := by simp [step,shiftRight_one]

theorem step_lt (hp : p < 2^w) (hx : x < 2^w) : step p x < 2^w := by
  apply xor_lt_two_pow
  · exact (shiftRight_le x 1).trans_lt hx
  · split
    · exact hp
    · exact Nat.two_pow_pos w

theorem step_ne_zero (hp : 2^w ≤ 2*p) (hx : x < 2^w) (h : x ≠ 0) : step p x ≠ 0 := by
  rw [step,shiftRight_one,testBit_zero]
  split
  · rw [Ne,xor_eq_zero_iff]
    omega
  next hodd =>
    rw [decide_eq_true_eq] at hodd
    rw [xor_zero]
    omega

theorem iterate_xor : (step p)^[n] (x ^^^ y) = (step p)^[n] x ^^^ (step p)^[n] y := by
  induction n generalizing x y with
  | zero => rfl
  | succ n ih => rw [iterate_succ_apply,step_xor,ih,iterate_succ_apply,iterate_succ_apply]

theorem iterate_shift : (step p)^[n] (2^n*x) = x := by
  induction n generalizing x with
  | zero => simp
  | succ n ih => rw [iterate_succ_apply,pow_succ',mul_assoc,step_two_mul,ih]

theorem iterate_ne_zero (hp : p < 2^w) (htop : 2^w ≤ 2*p) (hx : x < 2^w) (h : x ≠ 0) :
    (step p)^[n] x ≠ 0 := by
  induction n generalizing x with
  | zero => exact h
  | succ n ih => exact ih (step_lt hp hx) (step_ne_zero htop hx h)

theorem iterate_ne_zero_of_burst (hp : p < 2^w) (htop : 2^w ≤ 2*p) (hx : x ≠ 0) (hlt : x < 2^n)
    (hburst : ∀ i, x.testBit i = true → k ≤ i ∧ i < k+w) : (step p)^[n] x ≠ 0 := by
  obtain ⟨i,hi⟩ := exists_testBit_of_ne_zero hx
  have hn : k ≤ n := by
    have hpow := (ge_two_pow_of_testBit hi).trans_lt hlt
    have := (Nat.pow_lt_pow_iff_right Nat.one_lt_two).mp hpow
    have := (hburst i hi).1
    omega
  have hshift : x = 2^k*(x >>> k) := by
    apply eq_of_testBit_eq
    intro j
    rw [testBit_two_pow_mul,testBit_shiftRight]
    by_cases hj : k ≤ j
    · simp [hj]
    · cases hset : x.testBit j
      · simp [hj]
      · exact absurd (hburst j hset).1 hj
  have hword : x >>> k < 2^w := by
    apply lt_pow_two_of_testBit
    intro j hj
    rw [testBit_shiftRight]
    cases hset : x.testBit (k+j)
    · rfl
    · have := hburst _ hset
      omega
  have hne : x >>> k ≠ 0 := by
    intro h
    rw [h] at hshift
    exact hx hshift
  -- The first `k` steps bring the burst down, the others keep it.
  rw [hshift,← Nat.sub_add_cancel hn,iterate_add_apply,iterate_shift]
  exact iterate_ne_zero hp htop hword hne

end Crc
