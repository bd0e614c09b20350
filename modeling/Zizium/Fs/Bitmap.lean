import Zizium.Runtime

/-!
# The allocation bitmap

One bit per block of the volume, least significant bit first, as in
`kernel/fs/zifs/journal.c`.
-/

namespace Zizium

open Bytes BlockIO

/-- The bit of a block within its byte. -/
def allocationMask (blockNumber : ℕ) : UInt8 := 1 <<< UInt8.ofNat (blockNumber%8)

def allocationBit (bitmap : Mem) (blockNumber : ℕ) : Bool :=
  decide (bitmap (blockNumber/8) &&& allocationMask blockNumber ≠ 0)

def setAllocationBit (bitmap : Mem) (blockNumber : ℕ) (isAllocated : Bool) : Mem :=
  let byte := bitmap (blockNumber/8)
  let mask := allocationMask blockNumber
  bitmap.put (blockNumber/8) [if isAllocated then byte ||| mask else byte &&& ~~~mask]

def ziFsAllocationBitQuery (bitmap : Mem) (bitmapSize blockNumber : ℕ) : Result Bool := do
  failIf (bitmapSize = 0 ∨ blockNumber/8 ≥ bitmapSize) .invalidArgument
  pure (allocationBit bitmap blockNumber)

def ziFsAllocationBitSet (bitmap : Mem) (bitmapSize blockNumber : ℕ) (isAllocated : Bool) :
    Result Mem := do
  failIf (bitmapSize = 0 ∨ blockNumber/8 ≥ bitmapSize) .invalidArgument
  pure (setAllocationBit bitmap blockNumber isAllocated)

theorem toBitVec_allocationMask (n : ℕ) : (allocationMask n).toBitVec = BitVec.twoPow 8 (n%8) := by
  have hlt : n%8 < 8 := Nat.mod_lt _ (by omega)
  unfold allocationMask
  generalize n%8 = k at hlt ⊢
  revert k
  decide

theorem and_allocationMask_ne_zero {byte : UInt8} {n : ℕ} :
    byte &&& allocationMask n ≠ 0 ↔ byte.toBitVec.getLsbD (n%8) = true := by
  have hlt : n%8 < 8 := Nat.mod_lt _ (by omega)
  rw [ne_eq,← UInt8.toBitVec_inj,UInt8.toBitVec_and,toBitVec_allocationMask,BitVec.and_twoPow]
  cases byte.toBitVec.getLsbD (n%8) with
  | false => simp
  | true =>
    simp only [if_true,iff_true]
    intro h
    have := congrArg (BitVec.getLsbD · (n%8)) h
    simp [hlt] at this

theorem allocationBit_eq (bitmap : Mem) (n : ℕ) :
    allocationBit bitmap n = (bitmap (n/8)).toBitVec.getLsbD (n%8) := by
  rw [allocationBit,Bool.eq_iff_iff,decide_eq_true_iff,and_allocationMask_ne_zero]

theorem allocationBit_setAllocationBit {bitmap : Mem} {n k : ℕ} {value : Bool} :
    allocationBit (setAllocationBit bitmap n value) k =
      if k = n then value else allocationBit bitmap k := by
  rw [allocationBit_eq,allocationBit_eq]
  have hk : k%8 < 8 := Nat.mod_lt _ (by omega)
  by_cases hbyte : k/8 = n/8
  · have hself : setAllocationBit bitmap n value (k/8) =
        if value then bitmap (k/8) ||| allocationMask n
        else bitmap (k/8) &&& ~~~allocationMask n := by
      unfold setAllocationBit
      rw [hbyte,Mem.put_of_mem (by omega) (by simp)]
      simp
    rw [hself]
    by_cases heq : k = n
    · subst heq
      cases value <;> simp [toBitVec_allocationMask,hk]
    · have hne : ¬k%8 = n%8 := fun h => heq (by omega)
      rw [if_neg heq]
      cases value <;> simp [toBitVec_allocationMask,hk,hne]
  · have hne : k ≠ n := fun h => hbyte (by rw [h])
    rw [if_neg hne]
    unfold setAllocationBit
    rcases Nat.lt_or_ge (k/8) (n/8) with h | h
    · rw [Mem.put_of_lt h]
    · rw [Mem.put_of_ge (by simp; omega)]

end Zizium
