import Zizium.Crc.Division
import Zizium.Executive.IdentityCodec
import Zizium.Fs.SecurityStream

/-!
# Checksums

A checksum is the remainder of the message as a polynomial.  It composes over pieces of the
message, and it tells apart two messages that differ in a burst of at most 32 bits.
-/

namespace Zizium

open Bytes Mem Crc Nat

variable {a b data : List UInt8} {c : UInt32} {i k n : ℕ}

abbrev crcPolynomial : ℕ := 0x82f63b78

/-- Bit `i` of a message, the bits of each byte taken least significant first. -/
def dataBit (data : List UInt8) (i : ℕ) : Bool := (data.getD (i/8) 0).toNat.testBit (i%8)

/-- The message as a number. -/
def message : List UInt8 → ℕ
  | [] => 0
  | byte :: data => byte.toNat ^^^ 2^8*message data

theorem message_cons (byte : UInt8) : message (byte :: data) = 2^8*message data+byte.toNat := by
  have hlt : byte.toNat < 2^8 := byte.toNat_lt
  apply eq_of_testBit_eq
  intro j
  rw [message,testBit_xor,testBit_two_pow_mul,testBit_two_pow_mul_add _ hlt]
  split
  next hj => simp [Nat.not_le.mpr hj]
  next hj =>
    rw [not_lt] at hj
    simp [hj,testBit_lt_two_pow (hlt.trans_le (Nat.pow_le_pow_right Nat.two_pos hj))]

theorem testBit_message : (message data).testBit i = dataBit data i := by
  induction data generalizing i with
  | nil => simp [message,dataBit]
  | cons byte data ih =>
    rw [message_cons,testBit_two_pow_mul_add _ byte.toNat_lt,ih]
    split
    next hi => simp [dataBit,Nat.div_eq_of_lt hi,Nat.mod_eq_of_lt hi]
    next hi =>
      obtain ⟨j,rfl⟩ := Nat.exists_eq_add_of_le' (Nat.le_of_not_lt hi)
      simp [dataBit]

theorem message_lt : message data < 2^(8*data.length) := by
  induction data with
  | nil => exact Nat.one_pos
  | cons byte data ih =>
    have := byte.toNat_lt
    rw [message_cons,List.length_cons,Nat.mul_succ,Nat.pow_add]
    omega

theorem crcBit_toNat (c : UInt32) : (crcBit c).toNat = step crcPolynomial c.toNat := by
  have hlow : c &&& 1 = if c.toNat.testBit 0 then 1 else 0 := by
    apply UInt32.toNat_inj.mp
    rw [UInt32.toNat_and,testBit_zero]
    have hone : c.toNat &&& UInt32.toNat 1 = c.toNat%2 := Nat.and_one_is_mod _
    rw [hone]
    rcases Nat.mod_two_eq_zero_or_one c.toNat with h | h <;> simp [h]
  rw [crcBit,hlow,step,UInt32.toNat_xor]
  split <;> rfl

theorem crcByte_toNat (byte : UInt8) :
    (crcByte c byte).toNat = (step crcPolynomial)^[8] (c.toNat ^^^ byte.toNat) := by
  have hrun : ∀ n s, (Nat.repeat crcBit n s).toNat = (step crcPolynomial)^[n] s.toNat := by
    intro n s
    induction n with
    | zero => rfl
    | succ n ih => rw [Function.iterate_succ_apply',← ih,← crcBit_toNat,Nat.repeat]
  rw [crcByte,hrun,UInt32.toNat_xor,UInt8.toNat_toUInt32]

theorem foldl_crcByte : (data.foldl crcByte c).toNat =
    (step crcPolynomial)^[8*data.length] (c.toNat ^^^ message data) := by
  induction data generalizing c with
  | nil => simp [message]
  | cons byte data ih =>
    -- Eight steps take the first byte in and bring the others down.
    rw [List.foldl_cons,ih,crcByte_toNat,List.length_cons,Nat.mul_succ,Function.iterate_add_apply,
      message,← Nat.xor_assoc,iterate_xor (x := c.toNat ^^^ byte.toNat),iterate_shift]

theorem message_inj (hlen : a.length = b.length) (h : message a = message b) : a = b := by
  apply List.ext_getElem hlen
  intro i hi hi'
  apply UInt8.toNat_inj.mp
  apply eq_of_testBit_eq
  intro j
  by_cases hj : j < 8
  · have hbit := congrArg (testBit · (8*i+j)) h
    simp only [testBit_message,dataBit] at hbit
    rwa [Nat.mul_add_div (by omega),Nat.mul_add_mod,Nat.div_eq_of_lt hj,Nat.mod_eq_of_lt hj,
      Nat.add_zero,List.getD_eq_getElem _ _ hi,List.getD_eq_getElem _ _ hi'] at hbit
  · have hpow := Nat.pow_le_pow_right Nat.two_pos (Nat.le_of_not_lt hj)
    rw [testBit_lt_two_pow (a[i].toNat_lt.trans_le hpow),
      testBit_lt_two_pow (b[i].toNat_lt.trans_le hpow)]

theorem ziCrc32c_ne_of_burst (hlen : a.length = b.length) (hne : a ≠ b)
    (hburst : ∀ i, dataBit a i ≠ dataBit b i → k ≤ i ∧ i < k+32) : ziCrc32c c a ≠ ziCrc32c c b := by
  intro h
  have hfold : (a.foldl crcByte (~~~c)).toNat = (b.foldl crcByte (~~~c)).toNat := by
    rw [← UInt32.not_inj.mp h]
  rw [foldl_crcByte,foldl_crcByte,hlen,← Nat.xor_eq_zero_iff,← iterate_xor] at hfold
  have hdiff : ((~~~c).toNat ^^^ message a) ^^^ ((~~~c).toNat ^^^ message b) =
      message a ^^^ message b := by
    rw [Nat.xor_comm (~~~c).toNat,Nat.xor_assoc,Nat.xor_xor_cancel_left]
  rw [hdiff] at hfold
  refine iterate_ne_zero_of_burst (w := 32) (k := k) (by decide) (by decide) ?_ ?_ ?_ hfold
  · rw [Ne,Nat.xor_eq_zero_iff]
    exact fun heq => hne (message_inj hlen heq)
  · exact xor_lt_two_pow (hlen ▸ message_lt) message_lt
  · intro i hi
    apply hburst
    rw [testBit_xor,testBit_message,testBit_message] at hi
    simpa using hi

theorem checksums_compose :
    (∀ c a b, ziCrc32c (ziCrc32c c a) b = ziCrc32c c (a ++ b)) ∧
    (∀ c a b first, a.length = b.length → a ≠ b →
      (∀ i, dataBit a i ≠ dataBit b i → first ≤ i ∧ i < first+32) →
      ziCrc32c c a ≠ ziCrc32c c b) ∧
    (∀ c (data : Mem) offset rest, ziCrc32c (ziCrc32c (ziCrc32c c (data.slice 0 offset)) [0,0,0,0])
      (data.slice (offset+4) rest) =
        ziCrc32c c ((ziWriteU32Le data offset 0).slice 0 (offset+4+rest))) ∧
    (∀ block, directoryChecksum block = checksum (ziWriteU32Le block 60 0) blockSize) ∧
    (∀ (volume : ZiFsVolume) image, volume.HasSecurityTable →
      (calculateDeviceTableChecksum volume).eval image =
        .ok (ziCrc32c 0 ((ziWriteU32Le (volume.superblock.securityTable image) 252 0).slice 0
          (volume.superblock.securityTableBlocks*blockSize)))) ∧
    ∀ bytes, databaseChecksum bytes = checksum (ziWriteU32Le bytes 4092 0)
      identityDatabaseSize := by
  refine ⟨ziCrc32c_append,fun _ _ _ _ => ziCrc32c_ne_of_burst,ziCrc32c_zeroed,
    directoryChecksum_eq,?_,?_⟩
  · intro volume image h
    have hpos := h.blocks.1
    rw [h.deviceChecksum,calculateSecurityTableChecksum,ziCrc32c_zeroed,
      show 252+4+(volume.superblock.securityTableBlocks*4096-256) =
        volume.superblock.securityTableBlocks*blockSize by rw [blockSize]; omega]
  · intro bytes
    exact congrArg UInt32.toNat (ziCrc32c_zeroed 0 bytes 4092 32768)

end Zizium
