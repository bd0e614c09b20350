import Zizium.Bytes
import Zizium.BlockIO.Command

/-!
# Runtime support

Status codes, byte-order helpers and the CRC-32C used by every on-disk structure.
-/

namespace Zizium

open Bytes

/-- The failure codes of `sdk/include/zizium/status.h`.  Success is the `ok` side of
`Except`. -/
inductive ZiStatus where
  | notFound
  | accessDenied
  | invalidHandle
  | invalidArgument
  | noMemory
  | badImageFormat
  | invalidPath
  | caseMismatch
  | notImplemented
  | deviceError
  | timeout
  | bufferTooSmall
  | invalidEncoding
  | checksumMismatch
  | corruptFilesystem
  | alreadyExists
  | invalidState
  | outOfBounds
  | endOfFile
  | addressConflict
  | pageNotMapped
  | memoryCorruption
  | alignmentError
  | resourceInUse
  | invalidUserBuffer
  | processTerminated
  | privilegeViolation
  | imageRelocationFailed
  | imageDependencyCycle
  | imageImportNotFound
  | invalidProcessParameters
  | cancelled
  | handleTableFull
  | queueFull
  | peerClosed
  | invalidMessage
  | resourceLeak
  | invalidServiceManifest
  | serviceDependencyCycle
  | serviceRestartLimit
  | readOnlyFilesystem
  | recoveryRequired
  | volumeFull
  | journalFull
  deriving DecidableEq, Repr

/-- The outcome of a status-returning function with an output. -/
abbrev Result (α : Type) := Except ZiStatus α

abbrev uint16Max : ℕ := 65535
abbrev uint32Max : ℕ := 4294967295
abbrev uint64Max : ℕ := 18446744073709551615

theorem uint64Max_eq : uint64Max = 18446744073709551615 := rfl

theorem toNat_sub_of_toNat_le {a b : UInt64} (h : b.toNat ≤ a.toNat) :
    (a-b).toNat = a.toNat-b.toNat :=
  UInt64.toNat_sub_of_le _ _ (UInt64.le_iff_toNat_le.mpr h)

abbrev ziReadU16Le (data : Mem) (offset : ℕ) : ℕ := data.readLe 2 offset
abbrev ziReadU32Le (data : Mem) (offset : ℕ) : ℕ := data.readLe 4 offset
abbrev ziReadU64Le (data : Mem) (offset : ℕ) : ℕ := data.readLe 8 offset

abbrev ziWriteU8 (data : Mem) (offset value : ℕ) : Mem := data.put offset (leBytes 1 value)
abbrev ziWriteU16Le (data : Mem) (offset value : ℕ) : Mem := data.put offset (leBytes 2 value)
abbrev ziWriteU32Le (data : Mem) (offset value : ℕ) : Mem := data.put offset (leBytes 4 value)
abbrev ziWriteU64Le (data : Mem) (offset value : ℕ) : Mem := data.put offset (leBytes 8 value)

/-- One bit of the reflected CRC-32C division. -/
def crcBit (crc : UInt32) : UInt32 :=
  (crc >>> 1) ^^^ (0x82f63b78 &&& (0-(crc &&& 1)))

/-- Fold one byte into the remainder. -/
def crcByte (crc : UInt32) (byte : UInt8) : UInt32 :=
  Nat.repeat crcBit 8 (crc ^^^ byte.toUInt32)

def ziCrc32c (initialValue : UInt32) (data : List UInt8) : UInt32 :=
  ~~~(data.foldl crcByte (~~~initialValue))

theorem ziCrc32c_append (c : UInt32) (a b : List UInt8) :
    ziCrc32c (ziCrc32c c a) b = ziCrc32c c (a ++ b) := by
  simp [ziCrc32c,List.foldl_append]

theorem ziCrc32c_zeroed (c : UInt32) (data : Mem) (off n : ℕ) :
    ziCrc32c (ziCrc32c (ziCrc32c c (data.slice 0 off)) [0,0,0,0]) (data.slice (off+4) n) =
      ziCrc32c c ((ziWriteU32Le data off 0).slice 0 (off+4+n)) := by
  have hzero : (ziWriteU32Le data off 0).slice off 4 = [0,0,0,0] :=
    Mem.slice_put_self (by decide)
  rw [Mem.slice_add,Mem.slice_add,Nat.zero_add,Nat.zero_add,hzero,ziWriteU32Le,
    Mem.slice_put_of_disjoint (.inl (by omega)),Mem.slice_put_of_disjoint (.inr (by simp)),
    ziCrc32c_append,ziCrc32c_append,List.append_assoc]

/-- The checksum of `n` bytes from the start of a view, as stored. -/
def checksum (data : Mem) (n : ℕ) : ℕ := (ziCrc32c 0 (data.slice 0 n)).toNat

theorem checksum_lt (data : Mem) (n : ℕ) : checksum data n < 256^4 :=
  (ziCrc32c 0 (data.slice 0 n)).toNat_lt

theorem checksum_congr {data data' : Mem} {n : ℕ} (h : ∀ i, i < n → data i = data' i) :
    checksum data n = checksum data' n := by
  have hslice : data.slice 0 n = data'.slice 0 n :=
    Mem.slice_congr fun i hi => by simpa using h i hi
  rw [checksum,checksum,hslice]

end Zizium
