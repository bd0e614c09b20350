import Zizium.Fs.Superblock

/-!
# Block devices

The device contract of `kernel/include/zi/block.h` and the checked entry points of
`kernel/io/storage/block.c`.  A driver answers requests beyond its end with an
out-of-bounds status.
-/

namespace Zizium

open BlockIO

abbrev blockDeviceVersion : ℕ := 3
abbrev blockDeviceStructSize : ℕ := 64

abbrev deviceReadOnly : ℕ := 1
abbrev deviceFlushSupported : ℕ := 2
abbrev deviceWriteSupported : ℕ := 4

abbrev ReadIo (α : Type) := ReadM Block ZiStatus α

/-- Programs that may also write blocks and issue barriers. -/
abbrev DeviceIo (α : Type) := IoM Block ZiStatus α

/-- Programs that report their status in their result. -/
abbrev DeviceProg (α : Type) := Prog Block ZiStatus α

structure ZiBlockDevice where
  structSize : ℕ
  version : ℕ
  blockSize : ℕ
  blockCount : ℕ
  flags : ℕ
  hasRead : Bool
  hasFlush : Bool
  hasWrite : Bool
  deriving DecidableEq, Repr

namespace ZiBlockDevice

/-- The `read_blocks` routine of the driver. -/
def readBlocks (device : ZiBlockDevice) (firstBlock blockCount : ℕ) : ReadIo (ℕ → Block) := do
  failIf (firstBlock ≥ device.blockCount ∨ blockCount > device.blockCount-firstBlock)
    .outOfBounds
  ReadM.readBlocks firstBlock blockCount

def readBlock (device : ZiBlockDevice) (block : ℕ) : ReadIo Block := do
  let blocks ← device.readBlocks block 1
  pure (blocks 0)

theorem readBlock_ok_iff {device : ZiBlockDevice} {block : ℕ} {img : ℕ → Block} {b : Block} :
    (device.readBlock block).eval img = .ok b ↔ block < device.blockCount ∧ b = img block := by
  simp only [readBlock,readBlocks,ReadM.bind_ok_iff,ReadM.failIf_ok_iff,exists_const,
    ReadM.eval_readBlocks,ReadM.pure_ok_iff,Except.ok.injEq]
  constructor
  · rintro ⟨_,⟨h,rfl⟩,rfl⟩
    exact ⟨by omega,rfl⟩
  · rintro ⟨h,rfl⟩
    exact ⟨_,⟨by omega,rfl⟩,rfl⟩

theorem eval_readBlock {device : ZiBlockDevice} {block : ℕ} {img : ℕ → Block} :
    (device.readBlock block).eval img =
      if block < device.blockCount then .ok (img block) else .error .outOfBounds := by
  simp only [readBlock,readBlocks,ReadM.eval_bind,ReadM.eval_failIf,ReadM.eval_readBlocks]
  by_cases h : block < device.blockCount
  · rw [if_pos h,if_neg (by omega)]
    rfl
  · rw [if_neg h,if_pos (by omega)]
    rfl

end ZiBlockDevice

def ziBlockFlush (device : ZiBlockDevice) : DeviceIo Unit := do
  failIf (device.structSize < blockDeviceStructSize ∨ device.version ≠ blockDeviceVersion)
    .invalidArgument
  failIf (device.hasFlush = false ∨ device.flags &&& deviceFlushSupported = 0) .notImplemented
  IoM.flush

def ziBlockBarrier (device : ZiBlockDevice) : DeviceIo Unit := ziBlockFlush device

def ziBlockWrite (device : ZiBlockDevice) (firstBlock : ℕ) (blocks : List Block) :
    DeviceIo Unit := do
  failIf (device.structSize < blockDeviceStructSize ∨ device.version ≠ blockDeviceVersion ∨
    blocks.length = 0 ∨ device.blockSize = 0 ∨ device.blockCount = 0) .invalidArgument
  failIf (device.flags &&& deviceReadOnly ≠ 0) .readOnlyFilesystem
  failIf (device.hasWrite = false ∨ device.flags &&& deviceWriteSupported = 0) .notImplemented
  failIf (firstBlock ≥ device.blockCount ∨ blocks.length > device.blockCount-firstBlock ∨
    blocks.length*blockSize ≠ blocks.length*device.blockSize) .outOfBounds
  IoM.write firstBlock blocks

end Zizium
