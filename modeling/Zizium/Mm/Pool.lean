import Zizium.Runtime

/-!
# Kernel pool

`kernel/mm/pool/pool.c`: a first-fit allocator over one arena.  The arena is a sequence of
blocks; each begins with a 64-byte header, and an allocated one holds a tail word behind the
requested bytes.  The arena is modelled byte by byte, so that an operation that overwrote the
header of a neighbour would be visible.

Offsets are relative to the arena.  A function that can fail returns the pool as well.
-/

namespace Zizium

open Bytes

abbrev ziPoolVersion : ℕ := 1
abbrev ziPoolAlignment : ℕ := 16
abbrev poolHeaderSize : ℕ := 64
abbrev ziPoolTailSize : ℕ := 8
/-- The size of the descriptor itself. -/
abbrev poolStructSize : ℕ := 64

abbrev ziPoolBlockMagic : ℕ := 0x5a69506f6f6c426c
abbrev ziPoolBlockFree : ℕ := 1
abbrev ziPoolBlockAllocated : ℕ := 2

/-! ## Headers -/

structure ZiPoolBlockHeader where
  magic : ℕ
  span : ℕ
  previousSpan : ℕ
  requestedSize : ℕ
  generation : ℕ
  checksum : ℕ
  state : ℕ
  reserved32 : ℕ
  reserved64 : ℕ
  deriving DecidableEq, Repr

def loadBlock (arena : Mem) (offset : ℕ) : ZiPoolBlockHeader where
  magic := ziReadU64Le arena offset
  span := ziReadU64Le arena (offset+8)
  previousSpan := ziReadU64Le arena (offset+16)
  requestedSize := ziReadU64Le arena (offset+24)
  generation := ziReadU64Le arena (offset+32)
  checksum := ziReadU64Le arena (offset+40)
  state := ziReadU32Le arena (offset+48)
  reserved32 := ziReadU32Le arena (offset+52)
  reserved64 := ziReadU64Le arena (offset+56)

def storeBlock (arena : Mem) (offset : ℕ) (block : ZiPoolBlockHeader) : Mem :=
  let arena := ziWriteU64Le arena offset block.magic
  let arena := ziWriteU64Le arena (offset+8) block.span
  let arena := ziWriteU64Le arena (offset+16) block.previousSpan
  let arena := ziWriteU64Le arena (offset+24) block.requestedSize
  let arena := ziWriteU64Le arena (offset+32) block.generation
  let arena := ziWriteU64Le arena (offset+40) block.checksum
  let arena := ziWriteU32Le arena (offset+48) block.state
  let arena := ziWriteU32Le arena (offset+52) block.reserved32
  ziWriteU64Le arena (offset+56) block.reserved64

/-- Assign some fields of the header at `offset`. -/
def updateBlock (arena : Mem) (offset : ℕ) (change : ZiPoolBlockHeader → ZiPoolBlockHeader) : Mem :=
  storeBlock arena offset (change (loadBlock arena offset))

/-- `zi_memory_zero` on part of the arena. -/
def zeroBytes (arena : Mem) (offset size : ℕ) : Mem := arena.put offset (List.replicate size 0)

def poolBytesAreZero (arena : Mem) (offset size : ℕ) : Bool :=
  (List.range size).all fun index => arena (offset+index) = 0

/-! ## Descriptor and checksums -/

structure ZiPool where
  structSize : ℕ
  version : ℕ
  arena : ℕ
  arenaSize : ℕ
  activeAllocations : ℕ
  allocatedBytes : ℕ
  peakAllocatedBytes : ℕ
  generation : ℕ
  cookie : UInt64
  deriving DecidableEq, Repr

/-- A descriptor with the bytes of its arena. -/
structure PoolState where
  pool : ZiPool
  arena : Mem

def mixValue (hash value : UInt64) : UInt64 :=
  hash ^^^ (value+(0x9e3779b97f4a7c15 : UInt64)+(hash <<< (6 : UInt64)) +
    (hash >>> (2 : UInt64)))

def calculatePoolCookie (arena arenaSize : ℕ) : UInt64 :=
  mixValue (mixValue 0x6496e6d1ecfc1720 (.ofNat arena)) (.ofNat arenaSize)

def calculateBlockChecksum (cookie : UInt64) (block : ZiPoolBlockHeader) (offset : ℕ) : UInt64 :=
  let hash := mixValue cookie (.ofNat offset)
  let hash := mixValue hash (.ofNat block.magic)
  let hash := mixValue hash (.ofNat block.span)
  let hash := mixValue hash (.ofNat block.previousSpan)
  let hash := mixValue hash (.ofNat block.requestedSize)
  let hash := mixValue hash (.ofNat block.generation)
  let hash := mixValue hash (.ofNat block.state)
  let hash := mixValue hash (.ofNat block.reserved32)
  mixValue hash (.ofNat block.reserved64)

def calculateBlockTail (cookie : UInt64) (block : ZiPoolBlockHeader) (offset : ℕ) : UInt64 :=
  let tail := mixValue (cookie ^^^ 0xa55aa55aa55aa55a) (.ofNat block.generation)
  let tail := mixValue tail (.ofNat offset)
  mixValue tail (.ofNat block.requestedSize)

def refreshBlockChecksum (cookie : UInt64) (arena : Mem) (offset : ℕ) : Mem :=
  updateBlock arena offset fun block =>
    { block with checksum := (calculateBlockChecksum cookie block offset).toNat }

/-! ## Spans and neighbours -/

def allocationSpan (requestedSize : ℕ) : Result ℕ :=
  if requestedSize = 0 ∨ requestedSize > uint64Max-poolHeaderSize-ziPoolTailSize then
    .error .invalidArgument
  else
    let unaligned := poolHeaderSize+requestedSize+ziPoolTailSize
    if unaligned > uint64Max-(ziPoolAlignment-1) then .error .outOfBounds
    else .ok ((unaligned+ziPoolAlignment-1)/ziPoolAlignment*ziPoolAlignment)

def nextBlock (pool : ZiPool) (block : ZiPoolBlockHeader) (offset : ℕ) : Option ℕ :=
  if block.span > pool.arenaSize-offset ∨ offset+block.span = pool.arenaSize then none
  else some (offset+block.span)

def previousBlock (block : ZiPoolBlockHeader) (offset : ℕ) : Option ℕ :=
  if block.previousSpan = 0 then none
  else if block.previousSpan > offset then none
  else some (offset-block.previousSpan)

def initialiseFreeBlock (cookie : UInt64) (arena : Mem)
    (offset span previousSpan generation : ℕ) : Mem :=
  refreshBlockChecksum cookie
    (updateBlock arena offset fun block =>
      { block with
        magic := ziPoolBlockMagic
        span
        previousSpan
        requestedSize := 0
        generation
        state := ziPoolBlockFree
        reserved32 := 0
        reserved64 := 0 }) offset

def nextGeneration (generation : ℕ) : Result ℕ :=
  if generation = uint64Max then .error .outOfBounds else .ok (generation+1)

/-- Tell the block behind the one at `offset`, if there is one, the span of the latter. -/
def linkFollowing (pool : ZiPool) (arena : Mem) (offset : ℕ) : Mem :=
  let block := loadBlock arena offset
  match nextBlock pool block offset with
  | none => arena
  | some following =>
    refreshBlockChecksum pool.cookie
      (updateBlock arena following fun next => { next with previousSpan := block.span }) following

/-! ## Validation -/

def poolDescriptorValidate (pool : ZiPool) : Result Unit :=
  if pool.structSize ≠ poolStructSize ∨ pool.version ≠ ziPoolVersion ∨ pool.arena = 0 ∨
      pool.arena%ziPoolAlignment ≠ 0 ∨ pool.arenaSize%ziPoolAlignment ≠ 0 ∨
      pool.arenaSize < poolHeaderSize+ziPoolTailSize+ziPoolAlignment then
    .error .invalidArgument
  else if pool.cookie ≠ calculatePoolCookie pool.arena pool.arenaSize ∨ pool.generation = 0 ∨
      pool.allocatedBytes > pool.peakAllocatedBytes then
    .error .memoryCorruption
  else .ok ()

structure ZiPoolStatistics where
  capacityBytes : ℕ
  allocatedBytes : ℕ
  freeSpanBytes : ℕ
  largestFreePayload : ℕ
  allocationCount : ℕ
  blockCount : ℕ
  peakAllocatedBytes : ℕ
  generation : ℕ
  deriving DecidableEq, Repr

/-- The header checks that `pool_scan` makes before it looks at the state. -/
def blockIsSound (pool : ZiPool) (block : ZiPoolBlockHeader) (offset previousSpan : ℕ) : Bool :=
  block.magic = ziPoolBlockMagic ∧ block.previousSpan = previousSpan ∧
    ¬block.span < poolHeaderSize+ziPoolTailSize+1 ∧ block.span%ziPoolAlignment = 0 ∧
    ¬block.span > pool.arenaSize-offset ∧
    block.checksum = (calculateBlockChecksum pool.cookie block offset).toNat

/-- What `pool_scan` does with an allocated block. -/
def scanAllocated (pool : ZiPool) (arena : Mem) (block : ZiPoolBlockHeader) (offset : ℕ)
    (statistics : ZiPoolStatistics) : Result ZiPoolStatistics :=
  match allocationSpan block.requestedSize with
  | .error _ => .error .memoryCorruption
  | .ok requiredSpan =>
    if requiredSpan > block.span ∨
        ziReadU64Le arena (offset+poolHeaderSize+block.requestedSize) ≠
          (calculateBlockTail pool.cookie block offset).toNat ∨
        poolBytesAreZero arena (offset+poolHeaderSize+block.requestedSize+ziPoolTailSize)
          (block.span-poolHeaderSize-block.requestedSize-ziPoolTailSize) = false ∨
        statistics.allocatedBytes > uint64Max-block.requestedSize then
      .error .memoryCorruption
    else
      .ok { statistics with
            allocatedBytes := statistics.allocatedBytes+block.requestedSize
            allocationCount := statistics.allocationCount+1 }

/-- What `pool_scan` does with a free block. -/
def scanFree (arena : Mem) (block : ZiPoolBlockHeader) (offset : ℕ)
    (statistics : ZiPoolStatistics) : Result ZiPoolStatistics :=
  match allocationSpan ziPoolAlignment with
  | .error _ => .error .memoryCorruption
  | .ok minimumFreeSpan =>
    if block.span < minimumFreeSpan ∨ block.requestedSize ≠ 0 ∨
        poolBytesAreZero arena (offset+poolHeaderSize) (block.span-poolHeaderSize) = false then
      .error .memoryCorruption
    else
      .ok { statistics with
            freeSpanBytes := statistics.freeSpanBytes+block.span
            largestFreePayload :=
              max statistics.largestFreePayload (block.span-poolHeaderSize-ziPoolTailSize) }

/-- What `pool_scan` does with a block whose header is sound. -/
def scanBlock (pool : ZiPool) (arena : Mem) (block : ZiPoolBlockHeader) (offset : ℕ)
    (statistics : ZiPoolStatistics) : Result ZiPoolStatistics :=
  if block.state = ziPoolBlockAllocated then scanAllocated pool arena block offset statistics
  else if block.state = ziPoolBlockFree then scanFree arena block offset statistics
  else .error .memoryCorruption

/-- The loop of `pool_scan`.  Every turn advances the offset, so that the arena size bounds the
number of turns. -/
def poolScanLoop (pool : ZiPool) (arena : Mem) :
    (fuel offset previousSpan : ℕ) → ZiPoolStatistics → Result (ℕ × ZiPoolStatistics)
  | 0, offset, _, statistics => .ok (offset, statistics)
  | fuel+1, offset, previousSpan, statistics =>
    if offset < pool.arenaSize then
      let block := loadBlock arena offset
      if pool.arenaSize-offset < poolHeaderSize ∨
          blockIsSound pool block offset previousSpan = false then
        .error .memoryCorruption
      else
        match scanBlock pool arena block offset statistics with
        | .error status => .error status
        | .ok statistics =>
          poolScanLoop pool arena fuel (offset+block.span) block.span
            { statistics with blockCount := statistics.blockCount+1 }
    else .ok (offset, statistics)

def poolScan (pool : ZiPool) (arena : Mem) : Result ZiPoolStatistics :=
  match poolScanLoop pool arena pool.arenaSize 0 0
      ⟨pool.arenaSize,0,0,0,0,0,pool.peakAllocatedBytes,pool.generation⟩ with
  | .error status => .error status
  | .ok (offset, statistics) =>
    if offset ≠ pool.arenaSize ∨ statistics.allocationCount ≠ pool.activeAllocations ∨
        statistics.allocatedBytes ≠ pool.allocatedBytes then
      .error .memoryCorruption
    else .ok statistics

def ziPoolValidate (s : PoolState) : Result Unit :=
  match poolDescriptorValidate s.pool with
  | .error status => .error status
  | .ok () =>
    match poolScan s.pool s.arena with
    | .error status => .error status
    | .ok _ => .ok ()

/-! ## Operations -/

/-- The storage handed to `zi_pool_initialise`.  It is a C object, so its end does not wrap. -/
structure PoolArena where
  address : ℕ
  size : ℕ
  bytes : Mem
  fits : address+size < 2^64

def ziPoolInitialise (arena : PoolArena) : Result PoolState :=
  if arena.address = 0 ∨ arena.address%ziPoolAlignment ≠ 0 ∨
      arena.size%ziPoolAlignment ≠ 0 then
    .error .invalidArgument
  else match allocationSpan ziPoolAlignment with
  | .error _ => .error .bufferTooSmall
  | .ok minimumSpan =>
    if arena.size < minimumSpan then .error .bufferTooSmall
    else
      let cookie := calculatePoolCookie arena.address arena.size
      .ok { pool := ⟨poolStructSize,ziPoolVersion,arena.address,arena.size,0,0,0,1,cookie⟩
            arena := initialiseFreeBlock cookie (zeroBytes arena.bytes 0 arena.size) 0 arena.size
              0 1 }

def findFreeBlock (pool : ZiPool) (arena : Mem) (requiredSpan : ℕ) : (fuel offset : ℕ) → Option ℕ
  | 0, _ => none
  | fuel+1, offset =>
    if offset < pool.arenaSize then
      let block := loadBlock arena offset
      if block.state = ziPoolBlockFree ∧ block.span ≥ requiredSpan then some offset
      else findFreeBlock pool arena requiredSpan fuel (offset+block.span)
    else none

def splitBlock (pool : ZiPool) (arena : Mem) (offset requiredSpan remainderSpan : ℕ) : Mem :=
  let arena := updateBlock arena offset fun block => { block with span := requiredSpan }
  let arena := initialiseFreeBlock pool.cookie arena (offset+requiredSpan) remainderSpan
    requiredSpan pool.generation
  linkFollowing pool arena (offset+requiredSpan)

def claimBlock (pool : ZiPool) (arena : Mem) (offset size : ℕ) : Mem :=
  let arena := updateBlock arena offset fun block =>
    { block with
      magic := ziPoolBlockMagic
      requestedSize := size
      generation := pool.generation
      state := ziPoolBlockAllocated
      reserved32 := 0
      reserved64 := 0 }
  let arena := refreshBlockChecksum pool.cookie arena offset
  ziWriteU64Le arena (offset+poolHeaderSize+size)
    (calculateBlockTail pool.cookie (loadBlock arena offset) offset).toNat

/-- Hand out the free block at `offset`. -/
def takeBlock (pool : ZiPool) (arena : Mem) (offset size requiredSpan minimumSpan : ℕ) : Mem :=
  let originalSpan := (loadBlock arena offset).span
  let arena := zeroBytes arena (offset+poolHeaderSize) (originalSpan-poolHeaderSize)
  let remainderSpan := originalSpan-requiredSpan
  let arena :=
    if remainderSpan ≥ minimumSpan then splitBlock pool arena offset requiredSpan remainderSpan
    else arena
  claimBlock pool arena offset size

def ziPoolAllocate (s : PoolState) (size : ℕ) : Result ℕ × PoolState :=
  if size = 0 then (.error .invalidArgument, s)
  else match ziPoolValidate s with
  | .error status => (.error status, s)
  | .ok () =>
    match allocationSpan size with
    | .error status => (.error status, s)
    | .ok requiredSpan =>
      match allocationSpan ziPoolAlignment with
      | .error status => (.error status, s)
      | .ok minimumSpan =>
        match findFreeBlock s.pool s.arena requiredSpan s.pool.arenaSize 0 with
        | none => (.error .noMemory, s)
        | some offset =>
          if s.pool.allocatedBytes > uint64Max-size ∨ s.pool.activeAllocations = uint64Max then
            (.error .outOfBounds, s)
          else match nextGeneration s.pool.generation with
          | .error status => (.error status, s)
          | .ok generation =>
            let pool := { s.pool with generation }
            (.ok (pool.arena+offset+poolHeaderSize),
              { pool :=
                  { pool with
                    activeAllocations := pool.activeAllocations+1
                    allocatedBytes := pool.allocatedBytes+size
                    peakAllocatedBytes := max pool.peakAllocatedBytes (pool.allocatedBytes+size) }
                arena := takeBlock pool s.arena offset size requiredSpan minimumSpan })

/-- The block whose payload begins at the address `allocation`. -/
def findAllocation (pool : ZiPool) (arena : Mem) (allocation : ℕ) : (fuel offset : ℕ) → Option ℕ
  | 0, _ => none
  | fuel+1, offset =>
    if offset < pool.arenaSize then
      if pool.arena+offset+poolHeaderSize = allocation then some offset
      else findAllocation pool arena allocation fuel (offset+(loadBlock arena offset).span)
    else none

def absorbFollowing (pool : ZiPool) (arena : Mem) (offset : ℕ) : Mem :=
  match nextBlock pool (loadBlock arena offset) offset with
  | none => arena
  | some following =>
    if (loadBlock arena following).state = ziPoolBlockFree then
      linkFollowing pool
        (updateBlock arena offset fun block =>
          { block with span := block.span+(loadBlock arena following).span }) offset
    else arena

def absorbIntoPreceding (pool : ZiPool) (arena : Mem) (offset : ℕ) : Mem × ℕ :=
  match previousBlock (loadBlock arena offset) offset with
  | none => (arena, offset)
  | some preceding =>
    if (loadBlock arena preceding).state = ziPoolBlockFree then
      (linkFollowing pool
        (updateBlock arena preceding fun block =>
          { block with
            span := block.span+(loadBlock arena offset).span
            generation := pool.generation }) preceding, preceding)
    else (arena, offset)

/-- Give back the allocated block at `offset`. -/
def releaseBlock (pool : ZiPool) (arena : Mem) (offset : ℕ) : Mem :=
  let arena := updateBlock arena offset fun block =>
    { block with requestedSize := 0, generation := pool.generation, state := ziPoolBlockFree }
  let arena := refreshBlockChecksum pool.cookie arena offset
  let arena := absorbFollowing pool arena offset
  let joined := absorbIntoPreceding pool arena offset
  let arena := zeroBytes joined.1 (joined.2+poolHeaderSize)
    ((loadBlock joined.1 joined.2).span-poolHeaderSize)
  refreshBlockChecksum pool.cookie arena joined.2

def ziPoolFree (s : PoolState) (allocation : ℕ) : Result Unit × PoolState :=
  if allocation = 0 then (.error .invalidArgument, s)
  else match ziPoolValidate s with
  | .error status => (.error status, s)
  | .ok () =>
    if allocation < s.pool.arena+poolHeaderSize ∨
        allocation ≥ s.pool.arena+s.pool.arenaSize ∨ allocation%ziPoolAlignment ≠ 0 then
      (.error .invalidArgument, s)
    else match findAllocation s.pool s.arena allocation s.pool.arenaSize 0 with
    | none => (.error .invalidArgument, s)
    | some offset =>
      let block := loadBlock s.arena offset
      if block.state = ziPoolBlockFree then (.error .invalidState, s)
      else if block.state ≠ ziPoolBlockAllocated ∨ s.pool.activeAllocations = 0 ∨
          s.pool.allocatedBytes < block.requestedSize then
        (.error .memoryCorruption, s)
      else match nextGeneration s.pool.generation with
      | .error status => (.error status, s)
      | .ok generation =>
        let pool :=
          { s.pool with
            generation
            allocatedBytes := s.pool.allocatedBytes-block.requestedSize
            activeAllocations := s.pool.activeAllocations-1 }
        (.ok (), ⟨pool,releaseBlock pool s.arena offset⟩)

end Zizium
