import Zizium.Runtime
import Mathlib.Data.List.Sort

/-!
# Physical memory manager

`kernel/mm/pmm/pmm.c`: the inventory of physical ranges built from the boot memory map,
and the page allocator over it.  Page metadata of all ranges lies in one array, in the
order of the ranges.

A function that can fail after it was handed the manager returns the manager as well, so
that a failure that had already changed it would be visible.
-/

namespace Zizium

abbrev ziMemoryPageSize : ℕ := 4096

inductive ZiMemoryPageState where
  | unmanaged
  | free
  | reserved
  | allocated
  deriving DecidableEq, Repr

abbrev ziMemoryOwnerNone : ℕ := 0
abbrev ziMemoryOwnerFirmware : ℕ := 1
abbrev ziMemoryOwnerBootloader : ℕ := 2
abbrev ziMemoryOwnerKernel : ℕ := 3
abbrev ziMemoryOwnerFramebuffer : ℕ := 5
abbrev ziMemoryOwnerAllocatorMetadata : ℕ := 6
abbrev ziMemoryOwnerTest : ℕ := 11
abbrev ziMemoryOwnerZeroGuard : ℕ := 12
abbrev ziMemoryOwnerProcessImage : ℕ := 13
abbrev ziMemoryOwnerDma : ℕ := 16

abbrev ziBootMemoryUsable : ℕ := 0
abbrev ziBootMemoryBootReclaimable : ℕ := 5
abbrev ziBootMemoryKernelAndModules : ℕ := 6
abbrev ziBootMemoryFramebuffer : ℕ := 7
abbrev ziBootMemoryReservedMapped : ℕ := 8

/-- A range as the boot loader reports it. -/
structure ZiBootMemoryRange where
  physicalBase : UInt64
  size : UInt64
  type : UInt32
  deriving DecidableEq

structure ZiMemoryRange where
  physicalBase : ℕ
  pageCount : ℕ
  type : ℕ
  owner : ℕ
  deriving DecidableEq, Repr

/-- The size of a range in bytes, as the 64-bit shift computes it. -/
def ZiMemoryRange.size (range : ZiMemoryRange) : ℕ :=
  range.pageCount*ziMemoryPageSize%2^64

/-- One past the last byte of a range, as the 64-bit sum computes it. -/
def ZiMemoryRange.endAddress (range : ZiMemoryRange) : ℕ :=
  (range.physicalBase+range.size)%2^64

structure ZiMemoryInventory where
  ranges : List ZiMemoryRange
  rangeCapacity : ℕ
  maximumPhysicalAddress : ℕ
  managedPageCount : ℕ
  initiallyUsablePageCount : ℕ
  deriving DecidableEq, Repr

@[ext]
structure ZiPhysicalPageMetadata where
  state : ZiMemoryPageState
  owner : ℕ
  deriving DecidableEq, Repr

structure ZiPhysicalMemoryStatistics where
  managedPages : ℕ
  freePages : ℕ
  reservedPages : ℕ
  allocatedPages : ℕ
  deriving DecidableEq, Repr

structure ZiPhysicalMemoryManager where
  inventory : ZiMemoryInventory
  pages : ℕ → ZiPhysicalPageMetadata
  metadataPageCount : ℕ
  statistics : ZiPhysicalMemoryStatistics

/-! ## Building the inventory -/

def ownerForBootType (type : ℕ) : ℕ :=
  if type = ziBootMemoryUsable then ziMemoryOwnerNone
  else if type = ziBootMemoryBootReclaimable then ziMemoryOwnerBootloader
  else if type = ziBootMemoryKernelAndModules then ziMemoryOwnerKernel
  else if type = ziBootMemoryFramebuffer then ziMemoryOwnerFramebuffer
  else ziMemoryOwnerFirmware

/-- One turn of `copy_boot_ranges`. -/
def copyBootRange (source : ZiBootMemoryRange) : Result ZiMemoryRange :=
  let base := source.physicalBase.toNat
  let size := source.size.toNat
  let type := source.type.toNat
  if size = 0 ∨ type > ziBootMemoryReservedMapped ∨ base%ziMemoryPageSize ≠ 0 ∨
      size%ziMemoryPageSize ≠ 0 ∨ base > uint64Max-size then
    .error .invalidArgument
  else
    .ok ⟨base,size/ziMemoryPageSize,type,ownerForBootType type⟩

def copyBootRanges (bootRanges : List ZiBootMemoryRange) : Result (List ZiMemoryRange) :=
  bootRanges.mapM copyBootRange

/-- `sort_ranges`: each value moves down past the larger ones before it.  The sorted part is
listed from its last entry back, the order in which the inner loop visits it. -/
def sortRanges (ranges : List ZiMemoryRange) : List ZiMemoryRange :=
  (ranges.foldl (fun sorted value =>
    sorted.orderedInsert (fun a b => b.physicalBase ≤ a.physicalBase) value) []).reverse

/-- `append_inventory_range`; the entries written so far are listed from the last one back. -/
def appendInventoryRange (storage : List ZiMemoryRange) (range : ZiMemoryRange) :
    Result (List ZiMemoryRange) :=
  match storage with
  | [] => .ok [range]
  | previous :: earlier =>
    if range.physicalBase < previous.endAddress then .error .addressConflict
    else if range.physicalBase = previous.endAddress ∧ range.type = previous.type then
      if previous.pageCount > uint64Max-range.pageCount then .error .outOfBounds
      else .ok ({ previous with pageCount := previous.pageCount+range.pageCount } :: earlier)
    else .ok (range :: previous :: earlier)

structure ZiMemoryInventoryTotals where
  managedPages : ℕ
  usablePages : ℕ
  maximumAddress : ℕ

def accountInventoryRange (range : ZiMemoryRange) (totals : ZiMemoryInventoryTotals) :
    Result ZiMemoryInventoryTotals :=
  if totals.managedPages > uint64Max-range.pageCount then .error .outOfBounds
  else if range.type = ziBootMemoryUsable ∧ totals.usablePages > uint64Max-range.pageCount then
    .error .outOfBounds
  else
    .ok { managedPages := totals.managedPages+range.pageCount
          usablePages :=
            if range.type = ziBootMemoryUsable then totals.usablePages+range.pageCount
            else totals.usablePages
          maximumAddress := max totals.maximumAddress range.endAddress }

/-- One turn of `merge_inventory_ranges`. -/
def mergeInventoryRange (merged : List ZiMemoryRange × ZiMemoryInventoryTotals)
    (range : ZiMemoryRange) : Result (List ZiMemoryRange × ZiMemoryInventoryTotals) :=
  match appendInventoryRange merged.1 range with
  | .error status => .error status
  | .ok storage =>
    match accountInventoryRange range merged.2 with
    | .error status => .error status
    | .ok totals => .ok (storage, totals)

def mergeInventoryRanges (ranges : List ZiMemoryRange) :
    Result (List ZiMemoryRange × ZiMemoryInventoryTotals) :=
  ranges.foldlM mergeInventoryRange ([], ⟨0,0,0⟩)

def ziMemoryInventoryBuild (bootRanges : List ZiBootMemoryRange) (storageCapacity : ℕ) :
    Result ZiMemoryInventory :=
  if bootRanges.length = 0 ∨ storageCapacity < bootRanges.length then .error .invalidArgument
  else match copyBootRanges bootRanges with
  | .error status => .error status
  | .ok copied =>
    match mergeInventoryRanges (sortRanges copied) with
    | .error status => .error status
    | .ok (storage, totals) =>
      .ok { ranges := storage.reverse
            rangeCapacity := storageCapacity
            maximumPhysicalAddress := totals.maximumAddress
            managedPageCount := totals.managedPages
            initiallyUsablePageCount := totals.usablePages }

/-! ## Initialisation -/

/-- The loop that stores `value` in `count` consecutive entries. -/
def setPages (pages : ℕ → ZiPhysicalPageMetadata) (first : ℕ) (value : ZiPhysicalPageMetadata) :
    ℕ → ℕ → ZiPhysicalPageMetadata
  | 0 => pages
  | count+1 => Function.update (setPages pages first value count) (first+count) value

def initialMetadata (range : ZiMemoryRange) : ZiPhysicalPageMetadata :=
  if range.type = ziBootMemoryUsable then ⟨.free,ziMemoryOwnerNone⟩
  else ⟨.reserved,range.owner%256⟩

/-- The variables of the loop of `zi_pmm_initialise`. -/
structure PmmInitialisation where
  pages : ℕ → ZiPhysicalPageMetadata
  statistics : ZiPhysicalMemoryStatistics
  metadataIndex : ℕ

def initialiseRange (acc : PmmInitialisation) (range : ZiMemoryRange) : PmmInitialisation where
  pages := setPages acc.pages acc.metadataIndex (initialMetadata range) range.pageCount
  statistics :=
    { acc.statistics with
      managedPages := (acc.statistics.managedPages+range.pageCount)%2^64
      freePages :=
        if range.type = ziBootMemoryUsable then
          (acc.statistics.freePages+range.pageCount)%2^64
        else acc.statistics.freePages
      reservedPages :=
        if range.type = ziBootMemoryUsable then acc.statistics.reservedPages
        else (acc.statistics.reservedPages+range.pageCount)%2^64 }
  metadataIndex := (acc.metadataIndex+range.pageCount)%2^64

abbrev pageMetadataSize : ℕ := 2

def ziPmmMetadataSize (pageCount : ℕ) : Result ℕ :=
  if pageCount = 0 ∨ pageCount > uint64Max/pageMetadataSize then .error .invalidArgument
  else .ok (pageCount*pageMetadataSize)

def ziPmmInitialise (inventory : ZiMemoryInventory) (metadataSize : ℕ) :
    Result ZiPhysicalMemoryManager :=
  if inventory.ranges.length = 0 ∨ inventory.managedPageCount = 0 then .error .invalidArgument
  else match ziPmmMetadataSize inventory.managedPageCount with
  | .error status => .error status
  | .ok requiredSize =>
    if metadataSize < requiredSize then .error .bufferTooSmall
    else
      let done := inventory.ranges.foldl initialiseRange
        ⟨fun _ => ⟨.unmanaged,0⟩,⟨0,0,0,0⟩,0⟩
      .ok { inventory
            pages := done.pages
            metadataPageCount := inventory.managedPageCount
            statistics := done.statistics }

/-! ## From addresses to metadata -/

def rangeMetadataStart (inventory : ZiMemoryInventory) (rangeIndex : ℕ) : ℕ :=
  ((inventory.ranges.take rangeIndex).map ZiMemoryRange.pageCount).sum%2^64

/-- The range test of `locate_page`. -/
def containsAddress (address : ℕ) (range : ZiMemoryRange) : Bool :=
  address ≥ range.physicalBase ∧ address-range.physicalBase < range.size

/-- The range test of `locate_page_interval`. -/
def containsInterval (base size : ℕ) (range : ZiMemoryRange) : Bool :=
  base ≥ range.physicalBase ∧ base-range.physicalBase ≤ range.size ∧
    size ≤ range.size-(base-range.physicalBase)

def locateIn (inventory : ZiMemoryInventory) (address : ℕ) (test : ZiMemoryRange → Bool) :
    Result ℕ :=
  match inventory.ranges.zipIdx.find? fun entry => test entry.1 with
  | none => .error .outOfBounds
  | some (range, index) =>
    .ok ((rangeMetadataStart inventory index +
      (address-range.physicalBase)/ziMemoryPageSize)%2^64)

def locatePage (inventory : ZiMemoryInventory) (physicalAddress : ℕ) : Result ℕ :=
  locateIn inventory physicalAddress (containsAddress physicalAddress)

def locatePageInterval (inventory : ZiMemoryInventory) (physicalBase pageCount : ℕ) : Result ℕ :=
  if pageCount = 0 ∨ physicalBase%ziMemoryPageSize ≠ 0 ∨
      pageCount > uint64Max/ziMemoryPageSize then
    .error .invalidArgument
  else if physicalBase > uint64Max-pageCount*ziMemoryPageSize then .error .outOfBounds
  else locateIn inventory physicalBase
    (containsInterval physicalBase (pageCount*ziMemoryPageSize))

/-! ## Operations -/

def allocationOwnerIsValid (owner : ℕ) : Bool :=
  (ziMemoryOwnerAllocatorMetadata ≤ owner ∧ owner ≤ ziMemoryOwnerTest) ∨
    (ziMemoryOwnerProcessImage ≤ owner ∧ owner ≤ ziMemoryOwnerDma)

def reservationOwnerIsValid (owner : ℕ) : Bool :=
  allocationOwnerIsValid owner || owner = ziMemoryOwnerZeroGuard

def runIs (test : ZiPhysicalPageMetadata → Bool) (manager : ZiPhysicalMemoryManager)
    (first count : ℕ) : Bool :=
  (List.range count).all fun offset => test (manager.pages (first+offset))

def runIsFree (manager : ZiPhysicalMemoryManager) (firstPage pageCount : ℕ) : Bool :=
  runIs (fun page => page.state = .free) manager firstPage pageCount

def ZiPhysicalMemoryStatistics.reserve (s : ZiPhysicalMemoryStatistics) (count : ℕ) :
    ZiPhysicalMemoryStatistics :=
  { s with
    freePages := (s.freePages+2^64-count)%2^64
    reservedPages := (s.reservedPages+count)%2^64 }

def ZiPhysicalMemoryStatistics.allocate (s : ZiPhysicalMemoryStatistics) (count : ℕ) :
    ZiPhysicalMemoryStatistics :=
  { s with
    freePages := (s.freePages+2^64-count)%2^64
    allocatedPages := (s.allocatedPages+count)%2^64 }

def ZiPhysicalMemoryStatistics.free (s : ZiPhysicalMemoryStatistics) (count : ℕ) :
    ZiPhysicalMemoryStatistics :=
  { s with
    allocatedPages := (s.allocatedPages+2^64-count)%2^64
    freePages := (s.freePages+count)%2^64 }

def ziPmmReserve (manager : ZiPhysicalMemoryManager) (physicalBase pageCount owner : ℕ) :
    Result Unit × ZiPhysicalMemoryManager :=
  if reservationOwnerIsValid owner = false then (.error .invalidArgument, manager)
  else match locatePageInterval manager.inventory physicalBase pageCount with
  | .error status => (.error status, manager)
  | .ok firstPage =>
    if runIsFree manager firstPage pageCount = false then (.error .resourceInUse, manager)
    else (.ok (),
      { manager with
        pages := setPages manager.pages firstPage ⟨.reserved,owner%256⟩ pageCount
        statistics := manager.statistics.reserve pageCount })

/-- The loop of `zi_pmm_reassign_reserved` that stores the new owner. -/
def setOwners (pages : ℕ → ZiPhysicalPageMetadata) (first owner : ℕ) :
    ℕ → ℕ → ZiPhysicalPageMetadata
  | 0 => pages
  | count+1 =>
    let done := setOwners pages first owner count
    Function.update done (first+count) { done (first+count) with owner }

def ziPmmReassignReserved (manager : ZiPhysicalMemoryManager)
    (physicalBase pageCount expectedOwner newOwner : ℕ) : Result Unit × ZiPhysicalMemoryManager :=
  if expectedOwner = ziMemoryOwnerNone ∨ expectedOwner > ziMemoryOwnerTest ∨
      newOwner = ziMemoryOwnerNone ∨ newOwner > ziMemoryOwnerTest then
    (.error .invalidArgument, manager)
  else match locatePageInterval manager.inventory physicalBase pageCount with
  | .error status => (.error status, manager)
  | .ok firstPage =>
    if runIs (fun page => page.state = .reserved ∧ page.owner = expectedOwner) manager firstPage
        pageCount = false then
      (.error .invalidState, manager)
    else (.ok (),
      { manager with pages := setOwners manager.pages firstPage (newOwner%256) pageCount })

/-- A request that passed the argument checks of `zi_pmm_allocate_below`. -/
structure ZiPmmAllocationRequest where
  pageCount : ℕ
  alignmentPages : ℕ
  maximumPhysicalAddress : ℕ
  owner : ℕ
  alignmentPages_pos : 0 < alignmentPages

/-- The loop of `allocate_from_range`; `physicalPage` is the candidate page and `offset` its
distance from the start of the range; neither sum wraps, since the offset is below the page
count of a range and the alignment is a power of two.  `none` is the not-found status, on
which the caller goes on to the next range. -/
def allocateAt (manager : ZiPhysicalMemoryManager) (range : ZiMemoryRange) (metadataStart : ℕ)
    (request : ZiPmmAllocationRequest) (offset physicalPage : ℕ) :
    Option (ℕ × ZiPhysicalMemoryManager) :=
  if h : offset < range.pageCount ∧ request.pageCount ≤ range.pageCount-offset then
    let candidateMetadata := metadataStart+offset
    let candidateBase := physicalPage*ziMemoryPageSize%2^64
    let allocationSize := request.pageCount*ziMemoryPageSize%2^64
    if candidateBase > request.maximumPhysicalAddress ∨
        allocationSize-1 > request.maximumPhysicalAddress-candidateBase then
      none
    else if runIsFree manager candidateMetadata request.pageCount then
      some (candidateBase,
        { manager with
          pages := setPages manager.pages candidateMetadata ⟨.allocated,request.owner%256⟩
            request.pageCount
          statistics := manager.statistics.allocate request.pageCount })
    else
      allocateAt manager range metadataStart request (offset+request.alignmentPages)
        (physicalPage+request.alignmentPages)
  else none
termination_by range.pageCount-offset
decreasing_by
  have := request.alignmentPages_pos
  omega

def allocateFromRange (manager : ZiPhysicalMemoryManager) (range : ZiMemoryRange)
    (metadataStart : ℕ) (request : ZiPmmAllocationRequest) : Option (ℕ × ZiPhysicalMemoryManager) :=
  let firstPhysicalPage := range.physicalBase/ziMemoryPageSize
  let mask := request.alignmentPages-1
  if range.type ≠ ziBootMemoryUsable ∨ request.pageCount > range.pageCount then none
  else if firstPhysicalPage+mask > uint64Max then none
  else
    -- Clearing the low bits of `first + mask` is subtracting them.
    let candidatePhysicalPage := (firstPhysicalPage+mask)-((firstPhysicalPage+mask) &&& mask)
    allocateAt manager range metadataStart request
      ((candidatePhysicalPage+2^64-firstPhysicalPage)%2^64) candidatePhysicalPage

/-- The loop of `zi_pmm_allocate_below` over the ranges. -/
def allocateFromRanges (manager : ZiPhysicalMemoryManager) (request : ZiPmmAllocationRequest) :
    (metadataStart : ℕ) → List ZiMemoryRange → Result ℕ × ZiPhysicalMemoryManager
  | _, [] => (.error .noMemory, manager)
  | metadataStart, range :: ranges =>
    match allocateFromRange manager range metadataStart request with
    | some (base, manager') => (.ok base, manager')
    | none => allocateFromRanges manager request ((metadataStart+range.pageCount)%2^64) ranges

def ziPmmAllocateBelow (manager : ZiPhysicalMemoryManager)
    (pageCount alignmentPages maximumPhysicalAddress owner : ℕ) :
    Result ℕ × ZiPhysicalMemoryManager :=
  if h : pageCount = 0 ∨ alignmentPages = 0 ∨ alignmentPages &&& (alignmentPages-1) ≠ 0 ∨
      allocationOwnerIsValid owner = false ∨ maximumPhysicalAddress < ziMemoryPageSize-1 then
    (.error .invalidArgument, manager)
  else if pageCount > manager.statistics.freePages ∨ pageCount > manager.metadataPageCount then
    (.error .noMemory, manager)
  else
    allocateFromRanges manager
      ⟨pageCount,alignmentPages,maximumPhysicalAddress,owner,by omega⟩ 0
      manager.inventory.ranges

def ziPmmAllocate (manager : ZiPhysicalMemoryManager) (pageCount alignmentPages owner : ℕ) :
    Result ℕ × ZiPhysicalMemoryManager :=
  ziPmmAllocateBelow manager pageCount alignmentPages uint64Max owner

def ziPmmFree (manager : ZiPhysicalMemoryManager) (physicalBase pageCount expectedOwner : ℕ) :
    Result Unit × ZiPhysicalMemoryManager :=
  if allocationOwnerIsValid expectedOwner = false then (.error .invalidArgument, manager)
  else match locatePageInterval manager.inventory physicalBase pageCount with
  | .error status => (.error status, manager)
  | .ok firstPage =>
    if runIs (fun page => page.state = .allocated ∧ page.owner = expectedOwner) manager firstPage
        pageCount = false then
      (.error .invalidState, manager)
    else (.ok (),
      { manager with
        pages := setPages manager.pages firstPage ⟨.free,ziMemoryOwnerNone⟩ pageCount
        statistics := manager.statistics.free pageCount })

def ziPmmQuery (manager : ZiPhysicalMemoryManager) (physicalAddress : ℕ) :
    Result ZiPhysicalPageMetadata :=
  match locatePage manager.inventory physicalAddress with
  | .error status => .error status
  | .ok metadataIndex => .ok (manager.pages metadataIndex)

def ziPmmStatistics (manager : ZiPhysicalMemoryManager) : ZiPhysicalMemoryStatistics :=
  manager.statistics

end Zizium
