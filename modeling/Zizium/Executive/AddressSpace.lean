import Zizium.Mm.Paging

/-!
# User address spaces

`kernel/executive/process/address_space.c`: the regions of a process, the page tables of its user
half, and the physical pages behind them.  The pages that a backing of the caller has given out
are the reserved pages of the memory.
-/

namespace Zizium

open BlockIO List

abbrev addressSpaceVersion : ℕ := 1
abbrev addressSpaceBackingVersion : ℕ := 1
abbrev addressSpaceRegionCapacity : ℕ := 32
abbrev addressSpaceSize : ℕ := 1144
abbrev addressSpaceBackingSize : ℕ := 40

abbrev userAddressMin : ℕ := 0x10000
abbrev userAddressMaxExclusive : ℕ := 0x800000000000

abbrev userAccessRead : UInt32 := 0x1
abbrev userAccessWrite : UInt32 := 0x2
abbrev userAccessExecute : UInt32 := 0x4

inductive ZiAddressSpaceState where
  | empty
  | active
  | terminated
  deriving DecidableEq, Repr

structure ZiAddressSpaceRegion where
  virtualBase : ℕ
  physicalBase : ℕ
  pageCount : ℕ
  protection : UInt32
  owner : ℕ
  deriving DecidableEq, Repr

def backingPages (physicalBase pageCount : ℕ) : List ℕ :=
  (range pageCount).map fun index => physicalBase+index*x64PageSize

/-- The caller's routines for the pages behind regions.  They are asked with the pages in use,
and `physicalPointer` answers whether the pointer is not null. -/
structure ZiAddressSpaceBacking where
  structSize : ℕ
  version : ℕ
  allocatePages : ℕ → List ℕ → ℕ → ℕ → Result ℕ
  releasePages : List ℕ → ℕ → ℕ → ℕ → Result Unit
  physicalPointer : List ℕ → ℕ → Result Bool
  allocated : ∀ asked inUse pageCount owner base,
    allocatePages asked inUse pageCount owner = .ok base →
      base &&& x64PageOffsetMask = 0 ∧ ∀ page ∈ backingPages base pageCount, page ∉ inUse
  released : ∀ reserved base pageCount owner,
    (∀ page ∈ backingPages base pageCount, page ∈ reserved) →
      releasePages reserved base pageCount owner = .ok ()
  accessible : ∀ reserved page, page ∈ reserved → physicalPointer reserved page = .ok true

structure ZiAddressSpace where
  structSize : ℕ
  version : ℕ
  state : ZiAddressSpaceState
  paging : ZiX64PagingContext
  kernelTemplate : ZiX64PagingContext
  regions : List ZiAddressSpaceRegion
  deriving DecidableEq, Repr

namespace PagingState

/-- Give pages back one by one. -/
def unreserve : List ℕ → PagingState → PagingState
  | [], st => st
  | page :: pages, st =>
    unreserve pages (if page ∈ st.reserved then { st with reserved := st.reserved.erase page }
      else { st with stray := page :: st.stray })

end PagingState

section

variable (callbacks : ZiX64PagingCallbacks) (backing : ZiAddressSpaceBacking)

def backingAllocatePages (pageCount owner : ℕ) (st : PagingState) : Result ℕ × PagingState :=
  match backing.allocatePages st.asked (st.held ++ st.reserved) pageCount owner with
  | .error status => (.error status, { st with asked := st.asked+1 })
  | .ok base =>
    (.ok base, { st with
      asked := st.asked+1, reserved := backingPages base pageCount ++ st.reserved })

def backingReleasePages (physicalBase pageCount owner : ℕ) (st : PagingState) :
    Result Unit × PagingState :=
  match backing.releasePages st.reserved physicalBase pageCount owner with
  | .error status => (.error status, st)
  | .ok () => (.ok (), st.unreserve (backingPages physicalBase pageCount))

def ziUserRangeIsValid (address size : ℕ) : Bool :=
  if size = 0 ∨ address < userAddressMin ∨ userAddressMaxExclusive ≤ address then false
  else size ≤ userAddressMaxExclusive-address

def backingIsValid : Bool :=
  backing.structSize = addressSpaceBackingSize ∧ backing.version = addressSpaceBackingVersion

def addressSpaceIsActive (space : ZiAddressSpace) : Bool :=
  space.structSize = addressSpaceSize ∧ space.version = addressSpaceVersion ∧
    space.state = .active ∧ backingIsValid backing ∧ space.paging.rootPhysicalBase ≠ 0 ∧
    space.regions.length ≤ addressSpaceRegionCapacity

def validateOwnedMapping (virtualBase size : ℕ) (protection : UInt32) : Result Unit := do
  failIf (ziUserRangeIsValid virtualBase size = false) .invalidUserBuffer
  failIf (virtualBase &&& x64PageOffsetMask ≠ 0 ∨ size &&& x64PageOffsetMask ≠ 0) .alignmentError
  failIf (protection &&& (x64PageRead ||| x64PageUser) ≠ x64PageRead ||| x64PageUser ∨
    protection &&& ~~~(x64PageRead ||| x64PageWrite ||| x64PageExecute ||| x64PageUser) ≠ 0 ∨
    (protection &&& x64PageWrite ≠ 0 ∧ protection &&& x64PageExecute ≠ 0)) .accessDenied

def regionsOverlap (leftBase leftSize rightBase rightSize : ℕ) : Bool :=
  leftBase < rightBase+rightSize ∧ rightBase < leftBase+leftSize

def ZiAddressSpaceRegion.size (region : ZiAddressSpaceRegion) : ℕ :=
  region.pageCount*x64PageSize

/-- The loop of `zero_physical_pages` from a page on. -/
def zeroPhysicalPagesFrom (physicalBase : ℕ) : List ℕ → PagingState → Result Unit × PagingState
  | [], st => (.ok (), st)
  | index :: rest, st =>
    if uint64Max-index*x64PageSize < physicalBase then (.error .outOfBounds, st)
    else
      match backing.physicalPointer st.reserved (physicalBase+index*x64PageSize) with
      | .error status => (.error status, st)
      | .ok false => (.error .invalidState, st)
      | .ok true =>
        zeroPhysicalPagesFrom physicalBase rest (st.zeroPage (physicalBase+index*x64PageSize))

def zeroPhysicalPages (physicalBase pageCount : ℕ) (st : PagingState) : Result Unit × PagingState :=
  zeroPhysicalPagesFrom backing physicalBase (range pageCount) st

def ziAddressSpaceInitialise (kernelTemplate : ZiX64PagingContext) (st : PagingState) :
    Result ZiAddressSpace × PagingState :=
  if backingIsValid backing = false then (.error .invalidArgument, st)
  else
    match ziX64PagingCloneKernelHalf callbacks kernelTemplate st with
    | (.error status, st) => (.error status, st)
    | (.ok paging, st) =>
      (.ok ⟨addressSpaceSize,addressSpaceVersion,.active,paging,kernelTemplate,[]⟩, st)

/-- The part of `zi_address_space_map_owned` after pages were had. -/
def mapOwnedPages (space : ZiAddressSpace) (virtualBase size : ℕ) (protection : UInt32)
    (owner physicalBase : ℕ) (st : PagingState) : Result Unit × ZiAddressSpace × PagingState :=
  let pageCount := size/x64PageSize
  let mapped : Result Unit × PagingState :=
    match zeroPhysicalPages backing physicalBase pageCount st with
    | (.error status, st) => (.error status, st)
    | (.ok (), st) =>
      ziX64PagingMapRange callbacks space.paging virtualBase physicalBase size protection st
  match mapped with
  | (.error status, st) =>
    match backingReleasePages backing physicalBase pageCount owner st with
    | (.error _, st) => (.error .memoryCorruption, space, st)
    | (.ok (), st) => (.error status, space, st)
  | (.ok (), st) =>
    (.ok (), { space with
      regions := space.regions ++ [⟨virtualBase,physicalBase,pageCount,protection,owner⟩] }, st)

def ziAddressSpaceMapOwned (space : ZiAddressSpace) (virtualBase size : ℕ) (protection : UInt32)
    (owner : ℕ) (st : PagingState) : Result Unit × ZiAddressSpace × PagingState :=
  if addressSpaceIsActive backing space = false ∨ owner = 0 then
    (.error .invalidArgument, space, st)
  else
    match validateOwnedMapping virtualBase size protection with
    | .error status => (.error status, space, st)
    | .ok () =>
      if addressSpaceRegionCapacity ≤ space.regions.length then
        (.error .bufferTooSmall, space, st)
      else if space.regions.any fun region =>
          regionsOverlap virtualBase size region.virtualBase region.size then
        (.error .addressConflict, space, st)
      else
        match backingAllocatePages backing (size/x64PageSize) owner st with
        | (.error status, st) => (.error status, space, st)
        | (.ok physicalBase, st) =>
          if physicalBase = 0 ∨ physicalBase &&& x64PageOffsetMask ≠ 0 then
            (.error .invalidState, space,
              (backingReleasePages backing physicalBase (size/x64PageSize) owner st).2)
          else
            mapOwnedPages callbacks backing space virtualBase size protection owner physicalBase st

def alignUpU64 (value alignment : ℕ) : Option ℕ :=
  if alignment = 0 ∨ alignment &&& (alignment-1) ≠ 0 then none
  else if uint64Max-(alignment-1) < value then none
  else
    let raised := value+(alignment-1)
    some (raised-(raised &&& (alignment-1)))

def freeRangeScan (candidate size alignment : ℕ) :
    List ZiAddressSpaceRegion → Bool → ℕ → Option (Bool × ℕ)
  | [], isFree, next => some (isFree, next)
  | region :: rest, isFree, next =>
    if regionsOverlap candidate size region.virtualBase region.size = false then
      freeRangeScan candidate size alignment rest isFree next
    else
      match alignUpU64 (region.virtualBase+region.size) alignment with
      | none => none
      | some alignedEnd =>
        freeRangeScan candidate size alignment rest false
          (if next < alignedEnd then alignedEnd else next)

def freeRangeSearch (space : ZiAddressSpace) (searchEnd size alignment : ℕ) :
    ℕ → ℕ → Result ℕ
  | 0, _ => .error .notFound
  | rounds+1, candidate =>
    if candidate < searchEnd ∧ size ≤ searchEnd-candidate then
      match freeRangeScan candidate size alignment space.regions true candidate with
      | none => .error .outOfBounds
      | some (true, _) => .ok candidate
      | some (false, next) =>
        if next ≤ candidate then .error .invalidState
        else freeRangeSearch space searchEnd size alignment rounds next
    else .error .notFound

def ziAddressSpaceFindFreeRange (space : ZiAddressSpace)
    (searchBase searchEnd size alignment : ℕ) : Result ℕ :=
  if addressSpaceIsActive backing space = false ∨ size = 0 ∨ alignment < x64PageSize ∨
      alignment &&& (alignment-1) ≠ 0 ∨ alignment &&& x64PageOffsetMask ≠ 0 ∨
      size &&& x64PageOffsetMask ≠ 0 ∨ searchBase < userAddressMin ∨
      userAddressMaxExclusive < searchEnd ∨ searchEnd ≤ searchBase ∨
      searchEnd-searchBase < size then .error .invalidArgument
  else
    match alignUpU64 searchBase alignment with
    | none => .error .outOfBounds
    | some candidate => freeRangeSearch space searchEnd size alignment (searchEnd+1) candidate

def ZiAddressSpaceRegion.contains (region : ZiAddressSpaceRegion) (virtualBase size : ℕ) : Bool :=
  region.virtualBase ≤ virtualBase ∧ virtualBase-region.virtualBase ≤ region.size ∧
    size ≤ region.size-(virtualBase-region.virtualBase)

def findContainingRegion (space : ZiAddressSpace) (virtualBase pageCount : ℕ) : Option ℕ :=
  space.regions.findIdx? fun region => region.contains virtualBase (pageCount*x64PageSize)

def findExactRegion (space : ZiAddressSpace) (virtualBase pageCount : ℕ) : Option ℕ :=
  space.regions.findIdx? fun region =>
    region.virtualBase = virtualBase ∧ region.pageCount = pageCount

def ziAddressSpaceProtectOwned (space : ZiAddressSpace) (virtualBase size : ℕ) (protection : UInt32)
    (st : PagingState) : Result Unit × ZiAddressSpace × PagingState :=
  if addressSpaceIsActive backing space = false then (.error .invalidArgument, space, st)
  else
    match validateOwnedMapping virtualBase size protection with
    | .error status => (.error status, space, st)
    | .ok () =>
      match findContainingRegion space virtualBase (size/x64PageSize) with
      | none => (.error .notFound, space, st)
      | some index =>
        match ziX64PagingProtectRange callbacks space.paging virtualBase size protection st with
        | (.error status, st) => (.error status, space, st)
        | (.ok (), st) =>
          let regions := space.regions.modify index fun region =>
            { region with protection :=
                if region.virtualBase = virtualBase ∧ region.pageCount = size/x64PageSize then
                  protection else 0 }
          (.ok (), { space with regions := regions }, st)

def releaseRegion (space : ZiAddressSpace) (index : ℕ) (st : PagingState) :
    Result Unit × ZiAddressSpace × PagingState :=
  match space.regions[index]? with
  | none => (.error .invalidArgument, space, st)
  | some region =>
    match zeroPhysicalPages backing region.physicalBase region.pageCount st with
    | (.error status, st) => (.error status, space, st)
    | (.ok (), st) =>
      match ziX64PagingUnmapRange callbacks space.paging region.virtualBase region.size st with
      | (.error status, st) => (.error status, space, st)
      | (.ok (), st) =>
        match backingReleasePages backing region.physicalBase region.pageCount region.owner st with
        | (.error status, st) =>
          if region.protection = 0 then (.error .memoryCorruption, space, st)
          else
            match ziX64PagingMapRange callbacks space.paging region.virtualBase
              region.physicalBase region.size region.protection st with
            | (.error _, st) => (.error .memoryCorruption, space, st)
            | (.ok (), st) => (.error status, space, st)
        | (.ok (), st) => (.ok (), { space with regions := space.regions.eraseIdx index }, st)

def ziAddressSpaceUnmapOwned (space : ZiAddressSpace) (virtualBase size : ℕ) (st : PagingState) :
    Result Unit × ZiAddressSpace × PagingState :=
  if addressSpaceIsActive backing space = false ∨ size = 0 ∨ size &&& x64PageOffsetMask ≠ 0 then
    (.error .invalidArgument, space, st)
  else
    match findExactRegion space virtualBase (size/x64PageSize) with
    | none => (.error .notFound, space, st)
    | some index => releaseRegion callbacks backing space index st

/-- The loop that gives up the regions, the last one first. -/
def releaseRegions : ℕ → ZiAddressSpace → PagingState →
    Result Unit × ZiAddressSpace × PagingState
  | 0, space, st => (.ok (), space, st)
  | count+1, space, st =>
    match releaseRegion callbacks backing space count st with
    | (.error status, space, st) => (.error status, space, st)
    | (.ok (), space, st) => releaseRegions count space st

/-- What `zi_memory_zero` leaves of an address space. -/
def ZiAddressSpace.zero : ZiAddressSpace :=
  ⟨0,0,.empty,⟨0,false⟩,⟨0,false⟩,[]⟩

def ziAddressSpaceDestroy (space : ZiAddressSpace) (st : PagingState) :
    Result Unit × ZiAddressSpace × PagingState :=
  if addressSpaceIsActive backing space = false then (.error .invalidArgument, space, st)
  else
    match releaseRegions callbacks backing space.regions.length space st with
    | (.error status, space, st) => (.error status, space, st)
    | (.ok (), space, st) =>
      match ziX64PagingReleaseEmptyAddressSpace callbacks space.paging space.kernelTemplate st with
      | (.error status, paging, st) => (.error status, { space with paging := paging }, st)
      | (.ok (), _, st) => (.ok (), .zero, st)

def ziAddressSpaceQuery (space : ZiAddressSpace) (userAddress : ℕ) (requiredAccess : UInt32)
    (st : PagingState) : Result ZiX64PageMapping :=
  if addressSpaceIsActive backing space = false ∨ requiredAccess = 0 ∨
      requiredAccess &&& ~~~(userAccessRead ||| userAccessWrite ||| userAccessExecute) ≠ 0 ∨
      ziUserRangeIsValid userAddress 1 = false then .error .invalidUserBuffer
  else
    match ziX64PagingQuery callbacks space.paging userAddress st with
    | .error _ => .error .invalidUserBuffer
    | .ok mapping =>
      if mapping.protection &&& x64PageUser = 0 ∨
          (requiredAccess &&& userAccessRead ≠ 0 ∧ mapping.protection &&& x64PageRead = 0) ∨
          (requiredAccess &&& userAccessWrite ≠ 0 ∧ mapping.protection &&& x64PageWrite = 0) ∨
          (requiredAccess &&& userAccessExecute ≠ 0 ∧ mapping.protection &&& x64PageExecute = 0)
      then .error .invalidUserBuffer
      else .ok mapping

def pageByte (words : Fin 512 → ℕ) (offset : Fin 4096) : ℕ :=
  words ⟨offset/8,by omega⟩/256^(offset.val%8)%256

def writePageBytes (words : Fin 512 → ℕ) (offset : ℕ) (bytes : List ℕ) : Fin 512 → ℕ := fun index =>
  (finRange 8).foldr (fun (lane : Fin 8) word =>
    let position : Fin 4096 := ⟨index*8+lane,by omega⟩
    let byte := if offset ≤ position then (bytes[position.val-offset]?).getD
      (pageByte words position) else pageByte words position
    word*256+byte%256) 0

def copyTarget (space : ZiAddressSpace) (cursor : ℕ) (access : UInt32) (st : PagingState) :
    Result (ℕ × ℕ × ℕ) :=
  match ziAddressSpaceQuery callbacks backing space cursor access st with
  | .error status => .error status
  | .ok mapping =>
    let offset := mapping.physicalBase &&& x64PageOffsetMask
    let page := mapping.physicalBase-offset
    match backing.physicalPointer st.reserved page with
    | .ok true => .ok (page, offset, x64PageSize-offset)
    | _ => .error .invalidUserBuffer

def copyToUserLoop (space : ZiAddressSpace) : ℕ → ℕ → List ℕ → PagingState →
    Result Unit × PagingState
  | 0, _, _, st => (.ok (), st)
  | rounds+1, cursor, bytes, st =>
    if bytes = [] then (.ok (), st)
    else
      match copyTarget callbacks backing space cursor userAccessWrite st with
      | .error status => (.error status, st)
      | .ok (page, offset, room) =>
        let words := writePageBytes (st.tables page) offset (bytes.take room)
        copyToUserLoop space rounds (cursor+room) (bytes.drop room)
          { st with tables := Function.update st.tables page words }

def ziCopyToUser (space : ZiAddressSpace) (userDestination : ℕ) (bytes : List ℕ)
    (st : PagingState) : Result Unit × PagingState :=
  if addressSpaceIsActive backing space = false ∨
      ziUserRangeIsValid userDestination bytes.length = false then (.error .invalidUserBuffer, st)
  else copyToUserLoop callbacks backing space bytes.length userDestination bytes st

end

theorem ziUserRangeIsValid_iff {address size : ℕ} : ziUserRangeIsValid address size = true ↔
    size ≠ 0 ∧ userAddressMin ≤ address ∧ address+size ≤ userAddressMaxExclusive := by
  rw [ziUserRangeIsValid]
  split
  · simp only [Bool.false_eq_true,false_iff]
    omega
  · rw [decide_eq_true_eq]
    omega

end Zizium
