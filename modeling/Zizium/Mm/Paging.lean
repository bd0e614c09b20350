import Zizium.Runtime
import Mathlib.Data.List.FinRange

/-!
# Four-level page tables

`kernel/mm/vmm/x64_paging.c` over physical memory read as pages of 512 entries.  A pointer to a
table is the physical base of its page, a pointer to an entry the base with an index.

The callbacks that obtain a page and make it accessible belong to the caller.  What they answer
is arbitrary within their contract, which `ZiX64PagingCallbacks` carries.  The state keeps the
pages obtained and not yet released, the pages in use for something else, and every release of a
page that was not held.
-/

namespace Zizium

open BlockIO Function List

abbrev x64PageSize : ℕ := 0x1000
abbrev x64PageOffsetMask : ℕ := 0xfff

abbrev x64PageRead : UInt32 := 0x1
abbrev x64PageWrite : UInt32 := 0x2
abbrev x64PageExecute : UInt32 := 0x4
abbrev x64PageUser : UInt32 := 0x8
abbrev x64PageGlobal : UInt32 := 0x10
abbrev x64PageDevice : UInt32 := 0x20
abbrev x64PageValid : UInt32 := 0x3f

abbrev x64EntryPresent : ℕ := 0x1
abbrev x64EntryWrite : ℕ := 0x2
abbrev x64EntryUser : ℕ := 0x4
abbrev x64EntryWriteThrough : ℕ := 0x8
abbrev x64EntryCacheDisable : ℕ := 0x10
abbrev x64EntryAccessed : ℕ := 0x20
abbrev x64EntryDirty : ℕ := 0x40
abbrev x64EntryLarge : ℕ := 0x80
abbrev x64EntryGlobal : ℕ := 0x100
abbrev x64EntryNoExecute : ℕ := 0x8000000000000000
abbrev x64EntryPhysicalMask : ℕ := 0x000ffffffffff000
abbrev x64MaxPhysicalAddress : ℕ := 0x10000000000000

/-- The caller's routines.  `allocatePage` is asked with the number of pages asked for before and
the pages in use, `physicalPointer` with the pages held; its answer says whether the pointer is
not null.  Page zero is never given out (`docs/memory.md`): a root of zero stands for none. -/
structure ZiX64PagingCallbacks where
  allocatePage : ℕ → List ℕ → Result ℕ
  physicalPointer : List ℕ → ℕ → Result Bool
  allocated : ∀ time inUse page, allocatePage time inUse = .ok page →
    page ≠ 0 ∧ page &&& x64PageOffsetMask = 0 ∧ page ∉ inUse
  accessible : ∀ held page, page ∈ held → physicalPointer held page = .ok true

structure ZiX64PagingContext where
  rootPhysicalBase : ℕ
  nxEnabled : Bool
  deriving DecidableEq, Repr

structure ZiX64PageMapping where
  physicalBase : ℕ
  protection : UInt32
  deriving DecidableEq, Repr

/-- Physical memory with the pages held for tables, the pages in use for something else, the
number of pages asked for, and the pages released without being held. -/
structure PagingState where
  tables : ℕ → Fin 512 → ℕ
  held : List ℕ
  reserved : List ℕ
  asked : ℕ
  stray : List ℕ

structure EntryPointer where
  table : ℕ
  index : Fin 512
  deriving DecidableEq, Repr

structure ZiX64CreatedTable where
  parentEntry : EntryPointer
  physicalBase : ℕ
  deriving DecidableEq, Repr

namespace PagingState

def load (st : PagingState) (entry : EntryPointer) : ℕ :=
  st.tables entry.table entry.index

def store (st : PagingState) (entry : EntryPointer) (value : ℕ) : PagingState :=
  let words := update (st.tables entry.table) entry.index value
  { st with tables := update st.tables entry.table words }

def zeroPage (st : PagingState) (page : ℕ) : PagingState :=
  { st with tables := update st.tables page fun _ => 0 }

def releasePage (st : PagingState) (page : ℕ) : PagingState :=
  if page ∈ st.held then { st with held := st.held.erase page }
  else { st with stray := page :: st.stray }

end PagingState

def ziX64AddressIsCanonical (virtualAddress : ℕ) : Bool :=
  if (virtualAddress >>> 47) &&& 1 = 0 then virtualAddress >>> 48 = 0
  else virtualAddress >>> 48 = 0xffff

def validatePageArguments (virtualAddress physicalAddress : ℕ) (protection : UInt32) :
    Result Unit := do
  failIf (ziX64AddressIsCanonical virtualAddress = false ∨ protection &&& x64PageRead = 0)
    .invalidArgument
  failIf (virtualAddress &&& x64PageOffsetMask ≠ 0 ∨ physicalAddress &&& x64PageOffsetMask ≠ 0)
    .alignmentError
  failIf (x64MaxPhysicalAddress ≤ physicalAddress) .outOfBounds

def validateVirtualRange (virtualAddress size : ℕ) : Result Unit := do
  failIf (size = 0 ∨ ziX64AddressIsCanonical virtualAddress = false) .invalidArgument
  failIf (size &&& x64PageOffsetMask ≠ 0 ∨ virtualAddress &&& x64PageOffsetMask ≠ 0)
    .alignmentError
  failIf (uint64Max-(size-1) < virtualAddress ∨
    ziX64AddressIsCanonical (virtualAddress+size-1) = false) .outOfBounds

def validateProtection (context : ZiX64PagingContext) (protection : UInt32) : Result Unit :=
  failIf (context.nxEnabled = false ∨ protection &&& x64PageRead = 0 ∨
    protection &&& ~~~x64PageValid ≠ 0 ∨
    (protection &&& x64PageWrite ≠ 0 ∧ protection &&& x64PageExecute ≠ 0) ∨
    (protection &&& x64PageDevice ≠ 0 ∧ protection &&& x64PageExecute ≠ 0)) .invalidArgument

def physicalTable (callbacks : ZiX64PagingCallbacks) (st : PagingState) (physicalBase : ℕ) :
    Result Unit := do
  failIf (physicalBase &&& x64PageOffsetMask ≠ 0) .alignmentError
  failIf (x64MaxPhysicalAddress ≤ physicalBase) .outOfBounds
  let pointer ← callbacks.physicalPointer st.held physicalBase
  failIf (pointer = false) .invalidState

def allocateTable (callbacks : ZiX64PagingCallbacks) (st : PagingState) : Result ℕ × PagingState :=
  match callbacks.allocatePage st.asked (st.held ++ st.reserved) with
  | .error status => (.error status, { st with asked := st.asked+1 })
  | .ok physicalBase =>
    let st := { st with asked := st.asked+1, held := physicalBase :: st.held }
    if physicalBase &&& x64PageOffsetMask ≠ 0 ∨ x64MaxPhysicalAddress ≤ physicalBase then
      (.error .invalidState, st.releasePage physicalBase)
    else
      match physicalTable callbacks st physicalBase with
      | .error status => (.error status, st.releasePage physicalBase)
      | .ok () => (.ok physicalBase, st.zeroPage physicalBase)

/-- The last created table comes first. -/
def rollbackTables : List ZiX64CreatedTable → PagingState → PagingState
  | [], st => st
  | created :: rest, st =>
    rollbackTables rest ((st.store created.parentEntry 0).releasePage created.physicalBase)

def tableIndex (virtualAddress shift : ℕ) : Fin 512 :=
  ⟨(virtualAddress >>> shift) &&& 0x1ff,Nat.lt_of_le_of_lt Nat.and_le_right (by decide)⟩

def tableIndices (virtualAddress : ℕ) : List (Fin 512) :=
  [tableIndex virtualAddress 39,tableIndex virtualAddress 30,tableIndex virtualAddress 21,
    tableIndex virtualAddress 12]

def tableFlags (protection : UInt32) : ℕ :=
  x64EntryPresent ||| x64EntryWrite ||| if protection &&& x64PageUser ≠ 0 then x64EntryUser else 0

/-- The loop of `walk_to_leaf` from the table it has reached.  `walked` has the entries visited,
the last one first. -/
def walkLevels (callbacks : ZiX64PagingCallbacks) (create : Bool) (protection : UInt32) :
    List (Fin 512) → ℕ → List ZiX64CreatedTable → List EntryPointer → PagingState →
      Result (List EntryPointer) × PagingState
  | [], _, _, walked, st => (.ok walked, st)
  | [index], table, _, walked, st => (.ok (⟨table,index⟩ :: walked), st)
  | index :: next :: rest, table, created, walked, st =>
    let entry : EntryPointer := ⟨table,index⟩
    if st.load entry &&& x64EntryPresent = 0 then
      if create = false then (.error .pageNotMapped, rollbackTables created st)
      else
        match allocateTable callbacks st with
        | (.error status, st) => (.error status, rollbackTables created st)
        | (.ok physicalBase, st) =>
          walkLevels callbacks create protection (next :: rest) physicalBase
            (⟨entry,physicalBase⟩ :: created) (entry :: walked)
            (st.store entry (physicalBase ||| tableFlags protection))
    else if st.load entry &&& x64EntryLarge ≠ 0 then
      (.error .invalidState, rollbackTables created st)
    else
      let physicalBase := st.load entry &&& x64EntryPhysicalMask
      match physicalTable callbacks st physicalBase with
      | .error status => (.error status, rollbackTables created st)
      | .ok () =>
        walkLevels callbacks create protection (next :: rest) physicalBase created
          (entry :: walked) st

def walkToLeaf (callbacks : ZiX64PagingCallbacks) (context : ZiX64PagingContext)
    (virtualAddress : ℕ) (create : Bool) (protection : UInt32) (st : PagingState) :
    Result (List EntryPointer) × PagingState :=
  if ziX64AddressIsCanonical virtualAddress = false then (.error .invalidArgument, st)
  else if context.rootPhysicalBase = 0 then (.error .invalidState, st)
  else
    match physicalTable callbacks st context.rootPhysicalBase with
    | .error status => (.error status, st)
    | .ok () =>
      walkLevels callbacks create protection (tableIndices virtualAddress)
        context.rootPhysicalBase [] [] st

def leafFlags (nxEnabled : Bool) (protection : UInt32) : ℕ :=
  x64EntryPresent |||
  (if protection &&& x64PageWrite ≠ 0 then x64EntryWrite else 0) |||
  (if protection &&& x64PageUser ≠ 0 then x64EntryUser else 0) |||
  (if protection &&& x64PageGlobal ≠ 0 then x64EntryGlobal else 0) |||
  (if protection &&& x64PageDevice ≠ 0 then x64EntryWriteThrough ||| x64EntryCacheDisable
    else 0) |||
  (if nxEnabled = true ∧ protection &&& x64PageExecute = 0 then x64EntryNoExecute else 0)

def protectionFromLeaf (entry : ℕ) : UInt32 :=
  x64PageRead |||
  (if entry &&& x64EntryWrite ≠ 0 then x64PageWrite else 0) |||
  (if entry &&& x64EntryNoExecute = 0 then x64PageExecute else 0) |||
  (if entry &&& x64EntryUser ≠ 0 then x64PageUser else 0) |||
  (if entry &&& x64EntryGlobal ≠ 0 then x64PageGlobal else 0) |||
  (if entry &&& (x64EntryWriteThrough ||| x64EntryCacheDisable) ≠ 0 then x64PageDevice else 0)

/-- The entries above the leaf, from the root down. -/
def promoteUserPath (walk : List EntryPointer) (protection : UInt32) (st : PagingState) :
    PagingState :=
  if protection &&& x64PageUser = 0 then st
  else walk.tail.foldr (fun entry st => st.store entry (st.load entry ||| x64EntryUser)) st

def tableIsEmpty (st : PagingState) (table : ℕ) : Bool :=
  (finRange 512).all fun index => st.tables table index &&& x64EntryPresent = 0

def ziX64PagingMapPage (callbacks : ZiX64PagingCallbacks) (context : ZiX64PagingContext)
    (virtualAddress physicalAddress : ℕ) (protection : UInt32) (st : PagingState) :
    Result Unit × PagingState :=
  match validatePageArguments virtualAddress physicalAddress protection with
  | .error status => (.error status, st)
  | .ok () =>
    match validateProtection context protection with
    | .error status => (.error status, st)
    | .ok () =>
      match walkToLeaf callbacks context virtualAddress true protection st with
      | (.error status, st) => (.error status, st)
      | (.ok [], st) => (.error .invalidState, st)
      | (.ok (leaf :: above), st) =>
        if st.load leaf &&& x64EntryPresent ≠ 0 then (.error .alreadyExists, st)
        else
          (.ok (), (promoteUserPath (leaf :: above) protection st).store leaf
            (physicalAddress ||| leafFlags context.nxEnabled protection))

/-- The loop that gives up empty tables, from the last level up. -/
def pruneTables : List EntryPointer → PagingState → PagingState
  | entry :: parent :: above, st =>
    if tableIsEmpty st entry.table = false then st
    else pruneTables (parent :: above) ((st.store parent 0).releasePage entry.table)
  | _, st => st

def ziX64PagingUnmapPage (callbacks : ZiX64PagingCallbacks) (context : ZiX64PagingContext)
    (virtualAddress : ℕ) (st : PagingState) : Result Unit × PagingState :=
  if ziX64AddressIsCanonical virtualAddress = false ∨
      virtualAddress &&& x64PageOffsetMask ≠ 0 then (.error .invalidArgument, st)
  else
    match walkToLeaf callbacks context virtualAddress false x64PageRead st with
    | (.error status, st) => (.error status, st)
    | (.ok [], st) => (.error .invalidState, st)
    | (.ok (leaf :: above), st) =>
      if st.load leaf &&& x64EntryPresent = 0 then (.error .pageNotMapped, st)
      else (.ok (), pruneTables (leaf :: above) (st.store leaf 0))

/-- Give back the first pages of a range, the last of them first. -/
def unmapMapped (callbacks : ZiX64PagingCallbacks) (context : ZiX64PagingContext)
    (virtualAddress : ℕ) : ℕ → PagingState → PagingState
  | 0, st => st
  | pages+1, st =>
    unmapMapped callbacks context virtualAddress pages
      (ziX64PagingUnmapPage callbacks context (virtualAddress+pages*x64PageSize) st).2

/-- The loop of `zi_x64_paging_map_range` with `remaining` pages to map after `mapped` pages. -/
def mapPages (callbacks : ZiX64PagingCallbacks) (context : ZiX64PagingContext)
    (virtualAddress physicalAddress : ℕ) (protection : UInt32) :
    ℕ → ℕ → PagingState → Result Unit × PagingState
  | 0, _, st => (.ok (), st)
  | remaining+1, mapped, st =>
    match ziX64PagingMapPage callbacks context (virtualAddress+mapped*x64PageSize)
      (physicalAddress+mapped*x64PageSize) protection st with
    | (.error status, st) => (.error status, unmapMapped callbacks context virtualAddress mapped st)
    | (.ok (), st) =>
      mapPages callbacks context virtualAddress physicalAddress protection remaining
        (mapped+1) st

def ziX64PagingMapRange (callbacks : ZiX64PagingCallbacks) (context : ZiX64PagingContext)
    (virtualAddress physicalAddress size : ℕ) (protection : UInt32) (st : PagingState) :
    Result Unit × PagingState :=
  match validateVirtualRange virtualAddress size with
  | .error status => (.error status, st)
  | .ok () =>
    if physicalAddress &&& x64PageOffsetMask ≠ 0 then (.error .alignmentError, st)
    else if x64MaxPhysicalAddress ≤ physicalAddress ∨
        x64MaxPhysicalAddress-physicalAddress < size then (.error .outOfBounds, st)
    else
      mapPages callbacks context virtualAddress physicalAddress protection (size/x64PageSize) 0
        st

def pageAddress (virtualAddress : ℕ) : ℕ :=
  virtualAddress-(virtualAddress &&& x64PageOffsetMask)

def ziX64PagingQuery (callbacks : ZiX64PagingCallbacks) (context : ZiX64PagingContext)
    (virtualAddress : ℕ) (st : PagingState) : Result ZiX64PageMapping :=
  if ziX64AddressIsCanonical virtualAddress = false then .error .invalidArgument
  else
    match walkToLeaf callbacks context (pageAddress virtualAddress) false x64PageRead st with
    | (.error status, _) => .error status
    | (.ok [], _) => .error .invalidState
    | (.ok (leaf :: _), st) =>
      if st.load leaf &&& x64EntryPresent = 0 then .error .pageNotMapped
      else .ok ⟨(st.load leaf &&& x64EntryPhysicalMask) ||| (virtualAddress &&& x64PageOffsetMask),
        protectionFromLeaf (st.load leaf)⟩

def queryPages (callbacks : ZiX64PagingCallbacks) (context : ZiX64PagingContext)
    (virtualAddress : ℕ) (st : PagingState) (pages : ℕ) : Result Unit :=
  (range pages).forM fun page => do
    let _ ← ziX64PagingQuery callbacks context (virtualAddress+page*x64PageSize) st

/-- A change of each page of a range in turn, up to the first that fails. -/
def changePages (change : ℕ → PagingState → Result Unit × PagingState) :
    List ℕ → PagingState → Result Unit × PagingState
  | [], st => (.ok (), st)
  | page :: pages, st =>
    match change page st with
    | (.error status, st) => (.error status, st)
    | (.ok (), st) => changePages change pages st

def ziX64PagingUnmapRange (callbacks : ZiX64PagingCallbacks) (context : ZiX64PagingContext)
    (virtualAddress size : ℕ) (st : PagingState) : Result Unit × PagingState :=
  match validateVirtualRange virtualAddress size with
  | .error status => (.error status, st)
  | .ok () =>
    match queryPages callbacks context virtualAddress st (size/x64PageSize) with
    | .error status => (.error status, st)
    | .ok () =>
      changePages (fun page st =>
        ziX64PagingUnmapPage callbacks context (virtualAddress+page*x64PageSize) st)
        (range (size/x64PageSize)) st

def ziX64PagingProtectPage (callbacks : ZiX64PagingCallbacks) (context : ZiX64PagingContext)
    (virtualAddress : ℕ) (protection : UInt32) (st : PagingState) : Result Unit × PagingState :=
  if ziX64AddressIsCanonical virtualAddress = false ∨
      virtualAddress &&& x64PageOffsetMask ≠ 0 then (.error .invalidArgument, st)
  else
    match validateProtection context protection with
    | .error status => (.error status, st)
    | .ok () =>
      match walkToLeaf callbacks context virtualAddress false protection st with
      | (.error status, st) => (.error status, st)
      | (.ok [], st) => (.error .invalidState, st)
      | (.ok (leaf :: above), st) =>
        let entry := st.load leaf
        if entry &&& x64EntryPresent = 0 then (.error .pageNotMapped, st)
        else
          let retained := entry &&&
            (x64EntryPhysicalMask ||| x64EntryAccessed ||| x64EntryDirty)
          (.ok (), (promoteUserPath (leaf :: above) protection st).store leaf
            (retained ||| leafFlags context.nxEnabled protection))

def ziX64PagingProtectRange (callbacks : ZiX64PagingCallbacks) (context : ZiX64PagingContext)
    (virtualAddress size : ℕ) (protection : UInt32) (st : PagingState) :
    Result Unit × PagingState :=
  match validateVirtualRange virtualAddress size with
  | .error status => (.error status, st)
  | .ok () =>
    match validateProtection context protection with
    | .error status => (.error status, st)
    | .ok () =>
      match queryPages callbacks context virtualAddress st (size/x64PageSize) with
      | .error status => (.error status, st)
      | .ok () =>
        changePages (fun page st =>
          ziX64PagingProtectPage callbacks context (virtualAddress+page*x64PageSize)
            protection st)
          (range (size/x64PageSize)) st

def ziX64PagingCreate (callbacks : ZiX64PagingCallbacks) (nxEnabled : Bool) (st : PagingState) :
    Result ZiX64PagingContext × PagingState :=
  if nxEnabled = false then (.error .invalidArgument, st)
  else
    match allocateTable callbacks st with
    | (.error status, st) => (.error status, st)
    | (.ok root, st) => (.ok ⟨root,nxEnabled⟩, st)

abbrev x64KernelPml4Start : ℕ := 256

def kernelSlots : List (Fin 512) :=
  (finRange 512).filter fun index => x64KernelPml4Start ≤ index

def userSlots : List (Fin 512) :=
  (finRange 512).filter fun index => index < x64KernelPml4Start

def copyKernelHalf (kernelRoot root : ℕ) : List (Fin 512) → PagingState →
    Result Unit × PagingState
  | [], st => (.ok (), st)
  | index :: rest, st =>
    if st.tables kernelRoot index &&& x64EntryUser ≠ 0 then
      (.error .invalidState, st.releasePage root)
    else copyKernelHalf kernelRoot root rest (st.store ⟨root,index⟩ (st.tables kernelRoot index))

def ziX64PagingCloneKernelHalf (callbacks : ZiX64PagingCallbacks)
    (kernelContext : ZiX64PagingContext) (st : PagingState) :
    Result ZiX64PagingContext × PagingState :=
  if kernelContext.rootPhysicalBase = 0 ∨ kernelContext.nxEnabled = false then
    (.error .invalidArgument, st)
  else
    match allocateTable callbacks st with
    | (.error status, st) => (.error status, st)
    | (.ok root, st) =>
      match physicalTable callbacks st kernelContext.rootPhysicalBase with
      | .error status => (.error status, st.releasePage root)
      | .ok () =>
        match copyKernelHalf kernelContext.rootPhysicalBase root kernelSlots st with
        | (.error status, st) => (.error status, st)
        | (.ok (), st) => (.ok ⟨root,kernelContext.nxEnabled⟩, st)

/-- The checks of the two loops before an address space is given up. -/
def validateEmptyAddressSpace (root kernelRoot : ℕ) (st : PagingState) : Result Unit := do
  userSlots.forM fun index => failIf (st.tables root index &&& x64EntryPresent ≠ 0) .resourceInUse
  kernelSlots.forM fun index =>
    failIf (st.tables root index ≠ st.tables kernelRoot index ∨
      st.tables root index &&& x64EntryUser ≠ 0) .invalidState

def ziX64PagingReleaseEmptyAddressSpace (callbacks : ZiX64PagingCallbacks)
    (context kernelContext : ZiX64PagingContext) (st : PagingState) :
    Result Unit × ZiX64PagingContext × PagingState :=
  if context.rootPhysicalBase = 0 ∨ kernelContext.rootPhysicalBase = 0 then
    (.error .invalidArgument, context, st)
  else
    match physicalTable callbacks st context.rootPhysicalBase with
    | .error status => (.error status, context, st)
    | .ok () =>
      match physicalTable callbacks st kernelContext.rootPhysicalBase with
      | .error status => (.error status, context, st)
      | .ok () =>
        match validateEmptyAddressSpace context.rootPhysicalBase kernelContext.rootPhysicalBase
          st with
        | .error status => (.error status, context, st)
        | .ok () => (.ok (), ⟨0,false⟩, st.releasePage context.rootPhysicalBase)

end Zizium
