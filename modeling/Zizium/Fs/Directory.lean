import Zizium.Fs.FileRecord

/-!
# Directory blocks

A directory block of `kernel/fs/zifs/zifs.c` packs variable-sized entries behind a
64-byte header.  `HoldsEntries` says which entries a block holds; every operation on
blocks is specified through it.
-/

namespace Zizium

open Bytes BlockIO Mem Except List

variable {data data' : Mem} {off final pos size used f g i : ℕ} {block block' : Block} {u : Unit}

abbrev directoryHeaderSize : ℕ := 64
abbrev directoryEntryHeaderSize : ℕ := 24
abbrev maxDirectoryNameBytes : ℕ := 255

structure ZiFsDirectoryEntry where
  fileId : ℕ
  recordIndex : ℕ
  fileType : ℕ
  flags : ℕ
  name : List UInt8
  deriving DecidableEq, Repr

variable {entries xs ys : List (ZiFsDirectoryEntry × ℕ)}

def ziFailed {α : Type} : Result α → Bool
  | .ok _ => false
  | .error _ => true

def validateDirectoryName (name : List UInt8) : Result Unit := do
  failIf (name.length = 0 ∨ name.length > maxDirectoryNameBytes) .invalidArgument
  ziUtf8Validate name
  failIf (isDotComponent name) .invalidPath
  failIf (∃ byte ∈ name, byte = 0 ∨ byte = backslashByte ∨ byte = slashByte) .invalidPath

/-- The entry whose header starts at `offset`. -/
def entryAt (data : Mem) (offset : ℕ) : ZiFsDirectoryEntry where
  fileId := ziReadU64Le data (offset+8)
  recordIndex := ziReadU64Le data (offset+16)
  fileType := ziReadU16Le data (offset+4)
  flags := ziReadU16Le data (offset+6)
  name := data.slice (offset+24) (ziReadU16Le data (offset+2))

def directoryMagic : List UInt8 := [0x5a,0x49,0x44,0x52]

/-- The checksum of a block with its checksum field taken as zero. -/
def directoryChecksum (data : Mem) : ℕ :=
  let calculated := ziCrc32c 0 (data.slice 0 60)
  let calculated := ziCrc32c calculated [0,0,0,0]
  (ziCrc32c calculated (data.slice 64 4032)).toNat

def updateDirectoryChecksum (bytes : Mem) : Mem :=
  let bytes := ziWriteU32Le bytes 60 0
  ziWriteU32Le bytes 60 (checksum bytes 4096)

def alignUpEight (value : ℕ) : ℕ := (value+7)/8*8

def validateEntries (data : Mem) (usedBytes : ℕ) : (count offset : ℕ) → Result ℕ
  | 0, offset => pure offset
  | count+1, offset => do
    failIf (offset > usedBytes ∨ directoryEntryHeaderSize > usedBytes-offset) .corruptFilesystem
    let entrySize := ziReadU16Le data offset
    let nameSize := ziReadU16Le data (offset+2)
    let entry := entryAt data offset
    failIf (entrySize < directoryEntryHeaderSize ∨ entrySize%8 ≠ 0 ∨
      entrySize > usedBytes-offset ∨ nameSize = 0 ∨ nameSize > maxDirectoryNameBytes ∨
      nameSize > entrySize-directoryEntryHeaderSize ∨ entry.fileType < fileTypeRegular ∨
      entry.fileType > fileTypeDevice ∨ entry.fileId = 0 ∨
      ziFailed (validateDirectoryName entry.name)) .corruptFilesystem
    let padding := data.slice (offset+(24+nameSize)) (entrySize-(24+nameSize))
    failIf (padding.any (· ≠ 0)) .corruptFilesystem
    validateEntries data usedBytes count (offset+entrySize)

def validateDirectoryBlock (block : Block) : Result Unit := do
  let bytes := block.mem
  failIf (bytes.slice 0 4 ≠ directoryMagic ∨ ziReadU16Le bytes 4 ≠ 1 ∨
    ziReadU16Le bytes 6 ≠ directoryHeaderSize) .corruptFilesystem
  let usedBytes := ziReadU32Le bytes 20
  failIf (usedBytes < directoryHeaderSize ∨ usedBytes > blockSize) .corruptFilesystem
  failIf (ziReadU32Le bytes 60 ≠ directoryChecksum bytes) .checksumMismatch
  let offset ← validateEntries bytes usedBytes (ziReadU32Le bytes 16) directoryHeaderSize
  failIf (offset ≠ usedBytes) .corruptFilesystem

def ziFsInitialiseDirectoryBlock (directoryFileId generation : ℕ) : Result Block := do
  failIf (directoryFileId = 0) .invalidArgument
  let bytes := zero.put 0 directoryMagic
  let bytes := ziWriteU16Le bytes 4 1
  let bytes := ziWriteU16Le bytes 6 directoryHeaderSize
  let bytes := ziWriteU64Le bytes 8 directoryFileId
  let bytes := ziWriteU32Le bytes 16 0
  let bytes := ziWriteU32Le bytes 20 directoryHeaderSize
  let bytes := ziWriteU64Le bytes 24 generation
  pure (.ofMem 4096 (updateDirectoryChecksum bytes))

def ziFsValidateDirectoryBlock (block : Block) (expectedDirectoryFileId : ℕ) : Result Unit := do
  failIf (expectedDirectoryFileId = 0) .invalidArgument
  validateDirectoryBlock block
  failIf (ziReadU64Le block.mem 8 ≠ expectedDirectoryFileId) .corruptFilesystem

def findEntryLoop (data : Mem) (usedBytes : ℕ) (name : List UInt8) :
    (count offset : ℕ) → Option ZiFsDirectoryEntry → Result (Option ZiFsDirectoryEntry)
  | 0, _, found => pure found
  | count+1, offset, found => do
    failIf (offset > usedBytes ∨ directoryEntryHeaderSize > usedBytes-offset) .corruptFilesystem
    let entrySize := ziReadU16Le data offset
    let nameSize := ziReadU16Le data (offset+2)
    failIf (entrySize < directoryEntryHeaderSize ∨ entrySize > usedBytes-offset ∨
      nameSize > entrySize-directoryEntryHeaderSize) .corruptFilesystem
    let candidate := entryAt data offset
    failIf (ziFailed (ziPathCompareComponent candidate.name name)) .corruptFilesystem
    if compareBytes candidate.name name = 0 then do
      failIf found.isSome .corruptFilesystem
      findEntryLoop data usedBytes name count (offset+entrySize) (some candidate)
    else findEntryLoop data usedBytes name count (offset+entrySize) found

def ziFsFindDirectoryEntry (block : Block) (name : List UInt8) : Result ZiFsDirectoryEntry := do
  validateDirectoryBlock block
  validateDirectoryName name
  let bytes := block.mem
  let found ← findEntryLoop bytes (ziReadU32Le bytes 20) name (ziReadU32Le bytes 16)
    directoryHeaderSize none
  match found with
  | none => throw .notFound
  | some entry => pure entry

def entryArgumentIsInvalid (entry : ZiFsDirectoryEntry) : Bool :=
  decide (entry.name.length = 0 ∨ entry.name.length > maxDirectoryNameBytes ∨ entry.fileId = 0 ∨
    entry.fileType < fileTypeRegular ∨ entry.fileType > fileTypeDevice)

def requireNameAbsent (block : Block) (name : List UInt8) : Result Unit :=
  match ziFsFindDirectoryEntry block name with
  | .ok _ => throw .alreadyExists
  | .error .notFound => pure ()
  | .error status => throw status

def ziFsCanAddDirectoryEntry (block : Block) (entry : ZiFsDirectoryEntry) : Result Bool := do
  failIf (entryArgumentIsInvalid entry) .invalidArgument
  validateDirectoryBlock block
  validateDirectoryName entry.name
  requireNameAbsent block entry.name
  let usedBytes := ziReadU32Le block.mem 20
  let entrySize := alignUpEight (directoryEntryHeaderSize+entry.name.length)
  pure (decide (entrySize ≤ blockSize-usedBytes))

def writeEntry (bytes : Mem) (offset entrySize : ℕ) (entry : ZiFsDirectoryEntry) : Mem :=
  let bytes := bytes.put offset (replicate entrySize 0)
  let bytes := ziWriteU16Le bytes offset entrySize
  let bytes := ziWriteU16Le bytes (offset+2) entry.name.length
  let bytes := ziWriteU16Le bytes (offset+4) entry.fileType
  let bytes := ziWriteU16Le bytes (offset+6) entry.flags
  let bytes := ziWriteU64Le bytes (offset+8) entry.fileId
  let bytes := ziWriteU64Le bytes (offset+16) entry.recordIndex
  bytes.put (offset+24) entry.name

def ziFsAddDirectoryEntry (block : Block) (entry : ZiFsDirectoryEntry) : Result Block := do
  failIf (entryArgumentIsInvalid entry) .invalidArgument
  validateDirectoryBlock block
  validateDirectoryName entry.name
  requireNameAbsent block entry.name
  let bytes := block.mem
  let usedBytes := ziReadU32Le bytes 20
  let count := ziReadU32Le bytes 16
  let entrySize := alignUpEight (directoryEntryHeaderSize+entry.name.length)
  failIf (entrySize > blockSize-usedBytes) .bufferTooSmall
  let bytes := writeEntry bytes usedBytes entrySize entry
  let bytes := ziWriteU32Le bytes 16 (count+1)
  let bytes := ziWriteU32Le bytes 20 (usedBytes+entrySize)
  pure (.ofMem 4096 (updateDirectoryChecksum bytes))

/-- What the removal loop remembers about the entry it found. -/
structure FoundEntry where
  offset : ℕ
  size : ℕ
  entry : ZiFsDirectoryEntry

/-- The search loop of `ziFsRemoveDirectoryEntry`, which relies on the validation of the
block for its bounds. -/
def removeEntryLoop (data : Mem) (name : List UInt8) :
    (count offset : ℕ) → Option FoundEntry → Result (Option FoundEntry)
  | 0, _, found => pure found
  | count+1, offset, found => do
    let entrySize := ziReadU16Le data offset
    let candidate := entryAt data offset
    failIf (ziFailed (ziPathCompareComponent candidate.name name)) .corruptFilesystem
    if compareBytes candidate.name name = 0 then do
      failIf found.isSome .corruptFilesystem
      removeEntryLoop data name count (offset+entrySize)
        (some ⟨offset,entrySize,{ candidate with name := name }⟩)
    else removeEntryLoop data name count (offset+entrySize) found

def ziFsRemoveDirectoryEntry (block : Block) (name : List UInt8) :
    Result (Block × ZiFsDirectoryEntry) := do
  validateDirectoryBlock block
  validateDirectoryName name
  let bytes := block.mem
  let entryCount := ziReadU32Le bytes 16
  let usedBytes := ziReadU32Le bytes 20
  match ← removeEntryLoop bytes name entryCount directoryHeaderSize none with
  | none => throw .notFound
  | some found =>
    let trailingSize := usedBytes-found.offset-found.size
    let newUsedBytes := usedBytes-found.size
    let bytes := bytes.put found.offset (bytes.slice (found.offset+found.size) trailingSize)
    let bytes := bytes.put newUsedBytes (replicate found.size 0)
    let bytes := ziWriteU32Le bytes 16 (entryCount-1)
    let bytes := ziWriteU32Le bytes 20 newUsedBytes
    pure (.ofMem 4096 (updateDirectoryChecksum bytes), found.entry)

def ziFsSetDirectoryGeneration (block : Block) (generation : ℕ) : Result Block := do
  failIf (generation = 0) .invalidArgument
  validateDirectoryBlock block
  pure (.ofMem 4096 (updateDirectoryChecksum (ziWriteU64Le block.mem 24 generation)))

/-! ### Which entries a block holds -/

def IsName (name : List UInt8) : Prop := validateDirectoryName name = .ok ()

/-- The entry of `size` bytes at `offset`, well formed. -/
structure EntryAt (data : Mem) (offset : ℕ) (entry : ZiFsDirectoryEntry) (size : ℕ) : Prop where
  size_eq : ziReadU16Le data offset = size
  name_size : ziReadU16Le data (offset+2) = entry.name.length
  entry_eq : entryAt data offset = entry
  aligned : size%8 = 0
  room : 24+entry.name.length ≤ size
  type : 1 ≤ entry.fileType ∧ entry.fileType ≤ 4
  fileId : entry.fileId ≠ 0
  name : IsName entry.name
  padding : ∀ i, 24+entry.name.length ≤ i → i < size → data (offset+i) = 0

def EntriesAt (data : Mem) : (offset : ℕ) → List (ZiFsDirectoryEntry × ℕ) → (final : ℕ) → Prop
  | offset, [], final => final = offset
  | offset, (entry, size) :: entries, final =>
    EntryAt data offset entry size ∧ EntriesAt data (offset+size) entries final

structure HoldsEntries (block : Block) (fileId generation : ℕ)
    (entries : List (ZiFsDirectoryEntry × ℕ)) : Prop where
  magic : block.mem.slice 0 4 = directoryMagic
  version : ziReadU16Le block.mem 4 = 1
  headerSize : ziReadU16Le block.mem 6 = directoryHeaderSize
  fileId : ziReadU64Le block.mem 8 = fileId
  count : ziReadU32Le block.mem 16 = entries.length
  generation : ziReadU64Le block.mem 24 = generation
  used : 64 ≤ ziReadU32Le block.mem 20 ∧ ziReadU32Le block.mem 20 ≤ 4096
  entries : EntriesAt block.mem 64 entries (ziReadU32Le block.mem 20)
  checksum : ziReadU32Le block.mem 60 = directoryChecksum block.mem

theorem ziFailed_eq_false_iff {α : Type} {x : Result α} : ziFailed x = false ↔ ∃ a, x = .ok a := by
  cases x <;> simp [ziFailed]

variable {name : List UInt8}

theorem IsName.length (h : IsName name) : name.length ≠ 0 ∧ name.length ≤ 255 := by
  simp only [IsName,validateDirectoryName,bind_ok_iff,failIf_ok_iff,exists_const,
    maxDirectoryNameBytes] at h
  omega

theorem IsName.utf8 (h : IsName name) : ziUtf8Validate name = .ok () := by
  simp only [IsName,validateDirectoryName,bind_ok_iff,failIf_ok_iff,exists_const] at h
  obtain ⟨-,_,h,-⟩ := h
  exact h

theorem EntriesAt.le (h : EntriesAt data off entries final) : off ≤ final := by
  induction entries generalizing off with
  | nil => exact Nat.le_of_eq h.symm
  | cons e es ih =>
    have := ih h.2
    omega

theorem EntriesAt.append {mid : ℕ} (hx : EntriesAt data off xs mid)
    (hy : EntriesAt data mid ys final) : EntriesAt data off (xs ++ ys) final := by
  induction xs generalizing off with
  | nil =>
    cases hx
    exact hy
  | cons x xs ih => exact ⟨hx.1,ih hx.2⟩

theorem EntriesAt.split (h : EntriesAt data off (xs ++ ys) final) :
    ∃ mid, EntriesAt data off xs mid ∧ EntriesAt data mid ys final := by
  induction xs generalizing off with
  | nil => exact ⟨off,rfl,h⟩
  | cons x xs ih =>
    obtain ⟨mid,hx,hy⟩ := ih h.2
    exact ⟨mid,⟨h.1,hx⟩,hy⟩

variable {e : ZiFsDirectoryEntry}

theorem EntryAt.congr (h : EntryAt data off e size)
    (hdata : ∀ i, i < size → data (off+i) = data' (pos+i)) : EntryAt data' pos e size := by
  obtain ⟨h1,h2,h3,h4,h5,h6,h7,h8,h9⟩ := h
  have hread : ∀ {n i}, i+n ≤ size → data'.readLe n (pos+i) = data.readLe n (off+i) :=
    fun hle => (readLe_congr fun j hj => by
      rw [Nat.add_assoc,Nat.add_assoc]
      exact hdata _ (by omega)).symm
  have hsize : data'.readLe 2 pos = data.readLe 2 off := hread (i := 0) (by omega)
  have hname : data'.slice (pos+24) e.name.length = data.slice (off+24) e.name.length :=
    (slice_congr fun j hj => by
      rw [Nat.add_assoc,Nat.add_assoc]
      exact hdata _ (by omega)).symm
  refine ⟨?_,?_,?_,h4,h5,h6,h7,h8,fun i h₁ h₂ => (hdata i h₂).symm.trans (h9 i h₁ h₂)⟩
  · rw [← h1,ziReadU16Le,hsize]
  · rw [← h2,ziReadU16Le,hread (by omega)]
  · rw [← h3,entryAt,entryAt]
    have hlen : ziReadU16Le data' (pos+2) = e.name.length := by
      rw [← h2,ziReadU16Le,hread (by omega)]
    rw [hlen,h2,hname]
    simp (disch := omega) only [ziReadU64Le,ziReadU16Le,hread]

theorem EntriesAt.congr (h : EntriesAt data off entries final)
    (hdata : ∀ i, off+i < final → data (off+i) = data' (pos+i)) :
    EntriesAt data' pos entries (pos+(final-off)) := by
  induction entries generalizing off pos with
  | nil =>
    cases h
    simp [EntriesAt]
  | cons x xs ih =>
    obtain ⟨e,size⟩ := x
    have hle := h.2.le
    refine ⟨h.1.congr fun i hi => hdata i (by omega),?_⟩
    have hrest : EntriesAt data' (pos+size) xs (pos+size+(final-(off+size))) :=
      ih h.2 fun i hi => by
        rw [Nat.add_assoc,Nat.add_assoc]
        exact hdata (size+i) (by omega)
    rwa [show pos+size+(final-(off+size)) = pos+(final-off) by omega] at hrest

theorem validateEntries_ok_iff {count : ℕ} : validateEntries data used count off = .ok used ↔
      ∃ entries, entries.length = count ∧ EntriesAt data off entries used := by
  induction count generalizing off with
  | zero =>
    simp only [validateEntries,pure_ok_iff,length_eq_zero_iff]
    constructor
    · intro h
      exact ⟨[],rfl,h⟩
    · rintro ⟨_,rfl,h⟩
      exact h
  | succ count ih =>
    simp only [validateEntries,bind_ok_iff,failIf_ok_iff,exists_const]
    constructor
    · rintro ⟨hhead,hentry,hpad,hrest⟩
      obtain ⟨entries,hlen,hes⟩ := ih.mp hrest
      push Not at hentry hhead
      obtain ⟨h1,h2,h3,h4,h5,h6,h7,h8,h9,h10⟩ := hentry
      rw [ne_eq,Bool.not_eq_true,ziFailed_eq_false_iff] at h10
      obtain ⟨_,hname⟩ := h10
      rw [Bool.not_eq_true,any_eq_false] at hpad
      have hnlen : (entryAt data off).name.length = ziReadU16Le data (off+2) := by simp [entryAt]
      unfold directoryEntryHeaderSize at *
      refine ⟨(entryAt data off, ziReadU16Le data off) :: entries,by simp [hlen],
        ⟨⟨rfl,hnlen.symm,rfl,h2,by omega,⟨h7,h8⟩,h9,hname,?_⟩,hes⟩⟩
      intro i hi1 hi2
      have := hpad (data (off+i)) (mem_map.mpr
        ⟨i-(24+ziReadU16Le data (off+2)),mem_range.mpr (by omega),by
          congr 1
          omega⟩)
      simpa using this
    · rintro ⟨entries,hlen,hes⟩
      match entries, hlen with
      | (e, size) :: entries, hlen =>
        obtain ⟨⟨h1,h2,h3,h4,h5,h6,h7,h8,h9⟩,hes⟩ := hes
        have hle := hes.le
        have hn := h8.length
        subst h3
        refine ⟨?_,?_,?_,?_⟩
        · unfold directoryEntryHeaderSize
          omega
        · have hok : ziFailed (validateDirectoryName (entryAt data off).name) = false :=
            ziFailed_eq_false_iff.mpr ⟨(),h8⟩
          rw [hok]
          unfold directoryEntryHeaderSize maxDirectoryNameBytes fileTypeRegular fileTypeDevice
          simp only [Bool.false_eq_true,or_false]
          omega
        · rw [Bool.not_eq_true,any_eq_false]
          intro x hx
          obtain ⟨i,hi,rfl⟩ := mem_map.mp hx
          rw [mem_range] at hi
          have := h9 (24+ziReadU16Le data (off+2)+i) (by omega) (by omega)
          simpa [Nat.add_assoc] using this
        · rw [h1]
          exact ih.mpr ⟨entries,by simpa using hlen,hes⟩

theorem validateDirectoryBlock_ok_iff : validateDirectoryBlock block = .ok u ↔
      ∃ fileId gen entries, HoldsEntries block fileId gen entries := by
  simp only [validateDirectoryBlock,bind_ok_iff,failIf_ok_iff,exists_const]
  constructor
  · rintro ⟨hhead,hused,hsum,off,hentries,hoff⟩
    push Not at hhead hused hsum hoff
    subst hoff
    obtain ⟨entries,hlen,hes⟩ := validateEntries_ok_iff.mp hentries
    exact ⟨_,_,entries,hhead.1,hhead.2.1,hhead.2.2,rfl,hlen.symm,rfl,hused,hes,hsum⟩
  · rintro ⟨_,_,entries,h1,h2,h3,-,h4,-,h5,h6,h7⟩
    push Not
    exact ⟨⟨h1,h2,h3⟩,h5,h7,_,validateEntries_ok_iff.mpr ⟨entries,h4.symm,h6⟩,rfl⟩

variable {es : List (ZiFsDirectoryEntry × ℕ)}

theorem HoldsEntries.validate (h : HoldsEntries block f g es) :
    validateDirectoryBlock block = .ok () :=
  validateDirectoryBlock_ok_iff.mpr ⟨f,g,es,h⟩

theorem ziPathCompareComponent_of_isName {left right : List UInt8} (hl : IsName left)
    (hr : IsName right) : ziFailed (ziPathCompareComponent left right) = false :=
  ziFailed_eq_false_iff.mpr ⟨compareBytes left right,by
    simp only [ziPathCompareComponent,hl.utf8,hr.utf8]
    rfl⟩

def named (name : List UInt8) (es : List (ZiFsDirectoryEntry × ℕ)) : List ZiFsDirectoryEntry :=
  (es.map Prod.fst).filter (·.name = name)

theorem named_cons_self (h : e.name = name) :
    named name ((e, size) :: es) = e :: named name es := by simp [named,h]

theorem named_cons_of_ne (h : e.name ≠ name) :
    named name ((e, size) :: es) = named name es := by simp [named,h]

/-- The outcome of collecting the entries with one name: at most one may exist. -/
def atMostOne {α : Type} : List α → Result (Option α)
  | [] => .ok none
  | [e] => .ok (some e)
  | _ :: _ :: _ => .error .corruptFilesystem

theorem findEntryLoop_eq (hname : IsName name) (hes : EntriesAt data off es used)
    (found : Option ZiFsDirectoryEntry) :
    findEntryLoop data used name es.length off found =
      atMostOne (found.toList ++ named name es) := by
  induction es generalizing off found with
  | nil => cases found <;> rfl
  | cons x es ih =>
    obtain ⟨e,size⟩ := x
    obtain ⟨⟨h1,h2,h3,-,h5,-,-,h8,-⟩,hrest⟩ := hes
    have hle := hrest.le
    rw [length_cons,findEntryLoop]
    dsimp only [directoryEntryHeaderSize]
    rw [h3,h1,h2,failIf_bind_neg (by omega),failIf_bind_neg (by omega),
      ziPathCompareComponent_of_isName h8 hname,failIf_bind_neg (by simp)]
    by_cases heq : e.name = name
    · rw [if_pos (compareBytes_eq_zero_iff.mpr heq),named_cons_self heq]
      cases found with
      | none =>
        rw [failIf_bind_neg (by simp),ih hrest]
        rfl
      | some f => rfl
    · rw [if_neg fun h => heq (compareBytes_eq_zero_iff.mp h),named_cons_of_ne heq,ih hrest]

theorem ziFsFindDirectoryEntry_eq (h : HoldsEntries block f g es) (hname : IsName name) :
    ziFsFindDirectoryEntry block name = match named name es with
      | [] => .error .notFound
      | [e] => .ok e
      | _ :: _ :: _ => .error .corruptFilesystem := by
  rw [ziFsFindDirectoryEntry,h.validate,hname]
  simp only [ok_bind]
  rw [h.count,findEntryLoop_eq hname h.entries]
  match named name es with
  | [] => rfl
  | [e] => rfl
  | _ :: _ :: _ => rfl

theorem removeEntryLoop_some (hname : IsName name) (hes : EntriesAt data off es used)
    (found : FoundEntry) :
    removeEntryLoop data name es.length off (some found) =
      if named name es = [] then .ok (some found) else .error .corruptFilesystem := by
  induction es generalizing off with
  | nil => rfl
  | cons x es ih =>
    obtain ⟨e,size⟩ := x
    obtain ⟨⟨h1,-,h3,-,-,-,-,h8,-⟩,hrest⟩ := hes
    rw [length_cons,removeEntryLoop,h3,h1,ziPathCompareComponent_of_isName h8 hname,
      failIf_bind_neg (by simp)]
    by_cases heq : e.name = name
    · rw [if_pos (compareBytes_eq_zero_iff.mpr heq),named_cons_self heq,
        failIf_bind_pos (by simp),if_neg (by simp)]
    · rw [if_neg fun h => heq (compareBytes_eq_zero_iff.mp h),named_cons_of_ne heq,ih hrest]

theorem removeEntryLoop_none_ok_iff (hname : IsName name) (hes : EntriesAt data off es used)
    {found : FoundEntry} :
    removeEntryLoop data name es.length off none = .ok (some found) ↔
      ∃ xs ys, es = xs ++ (found.entry, found.size) :: ys ∧
        EntriesAt data off xs found.offset ∧ found.entry.name = name ∧
        named name xs = [] ∧ named name ys = [] := by
  induction es generalizing off with
  | nil => simp [removeEntryLoop,pure,Except.pure]
  | cons x es ih =>
    obtain ⟨e,size⟩ := x
    obtain ⟨⟨h1,h2,h3,h4,h5,h6,h7,h8,h9⟩,hrest⟩ := hes
    have hentry : EntryAt data off e size := ⟨h1,h2,h3,h4,h5,h6,h7,h8,h9⟩
    rw [length_cons,removeEntryLoop,h3,h1,ziPathCompareComponent_of_isName h8 hname,
      failIf_bind_neg (by simp)]
    by_cases heq : e.name = name
    · rw [if_pos (compareBytes_eq_zero_iff.mpr heq),failIf_bind_neg (by simp),
        removeEntryLoop_some hname hrest]
      constructor
      · intro h
        split at h
        · next hnil =>
          cases h
          exact ⟨[],es,by rw [← heq]; rfl,rfl,rfl,rfl,hnil⟩
        · cases h
      · rintro ⟨xs,ys,hsplit,hxs,hn,hxn,hyn⟩
        match xs, hsplit, hxs, hxn with
        | [], hsplit, hxs, _ =>
          cases hsplit
          rw [if_pos hyn]
          have hoff : found.offset = off := hxs
          subst hoff
          congr 3
          rw [← heq]
        | x :: xs, hsplit, _, hxn =>
          cases hsplit
          rw [named_cons_self heq] at hxn
          cases hxn
    · rw [if_neg fun h => heq (compareBytes_eq_zero_iff.mp h),ih hrest]
      constructor
      · rintro ⟨xs,ys,rfl,hxs,hn,hxn,hyn⟩
        exact ⟨(e, size) :: xs,ys,rfl,⟨hentry,hxs⟩,hn,by rw [named_cons_of_ne heq,hxn],hyn⟩
      · rintro ⟨xs,ys,hsplit,hxs,hn,hxn,hyn⟩
        match xs, hsplit, hxs, hxn with
        | [], hsplit, _, _ =>
          cases hsplit
          exact absurd hn heq
        | x :: xs, hsplit, hxs, hxn =>
          cases hsplit
          rw [named_cons_of_ne heq] at hxn
          exact ⟨xs,ys,rfl,hxs.2,hn,hxn,hyn⟩

/-! ### Updates of a block -/

theorem EntriesAt.final_unique {final' : ℕ} (h : EntriesAt data off es final)
    (h' : EntriesAt data off es final') : final = final' := by
  induction es generalizing off with
  | nil => exact h.trans h'.symm
  | cons x es ih => exact ih h.2 h'.2

theorem directoryChecksum_eq (data : Mem) :
    directoryChecksum data = checksum (ziWriteU32Le data 60 0) 4096 :=
  congrArg UInt32.toNat (ziCrc32c_zeroed 0 data 60 4032)

variable {bytes : Mem}

theorem updateDirectoryChecksum_apply (h : i < 60 ∨ 64 ≤ i) :
    updateDirectoryChecksum bytes i = bytes i := by
  unfold updateDirectoryChecksum ziWriteU32Le
  rcases h with h | h
  · rw [put_of_lt h,put_of_lt h]
  · rw [put_of_ge (by simpa using h),put_of_ge (by simpa using h)]

theorem holdsEntries_updateDirectoryChecksum (magic : bytes.slice 0 4 = directoryMagic)
    (version : ziReadU16Le bytes 4 = 1) (header : ziReadU16Le bytes 6 = 64)
    (fileId : ziReadU64Le bytes 8 = f) (count : ziReadU32Le bytes 16 = es.length)
    (gen : ziReadU64Le bytes 24 = g)
    (used : 64 ≤ ziReadU32Le bytes 20 ∧ ziReadU32Le bytes 20 ≤ 4096)
    (entries : EntriesAt bytes 64 es (ziReadU32Le bytes 20)) :
    HoldsEntries (.ofMem 4096 (updateDirectoryChecksum bytes)) f g es := by
  have hbyte : ∀ i, i < 4096 → i < 60 ∨ 64 ≤ i →
      (Buffer.ofMem 4096 (updateDirectoryChecksum bytes)).mem i = bytes i := by
    intro i hi h
    rw [Buffer.mem_ofMem_of_lt hi,updateDirectoryChecksum_apply h]
  have hlow : ∀ i < 60, (Buffer.ofMem 4096 (updateDirectoryChecksum bytes)).mem i = bytes i :=
    fun i hi => hbyte i (by omega) (.inl hi)
  simp only [ziReadU16Le,ziReadU32Le,ziReadU64Le] at version header fileId count gen
  constructor
  · rw [slice_agree hlow (by omega),magic]
  · rw [ziReadU16Le,readLe_agree hlow (by omega),version]
  · rw [ziReadU16Le,readLe_agree hlow (by omega),header]
  · rw [ziReadU64Le,readLe_agree hlow (by omega),fileId]
  · rw [ziReadU32Le,readLe_agree hlow (by omega),count]
  · rw [ziReadU64Le,readLe_agree hlow (by omega),gen]
  · rwa [ziReadU32Le,readLe_agree hlow (by omega)]
  · have hcopy : EntriesAt (Buffer.ofMem 4096 (updateDirectoryChecksum bytes)).mem 64 es
        (64+(ziReadU32Le bytes 20-64)) :=
      entries.congr fun i hi => (hbyte _ (by omega) (by omega)).symm
    rwa [show 64+(ziReadU32Le bytes 20-64) = ziReadU32Le bytes 20 by omega] at hcopy
  · rw [directoryChecksum_eq,ziReadU32Le,Buffer.readLe_ofMem (by omega)]
    have hsame : checksum (ziWriteU32Le (Buffer.ofMem 4096
        (updateDirectoryChecksum bytes)).mem 60 0)
        4096 = checksum (ziWriteU32Le bytes 60 0) 4096 := by
      refine checksum_congr fun i hi => ?_
      unfold ziWriteU32Le
      by_cases h : 60 ≤ i ∧ i < 64
      · rw [put_of_mem h.1 (by simpa using h.2),put_of_mem h.1 (by simpa using h.2)]
      · have h' : i < 60 ∨ 64 ≤ i := by omega
        rcases h' with hlt | hge
        · rw [put_of_lt hlt,put_of_lt hlt,hbyte i hi (.inl hlt)]
        · rw [put_of_ge (by simpa using hge),put_of_ge (by simpa using hge), hbyte i hi (.inr hge)]
    rw [hsame]
    exact readLe_put_self_of_lt (checksum_lt _ _)

/-- The ranges of the C types of an entry. -/
structure ZiFsDirectoryEntry.Fits (e : ZiFsDirectoryEntry) : Prop where
  fileId : e.fileId < 256^8
  recordIndex : e.recordIndex < 256^8
  fileType : e.fileType < 256^2
  flags : e.flags < 256^2

theorem writeEntry_apply (hsize : 24+e.name.length ≤ size) (h : i < off ∨ off+size ≤ i) :
    writeEntry bytes off size e i = bytes i := by
  unfold writeEntry ziWriteU16Le ziWriteU64Le
  have hrep : (replicate size (0 : UInt8)).length = size := length_replicate
  rcases h with h | h
  · simp (disch := omega) only [put_of_lt]
  · simp (disch := (first | omega | (rw [length_leBytes]; omega))) only [put_of_ge]

theorem entryAt_writeEntry (hsize : 24+e.name.length ≤ size) (halign : size%8 = 0)
    (hmax : size < 65536) (hfits : e.Fits) (htype : 1 ≤ e.fileType ∧ e.fileType ≤ 4)
    (hid : e.fileId ≠ 0) (hname : IsName e.name) :
    EntryAt (writeEntry bytes off size e) off e size := by
  obtain ⟨h1,h2,-,h4⟩ := hfits
  have hnsize : ziReadU16Le (writeEntry bytes off size e) (off+2) = e.name.length := by
    unfold writeEntry
    simp (disch := first | omega | (rw [length_leBytes]; omega)) only [ziReadU16Le,ziWriteU16Le,
      ziWriteU64Le,readLe_put_of_disjoint,readLe_put_self_of_lt]
  refine ⟨?_,hnsize,?_,halign,hsize,htype,hid,hname,?_⟩
  · unfold writeEntry
    simp (disch := first | omega | (rw [length_leBytes]; omega)) only [ziReadU16Le,ziWriteU16Le,
      ziWriteU64Le,readLe_put_of_disjoint,readLe_put_self_of_lt]
  · rw [entryAt,hnsize]
    unfold writeEntry
    simp (disch := first | omega | (rw [length_leBytes]; omega)) only [ziReadU16Le,ziReadU64Le,
      ziWriteU16Le,ziWriteU64Le,readLe_put_of_disjoint,readLe_put_self_of_lt,
      slice_put_self]
  · intro i hi1 hi2
    unfold writeEntry ziWriteU16Le ziWriteU64Le
    simp (disch := (first | omega | (rw [length_leBytes]; omega))) only [put_of_ge]
    rw [put_of_mem (by omega) (by rw [length_replicate]; omega),
      getD_eq_getElem?_getD,getElem?_replicate]
    split <;> rfl

theorem alignUpEight_spec (n : ℕ) :
    n ≤ alignUpEight n ∧ alignUpEight n < n+8 ∧ alignUpEight n%8 = 0 := by
  unfold alignUpEight
  omega

def entrySizeOf (e : ZiFsDirectoryEntry) : ℕ := alignUpEight (24+e.name.length)

theorem requireNameAbsent_ok_iff (h : HoldsEntries block f g es) (hname : IsName name) :
    requireNameAbsent block name = .ok u ↔ named name es = [] := by
  rw [requireNameAbsent,ziFsFindDirectoryEntry_eq h hname]
  match named name es with
  | [] => simp [pure,Except.pure]
  | [e] => simp [throw,throwThe,MonadExceptOf.throw]
  | _ :: _ :: _ => simp [throw,throwThe,MonadExceptOf.throw]

def addedBytes (block : Block) (e : ZiFsDirectoryEntry) : Mem :=
  let bytes := writeEntry block.mem (ziReadU32Le block.mem 20) (entrySizeOf e) e
  let bytes := ziWriteU32Le bytes 16 (ziReadU32Le block.mem 16+1)
  ziWriteU32Le bytes 20 (ziReadU32Le block.mem 20+entrySizeOf e)

theorem ziFsAddDirectoryEntry_ok_iff (h : HoldsEntries block f g es) :
    ziFsAddDirectoryEntry block e = .ok block' ↔
      IsName e.name ∧ e.fileId ≠ 0 ∧ 1 ≤ e.fileType ∧ e.fileType ≤ 4 ∧ named e.name es = [] ∧
        entrySizeOf e ≤ 4096-ziReadU32Le block.mem 20 ∧
        block' = .ofMem 4096 (updateDirectoryChecksum (addedBytes block e)) := by
  simp only [ziFsAddDirectoryEntry,bind_ok_iff,failIf_ok_iff,exists_const,
    pure_ok_iff,h.validate,entryArgumentIsInvalid,decide_eq_true_eq]
  constructor
  · rintro ⟨harg,-,_,hname,_,habs,hroom,rfl⟩
    push Not at harg
    rw [requireNameAbsent_ok_iff h hname] at habs
    exact ⟨hname,harg.2.2.1,harg.2.2.2.1,harg.2.2.2.2,habs,by simpa [entrySizeOf] using hroom,
      rfl⟩
  · rintro ⟨hname,hid,ht1,ht4,habs,hroom,rfl⟩
    have hlen := hname.length
    refine ⟨?_,trivial,(),hname,(),(requireNameAbsent_ok_iff h hname).mpr habs,
      by simpa [entrySizeOf] using hroom,rfl⟩
    unfold maxDirectoryNameBytes fileTypeRegular fileTypeDevice
    omega

theorem EntriesAt.length_le (h : EntriesAt data off es final) : off+es.length*24 ≤ final := by
  induction es generalizing off with
  | nil =>
    cases h
    simp
  | cons x es ih =>
    have hroom := h.1.room
    have := ih h.2
    simp only [length_cons]
    omega

theorem HoldsEntries.add (h : HoldsEntries block f g es) (hfits : e.Fits)
    (htype : 1 ≤ e.fileType ∧ e.fileType ≤ 4) (hid : e.fileId ≠ 0) (hname : IsName e.name)
    (hroom : entrySizeOf e ≤ 4096-ziReadU32Le block.mem 20) :
    HoldsEntries (.ofMem 4096 (updateDirectoryChecksum (addedBytes block e))) f g
      (es ++ [(e, entrySizeOf e)]) := by
  have hsize := alignUpEight_spec (24+e.name.length)
  change 24+e.name.length ≤ entrySizeOf e ∧ entrySizeOf e < 24+e.name.length+8 ∧
    entrySizeOf e%8 = 0 at hsize
  have hmany := h.entries.length_le
  have hhead : ∀ i < 64, writeEntry block.mem (ziReadU32Le block.mem 20) (entrySizeOf e) e i =
      block.mem i := fun i hi => writeEntry_apply hsize.1 (.inl (by omega))
  have hnewused : ziReadU32Le (addedBytes block e) 20 = ziReadU32Le block.mem 20+entrySizeOf e := by
    unfold addedBytes
    simp (disch := omega) only [readLe_put_self_of_lt]
  have hbyte : ∀ i, 24 ≤ i → addedBytes block e i =
      writeEntry block.mem (ziReadU32Le block.mem 20) (entrySizeOf e) e i := by
    intro i hi
    unfold addedBytes ziWriteU32Le
    rw [put_of_ge (by simpa using hi),put_of_ge (by simp; omega)]
  have hver := h.version
  have hhdr := h.headerSize
  have hfid := h.fileId
  have hgen := h.generation
  have hcnt := h.count
  refine holdsEntries_updateDirectoryChecksum ?_ ?_ ?_ ?_ ?_ ?_ ?_ ?_
  · unfold addedBytes
    simp (disch := omega) only [ziWriteU32Le,slice_put_of_disjoint,slice_agree hhead,h.magic]
  · unfold addedBytes
    simp (disch := omega) only [readLe_put_leBytes,readLe_agree hhead,hver]
  · unfold addedBytes
    simp (disch := omega) only [readLe_put_leBytes,readLe_agree hhead,hhdr]
  · unfold addedBytes
    simp (disch := omega) only [readLe_put_leBytes,readLe_agree hhead,hfid]
  · unfold addedBytes
    simp (disch := omega) only [readLe_put_leBytes,hcnt,readLe_put_self_of_lt,
      length_append,length_singleton]
  · unfold addedBytes
    simp (disch := omega) only [readLe_put_leBytes,readLe_agree hhead,hgen]
  · omega
  · rw [hnewused]
    refine EntriesAt.append (?_ : EntriesAt _ 64 es (ziReadU32Le block.mem 20)) ⟨?_,rfl⟩
    · have hold : EntriesAt (addedBytes block e) 64 es (64+(ziReadU32Le block.mem 20-64)) :=
        h.entries.congr fun i hi => by
          rw [hbyte _ (by omega),writeEntry_apply hsize.1 (.inl (by omega))]
      rwa [show 64+(ziReadU32Le block.mem 20-64) = ziReadU32Le block.mem 20 by omega] at hold
    · exact (entryAt_writeEntry hsize.1 hsize.2.2 (by omega) hfits htype hid hname).congr
        fun i hi => (hbyte _ (by omega)).symm

def removedBytes (block : Block) (offset size : ℕ) : Mem :=
  let used := ziReadU32Le block.mem 20
  let bytes := block.mem.put offset (block.mem.slice (offset+size) (used-offset-size))
  let bytes := bytes.put (used-size) (replicate size 0)
  let bytes := ziWriteU32Le bytes 16 (ziReadU32Le block.mem 16-1)
  ziWriteU32Le bytes 20 (used-size)

theorem ziFsRemoveDirectoryEntry_ok_iff (h : HoldsEntries block f g es) :
    ziFsRemoveDirectoryEntry block name = .ok (block', e) ↔
      IsName name ∧ ∃ xs ys off size, es = xs ++ (e, size) :: ys ∧
        EntriesAt block.mem 64 xs off ∧ e.name = name ∧ named name xs = [] ∧ named name ys = [] ∧
        block' = .ofMem 4096 (updateDirectoryChecksum (removedBytes block off size)) := by
  simp only [ziFsRemoveDirectoryEntry,bind_ok_iff,h.validate,exists_const]
  constructor
  · rintro ⟨-,_,hname,found,hfound,hres⟩
    match found, hres with
    | some found, hres =>
      rw [h.count] at hfound
      obtain ⟨xs,ys,hsplit,hxs,hn,hxn,hyn⟩ :=
        (removeEntryLoop_none_ok_iff hname h.entries).mp hfound
      obtain ⟨rfl,rfl⟩ := hres
      exact ⟨hname,xs,ys,found.offset,found.size,hsplit,hxs,hn,hxn,hyn,rfl⟩
  · rintro ⟨hname,xs,ys,off,size,hsplit,hxs,hn,hxn,hyn,rfl⟩
    refine ⟨trivial,(),hname,some ⟨off,size,e⟩,?_,rfl⟩
    rw [h.count]
    exact (removeEntryLoop_none_ok_iff hname h.entries).mpr ⟨xs,ys,hsplit,hxs,hn,hxn,hyn⟩

theorem HoldsEntries.remove (h : HoldsEntries block f g (xs ++ (e, size) :: ys))
    (hxs : EntriesAt block.mem 64 xs off) :
    HoldsEntries (.ofMem 4096 (updateDirectoryChecksum (removedBytes block off size))) f g
      (xs ++ ys) := by
  obtain ⟨mid,hxs',-,hys⟩ := h.entries.split
  have hmid : mid = off := hxs'.final_unique hxs
  subst hmid
  have hle := hys.le
  have hlo := hxs.le
  have hused := h.used
  have hcount := h.count
  rw [length_append,length_cons] at hcount
  have hcountlt : ziReadU32Le block.mem 16 < 256^4 := readLe_lt _ _ _
  have hver := h.version
  have hhdr := h.headerSize
  have hfid := h.fileId
  have hgen := h.generation
  have hslice : (block.mem.slice (mid+size) (ziReadU32Le block.mem 20-mid-size)).length =
      ziReadU32Le block.mem 20-mid-size := length_slice
  have hnewused : ziReadU32Le (removedBytes block mid size) 20 = ziReadU32Le block.mem 20-size := by
    unfold removedBytes
    simp (disch := omega) only [readLe_put_self_of_lt]
  -- the bytes up to the removed entry stay, those behind it move down
  have hlow : ∀ i, 24 ≤ i → i < mid → removedBytes block mid size i = block.mem i := by
    intro i hi hlt
    unfold removedBytes
    simp (disch := (first | omega | (rw [length_leBytes]; omega))) only [ziWriteU32Le,
      put_of_ge,put_of_lt]
  have hhigh : ∀ i, mid+size+i < ziReadU32Le block.mem 20 →
      removedBytes block mid size (mid+i) = block.mem (mid+size+i) := by
    intro i hi
    unfold removedBytes
    simp (disch := (first | omega | (rw [length_leBytes]; omega))) only [ziWriteU32Le,
      put_of_ge,put_of_lt]
    rw [put_of_mem (by omega) (by omega),Nat.add_sub_cancel_left,getD_slice (by omega)]
  refine holdsEntries_updateDirectoryChecksum ?_ ?_ ?_ ?_ ?_ ?_ ?_ ?_
  · unfold removedBytes
    simp (disch := omega) only [ziWriteU32Le,slice_put_of_disjoint,h.magic]
  · unfold removedBytes
    simp (disch := omega) only [readLe_put_of_disjoint,hver]
  · unfold removedBytes
    simp (disch := omega) only [readLe_put_of_disjoint,hhdr]
  · unfold removedBytes
    simp (disch := omega) only [readLe_put_of_disjoint,hfid]
  · unfold removedBytes
    simp (disch := omega) only [readLe_put_leBytes,hcount,readLe_put_self_of_lt,length_append]
    omega
  · unfold removedBytes
    simp (disch := omega) only [readLe_put_leBytes,readLe_put_of_disjoint,hgen]
  · omega
  · rw [hnewused]
    refine EntriesAt.append (?_ : EntriesAt _ 64 xs mid) ?_
    · have hcopy : EntriesAt (removedBytes block mid size) 64 xs (64+(mid-64)) :=
        hxs.congr fun i hi => (hlow _ (by omega) hi).symm
      rwa [show 64+(mid-64) = mid by omega] at hcopy
    · have hcopy : EntriesAt (removedBytes block mid size) mid ys
          (mid+(ziReadU32Le block.mem 20-(mid+size))) :=
        hys.congr fun i hi => (hhigh i hi).symm
      rwa [show mid+(ziReadU32Le block.mem 20-(mid+size)) =
        ziReadU32Le block.mem 20-size by omega] at hcopy

theorem read_initialisedUsed (f g : ℕ) : ziReadU32Le (ziWriteU64Le (ziWriteU32Le (ziWriteU32Le
      (ziWriteU64Le (ziWriteU16Le (ziWriteU16Le (zero.put 0 directoryMagic) 4 1) 6
      directoryHeaderSize) 8 f) 16 0) 20 directoryHeaderSize) 24 g) 20 = 64 := by
  simp (disch := omega) only [directoryHeaderSize,readLe_put_leBytes,readLe_put_self_of_lt]

theorem ziFsInitialiseDirectoryBlock_holds (hf : f ≠ 0) (hf' : f < 256^8) (hg : g < 256^8) :
    ∃ block, ziFsInitialiseDirectoryBlock f g = .ok block ∧ HoldsEntries block f g [] := by
  have hmagic : directoryMagic.length = 4 := rfl
  have hused := read_initialisedUsed f g
  refine ⟨_,by rw [ziFsInitialiseDirectoryBlock,failIf_bind_neg hf]; rfl,?_⟩
  refine holdsEntries_updateDirectoryChecksum ?_ ?_ ?_ ?_ ?_ ?_ ?_ ?_
  · simp (disch := omega) only [ziWriteU64Le,ziWriteU32Le,ziWriteU16Le,
      slice_put_of_disjoint,slice_put_self]
  · simp (disch := omega) only [directoryHeaderSize,readLe_put_leBytes,readLe_put_self_of_lt]
  · simp (disch := omega) only [directoryHeaderSize,readLe_put_leBytes,readLe_put_self_of_lt]
  · simp (disch := omega) only [directoryHeaderSize,readLe_put_leBytes,readLe_put_self_of_lt]
  · simp (disch := omega) only [readLe_put_leBytes,readLe_put_self_of_lt,length_nil]
  · exact readLe_put_self_of_lt hg
  · omega
  · rfl

end Zizium
