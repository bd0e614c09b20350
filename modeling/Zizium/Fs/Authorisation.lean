import Zizium.Fs.Lookup
import Zizium.Fs.SecurityStream
import Zizium.Fs.Transaction

/-!
# Authorised lookup

What the walk of `ZiFsLookupPathAuthorised` grants and what it reveals.
-/

namespace Zizium

open Bytes BlockIO ReadM Function

variable {vol : ZiFsVolume} {img : ℕ → Block} {token : ZiAccessToken}

/-- For a non-empty mask an authorised lookup succeeds exactly when the plain one does and
every access check on the way passes, with the same record.  For any mask, two volumes that
agree down to a directory that denies traversal give the same answer. -/
theorem authorisedLookup_exact_and_confined (hmounted : vol.MountedOn img) :
    (∀ (path : ZiParsedPath) (requestedAccess : ℕ) (record : ZiFsFileRecord), requestedAccess ≠ 0 →
      ((ziFsLookupPathAuthorised vol path token requestedAccess).eval img = .ok record ↔
        (ziFsLookupPath vol path).eval img = .ok record ∧
          (∀ k < path.components.length, ∀ directory,
            (ziFsLookupPath vol (path.take k)).eval img = .ok directory →
              Grants vol img token accessExecute directory) ∧
          Grants vol img token requestedAccess record)) ∧
    (∀ (volume' : ZiFsVolume) (image' : ℕ → Block) (path : ZiParsedPath)
      (requestedAccess k : ℕ) (directory : ZiFsFileRecord),
      volume'.MountedOn image' → volume'.superblock = vol.superblock →
      (∀ i < vol.superblock.securityTableBlocks, image' (vol.superblock.securityTableStart+i) =
          img (vol.superblock.securityTableStart+i)) → k < path.components.length →
      (ziFsLookupPath vol (path.take k)).eval img = .ok directory →
      ¬Grants vol img token accessExecute directory → SameDownTo vol img image' path k →
      (ziFsLookupPathAuthorised volume' path token requestedAccess).eval image' =
        (ziFsLookupPathAuthorised vol path token requestedAccess).eval img) := by
  constructor
  · intro path requestedAccess record hmask
    exact ziFsLookupPathAuthorised_ok_iff hmask
  · intro volume' image' path requestedAccess k directory hmounted' hsb htable hk hreach hdenied
      hsame
    have hsecurity : SameSecurity vol volume' img image' := ⟨hmounted,hmounted',hsb,htable⟩
    exact hsecurity.eval_lookupPathAuthorised hk hreach hdenied hsame

/-! ### A small volume

32 blocks with a root directory that holds nothing, one security descriptor and a journal of eight
records. -/

def blankDevice : ZiBlockDevice where
  structSize := 64
  version := 3
  blockSize := 4096
  blockCount := 32
  flags := 6
  hasRead := true
  hasFlush := true
  hasWrite := true

def blankSuperblock : ZiFsSuperblock where
  formatMajor := 0
  formatMinor := 1
  blockShift := 12
  checksumType := 1
  compatibleFeatures := 0
  readOnlyCompatibleFeatures := 0
  incompatibleFeatures := 15
  volumeUuid := List.replicate 16 0
  generation := 1
  totalBlocks := 32
  rootRecordIndex := 0
  recordTableStart := 1
  recordTableBlocks := 1
  directoryTableStart := 2
  directoryTableBlocks := 1
  allocationBitmapStart := 3
  allocationBitmapBlocks := 1
  journalStart := 4
  journalBlocks := 18
  securityTableStart := 22
  securityTableBlocks := 1
  backupSuperblock := 31
  lastCommittedTransaction := 0
  stateFlags := stateNone
  volumeName := []

def blankRoot : ZiFsFileRecord where
  fileId := 1
  parentFileId := 1
  flags := 0
  fileSize := 0
  allocatedSize := 0
  securityId := 1
  directoryBlock := 2
  createdTime := 0
  modifiedTime := 0
  changedTime := 0
  accessedTime := 0
  fileType := fileTypeDirectory
  extents := []

/-- Full control for the system account and nothing for anyone else. -/
def blankDescriptor : ZiSecurityDescriptor where
  structSize := 40
  version := 1
  owner := ⟨1,1⟩
  primaryGroup := ⟨2,1⟩
  dacl := some ⟨24,1,[⟨1,0,0,255,⟨1,1⟩⟩]⟩
  controlFlags := 0

def blankHeader (headerSequence : ℕ) : ZiFsJournalHeader where
  headerSequence := headerSequence
  volumeGeneration := 1
  recordCapacity := 8
  headRecord := 0
  tailRecord := 0
  nextSequence := 1
  nextTransactionId := 1
  lastCommittedTransaction := 0
  lastCheckpointTransaction := 0
  flags := 0

def blankSecurityTable : Mem :=
  appendedTable (updateSecurityTableChecksum (emptySecurityTable 4096 1) 4096) 0
    (securityRecordBytes 1 1 blankDescriptor)

def blankDirectory : Block :=
  match ziFsInitialiseDirectoryBlock 1 1 with
  | .ok block => block
  | .error _ => Buffer.zero

def blankImage (stateFlags : ℕ) : ℕ → Block
  | 0 => superblockBlock (blankSuperblock.withState 1 0 stateFlags)
  | 1 => Buffer.zero.put 0 (fileRecordBytes blankRoot)
  | 2 => blankDirectory
  | 3 => Buffer.zero.put 0 [0xff,0xff,0x7f,0x80]
  | 4 => journalHeaderBlock (blankHeader 1)
  | 5 => journalHeaderBlock (blankHeader 2)
  | 22 => .ofMem 4096 blankSecurityTable
  | 31 => superblockBlock (blankSuperblock.withState 1 0 stateFlags)
  | _ => Buffer.zero

def blankVolume (stateFlags : ℕ) : ZiFsVolume where
  device := blankDevice
  superblock := blankSuperblock.withState 1 0 stateFlags
  mountedFromBackup := false
  isReadOnly := false
  needsRecovery := false
  journalHeaderValid := true
  isMounted := true
  securityGeneration := 1
  securityRecordCount := 1

theorem blankSuperblock_valid : blankSuperblock.Valid :=
  ⟨rfl,by decide,rfl,rfl,by decide,by decide,superblockRangesAreValid_iff.mp (by decide),rfl⟩

theorem blankSuperblock_fits : blankSuperblock.Fits := by constructor <;> decide

theorem blankHeader_fits {s : ℕ} (hs : s < uint64Max) : (blankHeader s).Fits := by
  have hmax := uint64Max_eq
  constructor <;> simp only [blankHeader] <;> omega

theorem blankHeader_valid {s : ℕ} (hs : s ≠ 0) : journalHeaderIsValid (blankHeader s) = true := by
  rw [journalHeaderIsValid_iff]
  simp [blankHeader,hs]

theorem blankDescriptor_encodable : Encodable 1 1 blankDescriptor := by
  refine ⟨by decide,by decide,rfl,rfl,by decide,?_⟩
  refine ⟨⟨by decide,by decide⟩,⟨by decide,by decide⟩,?_⟩
  simp only [ZiSecurityDescriptor.entries,blankDescriptor,List.forall_mem_singleton]
  exact ⟨by decide,by decide,by decide,by decide,by decide,by decide⟩

theorem blankRoot_shape : blankRoot.Shape := validateFileRecordShape_iff.mp (by decide)

theorem blankRoot_fits : blankRoot.Fits := by constructor <;> first | decide | simp [blankRoot]

theorem blankSecurityTable_holds : TableHolds blankSecurityTable 1 [⟨1,1,blankDescriptor⟩] :=
  (emptySecurityTable_holds (by decide) (by decide)).appendedTable
    length_securityRecordBytes
    (fun _ h => ziFsDecodeSecurityDescriptor_securityRecordBytes blankDescriptor_encodable h)
    (by decide) (by simp)

section

variable {stateFlags : ℕ}

theorem blankImage_root :
    ziFsDecodeFileRecord ((blankImage stateFlags 1).mem.shift 0) = .ok blankRoot := by
  refine ziFsDecodeFileRecord_fileRecordBytes ?_ blankRoot_fits blankRoot_shape
  rw [Mem.slice_shift,blankImage,Buffer.put,Buffer.slice_ofMem (by decide)]
  exact Mem.slice_put_self (length_fileRecordBytes _)

theorem blankImage_slot {slot : ℕ} (h : slot ≠ 0) (hlt : slot < 16) :
    bytesAreZero ((blankImage stateFlags 1).mem.shift (slot*256)) 0 256 = true := by
  refine bytesAreZero_iff.mpr fun i hi => ?_
  rw [blankImage,Mem.shift_apply,Buffer.put,Buffer.mem_ofMem_of_lt (by omega),
    Mem.put_of_ge (by rw [length_fileRecordBytes]; omega)]
  exact dif_pos (by omega)

theorem blankRoot_validate :
    ziFsValidateFileRecord (blankVolume stateFlags).superblock blankRoot = .ok () := rfl

theorem blankDevice_readBlock {block : ℕ} (hlt : block < 32) :
    (blankDevice.readBlock block).eval img = .ok (img block) :=
  ZiBlockDevice.readBlock_ok_iff.mpr ⟨hlt,rfl⟩

/-- The image has the record table and the security table of the small volume. -/
structure BlankTables (image : ℕ → Block) : Prop where
  records : image 1 = blankImage stateNone 1
  security : image 22 = blankImage stateNone 22

theorem blankImage_tables : BlankTables (blankImage stateFlags) :=
  ⟨by rw [blankImage,blankImage],by rw [blankImage,blankImage]⟩

namespace BlankTables

section

variable (h : BlankTables img)

include h

theorem readRoot : (ziFsReadFileRecord (blankVolume stateFlags) 0).eval img = .ok blankRoot := by
  have hroot : ziFsDecodeFileRecord ((img 1).mem.shift 0) = .ok blankRoot := by
    rw [h.records]
    exact blankImage_root
  refine failIf_bind_ok Nat.one_pos.not_ge ?_
  refine bind_ok_iff.mpr ⟨img 1,blankDevice_readBlock (by decide : 1 < 32),?_⟩
  refine bind_ok_iff.mpr ⟨_,hroot,?_⟩
  exact bind_ok_iff.mpr ⟨(),blankRoot_validate,rfl⟩

theorem recordSlot_eq {image' : ℕ → Block} (h' : BlankTables image') :
    recordSlot (blankVolume stateFlags).superblock image' 0 =
      recordSlot (blankVolume stateFlags).superblock img 0 := by
  have hrecs : image' 1 = img 1 := h'.records.trans h.records.symm
  exact congrArg (fun b : Block => b.mem.slice 0 256) hrecs

theorem securityReferences :
    (validateFileSecurityReferences (blankVolume stateFlags) [1]).eval img = .ok () := by
  refine loop_unit_ok_iff.mpr fun j _ hj => ?_
  obtain rfl : j = 0 := by
    have : (blankVolume stateFlags).superblock.recordTableBlocks = 1 := rfl
    omega
  refine bind_ok_iff.mpr ⟨img 1,blankDevice_readBlock (by decide : 1 < 32),?_⟩
  rw [h.records]
  refine loop_unit_ok_iff.mpr fun slot _ hslot => ?_
  rw [eval_ofExcept,checkRecordSlot]
  by_cases h : slot = 0
  · subst h
    split
    · rfl
    · refine Except.bind_ok_iff.mpr ⟨_,blankImage_root,Except.failIf_ok_iff.mpr ?_⟩
      rw [blankRoot_validate]
      decide
  · exact if_pos (blankImage_slot h (by omega))

theorem tableHolds : TableHolds (img (blankVolume stateFlags).superblock.securityTableStart).mem 1
      [⟨1,1,blankDescriptor⟩] := by
  have h22 : img (blankVolume stateFlags).superblock.securityTableStart =
      .ofMem 4096 blankSecurityTable := h.security
  rw [h22]
  exact blankSecurityTable_holds.congr fun i hi => (Buffer.mem_ofMem_of_lt hi).symm

theorem mountedOn : (blankVolume stateFlags).MountedOn img := by
  refine ⟨rfl,rfl,h.tableHolds.validateState (List.cons_ne_nil _ _) ?_ rfl ?_
    h.securityReferences⟩
  · show 15 &&& 2 ≠ 0
    decide
  · show 22 < 32
    decide

theorem loadDescriptor : (ziFsLoadSecurityDescriptor (blankVolume stateFlags) 1).eval img =
      .ok ⟨1,1,blankDescriptor⟩ := by
  have hrec : (readSecurityRecord (blankVolume stateFlags) 0).eval img =
      .ok ⟨1,1,blankDescriptor⟩ := by
    refine failIf_bind_ok ?_ ?_
    · show ¬(0 ≥ 1 ∨ 256 > 4096-256)
      decide
    refine bind_ok_iff.mpr ⟨_,blankDevice_readBlock (by decide : 22 < 32),?_⟩
    exact (tableHolds h : TableHolds (img (blankVolume
      stateFlags).superblock.securityTableStart).mem 1 _).records 0 Nat.one_pos
  refine failIf_bind_ok ?_ ?_
  · show ¬(1 = 0 ∨ 1 = 0 ∨ 1 > 255)
    decide
  exact bind_ok_iff.mpr ⟨_,hrec,rfl⟩

end

end BlankTables

end

/-! ### Lookups on the small volume -/

def systemToken : ZiAccessToken := ⟨40,1,⟨1,1⟩,[],0⟩

/-- A token of a user whom no descriptor mentions. -/
def strangerToken : ZiAccessToken := ⟨40,1,⟨3,7⟩,[],0⟩

def rootPath : ZiParsedPath := ⟨0x43,[]⟩

theorem blankVolume_lookupRoot {stateFlags : ℕ} (h : BlankTables img) :
    (ziFsLookupPath (blankVolume stateFlags) rootPath).eval img = .ok blankRoot := by
  refine ziFsLookupPath_ok_iff.mpr ⟨0,lookupPathRecord_none_ok_iff.mpr ⟨rfl,blankRoot,?_,rfl⟩⟩
  exact h.readRoot

theorem blankVolume_grants_iff {stateFlags rights : ℕ} (h : BlankTables img) :
    Grants (blankVolume stateFlags) img token rights blankRoot ↔
      ∃ granted, ziSecurityAccessCheck blankDescriptor token rights = .ok granted := by
  unfold Grants ziFsCheckSecurityAccess
  simp only [ReadM.bind_ok_iff,ReadM.eval_ofExcept,show blankRoot.securityId = 1 from rfl,
    h.loadDescriptor,Except.ok.injEq,exists_eq_left']

theorem authorisedLookup_exact_and_confined_blank : (blankVolume 0).MountedOn (blankImage 0) ∧
    (ziFsLookupPathAuthorised (blankVolume 0) rootPath systemToken 1).eval (blankImage 0) =
      .ok blankRoot ∧ ∀ (block : Block) (name : List UInt8),
      (ziFsLookupPathAuthorised (blankVolume 0) ⟨0x43,[name]⟩ strangerToken 1).eval
          (update (blankImage 0) 2 block) =
        (ziFsLookupPathAuthorised (blankVolume 0) ⟨0x43,[name]⟩ strangerToken 1).eval
          (blankImage 0) := by
  have htables : BlankTables (blankImage 0) := blankImage_tables
  refine ⟨htables.mountedOn,?_,fun block name => ?_⟩
  · refine ((authorisedLookup_exact_and_confined htables.mountedOn).1 rootPath 1 blankRoot
      (by decide)).mpr ⟨blankVolume_lookupRoot htables,fun k hk => absurd hk (Nat.not_lt_zero k),?_⟩
    exact (blankVolume_grants_iff htables).mpr ⟨1,rfl⟩
  · have htables' : BlankTables (update (blankImage 0) 2 block) := by
      refine ⟨?_,?_⟩
      · rw [update_of_ne (by decide),htables.records]
      · rw [update_of_ne (by decide),htables.security]
    refine (authorisedLookup_exact_and_confined htables.mountedOn).2 (blankVolume 0) _ _ 1 0
      blankRoot htables'.mountedOn rfl ?_ Nat.one_pos (blankVolume_lookupRoot htables) ?_ ⟨?_,?_⟩
    · intro i hi
      obtain rfl : i = 0 := by
        have : (blankVolume 0).superblock.securityTableBlocks = 1 := rfl
        omega
      exact update_of_ne (by decide) _ _
    · rw [blankVolume_grants_iff htables]
      rintro ⟨granted,hgranted⟩
      cases hgranted
    · intro j hj r hr
      obtain rfl : j = 0 := by omega
      obtain ⟨-,root,-,hr⟩ := lookupPathRecord_none_ok_iff.mp hr
      cases hr
      exact htables.recordSlot_eq htables'
    · intro j hj
      omega

theorem authorisedLookup_empty_mask : (blankVolume 0).MountedOn (blankImage 0) ∧
    (ziFsLookupPath (blankVolume 0) rootPath).eval (blankImage 0) = .ok blankRoot ∧
    (∀ k < rootPath.components.length, ∀ directory,
      (ziFsLookupPath (blankVolume 0) (rootPath.take k)).eval (blankImage 0) = .ok directory →
        Grants (blankVolume 0) (blankImage 0) systemToken accessExecute directory) ∧
    Grants (blankVolume 0) (blankImage 0) systemToken 0 blankRoot ∧
    (ziFsLookupPathAuthorised (blankVolume 0) rootPath systemToken 0).eval (blankImage 0) =
      .error .invalidArgument := by
  have htables : BlankTables (blankImage 0) := blankImage_tables
  refine ⟨htables.mountedOn,blankVolume_lookupRoot htables,
    fun k hk => absurd hk (Nat.not_lt_zero k),?_,rfl⟩
  exact (blankVolume_grants_iff htables).mpr ⟨0,rfl⟩

end Zizium
