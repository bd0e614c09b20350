import Zizium.Fs.Authorisation
import Zizium.Fs.Targets

/-!
# The blocks and bytes of a file

The extents of a valid record map its logical blocks one to one to data blocks of the volume, so
that a regular file is a string of bytes.
-/

namespace Zizium

open Bytes BlockIO List Except

variable {logical block l : ℕ} {extents : List ZiFsExtent}

variable {vol : ZiFsVolume} {sb : ZiFsSuperblock} {record : ZiFsFileRecord} {img : ℕ → Block}

/-! ### Blocks -/

def ZiFsFileRecord.firstMappedBlock (record : ZiFsFileRecord) : ℕ :=
  if record.fileType = fileTypeDirectory then 1 else 0

theorem Contiguous.extentBlockAt_isSome_iff {first : ℕ} (h : Contiguous first extents) :
    (extentBlockAt logical extents).isSome = true ↔
      first ≤ logical ∧ logical < first+extentBlocks extents := by
  induction extents generalizing first with
  | nil =>
    simp only [extentBlockAt,extentBlocks_nil,Option.isSome_none,Bool.false_eq_true,false_iff]
    omega
  | cons e es ih =>
    obtain ⟨-,hfirst,-,-,hrest⟩ := h
    rw [extentBlockAt,extentBlocks_cons]
    split_ifs with hhere
    · simp only [Option.isSome_some,true_iff]
      omega
    · rw [ih hrest]
      omega

theorem extentBlockAt_injective (h : extents.Pairwise fun e f => ∀ b, e.Covers b → ¬f.Covers b)
    {logicalBlock' : ℕ} (hat : extentBlockAt logical extents = some block)
    (hat' : extentBlockAt logicalBlock' extents = some block) : logical = logicalBlock' := by
  induction extents with
  | nil => cases hat
  | cons e es ih =>
    obtain ⟨hhead,htail⟩ := pairwise_cons.mp h
    -- A block of the first extent is not a block of the others.
    have hapart : e.Covers block → ∀ l, extentBlockAt l es ≠ some block := by
      intro hcovers l hl
      obtain ⟨f,hf,hother⟩ := extentBlockAt_covers hl
      exact hhead f hf block hcovers hother
    rw [extentBlockAt] at hat hat'
    split_ifs at hat hat' with hhere hhere'
    · cases hat
      injection hat' with heq
      omega
    · refine absurd hat' (hapart ?_ _)
      cases hat
      exact ⟨by omega,by omega⟩
    · refine absurd hat (hapart ?_ _)
      cases hat'
      exact ⟨by omega,by omega⟩
    · exact ih htail hat hat'

namespace ZiFsFileRecord.ValidOn

theorem contiguous (h : record.ValidOn sb) : Contiguous record.firstMappedBlock record.extents := by
  rw [firstMappedBlock]
  split_ifs with hdir
  · exact (h.shape.directory hdir).2.2.1
  · by_cases hreg : record.fileType = fileTypeRegular
    · exact (h.shape.regular hreg).2.1
    · rw [(h.shape.special hreg hdir).2.1]
      trivial

theorem allocatedSize_div (h : record.ValidOn sb) :
    record.allocatedSize/blockSize = extentBlocks record.extents := by
  rw [h.shape.allocated]
  exact Nat.mul_div_cancel _ (by decide)

theorem extentBlockAt_isSome_iff (h : record.ValidOn sb) (logical : ℕ) :
    (extentBlockAt logical record.extents).isSome = true ↔ record.firstMappedBlock ≤ logical ∧
        logical < record.firstMappedBlock+record.allocatedSize/blockSize := by
  rw [h.allocatedSize_div]
  exact h.contiguous.extentBlockAt_isSome_iff

theorem extentBlockAt_data (h : record.ValidOn sb)
    (hat : extentBlockAt logical record.extents = some block) :
    block < sb.totalBlocks ∧ ¬ sb.IsMetadata block := by
  obtain ⟨e,he,hcovers⟩ := extentBlockAt_covers hat
  have hinside := h.inside e he
  exact ⟨Nat.lt_of_lt_of_le hcovers.2 hinside,h.data e he block hcovers⟩

end ZiFsFileRecord.ValidOn

/-! ### Bytes -/

def ZiFsFileRecord.byteAt (record : ZiFsFileRecord) (image : ℕ → Block) (position : ℕ) :
    Option UInt8 :=
  (extentBlockAt (position/blockSize) record.extents).map fun block =>
    (image block).mem (position%blockSize)

def ZiFsFileRecord.IsSlice (record : ZiFsFileRecord) (image : ℕ → Block) (offset count : ℕ)
    (bytes : List UInt8) : Prop :=
  bytes.map some = (range' offset count).map (record.byteAt image)

namespace ZiFsFileRecord.IsSlice

variable {off count count' : ℕ} {bytes bytes' : List UInt8}

theorem nil : record.IsSlice img off 0 [] := rfl

section

variable (h : record.IsSlice img off count bytes)

include h

theorem append (h' : record.IsSlice img (off+count) count' bytes') :
    record.IsSlice img off (count+count') (bytes ++ bytes') := by
  rw [IsSlice] at h h' ⊢
  rw [map_append,h,h',← map_append,range'_append_1]

theorem unique (h' : record.IsSlice img off count bytes') : bytes = bytes' :=
  map_injective_iff.mpr (Option.some_injective _) (h.trans h'.symm)

theorem length_eq : bytes.length = count := by
  have hlen := congrArg length h
  simpa using hlen

theorem getElem?_eq {i : ℕ} (hi : i < count) : bytes[i]? = record.byteAt img (off+i) := by
  have hat := congrArg (fun l => l[i]?) h
  have hlt : i < bytes.length := h.length_eq ▸ hi
  simp only [getElem?_map,getElem?_range' hi,getElem?_eq_getElem hlt,
    Option.map_some,Nat.one_mul,Option.some.injEq] at hat
  rw [getElem?_eq_getElem hlt,hat]

end

theorem of_block {blockOffset : ℕ} (hat : extentBlockAt logical record.extents = some block)
    (hoff : off = logical*blockSize+blockOffset) (hend : blockOffset+count ≤ blockSize) :
    record.IsSlice img off count ((img block).mem.slice blockOffset count) := by
  rw [IsSlice,Mem.slice,range'_eq_map_range,map_map,map_map]
  refine map_congr_left fun i hi => ?_
  have hlt := mem_range.mp hi
  have hpos : off+i = logical*blockSize+(blockOffset+i) := by omega
  have hdiv : (off+i)/blockSize = logical := by
    rw [hpos,Nat.mul_comm,Nat.mul_add_div (by decide),Nat.div_eq_of_lt (by omega),
      Nat.add_zero]
  have hmod : (off+i)%blockSize = blockOffset+i := by
    rw [hpos,Nat.mul_comm,Nat.mul_add_mod,Nat.mod_eq_of_lt (by omega)]
  simp only [Function.comp_apply,byteAt,hdiv,hmod,hat,Option.map_some]

end ZiFsFileRecord.IsSlice

theorem eval_readFileLoop {rounds fileOffset remaining : ℕ} (output : List UInt8)
    (hrounds : remaining ≤ rounds) (hmapped : ∀ l, l*blockSize < fileOffset+remaining →
      ∃ block < vol.device.blockCount, extentBlockAt l record.extents = some block) :
    ∃ bytes, record.IsSlice img fileOffset remaining bytes ∧
      (readFileLoop vol record rounds fileOffset remaining output).eval img =
        .ok (output ++ bytes) := by
  induction rounds generalizing fileOffset remaining output with
  | zero =>
    obtain rfl : remaining = 0 := by omega
    exact ⟨[],.nil,by rw [readFileLoop,ReadM.eval_pure,append_nil]⟩
  | succ rounds ih =>
    rw [readFileLoop]
    by_cases hdone : remaining = 0
    · rw [if_pos hdone,hdone]
      exact ⟨[],.nil,by rw [ReadM.eval_pure,append_nil]⟩
    rw [if_neg hdone]
    have hsplit : fileOffset = fileOffset/blockSize*blockSize+fileOffset%blockSize :=
      (Nat.div_add_mod' fileOffset blockSize).symm
    have hmod : fileOffset%blockSize < blockSize := Nat.mod_lt _ (by decide)
    obtain ⟨block,hblock,hat⟩ := hmapped (fileOffset/blockSize) (by omega)
    generalize fileOffset%blockSize = blockOffset at hsplit hmod ⊢
    dsimp only
    rw [hat]
    have hread : (vol.device.readBlock block).eval img = .ok (img block) := by
      rw [ZiBlockDevice.eval_readBlock,if_pos hblock]
    rw [ReadM.eval_bind_of_ok hread]
    generalize hcopy : min (blockSize-blockOffset) remaining = copySize
    have hpart : record.IsSlice img fileOffset copySize
        ((img block).mem.slice blockOffset copySize) := .of_block hat hsplit (by omega)
    obtain ⟨bytes,hbytes,heval⟩ := ih (output ++ (img block).mem.slice blockOffset copySize)
      (show remaining-copySize ≤ rounds by omega)
      fun l (hl : l*blockSize < fileOffset+copySize+(remaining-copySize)) => hmapped l (by omega)
    refine ⟨(img block).mem.slice blockOffset copySize ++ bytes,?_,by
      rw [heval,append_assoc]⟩
    have hall := hpart.append hbytes
    rwa [show copySize+(remaining-copySize) = remaining by omega] at hall

namespace ZiFsFileRecord.ValidOn

theorem eval_ziFsReadFile (h : record.ValidOn vol.superblock)
    (hdevice : vol.superblock.totalBlocks ≤ vol.device.blockCount)
    (hreg : record.fileType = fileTypeRegular) (off count : ℕ) :
    ∃ bytes, record.IsSlice img off (min count (record.fileSize-off)) bytes ∧
      (ziFsReadFile vol record off count).eval img = .ok bytes := by
  have hvalid : (ReadM.ofExcept (ziFsValidateFileRecord vol.superblock record) :
      ReadIo Unit).eval img = .ok () := ziFsValidateFileRecord_ok_iff.mpr h
  rw [ziFsReadFile,ReadM.eval_bind_of_ok hvalid,ReadM.eval_bind_failIf_neg (by simpa using hreg),
    ReadM.eval_ite]
  split_ifs with hnone
  · have hzero : min count (record.fileSize-off) = 0 := by omega
    rw [hzero]
    exact ⟨[],.nil,rfl⟩
  · rw [Nat.min_comm]
    obtain ⟨-,-,hsize,-⟩ := h.shape.regular hreg
    have halloc := h.shape.allocated
    refine eval_readFileLoop [] (Nat.le_refl _) fun l hl => ?_
    have hmapped : (extentBlockAt l record.extents).isSome = true := by
      have hfirst : record.firstMappedBlock = 0 := if_neg (by rw [hreg]; decide)
      rw [h.extentBlockAt_isSome_iff,h.allocatedSize_div,hfirst]
      simp only [blockSize] at hl
      omega
    obtain ⟨block,hat⟩ := Option.isSome_iff_exists.mp hmapped
    exact ⟨block,Nat.lt_of_lt_of_le (h.extentBlockAt_data hat).1 hdevice,hat⟩

/-! ### Directories -/

theorem isMetadata_directoryBlock (h : record.ValidOn sb)
    (hdir : record.fileType = fileTypeDirectory) : sb.IsMetadata record.directoryBlock := by
  obtain ⟨hlow,hhigh,-⟩ := h.directory hdir
  exact .inr (.inr ⟨(sb.directoryTableStart, sb.directoryTableBlocks),
    by simp [ZiFsSuperblock.tables],hlow,hhigh⟩)

variable (h : record.ValidOn vol.superblock) (hdir : record.fileType = fileTypeDirectory)

include h hdir

theorem ziFsDirectoryBlockCount_eq :
    ziFsDirectoryBlockCount vol record = .ok (record.allocatedSize/blockSize+1) := by
  have hblocks := (h.shape.directory hdir).2.2.2
  rw [ziFsDirectoryBlockCount,failIf_bind_neg (by simpa using hdir),
    ziFsValidateFileRecord_ok_iff.mpr h,ok_bind (a := ()),h.allocatedSize_div]
  exact failIf_bind_neg (by simp only [maxDirectoryBlocks]; omega)

theorem ziFsDirectoryBlockAt_eq (hl : l < record.allocatedSize/blockSize+1) :
    (l = 0 ∧ ziFsDirectoryBlockAt vol record l = .ok record.directoryBlock) ∨
      ∃ block, extentBlockAt l record.extents = some block ∧
        ziFsDirectoryBlockAt vol record l = .ok block := by
  rw [ziFsDirectoryBlockAt,h.ziFsDirectoryBlockCount_eq hdir,ok_bind,failIf_bind_neg (by omega)]
  by_cases hzero : l = 0
  · rw [if_pos hzero]
    exact .inl ⟨hzero,rfl⟩
  · have hmapped : (extentBlockAt l record.extents).isSome = true := by
      have hfirst : record.firstMappedBlock = 1 := if_pos hdir
      rw [h.extentBlockAt_isSome_iff,hfirst]
      omega
    obtain ⟨block,hat⟩ := Option.isSome_iff_exists.mp hmapped
    rw [if_neg hzero,hat]
    exact .inr ⟨block,rfl,rfl⟩

theorem ziFsDirectoryBlockAt_injective {l' : ℕ} (hl : l < record.allocatedSize/blockSize+1)
    (hl' : l' < record.allocatedSize/blockSize+1)
    (hat : ziFsDirectoryBlockAt vol record l = .ok block)
    (hat' : ziFsDirectoryBlockAt vol record l' = .ok block) : l = l' := by
  have hmeta := h.isMetadata_directoryBlock hdir
  rcases h.ziFsDirectoryBlockAt_eq hdir hl with ⟨rfl,hok⟩ | ⟨b,hb,hok⟩ <;>
    rcases h.ziFsDirectoryBlockAt_eq hdir hl' with ⟨rfl,hok'⟩ | ⟨b',hb',hok'⟩ <;>
    cases hok.symm.trans hat <;> cases hok'.symm.trans hat'
  · rfl
  · exact absurd hmeta (h.extentBlockAt_data hb').2
  · exact absurd hmeta (h.extentBlockAt_data hb).2
  · exact extentBlockAt_injective h.disjoint hb hb'

end ZiFsFileRecord.ValidOn

theorem validRecord_readable {data : Mem} (hdecode : ziFsDecodeSuperblock data = .ok vol.superblock)
    (hvalid : ziFsValidateFileRecord vol.superblock record = .ok ())
    (hdevice : vol.superblock.totalBlocks ≤ vol.device.blockCount) (img : ℕ → Block) :
    let first := if record.fileType = fileTypeDirectory then 1 else 0
    let mapped := fun l => extentBlockAt l record.extents
    let read := fun off count => (ziFsReadFile vol record off count).eval img
    (∀ l, (mapped l).isSome = true ↔ first ≤ l ∧ l < first+record.allocatedSize/blockSize) ∧
    (∀ l l' block, mapped l = some block → mapped l' = some block → l = l') ∧
    (∀ l block, mapped l = some block →
      block < vol.superblock.totalBlocks ∧ ¬ vol.superblock.IsMetadata block) ∧
    (record.fileType = fileTypeRegular → (∀ off count, ∃ bytes, read off count = .ok bytes ∧
        bytes.length = min count (record.fileSize-off) ∧
        ∀ i < bytes.length, bytes[i]? = record.byteAt img (off+i)) ∧
      ∀ off n m, ∃ bytes bytes', read off n = .ok bytes ∧
        read (off+n) m = .ok bytes' ∧ read off (n+m) = .ok (bytes ++ bytes')) ∧
    (record.fileType = fileTypeDirectory → ∃ count, ziFsDirectoryBlockCount vol record = .ok count ∧
        (∀ l < count, ∃ block < vol.superblock.totalBlocks,
          ziFsDirectoryBlockAt vol record l = .ok block) ∧
        ∀ l < count, ∀ l' < count, l ≠ l' →
          ziFsDirectoryBlockAt vol record l ≠ ziFsDirectoryBlockAt vol record l') := by
  intro first mapped read
  have h : record.ValidOn vol.superblock := ziFsValidateFileRecord_ok_iff.mp hvalid
  have hlayout : vol.superblock.Layout := by
    obtain ⟨-,-,-,-,-,hsuper⟩ := ziFsDecodeSuperblock_ok_iff.mp hdecode
    exact hsuper.layout
  refine ⟨h.extentBlockAt_isSome_iff,fun l l' block => extentBlockAt_injective h.disjoint,
    fun l block => h.extentBlockAt_data,fun hreg => ⟨?_,?_⟩,fun hdir => ?_⟩
  · intro off count
    obtain ⟨bytes,hslice,heval⟩ := h.eval_ziFsReadFile hdevice hreg off count
    refine ⟨bytes,heval,hslice.length_eq,fun i hi => hslice.getElem?_eq ?_⟩
    rwa [hslice.length_eq] at hi
  · intro off n m
    obtain ⟨bytes,hslice,heval⟩ := h.eval_ziFsReadFile hdevice hreg off n
    obtain ⟨bytes',hslice',heval'⟩ := h.eval_ziFsReadFile hdevice hreg (off+n) m
    obtain ⟨all,hall,hevalAll⟩ := h.eval_ziFsReadFile hdevice hreg off (n+m)
    refine ⟨bytes,bytes',heval,heval',?_⟩
    -- The second read starts behind the first unless the file ends before.
    have hboth : record.IsSlice img off (min (n+m) (record.fileSize-off))
        (bytes ++ bytes') := by
      by_cases hend : n ≤ record.fileSize-off
      · rw [Nat.min_eq_left hend] at hslice
        have happend := hslice.append hslice'
        rwa [show n+min m (record.fileSize-(off+n)) =
          min (n+m) (record.fileSize-off) by omega] at happend
      · rw [show min m (record.fileSize-(off+n)) = 0 by omega] at hslice'
        rw [eq_nil_of_length_eq_zero hslice'.length_eq,append_nil]
        rwa [show min n (record.fileSize-off) =
          min (n+m) (record.fileSize-off) by omega] at hslice
    rw [hboth.unique hall]
    exact hevalAll
  · refine ⟨_,h.ziFsDirectoryBlockCount_eq hdir,fun l hl => ?_,fun l hl l' hl' hne heq => ?_⟩
    · rcases h.ziFsDirectoryBlockAt_eq hdir hl with ⟨-,hok⟩ | ⟨block,hat,hok⟩
      · refine ⟨record.directoryBlock,?_,hok⟩
        have htable := (hlayout.inside
          (vol.superblock.directoryTableStart, vol.superblock.directoryTableBlocks)
          (by simp [ZiFsSuperblock.tables])).2
        exact Nat.lt_of_lt_of_le (h.directory hdir).2.1 htable
      · exact ⟨block,(h.extentBlockAt_data hat).1,hok⟩
    · obtain ⟨block,hok⟩ : ∃ block, ziFsDirectoryBlockAt vol record l = .ok block := by
        rcases h.ziFsDirectoryBlockAt_eq hdir hl with ⟨-,hok⟩ | ⟨block,-,hok⟩
        · exact ⟨_,hok⟩
        · exact ⟨block,hok⟩
      exact hne (h.ziFsDirectoryBlockAt_injective hdir hl hl' hok (heq ▸ hok))

def twoBlockFile : ZiFsFileRecord where
  fileId := 2
  parentFileId := 1
  flags := 0
  fileSize := 4100
  allocatedSize := 8192
  securityId := 1
  directoryBlock := 0
  createdTime := 0
  modifiedTime := 0
  changedTime := 0
  accessedTime := 0
  fileType := fileTypeRegular
  extents := [⟨0,25,1,0,0⟩,⟨1,23,1,0,0⟩]

/-- A read over the end of the first block, and the rest of the second. -/
theorem validRecord_readable_twoBlocks :
    ziFsDecodeSuperblock (superblockBlock blankSuperblock).mem = .ok (blankVolume 0).superblock ∧
      ziFsValidateFileRecord (blankVolume 0).superblock twoBlockFile = .ok () ∧
      (blankVolume 0).superblock.totalBlocks ≤ (blankVolume 0).device.blockCount ∧
      ∃ bytes, (ziFsReadFile (blankVolume 0) twoBlockFile 4094 100).eval (blankImage 0) =
        .ok bytes ∧ bytes.length = 6 := by
  have hdecode : ziFsDecodeSuperblock (superblockBlock blankSuperblock).mem =
      .ok (blankVolume 0).superblock :=
    ziFsDecodeSuperblock_superblockBlock blankSuperblock_fits blankSuperblock_valid
  have hvalid : ziFsValidateFileRecord (blankVolume 0).superblock twoBlockFile = .ok () := by decide
  have hdevice : (blankVolume 0).superblock.totalBlocks ≤ (blankVolume 0).device.blockCount := by
    decide
  obtain ⟨-,-,-,hread,-⟩ := validRecord_readable hdecode hvalid hdevice (blankImage 0)
  obtain ⟨bytes,heval,hlength,-⟩ := (hread rfl).1 4094 100
  exact ⟨hdecode,hvalid,hdevice,bytes,heval,hlength.trans (by decide)⟩

end Zizium
