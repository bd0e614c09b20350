import Zizium.Fs.Journal
import Zizium.Fs.SecurityCodec

/-!
# Round trips of the on-disk encodings

Every value that an encoder accepts is decoded again, and every value that was decoded is
accepted by its encoder.
-/

namespace Zizium

open Bytes BlockIO Except

variable {record : ZiFsJournalRecord} {flags securityId : ℕ} {desc : ZiSecurityDescriptor}

theorem ziFsEncodeJournalHeader_ok_iff {header : ZiFsJournalHeader} {block : Block} :
    ziFsEncodeJournalHeader header = .ok block ↔
      journalHeaderIsValid header = true ∧ block = journalHeaderBlock header := by
  simp only [ziFsEncodeJournalHeader,failIf_bind_ok_iff,pure_ok_iff,Bool.not_eq_false]

theorem ziFsEncodeJournalRecord_ok_iff {blocks : List Block} :
    ziFsEncodeJournalRecord record = .ok blocks ↔
      journalRecordIsValid record = true ∧ blocks = journalRecordPair record := by
  simp only [ziFsEncodeJournalRecord,failIf_bind_ok_iff,pure_ok_iff,Bool.not_eq_false]

theorem ZiFsJournalRecord.fits_of_decode {data : Mem}
    (h : ziFsDecodeJournalRecord data = .ok record) : record.Fits := by
  obtain ⟨-,-,-,-,rfl,-⟩ := ziFsDecodeJournalRecord_ok_iff.mp h
  constructor <;> exact Mem.readLe_lt _ _ _

theorem ziFsDecodeJournalRecord_joinBlocks {img : ℕ → Block} (hfits : record.Fits)
    (hvalid : journalRecordIsValid record = true)
    (himage : [img 0,img 1] = journalRecordPair record) :
    ziFsDecodeJournalRecord (joinBlocks img) = .ok record := by
  obtain ⟨hfirst,hsecond,-⟩ : img 0 = .ofMem 4096 (journalRecordBytes record) ∧
      img 1 = .ofMem 4096 ((journalRecordBytes record).shift 4096) ∧ True := by
    simpa [journalRecordPair] using himage
  apply ziFsDecodeJournalRecord_journalRecordBytes hfits hvalid
  intro i hi
  have hpayload := journalRecordIsValid_payload hvalid
  have hmod : i%4096 < 4096 := Nat.mod_lt _ (by omega)
  rw [joinBlocks]
  rcases (by omega : i/4096 = 0 ∨ i/4096 = 1) with hdiv | hdiv
  · rw [hdiv,hfirst,Buffer.mem_ofMem_of_lt hmod]
    congr 1
    omega
  · rw [hdiv,hsecond,Buffer.mem_ofMem_of_lt hmod,Mem.shift_apply]
    congr 1
    omega

theorem flags_le_one (hflags : flags < 256^4)
    (h : flags &&& (uint32Max-securityFlagDaclPresent) = 0) : flags ≤ 1 := by
  have hmask : ∀ i < 32, 1 ≤ i → Nat.testBit (uint32Max-securityFlagDaclPresent) i = true := by
    decide
  have hbits : ∀ i ≥ 1, flags.testBit i = false := by
    intro i hi
    by_cases hlt : i < 32
    · have hand : (flags &&& (uint32Max-securityFlagDaclPresent)).testBit i = false := by
        rw [h,Nat.zero_testBit]
      rwa [Nat.testBit_and,hmask i hlt hi,Bool.and_true] at hand
    · exact Nat.testBit_lt_two_pow
        (hflags.trans_le (Nat.pow_le_pow_right (by omega) (by omega) : 2^32 ≤ 2^i))
  have := Nat.lt_pow_two_of_testBit flags hbits
  omega

theorem encodable_of_encode {record : List UInt8} (hid : securityId < 256^8)
    (hflags : flags < 256^4) (hfits : desc.Fits)
    (h : encodeSecurityDescriptorRecord securityId flags desc = .ok record) :
    Encodable securityId flags desc ∧ record = securityRecordBytes securityId flags desc := by
  simp only [encodeSecurityDescriptorRecord,failIf_bind_ok_iff,pure_ok_iff,
    not_or,ne_eq,not_not,Bool.not_eq_false] at h
  obtain ⟨⟨hne,hsupported,hvalid⟩,⟨hpresent,habsent,hcount⟩,rfl⟩ := h
  have hle := flags_le_one hflags hsupported
  refine ⟨⟨hne,hid,?_,hvalid,?_,hfits⟩,rfl⟩
  · cases hdacl : desc.dacl.isSome with
    | true =>
      have : flags ≠ 0 := by
        rintro rfl
        simp [hdacl] at hpresent
      simp only [if_true]
      omega
    | false =>
      have : flags ≠ 1 := by
        rintro rfl
        simp [hdacl,securityFlagDaclPresent] at habsent
      simp only [Bool.false_eq_true,if_false]
      omega
  · cases hdacl : desc.dacl with
    | none => simp [ZiSecurityDescriptor.entries,hdacl]
    | some dacl => simpa [hdacl] using hcount

theorem ziFsDecodeSecurityDescriptor_append {table table' : Mem} {tableSize : ℕ}
    (hid : securityId < 256^8) (hflags : flags < 256^4) (hfits : desc.Fits)
    (h : ziFsAppendSecurityDescriptor table tableSize securityId flags desc = .ok table') :
    ∃ header, ziFsValidateSecurityTable table tableSize = .ok header ∧
      ziFsDecodeSecurityDescriptor (table'.shift (256+header.recordCount*256)) =
        .ok ⟨securityId,flags,desc⟩ := by
  simp only [ziFsAppendSecurityDescriptor,bind_ok_iff,pure_ok_iff] at h
  obtain ⟨-,-,header,hhdr,-,-,-,-,-,-,record,hencode,htable⟩ := h
  obtain ⟨hencodable,rfl⟩ :=
    encodable_of_encode hid hflags hfits hencode
  refine ⟨header,hhdr,ziFsDecodeSecurityDescriptor_securityRecordBytes hencodable ?_⟩
  rw [Mem.slice_shift,htable,slice_updateSecurityTableChecksum (by omega)]
  simp (disch := (rw [length_leBytes]; omega)) only [ziWriteU32Le,ziWriteU64Le,
    Mem.slice_put_of_disjoint]
  exact Mem.slice_put_self length_securityRecordBytes

theorem encodings_round_trip : (∀ record : ZiFsFileRecord, record.Fits → ∀ bytes,
      ziFsEncodeFileRecord record = .ok bytes → ∀ data : Mem, data.slice 0 256 = bytes →
        ziFsDecodeFileRecord data = .ok record) ∧
    (∀ header : ZiFsJournalHeader, header.Fits → ∀ block,
      ziFsEncodeJournalHeader header = .ok block → ziFsDecodeJournalHeader block.mem = .ok header) ∧
    (∀ record : ZiFsJournalRecord, record.Fits → ∀ blocks,
      ziFsEncodeJournalRecord record = .ok blocks → ∀ image : ℕ → Block,
        [image 0,image 1] = blocks → ziFsDecodeJournalRecord (joinBlocks image) = .ok record) ∧
    (∀ (table table' : Mem) (tableSize securityId flags : ℕ) (descriptor : ZiSecurityDescriptor),
      securityId < 256^8 → flags < 256^4 → descriptor.Fits →
      ziFsAppendSecurityDescriptor table tableSize securityId flags descriptor = .ok table' →
      ∃ header, ziFsValidateSecurityTable table tableSize = .ok header ∧
        ziFsDecodeSecurityDescriptor (table'.shift (256+header.recordCount*256)) =
          .ok ⟨securityId,flags,descriptor⟩) ∧
    (∀ data sb, ziFsDecodeSuperblock data = .ok sb → ∃ block,
      ziFsEncodeSuperblock sb = .ok block ∧ ziFsDecodeSuperblock block.mem = .ok sb) ∧
    (∀ data record, ziFsDecodeFileRecord data = .ok record → ∃ bytes,
      ziFsEncodeFileRecord record = .ok bytes ∧ ∀ copy : Mem, copy.slice 0 256 = bytes →
        ziFsDecodeFileRecord copy = .ok record) ∧
    (∀ data header, ziFsDecodeJournalHeader data = .ok header → ∃ block,
      ziFsEncodeJournalHeader header = .ok block ∧ ziFsDecodeJournalHeader block.mem = .ok header) ∧
    (∀ data record, ziFsDecodeJournalRecord data = .ok record → ∃ blocks,
      ziFsEncodeJournalRecord record = .ok blocks ∧ ∀ image : ℕ → Block,
        [image 0,image 1] = blocks → ziFsDecodeJournalRecord (joinBlocks image) = .ok record) := by
  refine ⟨?_,?_,?_,?_,?_,?_,?_,?_⟩
  · intro record hfits bytes hencode data hdata
    obtain ⟨hshape,rfl⟩ := ziFsEncodeFileRecord_ok_iff.mp hencode
    exact ziFsDecodeFileRecord_fileRecordBytes hdata hfits hshape
  · intro header hfits block hencode
    obtain ⟨hvalid,rfl⟩ := ziFsEncodeJournalHeader_ok_iff.mp hencode
    exact ziFsDecodeJournalHeader_journalHeaderBlock hfits hvalid
  · intro record hfits blocks hencode image himage
    obtain ⟨hvalid,rfl⟩ := ziFsEncodeJournalRecord_ok_iff.mp hencode
    exact ziFsDecodeJournalRecord_joinBlocks hfits hvalid himage
  · intro table table' tableSize securityId flags descriptor hid hflags hfits happend
    exact ziFsDecodeSecurityDescriptor_append hid hflags hfits happend
  · intro data sb hdecode
    have hfits := ZiFsSuperblock.fits_of_decode hdecode
    have hvalid := ZiFsSuperblock.valid_of_decode hdecode
    exact ⟨_,ziFsEncodeSuperblock_ok_iff.mpr ⟨hfits.volumeName,hvalid.state,hvalid.layout,rfl⟩,
      ziFsDecodeSuperblock_superblockBlock hfits hvalid⟩
  · intro data record hdecode
    have hfits := ZiFsFileRecord.fits_of_decode hdecode
    have hshape := ZiFsFileRecord.shape_of_decode hdecode
    exact ⟨_,ziFsEncodeFileRecord_ok_iff.mpr ⟨hshape,rfl⟩,fun copy hcopy =>
      ziFsDecodeFileRecord_fileRecordBytes hcopy hfits hshape⟩
  · intro data header hdecode
    have hvalid := (ziFsDecodeJournalHeader_ok_iff.mp hdecode).2.2.2
    exact ⟨_,ziFsEncodeJournalHeader_ok_iff.mpr ⟨hvalid,rfl⟩,
      ziFsDecodeJournalHeader_journalHeaderBlock (ZiFsJournalHeader.fits_of_decode hdecode)
        hvalid⟩
  · intro data record hdecode
    have hvalid := (ziFsDecodeJournalRecord_ok_iff.mp hdecode).2.2.2.2.2
    exact ⟨_,ziFsEncodeJournalRecord_ok_iff.mpr ⟨hvalid,rfl⟩,fun image himage =>
      ziFsDecodeJournalRecord_joinBlocks (ZiFsJournalRecord.fits_of_decode hdecode) hvalid himage⟩

end Zizium
