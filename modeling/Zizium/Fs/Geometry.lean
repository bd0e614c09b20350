import Zizium.Fs.Transaction

/-!
# Writing to a volume

With a superblock that passed its checks every write of the volume code is in range, and every
block holds one part of the journal at most.
-/

namespace Zizium

open Bytes BlockIO Function Except

variable {device : ZiBlockDevice} {i : ℕ} {img : ℕ → Block}

/-- A write-capable device that holds a journalled volume. -/
structure Geometry (device : ZiBlockDevice) (sb : ZiFsSuperblock) : Prop where
  contract : mountDeviceContractIsValid device = true
  writes : deviceSupportsZifsWrites device = true
  total : sb.totalBlocks = device.blockCount
  valid : sb.Valid
  fits : sb.Fits
  journal : sb.UsesJournal
  security : sb.UsesSecurity
  features : sb.incompatibleFeatures &&& (uint64Max-featuresSupported) = 0
  capacity : journalMinimumRecordCapacity ≤ (sb.journalBlocks-2)/2

/-- The number of slots of the record ring. -/
def ringCapacity (sb : ZiFsSuperblock) : ℕ := (sb.journalBlocks-2)/2

/-- The first block of a slot of the record ring. -/
def slotBlock (sb : ZiFsSuperblock) (index : ℕ) : ℕ := sb.journalStart+(2+index*2)

def ZiFsSuperblock.IsRing (sb : ZiFsSuperblock) (block : ℕ) : Prop :=
  sb.journalStart+2 ≤ block ∧ block < sb.journalStart+sb.journalBlocks

namespace Geometry

variable {sb : ZiFsSuperblock} (h : Geometry device sb)

include h

theorem withState {g t s : ℕ} (hg : g ≠ 0) (hg' : g < 256^8) (ht : t < 256^8) (hs : s < 256^4)
    (hstate : superblockStateIsValid (sb.withState g t s) = true) :
    Geometry device (sb.withState g t s) :=
  ⟨h.contract,h.writes,h.total,h.valid.withState hg hstate,h.fits.withState hg' ht hs,
    h.journal,h.security,h.features,h.capacity⟩

theorem contractFacts :
    blockDeviceStructSize ≤ device.structSize ∧ device.version = blockDeviceVersion ∧
      device.blockSize = blockSize ∧
      (device.flags &&& deviceWriteSupported ≠ 0 → device.hasWrite = true) ∧
      (device.flags &&& deviceFlushSupported ≠ 0 → device.hasFlush = true) ∧
      (device.flags &&& deviceWriteSupported ≠ 0 → device.flags &&& deviceReadOnly = 0) := by
  have hcontract := h.contract
  simp only [mountDeviceContractIsValid,Bool.not_eq_true',decide_eq_false_iff_not,not_or,not_and,
    not_lt,ne_eq,not_not,Bool.not_eq_false] at hcontract
  obtain ⟨h1,h2,-,h4,-,h6,-,h8,-,h10⟩ := hcontract
  refine ⟨h1,h2,h4,h6,h8,fun hw => ?_⟩
  by_contra hro
  exact hw (h10 hro)

theorem flags_eq : device.flags &&& 6 = 6 := by exact decide_eq_true_eq.mp h.writes

theorem writeFlag : device.flags &&& deviceWriteSupported = 4 := by
  have : device.flags &&& 4 = device.flags &&& 6 &&& 4 := by rw [Nat.and_assoc]; rfl
  rw [deviceWriteSupported,this,h.flags_eq]
  rfl

theorem flushFlag : device.flags &&& deviceFlushSupported = 2 := by
  have : device.flags &&& 2 = device.flags &&& 6 &&& 2 := by rw [Nat.and_assoc]; rfl
  rw [deviceFlushSupported,this,h.flags_eq]
  rfl

theorem ziBlockWrite_eq {first : ℕ} {blocks : List Block}
    (hpos : blocks ≠ []) (hrange : first+blocks.length ≤ sb.totalBlocks) :
    ziBlockWrite device first blocks = IoM.write first blocks := by
  obtain ⟨h1,h2,h3,h5,-,h7⟩ := h.contractFacts
  simp only [blockDeviceStructSize,blockDeviceVersion,blockSize] at h1 h2 h3
  have hw : device.flags &&& deviceWriteSupported ≠ 0 := by rw [h.writeFlag]; decide
  have htotal := h.total
  have hlen : blocks.length ≠ 0 := fun h0 => hpos (List.length_eq_zero_iff.mp h0)
  rw [ziBlockWrite,IoM.failIf_bind_neg (by
      simp only [blockDeviceStructSize,blockDeviceVersion]
      omega),
    IoM.failIf_bind_neg (by simpa using h7 hw),IoM.failIf_bind_neg (by simp [h5 hw,hw]),
    IoM.failIf_bind_neg (by rw [h3]; simp only [blockSize]; omega)]

theorem ziBlockBarrier_eq : ziBlockBarrier device = IoM.flush := by
  obtain ⟨h1,h2,-,-,h6,-⟩ := h.contractFacts
  have hf : device.flags &&& deviceFlushSupported ≠ 0 := by rw [h.flushFlag]; decide
  rw [ziBlockBarrier,ziBlockFlush,IoM.failIf_bind_neg
    (by simp only [not_or,not_lt]; exact ⟨h1,not_not.mpr h2⟩),
    IoM.failIf_bind_neg (by simp [h6 hf,hf])]

theorem writeSuperblockCopy_eq {n : ℕ} (hn : n < sb.totalBlocks) (block : Block) :
    writeSuperblockCopy device n block = (IoM.write n [block] >>= fun _ => IoM.flush) := by
  rw [writeSuperblockCopy,h.ziBlockWrite_eq (by simp) (by simp; omega),h.ziBlockBarrier_eq]

theorem ziFsEncodeSuperblock_eq : ziFsEncodeSuperblock sb = .ok (superblockBlock sb) := by
  have hname := h.fits.volumeName
  have hstate := h.valid.state
  have hranges := superblockRangesAreValid_iff.mpr h.valid.layout
  rw [ziFsEncodeSuperblock,failIf_bind_neg (by simp [hstate,hranges]; omega)]
  rfl

/-! ### The journal -/

theorem journalBlocks_eq : sb.journalBlocks = 2+ringCapacity sb*2 ∧ 5 ≤ ringCapacity sb := by
  have hj := h.valid.layout.journal h.journal
  have hcap := h.capacity
  simp only [ringCapacity,journalMinimumRecordCapacity] at hcap ⊢
  omega

theorem journal_inside :
    sb.journalStart+sb.journalBlocks ≤ sb.totalBlocks ∧ sb.totalBlocks < 256^8 := by
  refine ⟨(h.valid.layout.inside (sb.journalStart, sb.journalBlocks) ?_).2,h.fits.totalBlocks⟩
  simp [ZiFsSuperblock.tables]

theorem recordCapacity_eq : ziFsJournalRecordCapacity sb.journalBlocks = .ok (ringCapacity sb) := by
  obtain ⟨hblocks,hcap⟩ := h.journalBlocks_eq
  simp only [ziFsJournalRecordCapacity,journalHeaderCopies,journalRecordBlocks]
  rw [failIf_bind_neg (by omega),failIf_bind_neg (by omega)]
  rfl

theorem recordBlock_ok (hi : i < ringCapacity sb) :
    ziFsJournalRecordBlock sb.journalStart (ringCapacity sb) i = .ok (slotBlock sb i) ∧
      slotBlock sb i+2 ≤ sb.journalStart+sb.journalBlocks := by
  have hinside := h.journal_inside
  exact ziFsJournalRecordBlock_ok (by omega) h.recordCapacity_eq hi

theorem recordBlock_eq (hi : i < ringCapacity sb) :
    ziFsJournalRecordBlock sb.journalStart (ringCapacity sb) i = .ok (slotBlock sb i) :=
  (h.recordBlock_ok hi).1

theorem slot_inside (hi : i < ringCapacity sb) :
    slotBlock sb i+2 ≤ sb.journalStart+sb.journalBlocks := (h.recordBlock_ok hi).2

end Geometry

/-! ### Journal headers -/

/-- The selection between the two header copies. -/
def selectHeader : Result ZiFsJournalHeader → Result ZiFsJournalHeader →
    Result (ZiFsJournalHeader × ℕ)
  | .error _, .error status => .error status
  | .ok header, .error _ => .ok (header, 0)
  | .error _, .ok header => .ok (header, 1)
  | .ok header, .ok candidate =>
    if candidate.headerSequence > header.headerSequence then .ok (candidate, 1)
    else .ok (header, 0)

def LoadsHeader (sb : ZiFsSuperblock) (image : ℕ → Block) (header : ZiFsJournalHeader)
    (copy : ℕ) : Prop :=
  selectHeader (ziFsDecodeJournalHeader (image sb.journalStart).mem)
    (ziFsDecodeJournalHeader (image (sb.journalStart+1)).mem) = .ok (header, copy)

theorem eval_readJournalHeaderCopy {start : ℕ} (h : start+i < device.blockCount) :
    (readJournalHeaderCopy device start i).eval img =
      ziFsDecodeJournalHeader (img (start+i)).mem := by
  rw [readJournalHeaderCopy,ReadM.eval_bind,ZiBlockDevice.eval_readBlock,if_pos h]
  rfl

theorem Geometry.eval_ziFsLoadJournalHeader {sb : ZiFsSuperblock} (h : Geometry device sb)
    (img : ℕ → Block) :
    (ziFsLoadJournalHeader device sb.journalStart).eval img =
      selectHeader (ziFsDecodeJournalHeader (img sb.journalStart).mem)
        (ziFsDecodeJournalHeader (img (sb.journalStart+1)).mem) := by
  have hblocks := h.journalBlocks_eq
  have hinside := h.journal_inside
  have htotal := h.total
  simp only [ziFsLoadJournalHeader,journalHeaderCopies,ReadM.eval_bind,ReadM.eval_attempt,
    eval_readJournalHeaderCopy (show sb.journalStart+0 < device.blockCount by omega),
    eval_readJournalHeaderCopy (show sb.journalStart+1 < device.blockCount by omega)]
  rw [ReadM.eval_failIf,if_neg (by omega)]
  simp only [ok_bind,Nat.add_zero]
  cases ziFsDecodeJournalHeader (img sb.journalStart).mem with
  | error e =>
    cases ziFsDecodeJournalHeader (img (sb.journalStart+1)).mem with
    | error e' => rfl
    | ok header => rfl
  | ok header =>
    cases ziFsDecodeJournalHeader (img (sb.journalStart+1)).mem with
    | error e' => rfl
    | ok candidate =>
      simp only [selectHeader,ReadM.eval_ite]
      split <;> rfl

namespace LoadsHeader

variable {sb : ZiFsSuperblock} {image' : ℕ → Block} {header header' : ZiFsJournalHeader}
  {copy copy' : ℕ}

section

variable (h : LoadsHeader sb img header copy)

include h

theorem decode :
    copy < 2 ∧ ziFsDecodeJournalHeader (img (sb.journalStart+copy)).mem = .ok header := by
  unfold LoadsHeader at h
  cases h0 : ziFsDecodeJournalHeader (img sb.journalStart).mem with
  | error e =>
    cases h1 : ziFsDecodeJournalHeader (img (sb.journalStart+1)).mem with
    | error e' =>
      rw [h0,h1] at h
      cases h
    | ok candidate =>
      rw [h0,h1] at h
      cases h
      exact ⟨by omega,h1⟩
  | ok first =>
    cases h1 : ziFsDecodeJournalHeader (img (sb.journalStart+1)).mem with
    | error e' =>
      rw [h0,h1] at h
      cases h
      exact ⟨by omega,h0⟩
    | ok candidate =>
      rw [h0,h1] at h
      simp only [selectHeader] at h
      split at h
      · cases h
        exact ⟨by omega,h1⟩
      · cases h
        exact ⟨by omega,h0⟩

theorem fits : header.Fits :=
  ZiFsJournalHeader.fits_of_decode h.decode.2

theorem valid : journalHeaderIsValid header = true := by
  obtain ⟨-,-,-,hvalid⟩ := ziFsDecodeJournalHeader_ok_iff.mp h.decode.2
  exact hvalid

theorem congr (h0 : image' sb.journalStart = img sb.journalStart)
    (h1 : image' (sb.journalStart+1) = img (sb.journalStart+1)) :
    LoadsHeader sb image' header copy := by
  rwa [LoadsHeader,h0,h1]

theorem store (hfits : header'.Fits) (hvalid : journalHeaderIsValid header' = true)
    (hnewer : header.headerSequence < header'.headerSequence) :
    LoadsHeader sb (update img (sb.journalStart+(copy+1)%2)
      (journalHeaderBlock header')) header' ((copy+1)%2) := by
  have hnew := ziFsDecodeJournalHeader_journalHeaderBlock hfits hvalid
  obtain ⟨hlt,hold⟩ := h.decode
  have hcopy : copy = 0 ∨ copy = 1 := by omega
  rcases hcopy with rfl | rfl
  · rw [LoadsHeader,show (0+1)%2 = 1 from rfl,update_self,
      update_of_ne (by omega),show ziFsDecodeJournalHeader
        (img sb.journalStart).mem = .ok header from hold,hnew]
    simp only [selectHeader]
    rw [if_pos hnewer]
  · rw [LoadsHeader,show (1+1)%2 = 0 from rfl,Nat.add_zero,update_self,
      update_of_ne (by omega),hold,hnew]
    simp only [selectHeader]
    rw [if_neg (by omega)]

end

end LoadsHeader

end Zizium
