import Zizium.Fs.Journal
import Zizium.Fs.SecurityCodec

/-!
# Validating the security table block by block

The mount of `kernel/fs/zifs/security.c` reads one block of the table at a time.  Its checksum and
its walk over the records are those of the table in memory.
-/

namespace Zizium

open Bytes BlockIO ReadM List ZiFsSuperblock

def ZiFsSuperblock.securityTable (sb : ZiFsSuperblock) (image : ℕ → Block) : Mem :=
  joinBlocks fun i => image (sb.securityTableStart+i)

theorem ZiFsSuperblock.securityTable_apply {sb : ZiFsSuperblock} {img : ℕ → Block} {k i : ℕ}
    (hi : i < 4096) : sb.securityTable img (k*4096+i) = (img (sb.securityTableStart+k)).mem i := by
  rw [securityTable,joinBlocks,show (k*4096+i)/4096 = k by omega,
    show (k*4096+i)%4096 = i by omega]

/-! ### The records of a table -/

section Records

variable {table data data' : Mem} {storage : ZiFsSecurityDescriptorStorage}
  {storages : List ZiFsSecurityDescriptorStorage} {idx prevId count slots : ℕ}

theorem recordOffset_le {i j : ℕ} (h : i ≤ j) : 256+i*256 ≤ 256+j*256 :=
  Nat.add_le_add_left (Nat.mul_le_mul_right 256 h) 256

def HoldsDescriptors (table : Mem) :
    (index previousId : ℕ) → List ZiFsSecurityDescriptorStorage → Prop
  | _, _, [] => True
  | index, previousId, storage :: storages =>
    ziFsDecodeSecurityDescriptor (table.shift (256+index*256)) = .ok storage ∧
      previousId < storage.securityId ∧
      HoldsDescriptors table (index+1) storage.securityId storages

section

variable (h : HoldsDescriptors table idx prevId storages)

include h

theorem HoldsDescriptors.lt (hs : storage ∈ storages) : prevId < storage.securityId := by
  induction storages generalizing idx prevId with
  | nil => cases hs
  | cons first storages ih =>
    obtain ⟨-,hfirst,h⟩ := h
    rcases mem_cons.mp hs with rfl | hs
    · exact hfirst
    · exact Nat.lt_trans hfirst (ih h hs)

theorem HoldsDescriptors.congr {table' : Mem}
    (hsame : ∀ i < 256+(idx+storages.length)*256, table i = table' i) :
    HoldsDescriptors table' idx prevId storages := by
  induction storages generalizing idx prevId with
  | nil => trivial
  | cons first storages ih =>
    obtain ⟨hdec,hid,h⟩ := h
    have hend : idx+1+storages.length = idx+(storages.length+1) := by omega
    refine ⟨ziFsDecodeSecurityDescriptor_congr (fun i hi => hsame _ ?_) hdec,hid,
      ih h fun i hi => hsame i (hend ▸ hi)⟩
    calc 256+idx*256+i
      _ < 256+idx*256+256 := Nat.add_lt_add_left hi _
      _ = 256+(idx+1)*256 := by rw [Nat.succ_mul,Nat.add_assoc]
      _ ≤ 256+(idx+(storages.length+1))*256 := recordOffset_le (by omega)

theorem HoldsDescriptors.pairwise : (storages.map (·.securityId)).Pairwise (· < ·) := by
  induction storages generalizing idx prevId with
  | nil => exact .nil
  | cons first storages ih =>
    obtain ⟨-,-,h⟩ := h
    refine pairwise_cons.mpr ⟨?_,ih h⟩
    intro id hid
    obtain ⟨storage,hs,rfl⟩ := mem_map.mp hid
    exact h.lt hs

end

/-- The IDs stored in the record slots of a table. -/
def securityIds (table : Mem) (count : ℕ) : List ℕ :=
  (range count).map fun index => ziReadU64Le table (256+index*256+8)

theorem HoldsDescriptors.securityIds_eq (h : HoldsDescriptors table 0 0 storages) :
    securityIds table storages.length = storages.map (·.securityId) := by
  suffices hfrom : ∀ idx prevId, HoldsDescriptors table idx prevId storages →
      (range' idx storages.length).map
        (fun idx => ziReadU64Le table (256+idx*256+8)) =
          storages.map (·.securityId) by
    rw [securityIds,range_eq_range']
    exact hfrom 0 0 h
  clear h
  induction storages with
  | nil => exact fun _ _ _ => rfl
  | cons first storages ih =>
    rintro idx prevId ⟨hfirst,-,h⟩
    have hid : first.securityId = ziReadU64Le table (256+idx*256+8) := by
      rw [(ziFsDecodeSecurityDescriptor_ok_iff.mp hfirst).2.2.2.2.2.2]
      exact Mem.readLe_shift
    rw [length_cons,range'_succ,map_cons,map_cons,ih _ _ h,hid]

theorem validateSecurityTableRecords_ok_iff :
    validateSecurityTableRecords table count idx prevId = .ok () ↔
      ∃ storages, storages.length = count ∧ HoldsDescriptors table idx prevId storages := by
  induction count generalizing idx prevId with
  | zero => refine ⟨fun _ => ⟨[],rfl,trivial⟩,fun _ => rfl⟩
  | succ count ih =>
    rw [validateSecurityTableRecords,Except.bind_ok_iff]
    constructor
    · rintro ⟨storage,hdec,h⟩
      obtain ⟨hid,h⟩ := Except.failIf_bind_ok_iff.mp h
      obtain ⟨storages,rfl,hrest⟩ := ih.mp h
      exact ⟨storage :: storages,rfl,hdec,Nat.lt_of_not_le hid,hrest⟩
    · rintro ⟨storages,hlen,h⟩
      obtain ⟨storage,storages,rfl⟩ := exists_cons_of_length_eq_add_one hlen
      obtain ⟨hdec,hid,hrest⟩ := h
      refine ⟨storage,hdec,Except.failIf_bind_ok_iff.mpr ⟨Nat.not_le.mpr hid,?_⟩⟩
      exact ih.mpr ⟨storages,Nat.succ.inj hlen,hrest⟩

/-! ### The walk over the slots -/

theorem scanSecuritySlots_add (m n off : ℕ) (scan : SecurityScan) :
    scanSecuritySlots data count (m+n) off scan = (scanSecuritySlots data count m off scan >>=
        scanSecuritySlots data count n (off+m*256)) := by
  induction m generalizing off scan with
  | zero => simp [scanSecuritySlots]
  | succ m ih =>
    have hoff : off+(m+1)*256 = off+securityRecordSize+m*256 := by
      simp only [securityRecordSize]
      omega
    rw [show m+1+n = m+n+1 by omega,scanSecuritySlots,scanSecuritySlots,hoff]
    split
    · simp only [ih,bind_assoc]
    · simp only [ih,bind_assoc]

theorem scanSecuritySlots_congr {off pos : ℕ} {scan result : SecurityScan}
    (hsame : ∀ i < slots*256, data (off+i) = data' (pos+i))
    (h : scanSecuritySlots data count slots off scan = .ok result) :
    scanSecuritySlots data' count slots pos scan = .ok result := by
  induction slots generalizing off pos scan with
  | zero => exact h
  | succ slots ih =>
    have hrest : ∀ i < slots*256, data (off+securityRecordSize+i) =
        data' (pos+securityRecordSize+i) := by
      intro i hi
      rw [Nat.add_assoc,Nat.add_assoc]
      refine hsame _ ?_
      simp only [securityRecordSize]
      omega
    rw [scanSecuritySlots] at h ⊢
    split at h
    · next hused =>
      obtain ⟨storage,hdec,h⟩ := Except.bind_ok_iff.mp h
      obtain ⟨hid,h⟩ := Except.failIf_bind_ok_iff.mp h
      rw [if_pos hused]
      refine Except.bind_ok_iff.mpr ⟨storage,?_,Except.failIf_bind_ok_iff.mpr ⟨hid,ih hrest h⟩⟩
      exact ziFsDecodeSecurityDescriptor_congr (fun i hi => hsame i (by omega)) hdec
    · next hused =>
      obtain ⟨hzero,h⟩ := Except.failIf_bind_ok_iff.mp h
      rw [if_neg hused]
      refine Except.failIf_bind_ok_iff.mpr ⟨?_,ih hrest h⟩
      have hslice : data'.slice pos securityRecordSize = data.slice off securityRecordSize :=
        Mem.slice_congr fun i hi => (hsame i (by simp only [securityRecordSize] at hi; omega)).symm
      rwa [bytesAreZero,hslice]

theorem scanSecuritySlots_ok_iff {ids found : List ℕ} (hcount : count ≤ idx+slots) :
    (∃ last, scanSecuritySlots table count slots (256+idx*256) ⟨idx,prevId,ids⟩ =
        .ok ⟨idx+slots,last,found⟩) ↔ ∃ storages, storages.length = count-idx ∧
        HoldsDescriptors table idx prevId storages ∧
        (∀ i, 256+count*256 ≤ i → 256+idx*256 ≤ i → i < 256+(idx+slots)*256 →
          table i = 0) ∧ found = ids ++ storages.map (·.securityId) := by
  induction slots generalizing idx prevId ids with
  | zero =>
    rw [show count-idx = 0 by omega]
    constructor
    · rintro ⟨last,h⟩
      cases h
      exact ⟨[],rfl,trivial,fun i _ _ _ => by omega,(append_nil _).symm⟩
    · rintro ⟨storages,hlen,-,-,rfl⟩
      rw [eq_nil_of_length_eq_zero hlen,map_nil,append_nil]
      exact ⟨prevId,rfl⟩
  | succ slots ih =>
    have hnext : 256+idx*256+securityRecordSize = 256+(idx+1)*256 := by
      simp only [securityRecordSize]
      omega
    have hend : idx+(slots+1) = idx+1+slots := by omega
    rw [scanSecuritySlots,hnext,hend]
    dsimp only
    split
    · next hused =>
      constructor
      · rintro ⟨last,h⟩
        obtain ⟨storage,hdec,h⟩ := Except.bind_ok_iff.mp h
        obtain ⟨hid,h⟩ := Except.failIf_bind_ok_iff.mp h
        obtain ⟨storages,hlen,hrest,hzero,rfl⟩ := (ih (by omega)).mp ⟨last,h⟩
        refine ⟨storage :: storages,?_,⟨hdec,Nat.lt_of_not_le hid,hrest⟩,
          fun i hi _ => hzero i hi (Nat.le_trans (recordOffset_le hused) hi),by simp⟩
        rw [length_cons,hlen]
        omega
      · rintro ⟨storages,hlen,h,hzero,rfl⟩
        obtain ⟨storage,storages,rfl⟩ :=
          exists_cons_of_length_eq_add_one (hlen.trans (by omega : _ = count-idx-1+1))
        obtain ⟨hdec,hid,hrest⟩ := h
        obtain ⟨last,hlast⟩ := (@ih (idx+1) storage.securityId (ids ++ [storage.securityId])
          (by omega)).mpr ⟨storages,by rw [length_cons] at hlen; omega,hrest,
            fun i hi hi' => hzero i hi (Nat.le_trans (recordOffset_le (Nat.le_succ _)) hi'),by simp⟩
        refine ⟨last,Except.bind_ok_iff.mpr ⟨storage,hdec,?_⟩⟩
        refine Except.failIf_bind_ok_iff.mpr ⟨Nat.not_le.mpr hid,hlast⟩
    · next hused =>
      have hzeroSlot : bytesAreZero table (256+idx*256) securityRecordSize = true ↔
          ∀ i, 256+idx*256 ≤ i → i < 256+(idx+1)*256 → table i = 0 := by
        rw [bytesAreZero_iff]
        refine ⟨fun h i hi hlt => ?_,fun h i hi => h _ (by omega) (by omega)⟩
        rw [← h (i-(256+idx*256)) (by omega),Nat.add_sub_cancel' hi]
      constructor
      · rintro ⟨last,h⟩
        obtain ⟨hslot,h⟩ := Except.failIf_bind_ok_iff.mp h
        have hslot := hzeroSlot.mp (Bool.eq_true_of_not_eq_false hslot)
        obtain ⟨storages,hlen,hrest,hzero,rfl⟩ := (ih (by omega)).mp ⟨last,h⟩
        obtain rfl : storages = [] := eq_nil_of_length_eq_zero (by omega)
        refine ⟨[],by rw [length_nil]; omega,trivial,fun i hi hfirst hlt => ?_,rfl⟩
        by_cases hin : i < 256+(idx+1)*256
        · exact hslot i hfirst hin
        · exact hzero i hi (Nat.le_of_not_lt hin) hlt
      · rintro ⟨storages,hlen,-,hzero,rfl⟩
        obtain rfl : storages = [] := eq_nil_of_length_eq_zero (by omega)
        obtain ⟨last,hlast⟩ := (@ih (idx+1) prevId ids (by omega)).mpr ⟨[],
          by rw [length_nil]; omega,trivial,
          fun i hi hi' => hzero i hi (Nat.le_trans (recordOffset_le (Nat.le_succ _)) hi'),rfl⟩
        refine ⟨last,Except.failIf_bind_ok_iff.mpr ⟨?_,hlast⟩⟩
        rw [hzeroSlot.mpr fun i hi hlt =>
          hzero i (Nat.le_trans (recordOffset_le (Nat.le_of_not_lt hused)) hi) hi
            (Nat.lt_of_lt_of_le hlt (recordOffset_le (Nat.le_add_right _ _)))]
        decide

end Records

/-! ### The binary search -/

variable {ids : List ℕ} {id : ℕ}

theorem getD_of_lt {i : ℕ} (h : i < ids.length) : ids.getD i 0 = ids[i] := by
  simp [getD_eq_getElem?_getD,h]

theorem securityIdSearch_of_mem (hsorted : ids.Pairwise (· < ·))
    {rounds first last k : ℕ} (hrounds : last-first ≤ rounds) (hlast : last ≤ ids.length)
    (hfirst : first ≤ k) (hk : k < last) (hid : ids.getD k 0 = id) :
    securityIdSearch ids id rounds first last = true := by
  induction rounds generalizing first last with
  | zero => omega
  | succ rounds ih =>
    have hless : ∀ i j, i < j → j < ids.length → ids.getD i 0 < ids.getD j 0 := by
      intro i j hij hj
      rw [getD_of_lt (by omega),getD_of_lt hj]
      exact pairwise_iff_getElem.mp hsorted i j (by omega) hj hij
    unfold securityIdSearch
    rw [if_pos (by omega)]
    simp only
    generalize hmiddle : first+(last-first)/2 = middle
    split
    · rfl
    · next hne =>
      split
      · next hlt =>
        refine ih (by omega) hlast ?_ hk
        by_contra hle
        rcases Nat.lt_or_eq_of_le (by omega : k ≤ middle) with hkm | rfl
        · have := hless k middle hkm (by omega)
          omega
        · exact hne hid
      · next hge =>
        refine ih (by omega) (by omega) hfirst ?_
        by_contra hle
        rcases Nat.lt_or_eq_of_le (by omega : middle ≤ k) with hkm | rfl
        · have := hless middle k hkm (by omega)
          omega
        · exact hne hid

theorem mem_of_securityIdSearch {rounds first last : ℕ}
    (hlast : last ≤ ids.length) (h : securityIdSearch ids id rounds first last = true) :
    id ∈ ids := by
  induction rounds generalizing first last with
  | zero => cases h
  | succ rounds ih =>
    unfold securityIdSearch at h
    split at h
    · next hlt =>
      dsimp only at h
      split at h
      · next hid =>
        rw [← hid,getD_of_lt (by omega)]
        exact getElem_mem _
      · split at h
        · exact ih hlast h
        · exact ih (by omega) h
    · cases h

theorem securityIdIsPresent_iff (hsorted : ids.Pairwise (· < ·)) :
    securityIdIsPresent ids id = true ↔ id ∈ ids := by
  refine ⟨mem_of_securityIdSearch (Nat.le_refl _),fun hmem => ?_⟩
  obtain ⟨k,hk,rfl⟩ := getElem_of_mem hmem
  exact securityIdSearch_of_mem hsorted (by omega) (Nat.le_refl _) (Nat.zero_le _) hk
    (getD_of_lt hk)

/-! ### The table on a device -/

section Device

variable {vol : ZiFsVolume} {img : ℕ → Block} {table : Mem} {header : ZiFsSecurityTableHeader}
  {storages : List ZiFsSecurityDescriptorStorage} {tableSize gen : ℕ}

theorem decodeSecurityTableHeader_congr {data data' : Mem} (h : ∀ i, i < 256 → data i = data' i) :
    decodeSecurityTableHeader data tableSize = decodeSecurityTableHeader data' tableSize := by
  simp (disch := omega) only [decodeSecurityTableHeader,bytesAreZero,ziReadU16Le,ziReadU32Le,
    ziReadU64Le,Mem.readLe_agree h,Mem.slice_agree h]
  congr!

theorem decodeSecurityTableHeader_ok (h : decodeSecurityTableHeader table tableSize = .ok header) :
    header.recordCapacity = securityTableCapacity tableSize ∧
      header.recordCount ≤ header.recordCapacity ∧
      header.usedBytes = 256+header.recordCount*256 := by
  simp only [decodeSecurityTableHeader,Except.bind_ok_iff,Except.failIf_ok_iff,
    Except.pure_ok_iff,exists_const,ne_eq,not_not,not_or,not_lt,gt_iff_lt] at h
  obtain ⟨-,-,⟨-,hcount,hused,-⟩,rfl⟩ := h
  exact ⟨rfl,hcount,hused⟩

theorem ziFsValidateSecurityTable_ok_iff : ziFsValidateSecurityTable table tableSize = .ok header ↔
      decodeSecurityTableHeader table tableSize = .ok header ∧
      ziReadU32Le table 252 = (calculateSecurityTableChecksum table tableSize).toNat ∧
      ∃ storages, storages.length = header.recordCount ∧ HoldsDescriptors table 0 0 storages ∧
        ∀ i, 256+header.recordCount*256 ≤ i → i < tableSize → table i = 0 := by
  rw [ziFsValidateSecurityTable,Except.bind_ok_iff]
  constructor
  · rintro ⟨_,hhdr,h⟩
    obtain ⟨hsum,h⟩ := Except.failIf_bind_ok_iff.mp h
    obtain ⟨_,hrecs,h⟩ := Except.bind_ok_iff.mp h
    obtain ⟨hzero,h⟩ := Except.failIf_bind_ok_iff.mp h
    cases h
    obtain ⟨storages,hlen,hholds⟩ := validateSecurityTableRecords_ok_iff.mp hrecs
    refine ⟨hhdr,not_not.mp hsum,storages,hlen,hholds,fun i hi hlt => ?_⟩
    have hzero := bytesAreZero_iff.mp (Bool.eq_true_of_not_eq_false hzero)
    rw [(decodeSecurityTableHeader_ok hhdr).2.2] at hzero
    have := hzero (i-(256+header.recordCount*256)) (Nat.sub_lt_sub_right hi hlt)
    rwa [Nat.add_sub_cancel' hi] at this
  · rintro ⟨hhdr,hsum,storages,hlen,hholds,hzero⟩
    refine ⟨header,hhdr,Except.failIf_bind_ok_iff.mpr ⟨not_not.mpr hsum,?_⟩⟩
    refine Except.bind_ok_iff.mpr
      ⟨(),validateSecurityTableRecords_ok_iff.mpr ⟨storages,hlen,hholds⟩,?_⟩
    refine Except.failIf_bind_ok_iff.mpr ⟨?_,rfl⟩
    rw [Bool.not_eq_false,bytesAreZero_iff,(decodeSecurityTableHeader_ok hhdr).2.2]
    exact fun i hi => hzero _ (Nat.le_add_right _ _) (by omega)

theorem eval_checksumLoop (table : Mem) {body : ℕ → UInt32 → ReadIo UInt32} {n i : ℕ} {sum : UInt32}
    (hbody : ∀ j s, i ≤ j → j < i+n →
      (body j s).eval img = .ok (ziCrc32c s (table.slice (j*4096) 4096))) :
    (loop body n i sum).eval img =
      .ok (ziCrc32c sum (table.slice (i*4096) (n*4096))) := by
  induction n generalizing i sum with
  | zero => simp [loop,Mem.slice,ziCrc32c]
  | succ n ih =>
    rw [loop,eval_bind_of_ok (hbody i sum (Nat.le_refl i) (by omega)),
      ih fun j s hj hlt => hbody j s (by omega) (by omega),ziCrc32c_append,
      show (n+1)*4096 = 4096+n*4096 by omega,Mem.slice_add,
      show (i+1)*4096 = i*4096+4096 by omega]

theorem scanLoop_ok_iff (table : Mem) {body : ℕ → SecurityScan → ReadIo SecurityScan}
    {n i count : ℕ} {scan result : SecurityScan}
    (hbody : ∀ j s t, i ≤ j → j < i+n → ((body j s).eval img = .ok t ↔
      scanSecuritySlots table count 16 (j*4096) s = .ok t)) :
    (loop body n i scan).eval img = .ok result ↔
      scanSecuritySlots table count (n*16) (i*4096) scan = .ok result := by
  induction n generalizing i scan with
  | zero => exact Iff.rfl
  | succ n ih =>
    rw [loop,bind_ok_iff,show (n+1)*16 = 16+n*16 by omega,
      scanSecuritySlots_add,Except.bind_ok_iff]
    refine exists_congr fun t => and_congr (hbody i scan t (Nat.le_refl i) (by omega)) ?_
    rw [ih fun j s t hj hlt => hbody j s t (by omega) (by omega),
      show (i+1)*4096 = i*4096+16*256 by omega]

/-- The blocks of the security table lie on the device. -/
structure ZiFsVolume.HasSecurityTable (volume : ZiFsVolume) : Prop where
  uses : volume.superblock.UsesSecurity
  blocks : 0 < volume.superblock.securityTableBlocks ∧ volume.superblock.securityTableBlocks ≤ 16
  inside : volume.superblock.securityTableStart+volume.superblock.securityTableBlocks ≤
    volume.device.blockCount

namespace ZiFsVolume.HasSecurityTable

section

variable (h : vol.HasSecurityTable)

include h

theorem readBlock {k : ℕ} (hk : k < vol.superblock.securityTableBlocks) :
    (vol.device.readBlock (vol.superblock.securityTableStart+k)).eval img =
      .ok (img (vol.superblock.securityTableStart+k)) := by
  have hinside := h.inside
  rw [ZiBlockDevice.eval_readBlock,if_pos (by omega)]

theorem deviceChecksum : (calculateDeviceTableChecksum vol).eval img =
      .ok (calculateSecurityTableChecksum (vol.superblock.securityTable img)
        (vol.superblock.securityTableBlocks*4096)) := by
  have hslice : ∀ k off size, off+size ≤ 4096 →
      (img (vol.superblock.securityTableStart+k)).mem.slice off size =
        (vol.superblock.securityTable img).slice (k*4096+off) size := by
    intro k off size hle
    refine Mem.slice_congr fun i hi => ?_
    rw [Nat.add_assoc,securityTable_apply (by omega)]
  obtain ⟨n,hn⟩ := Nat.exists_eq_add_one_of_ne_zero (Nat.ne_of_gt h.blocks.1)
  rw [calculateDeviceTableChecksum,hn,loop,eval_bind,
    eval_bind_of_ok (h.readBlock (by omega)),if_pos rfl,eval_pure,Except.ok_bind]
  refine (eval_checksumLoop (vol.superblock.securityTable img) fun j s hj hlt => ?_).trans ?_
  · rw [eval_bind_of_ok (h.readBlock (by omega)),if_neg (by omega),eval_pure,
      hslice j 0 4096 (by omega),Nat.add_zero]
  · have hrest : (n+1)*4096-256 = 3840+n*4096 := by omega
    rw [hslice 0 0 252 (by omega),hslice 0 256 3840 (by omega),ziCrc32c_append,
      calculateSecurityTableChecksum,hrest,Mem.slice_add]

theorem deviceRecords (hcap : header.recordCapacity =
      securityTableCapacity (vol.superblock.securityTableBlocks*4096))
    (hcount : header.recordCount ≤ header.recordCapacity) :
    (validateDeviceSecurityRecords vol header).eval img = .ok ids ↔
      ∃ storages, storages.length = header.recordCount ∧
        HoldsDescriptors (vol.superblock.securityTable img) 0 0 storages ∧
        (∀ i, 256+header.recordCount*256 ≤ i → i < vol.superblock.securityTableBlocks*4096 →
          vol.superblock.securityTable img i = 0) ∧ ids = storages.map (·.securityId) := by
  obtain ⟨n,hn⟩ := Nat.exists_eq_add_one_of_ne_zero (Nat.ne_of_gt h.blocks.1)
  have hslots : header.recordCapacity = 0+(15+n*16) := by
    rw [hcap,hn,securityTableCapacity]
    simp only [securityTableHeaderSize,securityRecordSize]
    omega
  have hblock : ∀ k slots off scan t, off+slots*256 ≤ 4096 →
      (scanSecuritySlots (img (vol.superblock.securityTableStart+k)).mem header.recordCount
          slots off scan = .ok t ↔
        scanSecuritySlots (vol.superblock.securityTable img) header.recordCount slots
          (k*4096+off) scan = .ok t) := by
    intro k slots off scan t hle
    have hbytes : ∀ i < slots*256, vol.superblock.securityTable img (k*4096+off+i) =
        (img (vol.superblock.securityTableStart+k)).mem (off+i) := by
      intro i hi
      rw [Nat.add_assoc,securityTable_apply (by omega)]
    exact ⟨scanSecuritySlots_congr fun i hi => (hbytes i hi).symm,scanSecuritySlots_congr hbytes⟩
  have hloop : ∀ scan, (loop (fun tableBlock scan => do
        let block ← vol.device.readBlock (vol.superblock.securityTableStart+tableBlock)
        ReadM.ofExcept (if tableBlock = 0
          then scanSecuritySlots block.mem header.recordCount 15 securityTableHeaderSize scan
          else scanSecuritySlots block.mem header.recordCount 16 0 scan))
        (n+1) 0 ⟨0,0,[]⟩).eval img = .ok scan ↔
      scanSecuritySlots (vol.superblock.securityTable img) header.recordCount (15+n*16)
        (256+0*256) ⟨0,0,[]⟩ = .ok scan := by
    intro scan
    rw [loop,bind_ok_iff,scanSecuritySlots_add,Except.bind_ok_iff]
    refine exists_congr fun t => and_congr ?_ ?_
    · rw [eval_bind_of_ok (h.readBlock (by omega)),eval_ofExcept,if_pos rfl]
      simpa only [Nat.zero_mul,Nat.zero_add,Nat.add_zero] using hblock 0 15 256 _ t (by omega)
    · refine scanLoop_ok_iff (vol.superblock.securityTable img) fun j s t hj hlt => ?_
      rw [eval_bind_of_ok (h.readBlock (by omega)),eval_ofExcept,
        if_neg (by omega)]
      have hslots := hblock j 16 0 s t (by omega)
      rwa [Nat.add_zero] at hslots
  have hsize : 256+(0+(15+n*16))*256 = (n+1)*4096 := by omega
  have hscan := @scanSecuritySlots_ok_iff (vol.superblock.securityTable img) 0 0
    header.recordCount (15+n*16) [] ids (by omega)
  rw [hsize] at hscan
  rw [validateDeviceSecurityRecords,hn,bind_ok_iff]
  constructor
  · rintro ⟨⟨recordIndex,last,found⟩,hrun,hcheck⟩
    obtain ⟨_,hcheck,hpure⟩ := bind_ok_iff.mp hcheck
    obtain rfl : recordIndex = _ := not_not.mp (failIf_ok_iff.mp hcheck)
    cases hpure
    obtain ⟨storages,hlen,hholds,hzero,hids⟩ :=
      hscan.mp ⟨last,hslots ▸ (hloop _).mp hrun⟩
    refine ⟨storages,hlen,hholds,fun i hi => hzero i hi (Nat.le_trans ?_ hi),hids⟩
    exact recordOffset_le (Nat.zero_le _)
  · rintro ⟨storages,hlen,hholds,hzero,hids⟩
    obtain ⟨last,hrun⟩ := hscan.mpr ⟨storages,hlen,hholds,fun i hi _ => hzero i hi,hids⟩
    refine ⟨_,(hloop _).mpr hrun,ReadM.bind_ok_iff.mpr ⟨(),ReadM.failIf_ok_iff.mpr ?_,rfl⟩⟩
    exact not_not.mpr hslots.symm

theorem validateState_ok_iff {count : ℕ} :
    (ziFsValidateSecurityState vol).eval img = .ok (gen, count) ↔
      ∃ header, ziFsValidateSecurityTable (vol.superblock.securityTable img)
          (vol.superblock.securityTableBlocks*4096) = .ok header ∧
        header.recordCount ≠ 0 ∧ gen = header.generation ∧ count = header.recordCount ∧
        (validateFileSecurityReferences vol (securityIds (vol.superblock.securityTable img)
          header.recordCount)).eval img = .ok () := by
  have hbytes : ∀ i, i < 256 → (img (vol.superblock.securityTableStart+0)).mem i =
      vol.superblock.securityTable img i := by
    intro i hi
    rw [← securityTable_apply (by omega),Nat.zero_mul,Nat.zero_add]
  have hstored : ziReadU32Le (img (vol.superblock.securityTableStart+0)).mem 252 =
      ziReadU32Le (vol.superblock.securityTable img) 252 :=
    Mem.readLe_congr fun i hi => hbytes _ (by omega)
  have hblocks := h.blocks
  have hread := @readBlock _ img h 0 hblocks.1
  rw [Nat.add_zero] at hread hstored hbytes
  simp only [ziFsValidateSecurityState,bind_ok_iff,failIf_ok_iff,exists_const,
    hread,eval_ofExcept,decodeSecurityTableHeader_congr hbytes,h.deviceChecksum,
    hstored,pure_ok_iff,Except.ok.injEq,exists_eq_left',not_not,blockSize,
    ziFsValidateSecurityTable_ok_iff,ne_eq]
  constructor
  · rintro ⟨-,header,hhdr,hne,hsum,ids,hrecs,_,hrefs,hres⟩
    obtain ⟨hcap,hcount,-⟩ := decodeSecurityTableHeader_ok hhdr
    obtain ⟨storages,hlen,hholds,hzero,rfl⟩ := (h.deviceRecords hcap hcount).mp hrecs
    obtain ⟨rfl,rfl⟩ := Prod.mk.inj hres
    refine ⟨header,⟨hhdr,hsum,storages,hlen,hholds,hzero⟩,hne,rfl,rfl,?_⟩
    rwa [← hlen,hholds.securityIds_eq]
  · rintro ⟨header,⟨hhdr,hsum,storages,hlen,hholds,hzero⟩,hne,rfl,rfl,hrefs⟩
    obtain ⟨hcap,hcount,-⟩ := decodeSecurityTableHeader_ok hhdr
    rw [← hlen,hholds.securityIds_eq] at hrefs
    refine ⟨?_,header,hhdr,hne,hsum,_,(h.deviceRecords hcap hcount).mpr
      ⟨storages,hlen,hholds,hzero,rfl⟩,(),hrefs,rfl⟩
    simp only [not_or,not_not,maximumSecurityTableBlocks]
    exact ⟨h.uses,by omega,by omega⟩

theorem readRecord {idx : ℕ} {storage : ZiFsSecurityDescriptorStorage}
    (hidx : idx+1 < vol.superblock.securityTableBlocks*16) (hdec : ziFsDecodeSecurityDescriptor
      ((vol.superblock.securityTable img).shift (256+idx*256)) = .ok storage) :
    (readSecurityRecord vol idx).eval img = .ok storage := by
  have hblock : (256+idx*256)/4096 < vol.superblock.securityTableBlocks := by omega
  rw [readSecurityRecord]
  simp only [securityTableHeaderSize,securityRecordSize,blockSize]
  rw [eval_bind_failIf_neg (by omega),eval_bind_of_ok (h.readBlock hblock),eval_ofExcept]
  refine ziFsDecodeSecurityDescriptor_congr (fun i hi => ?_) hdec
  rw [Mem.shift_apply,Mem.shift_apply,← securityTable_apply (by omega),
    ← Nat.add_assoc,Nat.div_add_mod']

theorem loadLoop {storage : ZiFsSecurityDescriptorStorage} {idx prevId : ℕ}
    (hholds : HoldsDescriptors (vol.superblock.securityTable img) idx prevId storages)
    (hend : idx+storages.length < vol.superblock.securityTableBlocks*16) (hs : storage ∈ storages) :
    (loadSecurityDescriptorLoop vol storage.securityId storages.length idx).eval img =
      .ok storage := by
  induction storages generalizing idx prevId with
  | nil => cases hs
  | cons first storages ih =>
    obtain ⟨hdec,-,hrest⟩ := hholds
    rw [length_cons] at hend ⊢
    have hread := h.readRecord (by omega) hdec
    rw [loadSecurityDescriptorLoop,eval_bind_of_ok hread]
    rcases mem_cons.mp hs with rfl | hs
    · rw [if_pos rfl,eval_pure]
    · have hlt := hrest.lt hs
      rw [if_neg (by omega),if_neg (by omega)]
      exact ih hrest (by omega) hs

end

end ZiFsVolume.HasSecurityTable

theorem TableHolds.holdsDescriptors
    (h : TableHolds table gen storages) : HoldsDescriptors table 0 0 storages := by
  suffices hfrom : ∀ (rest : List ZiFsSecurityDescriptorStorage) idx prevId,
      storages.drop idx = rest → (∀ s ∈ rest, prevId < s.securityId) →
      HoldsDescriptors table idx prevId rest by
    exact hfrom storages 0 0 rfl h.securityId_ne_zero
  intro rest
  induction rest with
  | nil => exact fun _ _ _ _ => trivial
  | cons first rest ih =>
    intro idx prevId hdrop hprev
    have hi : idx < storages.length := by
      by_contra hge
      rw [drop_eq_nil_of_le (by omega)] at hdrop
      cases hdrop
    have hcons := drop_eq_getElem_cons hi
    rw [hdrop] at hcons
    obtain ⟨rfl,rfl⟩ := cons.inj hcons
    have hsorted := h.sorted.sublist (drop_sublist idx storages)
    rw [hdrop] at hsorted
    exact ⟨h.records idx hi,hprev _ mem_cons_self,
      ih _ _ rfl fun s hs => rel_of_pairwise_cons hsorted hs⟩

theorem TableHolds.validate
    (h : TableHolds table gen storages) : ziFsValidateSecurityTable table 4096 =
      .ok ⟨gen,1,storages.length,15,256+storages.length*256,0⟩ :=
  ziFsValidateSecurityTable_ok_iff.mpr
    ⟨h.header,h.checksum,storages,rfl,h.holdsDescriptors,h.unused⟩

theorem TableHolds.validateState
    (h : TableHolds (img vol.superblock.securityTableStart).mem gen storages) (hne : storages ≠ [])
    (huses : vol.superblock.UsesSecurity) (hblocks : vol.superblock.securityTableBlocks = 1)
    (hin : vol.superblock.securityTableStart < vol.device.blockCount)
    (hrefs : (validateFileSecurityReferences vol (storages.map (·.securityId))).eval img = .ok ()) :
    (ziFsValidateSecurityState vol).eval img = .ok (gen, storages.length) := by
  have htable : TableHolds (vol.superblock.securityTable img) gen storages := by
    refine h.congr fun i hi => ?_
    have hbyte := @securityTable_apply vol.superblock img 0 i hi
    rw [Nat.zero_mul,Nat.zero_add,Nat.add_zero] at hbyte
    exact hbyte.symm
  have harea : vol.HasSecurityTable := ⟨huses,by omega,by omega⟩
  refine harea.validateState_ok_iff.mpr ⟨_,by rw [hblocks]; exact htable.validate,
    length_pos_iff.mpr hne |>.ne',rfl,rfl,?_⟩
  rwa [htable.holdsDescriptors.securityIds_eq]

end Device

end Zizium
