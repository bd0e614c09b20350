import Zizium.Fs.SecurityTable

/-!
# Security tables in memory

Encoded descriptors decode to themselves, and a table built by initialising it and appending
descriptors passes the checks made at mount.
-/

namespace Zizium

open Bytes BlockIO Mem List Except

variable {data data' bytes table table' : Mem}
  {off i idx securityId flags n tableSize gen count : ℕ} {storage : ZiFsSecurityDescriptorStorage}
  {record : List UInt8}

/-! ### Descriptor records -/

theorem bytesAreZero_iff {size : ℕ} :
    bytesAreZero data off size = true ↔ ∀ i, i < size → data (off+i) = 0 := by
  simp [bytesAreZero,slice]

structure ZiSecurityId.Fits (id : ZiSecurityId) : Prop where
  authority : id.authority < 256^4
  value : id.value < 256^4

structure ZiAce.Fits (entry : ZiAce) : Prop where
  type : entry.type < 256^1
  inheritanceFlags : entry.inheritanceFlags < 256^1
  reserved : entry.reserved < 256^2
  accessMask : entry.accessMask < 256^4
  trustee : entry.trustee.Fits

variable {entry : ZiAce} {entries : List ZiAce}

structure ZiSecurityDescriptor.Fits (descriptor : ZiSecurityDescriptor) : Prop where
  owner : descriptor.owner.Fits
  primaryGroup : descriptor.primaryGroup.Fits
  entries : ∀ e ∈ descriptor.entries, e.Fits

variable {desc : ZiSecurityDescriptor}

theorem readSecurityAce_congr (h : ∀ i, i < 16 → data (off+i) = data' (off+i)) :
    readSecurityAce data off = readSecurityAce data' off := by
  unfold readSecurityAce
  simp (disch := omega) only [ziReadU16Le,ziReadU32Le,readLe_window h]

theorem writeSecurityAce_of_disjoint (h : i < off ∨ off+16 ≤ i) :
    writeSecurityAce bytes off entry i = bytes i := by
  unfold writeSecurityAce
  rcases h with h | h
  · simp (disch := omega) only [ziWriteU8,ziWriteU16Le,ziWriteU32Le,put_of_lt]
  · simp (disch := (rw [length_leBytes]; omega)) only [ziWriteU8,ziWriteU16Le,ziWriteU32Le,
      put_of_ge]

theorem readSecurityAce_writeSecurityAce (h : entry.Fits) :
    readSecurityAce (writeSecurityAce bytes off entry) off = entry := by
  obtain ⟨h1,h2,h3,h4,h5,h6⟩ := h
  unfold readSecurityAce writeSecurityAce
  simp (disch := omega) only [ziReadU16Le,ziReadU32Le,ziWriteU8,ziWriteU16Le,ziWriteU32Le,
    readLe_put_leBytes,readLe_put_self_of_lt]

theorem writeSecurityAces_of_disjoint (h : i < 48+idx*16 ∨ 48+(idx+entries.length)*16 ≤ i) :
    writeSecurityAces bytes idx entries i = bytes i := by
  induction entries generalizing bytes idx with
  | nil => rfl
  | cons entry entries ih =>
    rw [length_cons] at h
    rw [writeSecurityAces,ih (by omega),show securityAceSize = 16 from rfl]
    exact writeSecurityAce_of_disjoint (by omega)

theorem readSecurityAce_writeSecurityAces (hfits : ∀ e ∈ entries, e.Fits) {j : ℕ}
    (hj : j < entries.length) :
    readSecurityAce (writeSecurityAces bytes idx entries) (48+(idx+j)*16) =
      entries.get ⟨j,hj⟩ := by
  induction entries generalizing bytes idx j with
  | nil => simp at hj
  | cons entry entries ih =>
    rw [writeSecurityAces]
    cases j with
    | zero =>
      -- the later entries are written behind this one
      rw [readSecurityAce_congr fun i hi => writeSecurityAces_of_disjoint (by omega)]
      exact readSecurityAce_writeSecurityAce (hfits entry (by simp))
    | succ j =>
      rw [show idx+(j+1) = idx+1+j by omega]
      exact ih (fun e he => hfits e (by simp [he])) (by simpa using hj)

theorem ziFsDecodeSecurityDescriptor_ok_iff : ziFsDecodeSecurityDescriptor data = .ok storage ↔
      (data.slice 0 4 = securityRecordMagic ∧ ziReadU16Le data 4 = 1 ∧ ziReadU16Le data 6 = 256) ∧
      ziReadU32Le data 252 = checksum data 252 ∧ (ziReadU64Le data 8 ≠ 0 ∧
        ziReadU32Le data 16 &&& (uint32Max-securityFlagDaclPresent) = 0 ∧
        ziReadU16Le data 42 = 16 ∧ ziReadU16Le data 40 ≤ 12 ∧
        bytesAreZero data 44 4 = true ∧ bytesAreZero data 240 12 = true) ∧
      (ziReadU32Le data 16 &&& securityFlagDaclPresent = 0 → ziReadU16Le data 40 = 0) ∧
      securityAcesAreValid data (ziReadU16Le data 40) = true ∧
      ziSecurityDescriptorValidate (securityDescriptorOfBytes data) = true ∧
      storage = ⟨ziReadU64Le data 8,ziReadU32Le data 16,securityDescriptorOfBytes data⟩ := by
  simp only [ziFsDecodeSecurityDescriptor,bind_ok_iff,failIf_ok_iff,
    pure_ok_iff,exists_const,ne_eq,not_not,not_or,not_lt,gt_iff_lt,not_and,
    Bool.not_eq_false]

theorem securityAcesAreValid_congr {aceCount : ℕ} (h : ∀ i, i < 256 → data i = data' i) :
    securityAcesAreValid data aceCount = securityAcesAreValid data' aceCount := by
  unfold securityAcesAreValid
  rw [Bool.eq_iff_iff,all_eq_true,all_eq_true]
  refine forall₂_congr fun idx hi => ?_
  have hi : idx < 12 := mem_range.mp hi
  have hbytes : ∀ i, i < 16 → data (48+idx*securityAceSize+i) = data' (48+idx*securityAceSize+i) :=
    fun i _ => h _ (by simp only [securityAceSize]; omega)
  have hzero : bytesAreZero data (48+idx*securityAceSize) securityAceSize =
      bytesAreZero data' (48+idx*securityAceSize) securityAceSize := by
    unfold bytesAreZero
    rw [slice_congr hbytes]
  simp only [hzero,readSecurityAce_congr hbytes]

theorem securityDescriptorOfBytes_congr (h : ∀ i, i < 256 → data i = data' i)
    (hcount : ziReadU16Le data 40 ≤ 12) :
    securityDescriptorOfBytes data = securityDescriptorOfBytes data' := by
  have haces : (range (ziReadU16Le data 40)).map
      (fun idx => readSecurityAce data (48+idx*securityAceSize)) =
      (range (ziReadU16Le data' 40)).map
        fun idx => readSecurityAce data' (48+idx*securityAceSize) := by
    have hsame : ziReadU16Le data 40 = ziReadU16Le data' 40 := readLe_agree h (by omega)
    rw [← hsame]
    refine map_congr_left fun idx hidx => readSecurityAce_congr fun i _ => h _ ?_
    have := mem_range.mp hidx
    simp only [securityAceSize]
    omega
  unfold securityDescriptorOfBytes
  rw [haces]
  simp (disch := omega) only [ziReadU16Le,ziReadU32Le,readLe_agree h]

theorem ziFsDecodeSecurityDescriptor_congr (h : ∀ i, i < 256 → data i = data' i)
    (hok : ziFsDecodeSecurityDescriptor data = .ok storage) :
    ziFsDecodeSecurityDescriptor data' = .ok storage := by
  have hback : ∀ i, i < 256 → data' i = data i := fun i hi => (h i hi).symm
  have hsum : checksum data' 252 = checksum data 252 :=
    checksum_congr fun i hi => hback i (by omega)
  rw [ziFsDecodeSecurityDescriptor_ok_iff] at hok ⊢
  have hcount := hok.2.2.1.2.2.2.1
  simp (disch := omega) only [bytesAreZero,ziReadU16Le,ziReadU32Le,ziReadU64Le,readLe_agree hback,
    slice_agree hback,hsum,← securityAcesAreValid_congr h,← securityDescriptorOfBytes_congr
      h hcount]
  exact hok

/-- What the encoder checks, with the values in the ranges of their C types. -/
structure Encodable (securityId flags : ℕ) (descriptor : ZiSecurityDescriptor) : Prop where
  id : securityId ≠ 0
  idFits : securityId < 256^8
  flags : flags = if descriptor.dacl.isSome then 1 else 0
  valid : ziSecurityDescriptorValidate descriptor = true
  count : descriptor.entries.length ≤ 12
  fits : descriptor.Fits

theorem ziSecurityDescriptorValidate_iff {d : ZiSecurityDescriptor} :
    ziSecurityDescriptorValidate d = true ↔
      (d.structSize = descriptorStructSize ∧ d.version = 1 ∧ ziSecurityIdValidate d.owner = true ∧
        ziSecurityIdValidate d.primaryGroup = true ∧ d.controlFlags = 0) ∧
      ∀ dacl, d.dacl = some dacl → (dacl.structSize = aclStructSize ∧ dacl.version = 1 ∧
        dacl.entries.length ≤ 64) ∧ ∀ e ∈ dacl.entries, validateSecurityAce e = true := by
  unfold ziSecurityDescriptorValidate
  rcases d.dacl with _ | dacl <;> simp [and_assoc]

section RoundTrip

theorem Encodable.validAce (h : Encodable securityId flags desc) :
    ∀ e ∈ desc.entries, validateSecurityAce e = true := by
  intro e he
  have hdacl := (ziSecurityDescriptorValidate_iff.mp h.valid).2
  unfold ZiSecurityDescriptor.entries at he
  split at he
  · simp at he
  · next dacl hd => exact (hdacl dacl hd).2 e he

/-- A record in memory that holds the bytes of an encoded descriptor. -/
structure HoldsRecord (data : Mem) (securityId flags : ℕ) (descriptor : ZiSecurityDescriptor) :
    Prop where
  head : ∀ i, i < 48 → data i = securityRecordHead securityId flags descriptor i
  aces : ∀ j (hj : j < descriptor.entries.length),
    readSecurityAce data (48+j*16) = descriptor.entries.get ⟨j,hj⟩
  rest : ∀ i, 48+descriptor.entries.length*16 ≤ i → i < 252 → data i = 0
  checksum : ziReadU32Le data 252 = checksum data 252

theorem Encodable.holdsRecord (h : Encodable securityId flags desc)
    (hdata : data.slice 0 256 = securityRecordBytes securityId flags desc) :
    HoldsRecord data securityId flags desc := by
  have hcount := h.count
  have hbytes := slice_eq_iff.mp hdata
  simp only [Nat.zero_add] at hbytes
  have hfields : ∀ i, i < 252 → data i = writeSecurityAces
      (securityRecordHead securityId flags desc) 0 desc.entries i := fun i hi =>
    (hbytes i (by omega)).trans (put_of_lt hi)
  refine ⟨fun i hi => ?_,fun j hj => ?_,fun i hlow hi => ?_,?_⟩
  · rw [hfields i (by omega),writeSecurityAces_of_disjoint (by omega)]
  · rw [readSecurityAce_congr fun i hi => hfields _ (by omega)]
    rw [show 48+j*16 = 48+(0+j)*16 by omega]
    exact readSecurityAce_writeSecurityAces h.fits.entries _
  · rw [hfields i hi,writeSecurityAces_of_disjoint (by omega)]
    have hmagic : securityRecordMagic.length = 4 := rfl
    unfold securityRecordHead
    simp (disch := first | omega | (rw [length_leBytes]; omega)) only [ziWriteU16Le,ziWriteU32Le,
      ziWriteU64Le,put_of_ge]
    rfl
  · rw [checksum_congr hfields]
    exact (readLe_congr fun i hi => hbytes (252+i) (by omega)).trans
      (readLe_put_self_of_lt (checksum_lt _ _))

theorem HoldsRecord.readLe (h : HoldsRecord data securityId flags desc) (hle : off+n ≤ 48) :
    data.readLe n off = (securityRecordHead securityId flags desc).readLe n off :=
  readLe_congr fun i hi => h.head _ (by omega)

theorem HoldsRecord.entryCount (h : HoldsRecord data securityId flags desc)
    (hcount : desc.entries.length ≤ 12) : ziReadU16Le data 40 = desc.entries.length := by
  rw [ziReadU16Le,h.readLe (by omega)]
  unfold securityRecordHead
  simp (disch := omega) only [ziWriteU16Le,ziWriteU32Le,ziWriteU64Le,readLe_put_leBytes,
    readLe_put_self_of_lt]

theorem HoldsRecord.securityDescriptorOfBytes (h : HoldsRecord data securityId flags desc)
    (henc : Encodable securityId flags desc) : securityDescriptorOfBytes data = desc := by
  obtain ⟨⟨hsize,hversion,-,-,hcontrol⟩,hdacl⟩ := ziSecurityDescriptorValidate_iff.mp henc.valid
  obtain ⟨howner,howner'⟩ := henc.fits.owner
  obtain ⟨hgroup,hgroup'⟩ := henc.fits.primaryGroup
  have hcount := henc.count
  have hflags : ziReadU32Le data 16 = flags := by
    have := henc.flags
    have hlt : flags < 256^4 := by split at this <;> omega
    rw [ziReadU32Le,h.readLe (by omega)]
    unfold securityRecordHead
    simp (disch := omega) only [ziWriteU16Le,ziWriteU32Le,ziWriteU64Le,readLe_put_leBytes,
      readLe_put_self_of_lt]
  have hnum := h.entryCount hcount
  have hentries : (range desc.entries.length).map
      (fun i => readSecurityAce data (48+i*securityAceSize)) = desc.entries := by
    refine ext_getElem (by simp) fun j h1 h2 => ?_
    simp only [getElem_map,getElem_range]
    exact h.aces j h2
  unfold Zizium.securityDescriptorOfBytes
  rw [hflags,hnum,hentries]
  simp (disch := omega) only [ziReadU32Le,h.readLe]
  unfold securityRecordHead
  simp (disch := omega) only [ziWriteU16Le,ziWriteU32Le,ziWriteU64Le,readLe_put_leBytes,
      readLe_put_self_of_lt]
  have hflags := henc.flags
  clear * - hsize hversion hcontrol hdacl hflags
  obtain ⟨structSize,version,owner,group,dacl,controlFlags⟩ := desc
  rcases dacl with _ | dacl
  · simp_all
  · obtain ⟨⟨-,-,-⟩,-⟩ := hdacl dacl rfl
    obtain ⟨_,_,_⟩ := dacl
    simp_all [ZiSecurityDescriptor.entries]

theorem ziFsDecodeSecurityDescriptor_securityRecordBytes (henc : Encodable securityId flags desc)
    (hdata : data.slice 0 256 = securityRecordBytes securityId flags desc) :
    ziFsDecodeSecurityDescriptor data = .ok ⟨securityId,flags,desc⟩ := by
  have h := henc.holdsRecord hdata
  have hdesc := h.securityDescriptorOfBytes henc
  have hcount := henc.count
  have hflags := henc.flags
  have hlt : flags < 256^4 := by split at hflags <;> omega
  have hid := henc.idFits
  have hmagic : securityRecordMagic.length = 4 := rfl
  have hzero : ∀ {off size}, 48+desc.entries.length*16 ≤ off →
      off+size ≤ 252 → bytesAreZero data off size = true := fun hlow hle =>
    bytesAreZero_iff.mpr fun i hi => h.rest _ (by omega) (by omega)
  have hrsv : bytesAreZero data 44 4 = true := by
    refine bytesAreZero_iff.mpr fun i hi => ?_
    rw [h.head _ (by omega)]
    unfold securityRecordHead
    simp (disch := first | omega | (rw [length_leBytes]; omega)) only [ziWriteU16Le,ziWriteU32Le,
      ziWriteU64Le,put_of_ge]
    rfl
  have hslice : data.slice 0 4 = (securityRecordHead securityId flags desc).slice 0 4 :=
    slice_congr fun i hi => h.head _ (by omega)
  have hnum := h.entryCount hcount
  have haces : securityAcesAreValid data desc.entries.length = true := by
    refine all_eq_true.mpr fun idx hidx => ?_
    have hidx : idx < 12 := mem_range.mp hidx
    by_cases hused : idx < desc.entries.length
    · simp only [ge_iff_le,Nat.not_le.mpr hused,if_false]
      rw [show securityAceSize = 16 from rfl,h.aces idx hused]
      exact henc.validAce _ (get_mem _ _)
    · simp only [ge_iff_le,Nat.not_lt.mp hused,if_true]
      exact hzero (by simp only [securityAceSize]; omega) (by simp only [securityAceSize]; omega)
  rw [ziFsDecodeSecurityDescriptor_ok_iff,hnum,hdesc,hslice]
  simp (disch := omega) only [ziReadU16Le,ziReadU32Le,ziReadU64Le,h.readLe,hrsv,haces,
    hzero (by omega : 48+desc.entries.length*16 ≤ 240) (by omega : 240+12 ≤ 252),
    h.checksum,henc.valid]
  unfold securityRecordHead
  simp (disch := omega) only [ziWriteU16Le,ziWriteU32Le,ziWriteU64Le,readLe_put_leBytes,
    readLe_put_self_of_lt,slice_put_of_disjoint,slice_put_self]
  refine ⟨⟨trivial,trivial,readLe_put_self_of_lt (by decide)⟩,trivial,
    ⟨henc.id,?_,readLe_put_self_of_lt (by decide),hcount,trivial,trivial⟩,?_,trivial,
    trivial,trivial⟩
  · subst hflags
    cases desc.dacl.isSome <;> rfl
  · subst hflags
    unfold ZiSecurityDescriptor.entries
    cases desc.dacl <;> simp

end RoundTrip

/-! ### Tables of one block -/

theorem decodeSecurityTableHeader_ok_iff {header : ZiFsSecurityTableHeader} :
    decodeSecurityTableHeader table 4096 = .ok header ↔
      (table.slice 0 4 = securityTableMagic ∧ ziReadU16Le table 4 = 1 ∧
        ziReadU16Le table 6 = 256 ∧ ziReadU16Le table 8 = 256 ∧ ziReadU16Le table 10 = 16 ∧
        ziReadU32Le table 12 = 1 ∧ ziReadU32Le table 20 = 15 ∧ bytesAreZero table 48 204 = true) ∧
      header = ⟨ziReadU64Le table 24,1,ziReadU32Le table 16,15,ziReadU64Le table 32,
        ziReadU64Le table 40⟩ ∧ header.generation ≠ 0 ∧ header.recordCount ≤ 15 ∧
      header.usedBytes = 256+header.recordCount*256 ∧ header.flags = 0 := by
  simp only [decodeSecurityTableHeader,bind_ok_iff,failIf_ok_iff,
    pure_ok_iff,exists_const,ne_eq,not_not,not_or,not_lt,gt_iff_lt,
    Bool.not_eq_false]
  constructor
  · rintro ⟨-,hfields,hvalues,rfl⟩
    exact ⟨hfields,rfl,hvalues⟩
  · rintro ⟨hfields,rfl,hvalues⟩
    exact ⟨rfl,hfields,hvalues,rfl⟩

structure TableHolds (table : Mem) (generation : ℕ)
    (storages : List ZiFsSecurityDescriptorStorage) : Prop where
  header : decodeSecurityTableHeader table 4096 =
    .ok ⟨generation,1,storages.length,15,256+storages.length*256,0⟩
  checksum : ziReadU32Le table 252 = (calculateSecurityTableChecksum table 4096).toNat
  records : ∀ i (hi : i < storages.length),
    ziFsDecodeSecurityDescriptor (table.shift (256+i*256)) = .ok (storages.get ⟨i,hi⟩)
  sorted : storages.Pairwise fun a b => a.securityId < b.securityId
  unused : ∀ i, 256+storages.length*256 ≤ i → i < 4096 → table i = 0

theorem calculateSecurityTableChecksum_congr
    (h : ∀ i, i < tableSize → i < 252 ∨ 256 ≤ i → table i = table' i) (hsize : 256 ≤ tableSize) :
    calculateSecurityTableChecksum table tableSize =
      calculateSecurityTableChecksum table' tableSize := by
  have hhead : table.slice 0 252 = table'.slice 0 252 :=
    slice_congr fun i hi => h _ (by omega) (by omega)
  have htail : table.slice 256 (tableSize-256) = table'.slice 256 (tableSize-256) :=
    slice_congr fun i hi => h _ (by omega) (by omega)
  unfold calculateSecurityTableChecksum
  rw [hhead,htail]

theorem updateSecurityTableChecksum_of_ne (h : i < 252 ∨ 256 ≤ i) :
    updateSecurityTableChecksum table tableSize i = table i := by
  unfold updateSecurityTableChecksum
  rcases h with h | h
  · simp (disch := omega) only [ziWriteU32Le,put_of_lt]
  · simp (disch := (rw [length_leBytes]; omega)) only [ziWriteU32Le,put_of_ge]

theorem ziReadU32Le_updateSecurityTableChecksum (hsize : 256 ≤ tableSize) :
    ziReadU32Le (updateSecurityTableChecksum table tableSize) 252 =
      (calculateSecurityTableChecksum (updateSecurityTableChecksum table tableSize)
        tableSize).toNat := by
  have hupdate : calculateSecurityTableChecksum (updateSecurityTableChecksum table tableSize)
      tableSize = calculateSecurityTableChecksum table tableSize :=
    calculateSecurityTableChecksum_congr (fun i _ hi => updateSecurityTableChecksum_of_ne hi) hsize
  have hsum : calculateSecurityTableChecksum (ziWriteU32Le table 252 0) tableSize =
      calculateSecurityTableChecksum table tableSize := by
    refine calculateSecurityTableChecksum_congr (fun i _ hi => ?_) hsize
    rcases hi with hi | hi
    · exact put_of_lt hi
    · exact put_of_ge (by rw [length_leBytes]; omega)
  rw [hupdate]
  simp only [updateSecurityTableChecksum,hsum]
  exact readLe_put_self_of_lt (calculateSecurityTableChecksum table tableSize).toNat_lt

theorem readLe_updateSecurityTableChecksum (h : off+n ≤ 252 ∨ 256 ≤ off) :
    (updateSecurityTableChecksum table tableSize).readLe n off = table.readLe n off :=
  readLe_congr fun i hi => updateSecurityTableChecksum_of_ne (by omega)

theorem slice_updateSecurityTableChecksum (h : off+n ≤ 252 ∨ 256 ≤ off) :
    (updateSecurityTableChecksum table tableSize).slice off n = table.slice off n :=
  slice_congr fun i hi => updateSecurityTableChecksum_of_ne (by omega)

theorem emptySecurityTable_rest (h : 48 ≤ i) : emptySecurityTable 4096 gen i = 0 := by
  have hmagic : securityTableMagic.length = 4 := rfl
  unfold emptySecurityTable
  simp (disch := first | omega | (rw [length_leBytes]; omega)) only [ziWriteU16Le,ziWriteU32Le,
    ziWriteU64Le,put_of_ge]
  rfl

theorem emptySecurityTable_holds (hgen : gen ≠ 0) (hfits : gen < 256^8) :
    TableHolds (updateSecurityTableChecksum (emptySecurityTable 4096 gen) 4096) gen [] := by
  refine ⟨?_,ziReadU32Le_updateSecurityTableChecksum (by omega),nofun,.nil,?_⟩
  · have hzero : bytesAreZero (updateSecurityTableChecksum (emptySecurityTable 4096 gen)
        4096) 48 204 = true := by
      refine bytesAreZero_iff.mpr fun i hi => ?_
      rw [updateSecurityTableChecksum_of_ne (by omega)]
      exact emptySecurityTable_rest (by omega)
    rw [decodeSecurityTableHeader_ok_iff,hzero]
    simp (disch := omega) only [ziReadU16Le,ziReadU32Le,ziReadU64Le,
      readLe_updateSecurityTableChecksum,slice_updateSecurityTableChecksum]
    unfold emptySecurityTable
    simp (disch := first | omega | decide) only [ziWriteU16Le,ziWriteU32Le,ziWriteU64Le,
      readLe_put_leBytes,readLe_put_self_of_lt,slice_put_of_disjoint,
      slice_put_self]
    exact ⟨⟨trivial,trivial,trivial,trivial,trivial,rfl,rfl,trivial⟩,rfl,hgen,by simp,trivial,
      trivial⟩
  · intro i hi hlt
    rw [updateSecurityTableChecksum_of_ne (.inr (by simpa using hi))]
    exact emptySecurityTable_rest (by simp at hi; omega)

section Append

variable {storages : List ZiFsSecurityDescriptorStorage}

theorem TableHolds.securityId_ne_zero (h : TableHolds table gen storages) :
    ∀ s ∈ storages, 0 < s.securityId := by
  intro s hs
  obtain ⟨i,hi,rfl⟩ := getElem_of_mem hs
  have hdec := ziFsDecodeSecurityDescriptor_ok_iff.mp (h.records i hi)
  have hid := hdec.2.2.1.1
  have hstorage := hdec.2.2.2.2.2.2
  rw [get_eq_getElem] at hstorage
  rw [hstorage]
  exact Nat.pos_of_ne_zero hid

/-- The table after a record was stored behind the last one. -/
def appendedTable (table : Mem) (count : ℕ) (record : List UInt8) : Mem :=
  let table := table.put (256+count*256) record
  let table := ziWriteU32Le table 16 (count+1)
  let table := ziWriteU64Le table 32 (256+(count+1)*256)
  updateSecurityTableChecksum table 4096

theorem appendedTable_of_ne (hrec : record.length = 256)
    (hi : i < 16 ∨ 20 ≤ i ∧ i < 32 ∨ 40 ≤ i ∧ i < 252 ∨ 256 ≤ i ∧
      (i < 256+count*256 ∨ 256+(count+1)*256 ≤ i)) :
    appendedTable table count record i = table i := by
  unfold appendedTable
  rw [updateSecurityTableChecksum_of_ne (by omega)]
  simp only [ziWriteU32Le,ziWriteU64Le,put,length_leBytes]
  rw [if_neg (by omega),if_neg (by omega),if_neg (by omega)]

theorem appendedTable_record (hrec : record.length = 256) :
    (appendedTable table count record).slice (256+count*256) 256 = record := by
  unfold appendedTable
  rw [slice_updateSecurityTableChecksum (by omega)]
  simp (disch := (rw [length_leBytes]; omega)) only [ziWriteU32Le,ziWriteU64Le,
    slice_put_of_disjoint]
  exact slice_put_self hrec

theorem length_securityRecordBytes : (securityRecordBytes securityId flags desc).length = 256 := by
  exact length_slice

theorem TableHolds.appendedTable (h : TableHolds table gen storages) (hlen : record.length = 256)
    (hdec : ∀ data : Mem, data.slice 0 256 = record →
      ziFsDecodeSecurityDescriptor data = .ok storage)
    (hroom : storages.length < 15) (hlarger : ∀ s ∈ storages, s.securityId < storage.securityId) :
    TableHolds (appendedTable table storages.length record) gen (storages ++ [storage]) := by
  refine ⟨?_,ziReadU32Le_updateSecurityTableChecksum (by omega),fun i hi => ?_,?_,
    fun i hi hlt => ?_⟩
  · obtain ⟨⟨h1,h2,h3,h4,h5,h6,h7,h8⟩,hhdr,hgen,-,-,-⟩ :=
      decodeSecurityTableHeader_ok_iff.mp h.header
    have hread : ∀ {n off}, off+n ≤ 16 ∨ 20 ≤ off ∧ off+n ≤ 32 ∨
        40 ≤ off ∧ off+n ≤ 252 → (Zizium.appendedTable table storages.length record).readLe n off =
            table.readLe n off :=
      fun hle => readLe_congr fun i hi => appendedTable_of_ne hlen (by omega)
    have hslice : ∀ {n off}, off+n ≤ 16 ∨ 40 ≤ off ∧ off+n ≤ 252 →
        (Zizium.appendedTable table storages.length record).slice off n = table.slice off n :=
      fun hle => slice_congr fun i hi => appendedTable_of_ne hlen (by omega)
    have hcount : ziReadU32Le (Zizium.appendedTable table storages.length record) 16 =
        storages.length+1 := by
      unfold Zizium.appendedTable
      rw [ziReadU32Le,readLe_updateSecurityTableChecksum (by omega)]
      simp (disch := omega) only [ziWriteU32Le,ziWriteU64Le,readLe_put_leBytes,
        readLe_put_self_of_lt]
    have hused : ziReadU64Le (Zizium.appendedTable table storages.length record) 32 =
          256+(storages.length+1)*256 := by
      unfold Zizium.appendedTable
      rw [ziReadU64Le,readLe_updateSecurityTableChecksum (by omega)]
      exact readLe_put_self_of_lt (by omega)
    simp only [ZiFsSecurityTableHeader.mk.injEq] at hhdr
    rw [decodeSecurityTableHeader_ok_iff,hcount,hused]
    simp (disch := omega) only [bytesAreZero,ziReadU16Le,ziReadU32Le,ziReadU64Le,hread,hslice]
    rw [length_append,length_singleton]
    refine ⟨⟨h1,h2,h3,h4,h5,h6,h7,h8⟩,?_,hgen,hroom,trivial,trivial⟩
    rw [hhdr.1,hhdr.2.2.2.2.2]
  · by_cases hlast : i < storages.length
    · have hold : ziFsDecodeSecurityDescriptor
        ((Zizium.appendedTable table storages.length record).shift (256+i*256)) =
            .ok (storages.get ⟨i,hlast⟩) := by
        refine ziFsDecodeSecurityDescriptor_congr (fun j hj => ?_) (h.records i hlast)
        rw [shift_apply,shift_apply,appendedTable_of_ne hlen (by omega)]
      rw [hold,get_eq_getElem,get_eq_getElem,getElem_append_left hlast]
    · have hi' : i = storages.length := by
        rw [length_append,length_singleton] at hi
        omega
      subst hi'
      rw [get_eq_getElem,getElem_append_right (Nat.le_refl _)]
      simp only [Nat.sub_self,getElem_singleton]
      refine hdec _ ?_
      rw [slice_shift]
      exact appendedTable_record hlen
  · refine pairwise_append.mpr ⟨h.sorted,pairwise_singleton _ _,?_⟩
    intro s hs t ht
    rw [mem_singleton.mp ht]
    exact hlarger s hs
  · rw [length_append,length_singleton] at hi
    have hlow : 256+storages.length*256 ≤ i :=
      Nat.le_trans (Nat.add_le_add_left (Nat.mul_le_mul_right _ (Nat.le_succ _)) _) hi
    rw [appendedTable_of_ne hlen (by omega)]
    exact h.unused i hlow hlt

theorem TableHolds.congr (h : TableHolds table gen storages)
    (hsame : ∀ i, i < 4096 → table i = table' i) : TableHolds table' gen storages := by
  have hcount : storages.length ≤ 15 := (decodeSecurityTableHeader_ok_iff.mp h.header).2.2.2.1
  have hback : ∀ i, i < 4096 → table' i = table i := fun i hi => (hsame i hi).symm
  refine ⟨?_,?_,fun i hi => ?_,h.sorted,fun i hlow hlt => ?_⟩
  · obtain ⟨hfields,hhdr,hgen,-⟩ := decodeSecurityTableHeader_ok_iff.mp h.header
    rw [decodeSecurityTableHeader_ok_iff]
    simp (disch := omega) only [bytesAreZero,ziReadU16Le,ziReadU32Le,ziReadU64Le,readLe_agree hback,
      slice_agree hback]
    exact ⟨hfields,hhdr,hgen,hcount,trivial,trivial⟩
  · rw [ziReadU32Le,readLe_agree hback (by omega),
      ← calculateSecurityTableChecksum_congr (fun i hi _ => hsame i hi) (by omega)]
    exact h.checksum
  · refine ziFsDecodeSecurityDescriptor_congr (fun j hj => hsame _ ?_) (h.records i hi)
    omega
  · rw [← hsame i hlt]
    exact h.unused i hlow hlt

end Append

end Zizium
