import Zizium.Executive.IdentityRecords

/-!
# Bytes of identity records

What the decoder finds in the 512 bytes of a record, in an encoded one and in a tombstone.
-/

namespace Zizium

open Bytes BlockIO Mem List Except

variable {bytes bytes' : Mem} {off gen : ℕ} {groups : List ℕ}

theorem isZero_slice_iff {size : ℕ} :
    isZero (bytes.slice off size) = true ↔ ∀ i < size, bytes (off+i) = 0 := by
  simp [isZero,slice]

theorem isZero_slice_range_iff {size n : ℕ} (h : off+size = n) :
    isZero (bytes.slice off size) = true ↔ ∀ i, off ≤ i → i < n → bytes i = 0 := by
  rw [isZero_slice_iff]
  constructor
  · intro hall i hi hlt
    have := hall (i-off) (by omega)
    rwa [Nat.add_sub_cancel' hi] at this
  · intro hall i hi
    exact hall _ (by omega) (by omega)

theorem readUuid_eq_iff {uuid : Uuid} :
    readUuid bytes off = uuid ↔ bytes.slice off 16 = uuid.toList := by
  obtain ⟨⟨list⟩,-⟩ := uuid
  simp [readUuid]

theorem readUuid_congr {pos : ℕ} (h : ∀ i < 16, bytes (off+i) = bytes' (pos+i)) :
    readUuid bytes off = readUuid bytes' pos := by
  rw [readUuid_eq_iff]
  exact slice_congr h

/-! ## Identities -/

theorem ziIdentityDecode_congr (h : ∀ i < 32, bytes i = bytes' i) :
    ziIdentityDecode bytes = ziIdentityDecode bytes' := by
  have huuid : readUuid bytes 8 = readUuid bytes' 8 := readUuid_congr fun i hi => h _ (by omega)
  simp (disch := omega) only [ziIdentityDecode,ziReadU16Le,ziReadU32Le,readLe_agree h,
    slice_agree h,huuid]

def identityBytes (identity : ZiNativeIdentity) : Mem :=
  ziWriteU32Le (ziWriteU32Le ((ziWriteU16Le (ziWriteU16Le (zero.put 0 identityMagic) 4
    nativeIdentityWireVersion) 6 nativeIdentityWireSize).put 8 identity.issuer.toList) 24
    identity.localId.authority) 28 identity.localId.value

variable {identity : ZiNativeIdentity}

theorem ziIdentityEncode_ok (h : ziIdentityValidate identity = true) (output : Mem) (off : ℕ) :
    ziIdentityEncode identity output off =
      .ok (output.put off ((identityBytes identity).slice 0 32)) := by
  rw [ziIdentityEncode,failIf_bind_neg (by simp [h])]
  rfl

theorem ziIdentityDecode_identityBytes (h : ziIdentityValidate identity = true)
    (hauth : identity.localId.authority < 256^4) (hvalue : identity.localId.value < 256^4) :
    ziIdentityDecode (identityBytes identity) = .ok identity := by
  have hlen : identity.issuer.toList.length = 16 := by simp
  have hmagic : identityMagic.length = 4 := rfl
  have hissuer : readUuid (identityBytes identity) 8 = identity.issuer := by
    rw [readUuid_eq_iff,identityBytes]
    simp (disch := first | omega | (rw [length_leBytes]; omega)) only [ziWriteU32Le,
      slice_put_of_disjoint,slice_put_self]
  have hslice : (identityBytes identity).slice 0 4 = identityMagic := by
    rw [identityBytes]
    simp (disch := first | omega | (rw [length_leBytes]; omega)) only [ziWriteU16Le,ziWriteU32Le,
      slice_put_of_disjoint,slice_put_self]
  have hread : ziReadU16Le (identityBytes identity) 4 = 1 ∧
      ziReadU16Le (identityBytes identity) 6 = 32 ∧
      ziReadU32Le (identityBytes identity) 24 = identity.localId.authority ∧
      ziReadU32Le (identityBytes identity) 28 = identity.localId.value := by
    rw [identityBytes]
    simp (disch := first | omega | decide) only [ziReadU16Le,ziReadU32Le,ziWriteU16Le,
      ziWriteU32Le,readLe_put_of_disjoint,readLe_put_self_of_lt,and_self]
  obtain ⟨h1,h2,h3,h4⟩ := hread
  rw [ziIdentityDecode,failIf_bind_neg (by simp [hslice,h1,h2])]
  simp only [hissuer,h3,h4]
  rw [failIf_bind_neg (by simp [h])]
  rfl

/-! ## Records -/

/-- What the decoder demands of the contents of a record. -/
structure ZiIdentityDatabaseRecord.Storable (record : ZiIdentityDatabaseRecord) : Prop where
  state : record.state = identityRecordDisabled ∨ record.state = identityRecordTombstone
  name : nameValid record.name = true
  name_le : record.name.length ≤ 128
  groups : groupsAscend none record.groups = true
  groups_le : record.groups.length ≤ 16
  groups_nil : record.state = identityRecordTombstone ∨
    record.identity.localId.authority = authorityGroup → record.groups = []

/-- Everything the decoder reads in the 512 bytes of a record. -/
structure RecordAt (bytes : Mem) (record : ZiIdentityDatabaseRecord) : Prop where
  magic : bytes.slice 0 4 = databaseRecordMagic
  version : ziReadU16Le bytes 4 = 1
  size : ziReadU16Le bytes 6 = 512
  state : ziReadU32Le bytes 8 = record.state
  reserved12 : ziReadU32Le bytes 12 = 0
  identity : ziIdentityDecode (bytes.shift 16) = .ok record.identity
  nameSize : ziReadU16Le bytes 48 = record.name.length
  groupCount : ziReadU16Le bytes 50 = record.groups.length
  reserved52 : ziReadU32Le bytes 52 = 0
  generation : ziReadU64Le bytes 56 = record.generation
  name : bytes.slice 64 record.name.length = record.name
  name_end : ∀ i, 64+record.name.length ≤ i → i < 192 → bytes i = 0
  groups : (range record.groups.length).map (fun i => ziReadU32Le bytes (192+i*4)) =
    record.groups
  groups_end : ∀ i, 192+record.groups.length*4 ≤ i → i < 508 → bytes i = 0
  checksum : ziReadU32Le bytes 508 = checksum bytes 508
  storable : record.Storable

variable {record : ZiIdentityDatabaseRecord}

theorem decodeRecord_ok_iff : decodeRecord bytes = .ok record ↔ RecordAt bytes record := by
  have hrest : ∀ count : ℕ, count ≤ 16 → (isZero (bytes.slice 256 252) = true ∧
        isZero (bytes.slice (192+count*4) (64-count*4)) = true ↔
        ∀ i, 192+count*4 ≤ i → i < 508 → bytes i = 0) := by
    intro count hcount
    rw [isZero_slice_range_iff (n := 508) rfl,isZero_slice_range_iff (n := 256) (by omega)]
    constructor
    · rintro ⟨htail,hgroups⟩ i hi hlt
      by_cases h : i < 256
      · exact hgroups i hi h
      · exact htail i (by omega) hlt
    · intro h
      exact ⟨fun i hi => h i (by omega),fun i hi hlt => h i hi (by omega)⟩
  rw [decodeRecord,failIf_bind_ok_iff,failIf_bind_ok_iff,bind_ok_iff]
  simp only [failIf_bind_ok_iff,pure_ok_iff,not_or,not_not,ne_eq,not_and,
    Bool.not_eq_false,gt_iff_lt,not_lt]
  constructor
  · rintro ⟨⟨h1,h2,h3,h4,h5,h6⟩,h7,identity,h8,⟨h9,h10,h11,h12⟩,⟨h13,h14,h15⟩,h16,rfl⟩
    refine ⟨h1,h2,h3,rfl,h4,h8,by simp,by simp,h5,rfl,by simp,?_,by simp,?_,h7,
      ?_,h13,by simpa using h10,h16,by simpa using h11,?_⟩
    · rw [length_slice]
      rw [identityDatabaseNameBytes] at h10
      exact (isZero_slice_range_iff (by omega)).mp h14
    · rw [length_map,length_range]
      exact (hrest _ h11).mp ⟨h6,h15⟩
    · by_cases hdisabled : ziReadU32Le bytes 8 = identityRecordDisabled
      · exact .inl hdisabled
      · exact .inr (h9 hdisabled)
    · intro hnone
      rw [h12 hnone]
      rfl
  · intro h
    obtain ⟨h6,h15⟩ := (hrest _ h.storable.groups_le).mpr h.groups_end
    refine ⟨⟨h.magic,h.version,h.size,h.reserved12,h.reserved52,h6⟩,h.checksum,
      record.identity,h.identity,⟨?_,?_,?_,?_⟩,⟨?_,?_,?_⟩,?_,?_⟩
    · intro hne
      rw [h.state] at hne ⊢
      exact h.storable.state.resolve_left hne
    · rw [h.nameSize]
      exact h.storable.name_le
    · rw [h.groupCount]
      exact h.storable.groups_le
    · intro hnone
      rw [h.state] at hnone
      rw [h.groupCount,h.storable.groups_nil hnone]
      rfl
    · rw [h.nameSize,h.name]
      exact h.storable.name
    · rw [h.nameSize]
      have := h.storable.name_le
      exact (isZero_slice_range_iff (by omega)).mpr h.name_end
    · rwa [h.groupCount]
    · rw [h.groupCount,h.groups]
      exact h.storable.groups
    · rw [h.nameSize,h.name,h.groupCount,h.groups,h.state,h.generation]

theorem RecordAt.congr (hat : RecordAt bytes record) (h : ∀ i < 512, bytes' i = bytes i) :
    RecordAt bytes' record := by
  have hread : ∀ {n off}, off+n ≤ 512 → bytes'.readLe n off = bytes.readLe n off :=
    readLe_agree h
  have hname := hat.storable.name_le
  have hgroups := hat.storable.groups_le
  obtain ⟨h1,h2,h3,h4,h5,h6,h7,h8,h9,h10,h11,h12,h13,h14,h15,hstorable⟩ := hat
  refine ⟨(slice_agree h (by omega)).trans h1,(hread (by omega)).trans h2,
    (hread (by omega)).trans h3,
    (hread (by omega)).trans h4,(hread (by omega)).trans h5,?_,(hread (by omega)).trans h7,
    (hread (by omega)).trans h8,(hread (by omega)).trans h9,(hread (by omega)).trans h10,
    (slice_agree h (by omega)).trans h11,?_,?_,?_,?_,hstorable⟩
  · rw [← h6]
    exact ziIdentityDecode_congr fun i hi => h _ (by omega)
  · intro i hi hlt
    rw [h i (by omega),h12 i hi hlt]
  · refine Eq.trans (map_congr_left fun i hi => ?_) h13
    have := mem_range.mp hi
    exact hread (by omega)
  · intro i hi hlt
    rw [h i (by omega),h14 i hi hlt]
  · rw [checksum_congr fun i hi => h i (by omega)]
    exact (hread (by omega)).trans h15

/-! ## New records -/

theorem writeGroups_of_disjoint {i : ℕ} (h : i < off ∨ off+groups.length*4 ≤ i) :
    writeGroups bytes off groups i = bytes i := by
  induction groups generalizing bytes off with
  | nil => rfl
  | cons group groups ih =>
    rw [length_cons] at h
    rw [writeGroups,ih (by omega)]
    rcases h with h | h
    · exact put_of_lt h
    · exact put_of_ge (by rw [length_leBytes]; omega)

theorem readGroups_writeGroups (bytes : Mem) (off : ℕ) (h : ∀ group ∈ groups, group < 256^4) :
    (range groups.length).map
      (fun i => ziReadU32Le (writeGroups bytes off groups) (off+i*4)) = groups := by
  induction groups generalizing bytes off with
  | nil => rfl
  | cons group groups ih =>
    rw [length_cons,range_succ_eq_map,map_cons,map_map,writeGroups]
    congr 1
    · -- the later groups are written behind this one
      rw [ziReadU32Le,readLe_congr fun i hi => writeGroups_of_disjoint (.inl (by omega))]
      exact readLe_put_self_of_lt (h group mem_cons_self)
    · conv_rhs =>
        rw [← ih (ziWriteU32Le bytes off group) (off+4)
          fun other hother => h other (mem_cons_of_mem _ hother)]
      refine map_congr_left fun i _ => ?_
      simp only [Function.comp_apply,Nat.succ_eq_add_one]
      congr 1
      omega

def recordHead (identity : ZiNativeIdentity) (name : List UInt8) (groupCount generation : ℕ) :
    Mem :=
  (ziWriteU64Le (ziWriteU16Le (ziWriteU16Le ((ziWriteU32Le (ziWriteU16Le (ziWriteU16Le
    (zero.put 0 databaseRecordMagic) 4 identityDatabaseVersion) 6
    identityDatabaseRecordSize) 8 identityRecordDisabled).put 16
    ((identityBytes identity).slice 0 32)) 48 name.length) 50 groupCount) 56 generation).put 64 name

/-- A new record without its checksum. -/
def recordBody (record : ZiIdentityDatabaseRecord) : Mem :=
  writeGroups (recordHead record.identity record.name record.groups.length record.generation) 192
    record.groups

theorem encodeRecord_ok {req : ZiIdentityCreateRequest} (h : ziIdentityValidate identity = true) :
    encodeRecord identity req gen = .ok (ziWriteU32Le
        (recordBody ⟨identity,gen,identityRecordDisabled,req.name,req.groups⟩) 508
        (checksum (recordBody
          ⟨identity,gen,identityRecordDisabled,req.name,req.groups⟩) 508)) := by
  rw [encodeRecord]
  simp only [ziIdentityEncode_ok h,ok_bind]
  rfl

theorem recordAt_encoded (hstorable : record.Storable)
    (hstate : record.state = identityRecordDisabled)
    (hidentity : ziIdentityValidate record.identity = true)
    (hauth : record.identity.localId.authority < 256^4)
    (hvalue : record.identity.localId.value < 256^4) (hgen : record.generation < 256^8)
    (hgroups : ∀ group ∈ record.groups, group < 256^4) :
    RecordAt (ziWriteU32Le (recordBody record) 508 (checksum (recordBody record) 508)) record := by
  have hname := hstorable.name_le
  have hcount := hstorable.groups_le
  have hmagic : databaseRecordMagic.length = 4 := rfl
  have hlen : ((identityBytes record.identity).slice 0 32).length = 32 := length_slice
  let head := recordHead record.identity record.name record.groups.length record.generation
  let final := ziWriteU32Le (recordBody record) 508 (checksum (recordBody record) 508)
  have hbody : ∀ i < 508, final i = recordBody record i := fun i hi => put_of_lt hi
  have hhead : ∀ i, i < 192 ∨ 192+record.groups.length*4 ≤ i → i < 508 → final i = head i :=
    fun i hi hlt => (hbody i hlt).trans (writeGroups_of_disjoint hi)
  have hlow : ∀ i < 192, final i = head i := fun i hi => hhead i (.inl hi) (by omega)
  have hzero : ∀ i, 64+record.name.length ≤ i → head i = 0 := by
    intro i hi
    simp (disch := first | omega | (rw [length_leBytes]; omega)) only [head,recordHead,
      ziWriteU16Le,ziWriteU32Le,ziWriteU64Le,put_of_ge]
    rfl
  have hfields : final.slice 0 4 = databaseRecordMagic ∧ ziReadU16Le final 4 = 1 ∧
      ziReadU16Le final 6 = 512 ∧ ziReadU32Le final 8 = identityRecordDisabled ∧
      ziReadU32Le final 12 = 0 ∧ ziReadU16Le final 48 = record.name.length ∧
      ziReadU16Le final 50 = record.groups.length ∧ ziReadU32Le final 52 = 0 ∧
      ziReadU64Le final 56 = record.generation ∧
      final.slice 64 record.name.length = record.name ∧
      final.slice 16 32 = (identityBytes record.identity).slice 0 32 := by
    simp (disch := omega) only [ziReadU16Le,ziReadU32Le,ziReadU64Le,readLe_agree hlow,
      slice_agree hlow]
    simp (disch := first | omega | decide | (rw [length_leBytes]; omega)) only [head,recordHead,
      ziWriteU16Le,ziWriteU32Le,ziWriteU64Le,readLe_put_of_disjoint,
      readLe_put_self_of_lt,slice_put_of_disjoint,slice_put_self,readLe_zero,
      and_self]
  obtain ⟨h1,h2,h3,h4,h5,h6,h7,h8,h9,h10,h11⟩ := hfields
  refine ⟨h1,h2,h3,h4.trans hstate.symm,h5,?_,h6,h7,h8,h9,h10,?_,?_,?_,?_,hstorable⟩
  · rw [← ziIdentityDecode_identityBytes hidentity hauth hvalue]
    apply ziIdentityDecode_congr
    intro i hi
    show final (16+i) = _
    rw [slice_eq_iff.mp h11 i hi,Nat.zero_add]
  · intro i hi hlt
    exact (hlow i hlt).trans (hzero i hi)
  · refine Eq.trans (map_congr_left fun i hi => ?_)  (readGroups_writeGroups head 192 hgroups)
    have := mem_range.mp hi
    exact readLe_congr fun j hj => hbody _ (by omega)
  · intro i hi hlt
    exact (hhead i (.inr hi) hlt).trans (hzero i (by omega))
  · rw [checksum_congr hbody]
    exact readLe_put_self_of_lt (checksum_lt _ _)

/-! ## Tombstones -/

theorem recordAt_bury (hat : RecordAt bytes record) (hgen : gen < 256^8) :
    RecordAt (buryRecord bytes gen) (record.bury gen) := by
  have hname := hat.storable.name_le
  have hcount := hat.storable.groups_le
  have hzeros : (replicate 64 (0 : UInt8)).length = 64 := length_replicate
  let body := ziWriteU64Le ((ziWriteU16Le (ziWriteU32Le bytes 8 identityRecordTombstone) 50 0).put
    192 (replicate 64 0)) 56 gen
  have hbury : buryRecord bytes gen = ziWriteU32Le body 508 (checksum body 508) := by
    rw [buryRecord]
  have hbody : ∀ i < 508, buryRecord bytes gen i = body i := fun i hi => put_of_lt hi
  have hkept : ∀ i, i < 8 ∨ 12 ≤ i ∧ i < 50 ∨ 52 ≤ i ∧ i < 56 ∨ 64 ≤ i ∧ i < 192 ∨ 256 ≤ i →
      body i = bytes i := by
    intro i hi
    simp only [body,ziWriteU16Le,ziWriteU32Le,ziWriteU64Le,put,hzeros,length_leBytes]
    rw [if_neg (by omega),if_neg (by omega),if_neg (by omega),if_neg (by omega)]
  have hsame : ∀ {n off}, off+n ≤ 8 ∨ 12 ≤ off ∧ off+n ≤ 50 ∨
      52 ≤ off ∧ off+n ≤ 56 ∨ 64 ≤ off ∧ off+n ≤ 192 →
      (buryRecord bytes gen).readLe n off = bytes.readLe n off := fun hin =>
    (readLe_agree hbody (by omega)).trans (readLe_congr fun i hi => hkept _ (by omega))
  have hwritten : ziReadU32Le (buryRecord bytes gen) 8 = identityRecordTombstone ∧
      ziReadU16Le (buryRecord bytes gen) 50 = 0 ∧
      ziReadU64Le (buryRecord bytes gen) 56 = gen := by
    simp (disch := omega) only [ziReadU16Le,ziReadU32Le,ziReadU64Le,readLe_agree hbody]
    simp (disch := first | omega | decide | (rw [length_leBytes]; omega)) only [body,
      ziWriteU16Le,ziWriteU32Le,ziWriteU64Le,readLe_put_of_disjoint,
      readLe_put_self_of_lt,and_self]
  obtain ⟨hstate,hgroupCount,hgenerationRead⟩ := hwritten
  refine ⟨?_,(hsame (by omega)).trans hat.version,(hsame (by omega)).trans hat.size,hstate,
    (hsame (by omega)).trans hat.reserved12,?_,(hsame (by omega)).trans hat.nameSize,
    hgroupCount,(hsame (by omega)).trans hat.reserved52,hgenerationRead,?_,?_,rfl,?_,?_,?_⟩
  · rw [← hat.magic,slice_agree hbody (by omega)]
    exact slice_congr fun i hi => hkept _ (by omega)
  · refine Eq.trans ?_ hat.identity
    apply ziIdentityDecode_congr
    intro i hi
    rw [shift_apply,shift_apply,hbody _ (by omega),hkept _ (by omega)]
  · refine Eq.trans ?_ hat.name
    show (buryRecord bytes gen).slice 64 record.name.length = _
    rw [slice_agree hbody (by omega)]
    exact slice_congr fun i hi => hkept _ (by omega)
  · intro i hi hlt
    rw [hbody i (by omega),hkept i (by omega),hat.name_end i hi hlt]
  · intro i hi hlt
    have hi : 192 ≤ i := hi
    rw [hbody i hlt]
    by_cases h : i < 256
    · show (ziWriteU64Le _ 56 gen) i = 0
      rw [ziWriteU64Le,put_of_ge (by rw [length_leBytes]; omega),
        put_of_mem hi (by rw [hzeros]; omega),getD_eq_getElem?_getD,
        getElem?_replicate,if_pos (by omega),Option.getD_some]
    · rw [hkept i (by omega),hat.groups_end i (by omega) hlt]
  · rw [checksum_congr hbody,hbury]
    exact readLe_put_self_of_lt (checksum_lt _ _)
  · exact ⟨.inr rfl,hat.storable.name,hat.storable.name_le,rfl,Nat.zero_le _,fun _ => rfl⟩

end Zizium
