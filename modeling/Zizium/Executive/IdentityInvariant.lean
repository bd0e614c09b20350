import Zizium.Executive.IdentityCodec

/-!
# The identity database over histories of requests

A buffer that validates stays valid under appends and removals, accepted or rejected, and no
identity is issued twice.
-/

namespace Zizium

open Bytes BlockIO List Except Mem

variable {bytes encoded : Mem} {size i target : ℕ} {auth : ZiIdentityDatabaseAuthority}
  {issuer : ZiIdentityIssuerState} {identity : ZiNativeIdentity}

/-! ## Valid buffers -/

/-- The fixed part of the header. -/
def HeaderOk (bytes : Mem) : Prop :=
  bytes.slice 0 4 = databaseMagic ∧ ziReadU16Le bytes 4 = identityDatabaseVersion ∧
    ziReadU16Le bytes 6 = identityDatabaseHeaderSize ∧
    ziReadU32Le bytes 8 = identityDatabaseSize ∧
    ziReadU16Le bytes 12 = identityDatabaseRecordSize ∧
    ziReadU16Le bytes 14 = identityDatabaseCapacity ∧ ziReadU32Le bytes 20 = 0 ∧
    ∀ i < 4000, bytes (92+i) = 0

/-- A buffer that validates for an authority, and its records. -/
structure DatabaseOk (authority : ZiIdentityDatabaseAuthority) (bytes : Mem)
    (records : List ZiIdentityDatabaseRecord) : Prop where
  authority_ok : authorityValid authority = true
  header : HeaderOk bytes
  checksum : ziReadU32Le bytes 4092 = databaseChecksum bytes
  issuer : readUuid bytes 32 = authority.issuer
  volume : readUuid bytes 48 = authority.volume
  database : readUuid bytes 64 = authority.database
  capacity : (readState bytes).recordCount ≤ 64
  generation : 0 < (readState bytes).generation
  issuer_ok : ziIdentityIssuerValidate (readState bytes).issuer = true
  unused : ∀ i, 4096+(readState bytes).recordCount*512 ≤ i → i < 36864 → bytes i = 0
  length : records.length = (readState bytes).recordCount
  decodes : Decodes bytes records
  records : RecordsOk (readState bytes) records

theorem DatabaseOk.decodes_iff {recs : List ZiIdentityDatabaseRecord}
    (h : DatabaseOk auth bytes recs) {p : ZiIdentityDatabaseRecord → Prop} :
    (∃ index < (readState bytes).recordCount, ∃ record,
      decodeRecord (recordBytes bytes index) = .ok record ∧ p record) ↔
        ∃ record ∈ recs, p record := by
  constructor
  · rintro ⟨i,hi,record,hrec,hrest⟩
    rw [← h.length] at hi
    have hdec := h.decodes i _ (getElem?_eq_getElem hi)
    rw [hrec] at hdec
    exact ⟨record,ok.inj hdec ▸ getElem_mem hi,hrest⟩
  · rintro ⟨record,hmem,hrest⟩
    obtain ⟨i,hi⟩ := List.getElem?_of_mem hmem
    have hlt := (List.getElem?_eq_some_iff.mp hi).1
    exact ⟨i,by rw [← h.length]; exact hlt,record,h.decodes i record hi,hrest⟩

theorem validate_ok_iff {minimum : ℕ} {state : ZiIdentityDatabaseState} :
    ziIdentityDatabaseValidate bytes size auth minimum = .ok state ↔
      (size = 36864 ∧ 0 < minimum ∧ minimum ≤ (readState bytes).generation ∧
        state = readState bytes) ∧ ∃ recs, DatabaseOk auth bytes recs := by
  have hunused : ∀ {count : ℕ}, count ≤ 64 → 4096+count*512+(36864-(4096+count*512)) = 36864 := by
    omega
  rw [ziIdentityDatabaseValidate]
  simp only [unit_bind_ok_iff,failIf_ok_iff,pure_ok_iff,not_or,not_not,
    ne_eq,Bool.not_eq_false,gt_iff_lt,not_lt,isZero_slice_iff,validateRecords_ok_iff]
  constructor
  · rintro ⟨⟨rfl,h1,h2⟩,h3,h4,⟨h5,h6,h7⟩,⟨h8,h9,h10⟩,h11,h12,⟨recs,hlen,hdecodes,hrecs⟩,rfl⟩
    exact ⟨⟨rfl,Nat.pos_of_ne_zero h2,h11,rfl⟩,recs,h1,h3,h4,h5,h6,h7,h8,
      Nat.pos_of_ne_zero h9,h10,(isZero_slice_range_iff (hunused h8)).mp (isZero_slice_iff.mpr h12),
      hlen,hdecodes,hrecs⟩
  · rintro ⟨⟨rfl,h2,h11,rfl⟩,recs,h1,h3,h4,h5,h6,h7,h8,h9,h10,h12,hlen,hdecodes,hrecs⟩
    exact ⟨⟨rfl,h1,h2.ne'⟩,h3,h4,⟨h5,h6,h7⟩,⟨h8,h9.ne',h10⟩,h11,
      isZero_slice_iff.mp ((isZero_slice_range_iff (hunused h8)).mpr h12),
      ⟨recs,hlen,hdecodes,hrecs⟩,rfl⟩

/-! ## Writing the header -/

/-- The last step of a change: the state in the header, and the checksum. -/
def publish (output : Mem) (state : ZiIdentityDatabaseState) : Mem :=
  updateChecksum (writeState output state)

section Publish

variable {output : Mem} {state : ZiIdentityDatabaseState}
  {recs records' : List ZiIdentityDatabaseRecord}

theorem writeState_of_disjoint (h : i < 16 ∨ 20 ≤ i ∧ i < 24 ∨ 32 ≤ i ∧ i < 80 ∨ 92 ≤ i) :
    writeState output state i = output i := by
  simp only [writeState,ziWriteU32Le,ziWriteU64Le,put,length_leBytes]
  rw [if_neg (by omega),if_neg (by omega),if_neg (by omega),if_neg (by omega),
    if_neg (by omega)]

theorem updateChecksum_of_disjoint (h : i < 4092 ∨ 4096 ≤ i) :
    updateChecksum output i = output i := by
  rcases h with h | h
  · exact put_of_lt h
  · exact put_of_ge (by rw [length_leBytes]; omega)

theorem publish_of_disjoint
    (h : i < 16 ∨ 20 ≤ i ∧ i < 24 ∨ 32 ≤ i ∧ i < 80 ∨ 92 ≤ i ∧ i < 4092 ∨ 4096 ≤ i) :
    publish output state i = output i :=
  (updateChecksum_of_disjoint (by omega)).trans (writeState_of_disjoint (by omega))

theorem databaseChecksum_updateChecksum :
    ziReadU32Le (updateChecksum bytes) 4092 = databaseChecksum (updateChecksum bytes) := by
  have hhead : (updateChecksum bytes).slice 0 4092 = bytes.slice 0 4092 :=
    slice_congr fun i hi => updateChecksum_of_disjoint (.inl (by omega))
  have htail : (updateChecksum bytes).slice 4096 (identityDatabaseSize-4096) =
      bytes.slice 4096 (identityDatabaseSize-4096) :=
    slice_congr fun i hi => updateChecksum_of_disjoint (.inr (by omega))
  have hsum : databaseChecksum (updateChecksum bytes) = databaseChecksum bytes := by
    simp only [databaseChecksum,hhead,htail]
  rw [hsum]
  exact readLe_put_self_of_lt (UInt32.toNat_lt _)

/-- The values of a state that its fields can hold. -/
structure ZiIdentityDatabaseState.Fits (state : ZiIdentityDatabaseState) : Prop where
  structSize : state.issuer.structSize = identityIssuerStateSize
  version : state.issuer.version = identityIssuerStateVersion
  recordCount : state.recordCount < 256^4
  generation : state.generation < 256^8
  group : state.issuer.groupHighWater < 256^4
  user : state.issuer.userHighWater < 256^4
  service : state.issuer.serviceHighWater < 256^4

theorem readState_fits : (readState bytes).Fits :=
  ⟨rfl,rfl,readLe_lt _ _ _,readLe_lt _ _ _,readLe_lt _ _ _,readLe_lt _ _ _,readLe_lt _ _ _⟩

theorem readState_updateChecksum : readState (updateChecksum bytes) = readState bytes := by
  have hsame : ∀ i < 4092, updateChecksum bytes i = bytes i :=
    fun i hi => updateChecksum_of_disjoint (.inl hi)
  rw [readState,readState,readUuid_congr fun i hi => hsame _ (by omega)]
  simp (disch := omega) only [ziReadU32Le,ziReadU64Le,readLe_agree hsame]

theorem readState_publish (hfits : state.Fits)
    (hissuer : readUuid output 32 = state.issuer.issuer) :
    readState (publish output state) = state := by
  have huuid : readUuid (writeState output state) 32 = readUuid output 32 :=
    readUuid_congr fun i hi => writeState_of_disjoint (by omega)
  rw [publish,readState_updateChecksum]
  obtain ⟨⟨structSize,version,issuer,group,user,service⟩,gen,recordCount⟩ := state
  obtain ⟨rfl,rfl,hcount,hgen,hgroup,huser,hserv⟩ := hfits
  simp only [readState,huuid,hissuer]
  simp (disch := omega) only [ziReadU32Le,ziReadU64Le,writeState,ziWriteU32Le,ziWriteU64Le,
    readLe_put_leBytes,readLe_put_self_of_lt]

theorem HeaderOk.congr (h : HeaderOk bytes) {bytes' : Mem}
    (hsame : ∀ i, i < 16 ∨ 20 ≤ i ∧ i < 24 ∨ 92 ≤ i ∧ i < 4092 → bytes' i = bytes i) :
    HeaderOk bytes' := by
  obtain ⟨h1,h2,h3,h4,h5,h6,h7,h8⟩ := h
  have hread : ∀ {n off}, off+n ≤ 16 ∨ 20 ≤ off ∧ off+n ≤ 24 →
      bytes'.readLe n off = bytes.readLe n off :=
    fun hle => readLe_congr fun i hi => hsame _ (by omega)
  refine ⟨?_,(hread (by omega)).trans h2,(hread (by omega)).trans h3,
    (hread (by omega)).trans h4,(hread (by omega)).trans h5,(hread (by omega)).trans h6,
    (hread (by omega)).trans h7,?_⟩
  · rw [← h1]
    exact slice_congr fun i hi => hsame _ (by omega)
  · intro i hi
    rw [hsame _ (by omega),h8 i hi]

theorem recordOffset_eq (i : ℕ) : recordOffset i = 4096+i*512 := rfl

theorem Decodes.congr (hd : Decodes bytes recs)
    (h : ∀ i, 4096 ≤ i → i < 4096+recs.length*512 → output i = bytes i) : Decodes output recs := by
  intro idx record hrec
  have hlt := (List.getElem?_eq_some_iff.mp hrec).1
  apply decodeRecord_ok_iff.mpr
  apply (decodeRecord_ok_iff.mp (hd idx record hrec)).congr
  intro i hi
  show output (recordOffset idx+i) = bytes (recordOffset idx+i)
  rw [recordOffset_eq]
  exact h _ (by omega) (by omega)

/-- A valid buffer with the state in its header. -/
def HoldsState (authority : ZiIdentityDatabaseAuthority) (bytes : Mem)
    (state : ZiIdentityDatabaseState)
    (records : List ZiIdentityDatabaseRecord) : Prop :=
  readState bytes = state ∧ DatabaseOk authority bytes records

theorem DatabaseOk.publish (h : DatabaseOk auth bytes recs) (hsame : ∀ i < 4096, output i = bytes i)
    (hfits : state.Fits) (hissuer : state.issuer.issuer = (readState bytes).issuer.issuer)
    (hissuerOk : ziIdentityIssuerValidate state.issuer = true) (hcap : state.recordCount ≤ 64)
    (hgen : 0 < state.generation)
    (hunused : ∀ i, 4096+state.recordCount*512 ≤ i → i < 36864 → output i = 0)
    (hlen : records'.length = state.recordCount) (hdecodes : Decodes output records')
    (hrecs : RecordsOk state records') :
    HoldsState auth (Zizium.publish output state) state records' := by
  have huuid : ∀ off, 32 ≤ off → off+16 ≤ 80 →
      readUuid (Zizium.publish output state) off = readUuid bytes off := by
    intro off hlow hhigh
    apply readUuid_congr
    intro i hi
    rw [publish_of_disjoint (by omega),hsame _ (by omega)]
  have hstate : readState (Zizium.publish output state) = state := by
    apply readState_publish hfits
    rw [hissuer]
    exact readUuid_congr fun i hi => hsame _ (by omega)
  refine ⟨hstate,h.authority_ok,?_,databaseChecksum_updateChecksum,?_,?_,?_,?_,?_,?_,?_,?_,?_,?_⟩
  · apply h.header.congr
    intro i hi
    rw [publish_of_disjoint (by omega),hsame _ (by omega)]
  · rw [huuid 32 (by omega) (by omega),h.issuer]
  · rw [huuid 48 (by omega) (by omega),h.volume]
  · rw [huuid 64 (by omega) (by omega),h.database]
  · rwa [hstate]
  · rwa [hstate]
  · rwa [hstate]
  · rw [hstate]
    intro i hi hlt
    rw [publish_of_disjoint (by omega),hunused i hi hlt]
  · rwa [hstate]
  · apply hdecodes.congr
    intro i hi _
    exact publish_of_disjoint (by omega)
  · rwa [hstate]

end Publish

variable {state : ZiIdentityDatabaseState}

/-! ## Appending -/

section Append

variable {recs : List ZiIdentityDatabaseRecord} {req : ZiIdentityCreateRequest}

theorem requestGroupsValid_spec {count : ℕ} {previous : Option ℕ} {groups : List ℕ}
    (hdynamic : ∀ group, hasGroup bytes count group = true → 256 ≤ group)
    (h : requestGroupsValid bytes count previous groups = true) :
    (∀ group ∈ groups, hasGroup bytes count group = true) ∧
      groupsAscend previous groups = true := by
  induction groups generalizing previous with
  | nil => exact ⟨nofun,rfl⟩
  | cons group groups ih =>
    rw [requestGroupsValid] at h
    split at h
    · cases h
    next hgroup =>
      rw [not_or,Bool.not_eq_false] at hgroup
      obtain ⟨hall,hascend⟩ := ih h
      constructor
      · exact forall_mem_cons.mpr ⟨hgroup.2,hall⟩
      · have := hdynamic group hgroup.2
        rw [groupsAscend,if_neg,hascend]
        rintro (hlow | hlast)
        · simp only [identityFirstDynamicValue] at hlow
          omega
        · exact hgroup.1 hlast

/-- What an accepted request asks for. -/
structure RequestOk (records : List ZiIdentityDatabaseRecord) (request : ZiIdentityCreateRequest) :
    Prop where
  name : nameValid request.name = true
  groups : ∀ group ∈ request.groups, ∃ record ∈ records, record.isGroup group = true
  ascend : groupsAscend none request.groups = true
  groups_le : request.groups.length ≤ 16
  groups_nil : request.authority = authorityGroup → request.groups = []
  fresh : ∀ record ∈ records, ¬(record.state ≠ identityRecordTombstone ∧
    record.identity.localId.authority = request.authority ∧ record.name = request.name)

theorem DatabaseOk.group_bounds (h : DatabaseOk auth bytes recs) {group : ℕ}
    (hgroup : ∃ record ∈ recs, record.isGroup group = true) : 256 ≤ group ∧ group < 256^4 := by
  obtain ⟨record,hmem,hisGroup⟩ := hgroup
  obtain ⟨-,hauth,rfl⟩ := of_decide_eq_true hisGroup
  have hbound := h.records.bound record hmem
  have hvalue := hbound.value_le
  rw [hauth,ZiIdentityIssuerState.highWater,if_pos rfl] at hvalue
  exact ⟨hbound.value_ge,hvalue.trans_lt readState_fits.group⟩

theorem DatabaseOk.requestOk (h : DatabaseOk auth bytes recs)
    (hreq : validateRequest bytes (readState bytes) req = .ok ()) : RequestOk recs req := by
  have hgroup : ∀ group, hasGroup bytes (readState bytes).recordCount group = true ↔
      ∃ record ∈ recs, record.isGroup group = true := by
    intro group
    rw [← h.length]
    exact hasGroup_iff h.decodes
  rw [validateRequest] at hreq
  simp only [unit_bind_ok_iff,failIf_ok_iff,forM_ok_iff,not_or,not_not,
    ne_eq,Bool.not_eq_false,gt_iff_lt,not_lt,not_and] at hreq
  obtain ⟨⟨-,-,hname,hle,hnil⟩,hgroups,hloop⟩ := hreq
  obtain ⟨hall,hascend⟩ := requestGroupsValid_spec
    (fun group hmem => (h.group_bounds ((hgroup group).mp hmem)).1) hgroups
  refine ⟨hname,fun group hmem => (hgroup group).mp (hall group hmem),hascend,hle,
    fun hauth => List.eq_nil_of_length_eq_zero (hnil hauth),?_⟩
  intro record hmem
  obtain ⟨i,hi,_,hdec,rfl⟩ := h.decodes_iff.mpr ⟨record,hmem,rfl⟩
  have hturn := hloop i (mem_range.mpr hi)
  rwa [hdec,ok_bind,failIf_ok_iff] at hturn

theorem ziIdentityReserve_ok {issuer' : ZiIdentityIssuerState} {auth : ℕ}
    (h : ziIdentityReserve issuer auth = .ok (issuer', identity)) :
    ziIdentityIssuerValidate issuer = true ∧ authorityIsDynamic auth = true ∧
      issuer.highWater auth ≠ uint32Max ∧
      issuer' = issuer.setHighWater auth (issuer.highWater auth+1) ∧
      identity = ⟨issuer.issuer,⟨auth,issuer.highWater auth+1⟩⟩ := by
  rw [ziIdentityReserve] at h
  simp only [unit_bind_ok_iff,failIf_ok_iff,pure_ok_iff,not_or,Bool.not_eq_false,Prod.mk.injEq] at h
  obtain ⟨⟨h1,h2⟩,h3,h4,h5⟩ := h
  exact ⟨h1,h2,h3,h4,h5⟩

def appendedState (state : ZiIdentityDatabaseState) (authority : ℕ) : ZiIdentityDatabaseState :=
  ⟨state.issuer.setHighWater authority (state.issuer.highWater authority+1),state.generation+1,
    state.recordCount+1⟩

def appendedRecord (state : ZiIdentityDatabaseState) (request : ZiIdentityCreateRequest) :
    ZiIdentityDatabaseRecord :=
  ⟨⟨state.issuer.issuer,⟨request.authority,state.issuer.highWater request.authority+1⟩⟩,
    state.generation+1,identityRecordDisabled,request.name,request.groups⟩

theorem appendedState_follows (state : ZiIdentityDatabaseState) (authority : ℕ) :
    (appendedState state authority).issuer.Follows state.issuer := by
  obtain ⟨hgroup,huser,hservice⟩ := le_setHighWater (Nat.le_succ (state.issuer.highWater authority))
  exact ⟨setHighWater_issuer,hgroup,huser,hservice⟩

theorem dynamic_cases {auth : ℕ} (h : authorityIsDynamic auth = true) :
    auth = 2 ∨ auth = 3 ∨ auth = 4 := by
  simp only [authorityIsDynamic,Bool.or_eq_true,decide_eq_true_eq,authorityGroup,authorityUser,
    authorityService] at h
  omega

theorem appendedRecord_valid {state : ZiIdentityDatabaseState} {req : ZiIdentityCreateRequest}
    (hissuer : ziIdentityIssuerValidate state.issuer = true)
    (hdynamic : authorityIsDynamic req.authority = true) :
    ziIdentityValidate (appendedRecord state req).identity = true := by
  have hissuer : issuerIsValid state.issuer.issuer = true := (of_decide_eq_true hissuer).2.2.1
  have hauth := dynamic_cases hdynamic
  rw [ziIdentityValidate,appendedRecord,hissuer,ziSecurityIdValidate,Bool.true_and,
    decide_eq_true_eq]
  simp only [authoritySystem,authorityService]
  omega

theorem setHighWater_succ {auth : ℕ} (hok : ziIdentityIssuerValidate issuer = true)
    (hne : issuer.highWater auth ≠ uint32Max) (hgroup : issuer.groupHighWater < 256^4)
    (huser : issuer.userHighWater < 256^4) (hserv : issuer.serviceHighWater < 256^4) :
    ziIdentityIssuerValidate (issuer.setHighWater auth (issuer.highWater auth+1)) = true ∧
      (issuer.setHighWater auth (issuer.highWater auth+1)).groupHighWater < 256^4 ∧
      (issuer.setHighWater auth (issuer.highWater auth+1)).userHighWater < 256^4 ∧
      (issuer.setHighWater auth (issuer.highWater auth+1)).serviceHighWater < 256^4 ∧
      issuer.highWater auth+1 < 256^4 ∧ 255 ≤ issuer.highWater auth := by
  have hmax : uint32Max = 4294967295 := rfl
  simp only [ziIdentityIssuerValidate,decide_eq_true_eq,identityFirstDynamicValue,not_lt] at hok ⊢
  obtain ⟨h1,h2,h3,h4,h5,h6⟩ := hok
  simp only [ZiIdentityIssuerState.highWater] at hne ⊢
  simp only [ZiIdentityIssuerState.setHighWater]
  split_ifs at hne ⊢
  · exact ⟨⟨h1,h2,h3,by dsimp only; omega,h5,h6⟩,by dsimp only; omega,huser,hserv,
      by omega,by omega⟩
  · exact ⟨⟨h1,h2,h3,h4,h5,by dsimp only; omega⟩,hgroup,huser,by dsimp only; omega,
      by omega,by omega⟩
  · exact ⟨⟨h1,h2,h3,h4,by dsimp only; omega,h6⟩,hgroup,by dsimp only; omega,hserv,
      by omega,by omega⟩

theorem setHighWater_structSize {auth value : ℕ} :
    (issuer.setHighWater auth value).structSize = issuer.structSize ∧
      (issuer.setHighWater auth value).version = issuer.version := by
  rw [ZiIdentityIssuerState.setHighWater]
  split_ifs <;> exact ⟨rfl,rfl⟩

theorem decodes_put {record : ZiIdentityDatabaseRecord} (hat : RecordAt encoded record)
    (htarget : ∀ other, recs[target]? = some other → other = record)
    (hrest : ∀ idx other, idx ≠ target → recs[idx]? = some other →
      decodeRecord (recordBytes bytes idx) = .ok other) :
    Decodes (bytes.put (recordOffset target) (encoded.slice 0 512)) recs := by
  have hlen : (encoded.slice 0 512).length = 512 := length_slice
  intro idx other hother
  by_cases hidx : idx = target
  · subst hidx
    rw [htarget other hother]
    apply decodeRecord_ok_iff.mpr
    apply hat.congr
    intro i hi
    rw [recordBytes,shift_apply,put_of_mem (by omega) (by omega),
      Nat.add_sub_cancel_left,getD_slice hi,Nat.zero_add]
  · apply decodeRecord_ok_iff.mpr
    apply (decodeRecord_ok_iff.mp (hrest idx other hidx hother)).congr
    intro i hi
    show bytes.put _ _ (recordOffset idx+i) = bytes (recordOffset idx+i)
    rw [recordOffset_eq,recordOffset_eq]
    rcases Nat.lt_or_gt_of_ne hidx with hlt | hgt
    · exact put_of_lt (by omega)
    · exact put_of_ge (by rw [hlen]; omega)

theorem Decodes.append (hd : Decodes bytes recs) {record : ZiIdentityDatabaseRecord}
    (hat : RecordAt encoded record) :
    Decodes (bytes.put (recordOffset recs.length) (encoded.slice 0 512)) (recs ++ [record]) := by
  apply decodes_put hat
  · intro other hother
    rw [getElem?_concat_length] at hother
    exact (Option.some.inj hother).symm
  · intro i other hne hother
    have hlt := (List.getElem?_eq_some_iff.mp hother).1
    rw [List.length_append,List.length_singleton] at hlt
    rw [getElem?_append_left (by omega)] at hother
    exact hd i other hother

theorem DatabaseOk.publish_append (hok : DatabaseOk auth bytes recs)
    {record : ZiIdentityDatabaseRecord} (hat : RecordAt encoded record) (hfits : state.Fits)
    (hissuer : state.issuer.issuer = (readState bytes).issuer.issuer)
    (hissuerOk : ziIdentityIssuerValidate state.issuer = true) (hcap : state.recordCount ≤ 64)
    (hcount : state.recordCount = recs.length+1) (hrecs : RecordsOk state (recs ++ [record])) :
    HoldsState auth (Zizium.publish (bytes.put (recordOffset recs.length) (encoded.slice 0 512))
      state) state (recs ++ [record]) := by
  have hbound := hrecs.bound record (by simp)
  apply hok.publish _ hfits hissuer hissuerOk hcap
    (hbound.generation_pos.trans_le hbound.generation_le) _ (by simp [hcount])
    (hok.decodes.append hat) hrecs
  · intro i hi
    exact put_of_lt (by rw [recordOffset_eq]; omega)
  · intro i hi hlt
    rw [hcount] at hi
    refine (put_of_ge ?_).trans (hok.unused i ?_ hlt)
    · rw [recordOffset_eq,length_slice]
      omega
    · rw [← hok.length]
      exact (Nat.add_le_add_left (Nat.mul_le_mul_right 512 (Nat.le_succ _)) 4096).trans hi

theorem prepareAppend_ok (h : prepareAppend bytes size auth req = .ok (encoded, state, identity)) :
    ∃ recs, DatabaseOk auth bytes recs ∧ RequestOk recs req ∧
      (readState bytes).recordCount < 64 ∧ (readState bytes).generation < uint64Max ∧
      ziIdentityReserve (readState bytes).issuer req.authority = .ok (state.issuer, identity) ∧
      state.generation = (readState bytes).generation+1 ∧
      state.recordCount = (readState bytes).recordCount ∧
      encodeRecord identity req state.generation = .ok encoded := by
  rw [prepareAppend] at h
  simp only [bind_ok_iff,failIf_ok_iff,pure_ok_iff,not_or,Prod.mk.injEq] at h
  obtain ⟨_,hvalidate,_,hreq,_,⟨hcount,hgen⟩,⟨issuer,_⟩,hreserve,_,hencode,rfl,rfl,rfl⟩ := h
  obtain ⟨⟨-,-,-,rfl⟩,recs,hok⟩ := validate_ok_iff.mp hvalidate
  have hcap := hok.capacity
  have hlt : (readState bytes).generation < 256^8 := readState_fits.generation
  have hmax := uint64Max_eq
  simp only [identityDatabaseCapacity] at hcount
  exact ⟨recs,hok,hok.requestOk hreq,by omega,by omega,hreserve,rfl,rfl,hencode⟩

theorem append_cases (bytes : Mem) (size : ℕ) (auth : ZiIdentityDatabaseAuthority)
    (req : ZiIdentityCreateRequest) :
    (∃ status, ziIdentityDatabaseAppend bytes size auth req = (.error status, bytes)) ∨
    ∃ recs bytes', ziIdentityDatabaseAppend bytes size auth req =
        (.ok (appendedRecord (readState bytes) req).identity, bytes') ∧
      DatabaseOk auth bytes recs ∧
      HoldsState auth bytes' (appendedState (readState bytes) req.authority)
        (recs ++ [appendedRecord (readState bytes) req]) := by
  rw [ziIdentityDatabaseAppend]
  cases hprepare : prepareAppend bytes size auth req with
  | error status => exact .inl ⟨status,rfl⟩
  | ok prepared =>
    right
    obtain ⟨encoded,⟨issuer,generation,recordCount⟩,identity⟩ := prepared
    obtain ⟨recs,hok,hreq,hcount,hgen,hreserve,hgeneration,hrecordCount,hencode⟩ :=
      prepareAppend_ok hprepare
    dsimp only at hreserve hgeneration hrecordCount hencode
    subst generation recordCount
    obtain ⟨hissuerOk,hdynamic,hroom,rfl,rfl⟩ := ziIdentityReserve_ok hreserve
    have hfits : (readState bytes).Fits := readState_fits
    obtain ⟨hissuerOk',hgroup,huser,hserv,hvalue,hlow⟩ :=
      setHighWater_succ hissuerOk hroom hfits.group hfits.user hfits.service
    have hmax := uint64Max_eq
    have hauth := dynamic_cases hdynamic
    have hvalid := appendedRecord_valid hissuerOk hdynamic
    have hstorable : (appendedRecord (readState bytes) req).Storable := by
      refine ⟨.inl rfl,hreq.name,?_,hreq.ascend,hreq.groups_le,?_⟩
      · have := hreq.name
        rw [nameValid] at this
        split at this
        · cases this
        · simp only [identityDatabaseNameBytes] at *
          dsimp only [appendedRecord]
          omega
      · rintro (hstate | hgroup)
        · cases hstate
        · exact hreq.groups_nil hgroup
    have hat := recordAt_encoded hstorable rfl hvalid (by dsimp only [appendedRecord]; omega)
      hvalue (by dsimp only [appendedRecord]; omega)
      fun group hmem => (hok.group_bounds (hreq.groups group hmem)).2
    have hencoded := (encodeRecord_ok hvalid).symm.trans hencode
    cases hencoded
    have hfollows := appendedState_follows (readState bytes) req.authority
    have hbound : (appendedRecord (readState bytes) req).Bound
        (appendedState (readState bytes) req.authority) := by
      refine ⟨?_,hvalid,hdynamic,?_,hfollows.issuer.symm,?_,Nat.succ_pos _,le_rfl⟩
      · rw [hfollows.issuer]
        exact (of_decide_eq_true hissuerOk).2.2.1
      · simp only [identityFirstDynamicValue,appendedRecord]
        omega
      · simp only [appendedState,appendedRecord,setHighWater_highWater,le_refl]
    have hrecs := hok.records.append hfollows (Nat.le_succ _) hbound (Nat.lt_succ_self _)
      hreq.fresh hreq.groups
    have hfits' : (appendedState (readState bytes) req.authority).Fits :=
      ⟨setHighWater_structSize.1,setHighWater_structSize.2,by dsimp only [appendedState]; omega,
        by dsimp only [appendedState]; omega,hgroup,huser,hserv⟩
    obtain hholds := hok.publish_append hat hfits' hfollows.issuer hissuerOk'
      (Nat.succ_le_of_lt hcount) (congrArg Nat.succ hok.length.symm) hrecs
    refine ⟨recs,_,?_,hok,hholds⟩
    rw [hok.length]
    rfl

end Append

/-! ## Removing -/

section Remove

variable {recs before after : List ZiIdentityDatabaseRecord} {record : ZiIdentityDatabaseRecord}

def ZiIdentityDatabaseRecord.RefersTo (record : ZiIdentityDatabaseRecord)
    (authority : ZiIdentityDatabaseAuthority) (identity : ZiNativeIdentity) : Prop :=
  identity.localId.authority = authorityGroup ∧ identity.issuer = authority.issuer ∧
    identity.localId.value ∈ record.groups

theorem removalTarget_ok {indices : List ℕ} {target result : Option ℕ}
    (h : removalTarget bytes auth identity indices target = .ok result) :
    (∀ i ∈ indices, ∀ record, decodeRecord (recordBytes bytes i) = .ok record →
      record.state ≠ identityRecordTombstone → ¬record.RefersTo auth identity) ∧
    (result = target ∨ ∃ i ∈ indices, ∃ record, result = some i ∧
      decodeRecord (recordBytes bytes i) = .ok record ∧
      record.state ≠ identityRecordTombstone ∧ record.identity = identity) := by
  induction indices generalizing target with
  | nil =>
    rw [removalTarget,pure_ok_iff] at h
    exact ⟨nofun,.inl h⟩
  | cons i indices ih =>
    rw [removalTarget,bind_ok_iff] at h
    obtain ⟨record,hrec,h⟩ := h
    -- the rest of the loop, from the target this turn leaves
    obtain ⟨next,h,hunused,hnext⟩ : ∃ next,
        removalTarget bytes auth identity indices next = .ok result ∧
        (record.state ≠ identityRecordTombstone → ¬record.RefersTo auth identity) ∧
        (next = target ∨ next = some i ∧ record.state ≠ identityRecordTombstone ∧
          record.identity = identity) := by
      split at h
      next htombstone => exact ⟨target,h,fun hlive => absurd htombstone hlive,.inl rfl⟩
      next hlive =>
        rw [failIf_bind_ok_iff] at h
        refine ⟨_,h.2,fun _ => h.1,?_⟩
        split
        next hequal => exact .inr ⟨rfl,hlive,eq_of_ziIdentityEqual hequal⟩
        next => exact .inl rfl
    obtain ⟨hfree,hres⟩ := ih h
    constructor
    · intro other hother found hfound hlive
      rcases mem_cons.mp hother with rfl | hother
      · cases hrec.symm.trans hfound
        exact hunused hlive
      · exact hfree other hother found hfound hlive
    · rcases hres with rfl | ⟨other,hother,hrest⟩
      · exact hnext.imp_right fun ⟨hsome,hlive,hid⟩ => ⟨i,mem_cons_self,record,hsome,hrec,hlive,hid⟩
      · exact .inr ⟨other,mem_cons_of_mem _ hother,hrest⟩

theorem Decodes.bury (hd : Decodes bytes (before ++ record :: after)) {gen : ℕ}
    (hgen : gen < 256^8) : Decodes (bytes.put (recordOffset before.length)
        ((buryRecord (recordBytes bytes before.length) gen).slice 0 512))
      (before ++ record.bury gen :: after) := by
  have hrec : (before ++ record :: after)[before.length]? = some record := by simp
  apply decodes_put (recordAt_bury (decodeRecord_ok_iff.mp (hd _ _ hrec)) hgen)
  · intro other hother
    simpa using hother.symm
  · intro i other hne hother
    apply hd i other
    rw [← hother]
    rcases Nat.lt_or_gt_of_ne hne with hlt | hgt
    · rw [getElem?_append_left hlt,getElem?_append_left hlt]
    · obtain ⟨k,hk⟩ : ∃ k, i - before.length = k+1 := ⟨i - before.length-1,by omega⟩
      rw [getElem?_append_right (by omega),getElem?_append_right (by omega),hk,
        getElem?_cons_succ,getElem?_cons_succ]

def nextState (bytes : Mem) : ZiIdentityDatabaseState :=
  { readState bytes with generation := (readState bytes).generation+1 }

theorem DatabaseOk.publish_bury (hok : DatabaseOk auth bytes (before ++ record :: after))
    (hgen : (readState bytes).generation < uint64Max) (hrecs : RecordsOk (nextState bytes)
      (before ++ record.bury (nextState bytes).generation :: after)) :
    HoldsState auth (Zizium.publish (bytes.put (recordOffset before.length)
        ((buryRecord (recordBytes bytes before.length) (nextState bytes).generation).slice 0 512))
        (nextState bytes)) (nextState bytes)
      (before ++ record.bury (nextState bytes).generation :: after) := by
  have hmax := uint64Max_eq
  have hfits : (readState bytes).Fits := readState_fits
  have hfits' : (nextState bytes).Fits :=
    ⟨rfl,rfl,hfits.recordCount,by dsimp only [nextState]; omega,hfits.group,hfits.user,
      hfits.service⟩
  have hlen := hok.length
  apply hok.publish _ hfits' rfl hok.issuer_ok hok.capacity (Nat.succ_pos _) _
    (by simpa [nextState] using hlen) (hok.decodes.bury hfits'.generation) hrecs
  · intro i hi
    exact put_of_lt (by rw [recordOffset_eq]; omega)
  · intro i hi hlt
    refine (put_of_ge ?_).trans (hok.unused i hi hlt)
    have hi : 4096+(readState bytes).recordCount*512 ≤ i := hi
    rw [← hlen,length_append,length_cons] at hi
    rw [recordOffset_eq,length_slice]
    omega

theorem prepareRemove_ok (h : prepareRemove bytes size auth identity = .ok (state, target)) :
    ∃ recs, DatabaseOk auth bytes recs ∧ (readState bytes).generation < uint64Max ∧
      state = nextState bytes ∧ (∀ other ∈ recs, other.state ≠ identityRecordTombstone →
        ¬other.RefersTo auth identity) ∧
      ∃ record, recs[target]? = some record ∧ record.state ≠ identityRecordTombstone ∧
        record.identity = identity := by
  rw [prepareRemove,failIf_bind_ok_iff,bind_ok_iff] at h
  obtain ⟨-,_,hvalidate,h⟩ := h
  rw [failIf_bind_ok_iff,bind_ok_iff] at h
  obtain ⟨hgen,result,hloop,h⟩ := h
  obtain ⟨⟨-,-,-,rfl⟩,recs,hok⟩ := validate_ok_iff.mp hvalidate
  have hlt : (readState bytes).generation < 256^8 := readState_fits.generation
  have hmax := uint64Max_eq
  cases result with
  | none => cases h
  | some found =>
    obtain ⟨rfl,rfl⟩ := Prod.mk.inj (pure_ok_iff.mp h)
    obtain ⟨hfree,hres⟩ := removalTarget_ok hloop
    refine ⟨recs,hok,by omega,rfl,?_,?_⟩
    · intro other hother
      obtain ⟨i,hi,_,hdec,rfl⟩ := hok.decodes_iff.mpr ⟨other,hother,rfl⟩
      exact hfree i (mem_range.mpr hi) _ hdec
    · rcases hres with hres | ⟨i,hi,record,hres,hrec,hlive,hidentity⟩
      · cases hres
      · cases hres
        have hbelow := mem_range.mp hi
        rw [← hok.length] at hbelow
        have hsome := getElem?_eq_getElem hbelow
        have hdec := hok.decodes _ _ hsome
        rw [hrec] at hdec
        cases hdec
        exact ⟨_,hsome,hlive,hidentity⟩

theorem remove_cases (bytes : Mem) (size : ℕ) (auth : ZiIdentityDatabaseAuthority)
    (identity : ZiNativeIdentity) :
    (∃ status, ziIdentityDatabaseRemove bytes size auth identity = (.error status, bytes)) ∨
    ∃ before record after bytes',
      ziIdentityDatabaseRemove bytes size auth identity = (.ok (), bytes') ∧
      record.identity = identity ∧ record.state ≠ identityRecordTombstone ∧
      DatabaseOk auth bytes (before ++ record :: after) ∧
      HoldsState auth bytes' (nextState bytes)
        (before ++ record.bury (nextState bytes).generation :: after) ∧
      ∀ other ∈ before ++ record :: after, other.state ≠ identityRecordTombstone →
        ¬other.RefersTo auth identity := by
  rw [ziIdentityDatabaseRemove]
  cases hprepare : prepareRemove bytes size auth identity with
  | error status => exact .inl ⟨status,rfl⟩
  | ok prepared =>
    right
    obtain ⟨state,target⟩ := prepared
    obtain ⟨recs,hok,hgen,rfl,hfree,record,hrec,hlive,rfl⟩ :=
      prepareRemove_ok hprepare
    obtain ⟨hlt,hget⟩ := List.getElem?_eq_some_iff.mp hrec
    obtain ⟨before,after,rfl,rfl⟩ : ∃ before after, recs = before ++ record :: after ∧
        before.length = target := by
      refine ⟨recs.take target,recs.drop (target+1),?_,length_take_of_le hlt.le⟩
      rw [← hget,← drop_eq_getElem_cons hlt,take_append_drop]
    have hfollows : (nextState bytes).issuer.Follows (readState bytes).issuer :=
      ⟨rfl,le_rfl,le_rfl,le_rfl⟩
    -- A live record that refers to the removed group would have stopped the loop.
    have hunreferenced : ∀ other ∈ before ++ record :: after, ∀ group ∈ other.groups,
        record.isGroup group = false := by
      intro other hother group hgroup
      rw [Bool.eq_false_iff]
      intro hisGroup
      obtain ⟨-,hauth,rfl⟩ := of_decide_eq_true hisGroup
      obtain ⟨i,hi⟩ := getElem?_of_mem hother
      have hstorable := (decodeRecord_ok_iff.mp (hok.decodes i other hi)).storable
      have hotherLive : other.state ≠ identityRecordTombstone := by
        intro htombstone
        rw [hstorable.groups_nil (.inl htombstone)] at hgroup
        cases hgroup
      have hissuer := (hok.records.bound record (by simp)).issuer
      exact hfree other hother hotherLive ⟨hauth,hissuer.trans hok.issuer,hgroup⟩
    have hrecs : RecordsOk (nextState bytes)
        (before ++ record.bury (nextState bytes).generation :: after) :=
      hok.records.bury hfollows (Nat.succ_pos _) rfl (Nat.le_succ _) hunreferenced
    exact ⟨before,record,after,_,rfl,rfl,hlive,hok,hok.publish_bury hgen hrecs,hfree⟩

end Remove

/-! ## The empty database -/

def emptyHeader (authority : ZiIdentityDatabaseAuthority) (zeroed : Mem) : Mem :=
  ziWriteU32Le (ziWriteU32Le (ziWriteU32Le ((((ziWriteU64Le (ziWriteU16Le (ziWriteU16Le
    (ziWriteU32Le (ziWriteU16Le (ziWriteU16Le (zeroed.put 0 databaseMagic) 4
    identityDatabaseVersion) 6 identityDatabaseHeaderSize) 8 identityDatabaseSize) 12
    identityDatabaseRecordSize) 14 identityDatabaseCapacity) 24 1).put 32
    authority.issuer.toList).put 48 authority.volume.toList).put 64 authority.database.toList) 80
    255) 84 255) 88 255

theorem emptyHeader_fields {zeroed header : Mem} (hzero : ∀ i < 36864, zeroed i = 0)
    (hheader : emptyHeader auth zeroed = header) : (HeaderOk header ∧
      readUuid header 32 = auth.issuer ∧
      readUuid header 48 = auth.volume ∧
      readUuid header 64 = auth.database) ∧ readState header =
      ⟨⟨identityIssuerStateSize,identityIssuerStateVersion,auth.issuer,255,255,255⟩,1,0⟩ ∧
    ∀ i, 92 ≤ i → i < 36864 → header i = 0 := by
  have hmagic : databaseMagic.length = 4 := rfl
  have h1 : auth.issuer.toList.length = 16 := by simp
  have h2 : auth.volume.toList.length = 16 := by simp
  have h3 : auth.database.toList.length = 16 := by simp
  have hread : ∀ {n off}, off+n ≤ 36864 → zeroed.readLe n off = 0 := by
    intro n off hle
    have hsame : zeroed.readLe n off = zero.readLe n off :=
      readLe_congr fun i hi => hzero _ (by omega)
    rw [hsame,readLe_zero]
  have hrest : ∀ i, 92 ≤ i → i < 36864 → header i = 0 := by
    intro i hi hlt
    simp (disch := first | omega | (rw [length_leBytes]; omega)) only [← hheader,emptyHeader,
      ziWriteU16Le,ziWriteU32Le,ziWriteU64Le,put_of_ge]
    exact hzero i hlt
  have huuids : readUuid header 32 = auth.issuer ∧
      readUuid header 48 = auth.volume ∧
      readUuid header 64 = auth.database ∧
      header.slice 0 4 = databaseMagic := by
    rw [readUuid_eq_iff,readUuid_eq_iff,readUuid_eq_iff]
    simp (disch := first | omega | (rw [length_leBytes]; omega)) only [← hheader,emptyHeader,
      ziWriteU16Le,ziWriteU32Le,ziWriteU64Le,slice_put_of_disjoint,slice_put_self,and_self]
  have hfields : (ziReadU16Le header 4 = 1 ∧
      ziReadU16Le header 6 = 4096 ∧
      ziReadU32Le header 8 = 36864 ∧
      ziReadU16Le header 12 = 512 ∧
      ziReadU16Le header 14 = 64 ∧
      ziReadU32Le header 20 = 0) ∧
      ziReadU32Le header 16 = 0 ∧
      ziReadU64Le header 24 = 1 ∧
      ziReadU32Le header 80 = 255 ∧
      ziReadU32Le header 84 = 255 ∧
      ziReadU32Le header 88 = 255 := by
    simp (disch := first | omega | decide | (rw [length_leBytes]; omega)) only [← hheader,
      emptyHeader,ziReadU16Le,ziReadU32Le,ziReadU64Le,ziWriteU16Le,ziWriteU32Le,ziWriteU64Le,
      readLe_put_of_disjoint,readLe_put_self_of_lt,hread,and_self]
  obtain ⟨hissuer,hvol,hdatabase,hslice⟩ := huuids
  obtain ⟨⟨h4,h5,h6,h7,h8,h9⟩,h10,h11,h12,h13,h14⟩ := hfields
  refine ⟨⟨⟨hslice,h4,h5,h6,h7,h8,h9,fun i hi => hrest _ (by omega) (by omega)⟩,hissuer,
    hvol,hdatabase⟩,?_,hrest⟩
  rw [readState,hissuer,h10,h11,h12,h13,h14]

theorem emptyDatabase_ok (h : authorityValid auth = true) (output : Mem) :
    DatabaseOk auth (emptyDatabase auth output) [] ∧ readState (emptyDatabase auth output) =
        ⟨⟨identityIssuerStateSize,identityIssuerStateVersion,auth.issuer,255,255,255⟩,1,
          0⟩ := by
  let zeroed : Mem := output.put 0 (replicate identityDatabaseSize 0)
  have hzero : ∀ i < 36864, zeroed i = 0 := by
    intro i hi
    have hlen : (replicate identityDatabaseSize (0 : UInt8)).length = 36864 :=
      length_replicate
    show output.put 0 _ i = 0
    rw [put_of_mem (Nat.zero_le _) (by rw [hlen]; omega),getD_eq_getElem?_getD,
      getElem?_replicate]
    split <;> rfl
  have hempty : emptyDatabase auth output = updateChecksum (emptyHeader auth zeroed) := rfl
  rw [hempty]
  generalize hheader : emptyHeader auth zeroed = header
  obtain ⟨⟨hhdr,hissuer,hvol,hdatabase⟩,hstate,hrest⟩ := emptyHeader_fields hzero hheader
  have hsame : ∀ i, i < 4092 ∨ 4096 ≤ i → updateChecksum header i = header i :=
    fun i hi => updateChecksum_of_disjoint hi
  have huuid : ∀ off, off+16 ≤ 4092 → readUuid (updateChecksum header) off = readUuid header off :=
    fun off hle => readUuid_congr fun i hi => hsame _ (.inl (by omega))
  have hread := readState_updateChecksum.trans hstate
  have hvalid : ziIdentityIssuerValidate ⟨identityIssuerStateSize,identityIssuerStateVersion,
      auth.issuer,255,255,255⟩ = true := by
    simp only [authorityValid,Bool.and_eq_true] at h
    simp [ziIdentityIssuerValidate,issuerIsValid,h.2.1.1]
  refine ⟨⟨h,?_,databaseChecksum_updateChecksum,?_,?_,?_,?_,?_,?_,?_,?_,?_,?_⟩,?_⟩
  · exact hhdr.congr fun i hi => hsame i (by omega)
  · rw [huuid 32 (by omega),hissuer]
  · rw [huuid 48 (by omega),hvol]
  · rw [huuid 64 (by omega),hdatabase]
  · rw [hread]
    exact Nat.zero_le _
  · rw [hread]
    exact Nat.one_pos
  · rwa [hread]
  · intro i hi hlt
    have hle : 4096 ≤ i := (Nat.le_add_right _ _).trans hi
    rw [hsame i (.inr hle),hrest i (le_trans (by decide) hle) hlt]
  · rw [hread]
    rfl
  · nofun
  · exact ⟨nofun,List.Pairwise.nil,nofun⟩
  · exact hread

/-! ## Histories -/

/-- A request with the arguments it is called with. -/
inductive IdentityRequest where
  | append (size : ℕ) (authority : ZiIdentityDatabaseAuthority) (request : ZiIdentityCreateRequest)
  | remove (size : ℕ) (authority : ZiIdentityDatabaseAuthority) (identity : ZiNativeIdentity)

/-- The status of a request with the identity it issued, and the buffer it leaves. -/
def IdentityRequest.apply (bytes : Mem) :
    IdentityRequest → Result (Option ZiNativeIdentity) × Mem
  | append size authority request =>
    ((ziIdentityDatabaseAppend bytes size authority request).1.map some,
      (ziIdentityDatabaseAppend bytes size authority request).2)
  | remove size authority identity =>
    ((ziIdentityDatabaseRemove bytes size authority identity).1.map fun _ => none,
      (ziIdentityDatabaseRemove bytes size authority identity).2)

def bytesAfter (bytes : Mem) : List IdentityRequest → Mem
  | [] => bytes
  | request :: requests => bytesAfter (request.apply bytes).2 requests

def issuedBy (bytes : Mem) : List IdentityRequest → List ZiNativeIdentity
  | [] => []
  | request :: requests =>
    match (request.apply bytes).1 with
    | .ok (some identity) => identity :: issuedBy (request.apply bytes).2 requests
    | _ => issuedBy (request.apply bytes).2 requests

theorem bytesAfter_cons_append (bytes : Mem) (size : ℕ) (auth : ZiIdentityDatabaseAuthority)
    (req : ZiIdentityCreateRequest) (requests : List IdentityRequest) :
    bytesAfter bytes (.append size auth req :: requests) =
      bytesAfter (ziIdentityDatabaseAppend bytes size auth req).2 requests := rfl

theorem bytesAfter_cons_remove (bytes : Mem) (size : ℕ) (auth : ZiIdentityDatabaseAuthority)
    (identity : ZiNativeIdentity) (requests : List IdentityRequest) :
    bytesAfter bytes (.remove size auth identity :: requests) =
      bytesAfter (ziIdentityDatabaseRemove bytes size auth identity).2 requests := rfl

/-- The identity has a record in the buffer, live or a tombstone. -/
def Recorded (bytes : Mem) (identity : ZiNativeIdentity) : Prop :=
  ∃ index < (readState bytes).recordCount, ∃ record,
    decodeRecord (recordBytes bytes index) = .ok record ∧ record.identity = identity

section Histories

variable {authority' : ZiIdentityDatabaseAuthority} {recs records' : List ZiIdentityDatabaseRecord}

theorem DatabaseOk.unique (h : DatabaseOk auth bytes recs)
    (h' : DatabaseOk authority' bytes records') : authority' = auth ∧ records' = recs := by
  constructor
  · have hvalid := h.authority_ok
    have hvalid' := h'.authority_ok
    obtain ⟨structSize,version,issuer,vol,database⟩ := auth
    obtain ⟨structSize',version',issuer',volume',database'⟩ := authority'
    simp only [authorityValid,Bool.and_eq_true,decide_eq_true_eq] at hvalid hvalid'
    obtain ⟨rfl,rfl⟩ := hvalid.1
    obtain ⟨rfl,rfl⟩ := hvalid'.1
    have hissuer : issuer' = issuer := h'.issuer.symm.trans h.issuer
    have hvol : volume' = vol := h'.volume.symm.trans h.volume
    have hdatabase : database' = database := h'.database.symm.trans h.database
    rw [hissuer,hvol,hdatabase]
  · have hlen : records'.length = recs.length := h'.length.trans h.length.symm
    apply ext_getElem hlen
    intro i hindex' hi
    have hdecode' := h'.decodes i _ (getElem?_eq_getElem hindex')
    have hdec := h.decodes i _ (getElem?_eq_getElem hi)
    exact ok.inj (hdecode'.symm.trans hdec)

theorem DatabaseOk.recorded_iff (h : DatabaseOk auth bytes recs) :
    Recorded bytes identity ↔ ∃ record ∈ recs, record.identity = identity := h.decodes_iff

theorem DatabaseOk.not_recorded_appended (h : DatabaseOk auth bytes recs)
    (req : ZiIdentityCreateRequest) :
    ¬Recorded bytes (appendedRecord (readState bytes) req).identity := by
  intro hrecorded
  obtain ⟨other,hother,hidentity⟩ := h.recorded_iff.mp hrecorded
  have hle := (h.records.bound other hother).value_le
  rw [hidentity] at hle
  exact Nat.not_succ_le_self _ hle

theorem HoldsState.append_accepted {req : ZiIdentityCreateRequest}
    {state' : ZiIdentityDatabaseState} {record : ZiIdentityDatabaseRecord}
    (h : HoldsState auth bytes state recs) (hreq : validateRequest bytes state req = .ok ())
    (hcount : recs.length < 64) (hgen : state.generation < uint64Max)
    (hdynamic : authorityIsDynamic req.authority = true)
    (hroom : state.issuer.highWater req.authority < uint32Max)
    (hstate : appendedState state req.authority = state')
    (hrecord : appendedRecord state req = record) :
    ∃ bytes', ziIdentityDatabaseAppend bytes identityDatabaseSize auth req =
        (.ok record.identity, bytes') ∧ HoldsState auth bytes' state' (recs ++ [record]) := by
  subst hstate hrecord
  obtain ⟨rfl,hok⟩ := h
  have hvalid : ziIdentityDatabaseValidate bytes identityDatabaseSize auth 1 =
      .ok (readState bytes) := validate_ok_iff.mpr ⟨⟨rfl,Nat.one_pos,hok.generation,rfl⟩,recs,hok⟩
  rw [hok.length] at hcount
  rcases append_cases bytes identityDatabaseSize auth req with
    ⟨status,hres⟩ | ⟨found,bytes',hres,hfound,hholds⟩
  · rw [ziIdentityDatabaseAppend,prepareAppend,hvalid,ok_bind,hreq,ok_bind,failIf_bind_neg
      (by simp only [identityDatabaseCapacity]; omega),ziIdentityReserve,
      failIf_bind_neg (by simp [hok.issuer_ok,hdynamic]),failIf_bind_neg hroom.ne,pure_bind] at hres
    have hencode : encodeRecord _ req ((readState bytes).generation+1) = .ok _ :=
      encodeRecord_ok (appendedRecord_valid hok.issuer_ok hdynamic)
    rw [appendedRecord] at hencode
    dsimp only at hres hencode
    rw [hencode] at hres
    cases hres
  · obtain ⟨-,rfl⟩ := hok.unique hfound
    exact ⟨bytes',hres,hholds⟩

/-- What a request does to a valid buffer. -/
structure IdentityRequest.Sound (request : IdentityRequest)
    (authority : ZiIdentityDatabaseAuthority) (bytes : Mem) : Prop where
  valid : ∃ records, DatabaseOk authority (request.apply bytes).2 records
  rejected : ∀ status, (request.apply bytes).1 = .error status → (request.apply bytes).2 = bytes
  accepted : ∀ outcome, (request.apply bytes).1 = .ok outcome →
    (readState (request.apply bytes).2).generation = (readState bytes).generation+1 ∧
      (readState (request.apply bytes).2).issuer.Follows (readState bytes).issuer
  kept : ∀ identity, Recorded bytes identity → Recorded (request.apply bytes).2 identity
  issued : ∀ identity, (request.apply bytes).1 = .ok (some identity) →
    Recorded (request.apply bytes).2 identity ∧ ¬Recorded bytes identity
  unreferenced : ∀ size authority identity outcome, request = .remove size authority identity →
    (request.apply bytes).1 = .ok outcome → identity.localId.authority = authorityGroup →
    ∀ index < (readState bytes).recordCount, ∀ record,
      decodeRecord (recordBytes bytes index) = .ok record →
      record.state ≠ identityRecordTombstone → identity.localId.value ∉ record.groups

section

variable (hok : DatabaseOk auth bytes recs)

include hok

theorem IdentityRequest.Sound.of_rejected {req : IdentityRequest} {status : ZiStatus}
    (h : req.apply bytes = (.error status, bytes)) : req.Sound auth bytes := by
  constructor <;> rw [h]
  · exact ⟨recs,hok⟩
  · exact fun _ _ => rfl
  · nofun
  · exact fun _ => id
  · nofun
  · intro _ _ _ _ _ houtcome
    cases houtcome

theorem append_sound (size : ℕ) (arg : ZiIdentityDatabaseAuthority)
    (req : ZiIdentityCreateRequest) : (IdentityRequest.append size arg req).Sound auth bytes := by
  rcases append_cases bytes size arg req with
    ⟨status,hres⟩ | ⟨found,bytes',hres,hfound,hstate,hok'⟩
  · apply IdentityRequest.Sound.of_rejected hok
    rw [IdentityRequest.apply,hres]
    rfl
  · obtain ⟨rfl,rfl⟩ := hok.unique hfound
    have happly : (IdentityRequest.append size arg req).apply bytes =
        (.ok (some (appendedRecord (readState bytes) req).identity), bytes') := by
      rw [IdentityRequest.apply,hres]
      rfl
    constructor <;> rw [happly]
    · exact ⟨_,hok'⟩
    · nofun
    · rw [hstate]
      exact fun _ _ => ⟨rfl,appendedState_follows _ _⟩
    · intro identity hrecorded
      obtain ⟨other,hother,hidentity⟩ := hfound.recorded_iff.mp hrecorded
      exact hok'.recorded_iff.mpr ⟨other,mem_append_left _ hother,hidentity⟩
    · intro identity hidentity
      cases hidentity
      exact ⟨hok'.recorded_iff.mpr ⟨_,by simp,rfl⟩,hok.not_recorded_appended req⟩
    · nofun

theorem remove_sound (size : ℕ) (arg : ZiIdentityDatabaseAuthority) (identity : ZiNativeIdentity) :
    (IdentityRequest.remove size arg identity).Sound auth bytes := by
  rcases remove_cases bytes size arg identity with
    ⟨status,hres⟩ | ⟨before,record,after,bytes',hres,rfl,hlive,hfound,⟨hstate,hok'⟩,hfree⟩
  · apply IdentityRequest.Sound.of_rejected hok
    rw [IdentityRequest.apply,hres]
    rfl
  · obtain ⟨rfl,rfl⟩ := hok.unique hfound
    have happly : (IdentityRequest.remove size arg record.identity).apply bytes =
        (.ok none, bytes') := by
      rw [IdentityRequest.apply,hres]
      rfl
    constructor <;> rw [happly]
    · exact ⟨_,hok'⟩
    · nofun
    · rw [hstate]
      exact fun _ _ => ⟨rfl,rfl,le_rfl,le_rfl,le_rfl⟩
    · intro other hrecorded
      obtain ⟨found,hmem,rfl⟩ := hfound.recorded_iff.mp hrecorded
      apply hok'.recorded_iff.mpr
      rw [mem_append,mem_cons] at hmem
      rcases hmem with hmem | rfl | hmem
      · exact ⟨found,by simp [hmem],rfl⟩
      · exact ⟨_,mem_append_right _ mem_cons_self,rfl⟩
      · exact ⟨found,by simp [hmem],rfl⟩
    · nofun
    · intro _ _ _ _ hreq _ hgroup i hi other hother hlive hmem
      cases hreq
      obtain ⟨_,hin,rfl⟩ := hfound.decodes_iff.mp ⟨i,hi,other,hother,rfl⟩
      have hissuer := (hfound.records.bound record (by simp)).issuer
      exact hfree _ hin hlive ⟨hgroup,hissuer.trans hfound.issuer,hmem⟩

theorem IdentityRequest.sound (req : IdentityRequest) : req.Sound auth bytes := by
  cases req with
  | append size arg req => exact append_sound hok size arg req
  | remove size arg identity => exact remove_sound hok size arg identity

omit hok in
theorem bytesAfter_append {earlier later : List IdentityRequest} :
    bytesAfter bytes (earlier ++ later) = bytesAfter (bytesAfter bytes earlier) later := by
  induction earlier generalizing bytes with
  | nil => rfl
  | cons req earlier ih => exact ih

theorem DatabaseOk.run (requests : List IdentityRequest) :
    (∃ recs, DatabaseOk auth (bytesAfter bytes requests) recs) ∧
      (∀ identity, Recorded bytes identity → Recorded (bytesAfter bytes requests) identity) ∧
      ∀ identity ∈ issuedBy bytes requests, Recorded (bytesAfter bytes requests) identity := by
  induction requests generalizing bytes recs with
  | nil => exact ⟨⟨recs,hok⟩,fun _ h => h,nofun⟩
  | cons req requests ih =>
    have hsound := req.sound hok
    obtain ⟨records',hok'⟩ := hsound.valid
    obtain ⟨hvalid,hkept,hissued⟩ := ih hok'
    refine ⟨hvalid,fun identity hrecorded => hkept identity (hsound.kept identity hrecorded),?_⟩
    intro identity hmem
    rw [issuedBy] at hmem
    split at hmem
    next issued hissue =>
      rcases mem_cons.mp hmem with rfl | hmem
      · exact hkept identity (hsound.issued identity hissue).1
      · exact hissued identity hmem
    next => exact hissued identity hmem

end

end Histories

structure HistorySound (authority : ZiIdentityDatabaseAuthority) (initial : Mem)
    (requests : List IdentityRequest) (request : IdentityRequest) : Prop where
  /-- The buffer validates, for every generation floor it has passed. -/
  validates : 0 < (readState (bytesAfter initial requests)).generation ∧
    ∀ minimum, 0 < minimum → minimum ≤ (readState (bytesAfter initial requests)).generation →
      ziIdentityDatabaseValidate (bytesAfter initial requests) identityDatabaseSize authority
        minimum = .ok (readState (bytesAfter initial requests))
  /-- An accepted request raises the generation by one and lowers no high-water mark. -/
  accepted : ∀ outcome, (request.apply (bytesAfter initial requests)).1 = .ok outcome →
    (readState (request.apply (bytesAfter initial requests)).2).generation =
        (readState (bytesAfter initial requests)).generation+1 ∧
      (readState (request.apply (bytesAfter initial requests)).2).issuer.Follows
        (readState (bytesAfter initial requests)).issuer
  /-- An issued identity was neither issued nor on record at any time before. -/
  fresh : ∀ identity, (request.apply (bytesAfter initial requests)).1 = .ok (some identity) →
    identity ∉ issuedBy initial requests ∧
      ∀ earlier, earlier <+: requests → ¬Recorded (bytesAfter initial earlier) identity
  /-- A group that a live record refers to is not removed. -/
  unreferenced : ∀ size authority identity outcome, request = .remove size authority identity →
    (request.apply (bytesAfter initial requests)).1 = .ok outcome →
    identity.localId.authority = authorityGroup →
    ∀ index < (readState (bytesAfter initial requests)).recordCount, ∀ record,
      decodeRecord (recordBytes (bytesAfter initial requests) index) = .ok record →
      record.state ≠ identityRecordTombstone → identity.localId.value ∉ record.groups
  /-- A rejected request leaves every byte unchanged. -/
  rejected : ∀ status, (request.apply (bytesAfter initial requests)).1 = .error status →
    (request.apply (bytesAfter initial requests)).2 = bytesAfter initial requests

theorem identityDatabase_invariant (auth : ZiIdentityDatabaseAuthority) (storage initial : Mem)
    (size : ℕ) (hinitial : ziIdentityDatabaseInitialise auth storage size = (.ok (), initial))
    (requests : List IdentityRequest) (req : IdentityRequest) :
    HistorySound auth initial requests req := by
  have hempty : DatabaseOk auth initial [] := by
    rw [ziIdentityDatabaseInitialise] at hinitial
    split at hinitial
    · cases hinitial
    next hvalid =>
      rw [not_or,Bool.not_eq_false] at hvalid
      obtain ⟨-,rfl⟩ := Prod.mk.inj hinitial
      exact (emptyDatabase_ok hvalid.1 storage).1
  obtain ⟨⟨recs,hok⟩,-,hissued⟩ := hempty.run requests
  have hsound := req.sound hok
  refine ⟨⟨hok.generation,?_⟩,hsound.accepted,?_,hsound.unreferenced,hsound.rejected⟩
  · intro minimum hpos hle
    exact validate_ok_iff.mpr ⟨⟨rfl,hpos,hle,rfl⟩,recs,hok⟩
  · intro identity hidentity
    have hfresh := (hsound.issued identity hidentity).2
    refine ⟨fun hmem => hfresh (hissued identity hmem),?_⟩
    rintro earlier ⟨later,rfl⟩ hrecorded
    obtain ⟨⟨records',hok'⟩,-,-⟩ := hempty.run earlier
    obtain ⟨-,hkept,-⟩ := hok'.run later
    rw [← bytesAfter_append] at hkept
    exact hfresh (hkept identity hrecorded)

def sampleAuthority : ZiIdentityDatabaseAuthority :=
  ⟨identityAuthoritySize,identityDatabaseVersion,.replicate 16 1,.replicate 16 2,.replicate 16 3⟩

def groupRequest : ZiIdentityCreateRequest :=
  ⟨identityCreateRequestSize,identityDatabaseVersion,authorityGroup,[0x61],[]⟩

def userRequest : ZiIdentityCreateRequest :=
  ⟨identityCreateRequestSize,identityDatabaseVersion,authorityUser,[0x62],[256]⟩

/-- The state of a database that has issued identities for groups and users. -/
def sampleState (group user generation recordCount : ℕ) : ZiIdentityDatabaseState :=
  ⟨⟨identityIssuerStateSize,identityIssuerStateVersion,.replicate 16 1,group,user,255⟩,generation,
    recordCount⟩

def groupRecord : ZiIdentityDatabaseRecord :=
  ⟨⟨.replicate 16 1,⟨authorityGroup,256⟩⟩,2,identityRecordDisabled,[0x61],[]⟩

def userRecord : ZiIdentityDatabaseRecord :=
  ⟨⟨.replicate 16 1,⟨authorityUser,256⟩⟩,3,identityRecordDisabled,[0x62],[256]⟩

theorem append_groupRequest (storage : Mem) : ∃ bytes,
    ziIdentityDatabaseAppend (emptyDatabase sampleAuthority storage) identityDatabaseSize
      sampleAuthority groupRequest = (.ok groupRecord.identity, bytes) ∧
    HoldsState sampleAuthority bytes (sampleState 256 255 2 1) [groupRecord] := by
  obtain ⟨hok,hstate⟩ := emptyDatabase_ok (show authorityValid sampleAuthority = true by decide)
    storage
  generalize emptyDatabase sampleAuthority storage = bytes at hok hstate ⊢
  have hempty : HoldsState sampleAuthority bytes (sampleState 255 255 1 0) [] := ⟨hstate,hok⟩
  exact hempty.append_accepted rfl (by decide) (by decide) (by decide) (by decide) rfl rfl

def sampleDatabase (storage : Mem) : Mem :=
  bytesAfter (emptyDatabase sampleAuthority storage)
    [.append identityDatabaseSize sampleAuthority groupRequest,
      .append identityDatabaseSize sampleAuthority userRequest]

theorem sampleDatabase_holds (storage : Mem) : HoldsState sampleAuthority (sampleDatabase storage)
    (sampleState 256 256 3 2) [groupRecord,userRecord] := by
  obtain ⟨bytes,hfirst,hholds⟩ := append_groupRequest storage
  have hgroup : hasGroup bytes 1 256 = true :=
    (hasGroup_iff hholds.2.decodes).mpr ⟨_,mem_singleton_self _,by decide⟩
  have hreq : validateRequest bytes (sampleState 256 255 2 1) userRequest = .ok () := by
    refine (failIf_bind_neg (by decide)).trans ((failIf_bind_neg ?_).trans
      (forM_ok_iff.mpr fun index hindex => ?_))
    · show ¬requestGroupsValid bytes 1 none [256] = false
      simp [requestGroupsValid,hgroup]
    · obtain rfl : index = 0 := by simpa [sampleState] using hindex
      rw [hholds.2.decodes 0 _ rfl,ok_bind]
      exact failIf_ok_iff.mpr (by decide)
  obtain ⟨bytes',hsecond,hholds'⟩ := hholds.append_accepted hreq (by decide) (by decide)
    (by decide) (by decide) (show _ = sampleState 256 256 3 2 from rfl)
    (show _ = userRecord from rfl)
  rw [sampleDatabase,bytesAfter_cons_append,hfirst,bytesAfter_cons_append,hsecond]
  exact hholds'

theorem remove_groupRecord {bytes : Mem}
    (h : HoldsState sampleAuthority bytes (sampleState 256 255 2 1) [groupRecord]) : ∃ bytes',
    ziIdentityDatabaseRemove bytes identityDatabaseSize sampleAuthority groupRecord.identity =
      (.ok (), bytes') ∧
    HoldsState sampleAuthority bytes' (sampleState 256 255 3 1) [groupRecord.bury 3] := by
  obtain ⟨hstate,hok⟩ := h
  have hdecode : decodeRecord (recordBytes bytes 0) = .ok groupRecord := hok.decodes 0 _ rfl
  have hvalid : ziIdentityDatabaseValidate bytes identityDatabaseSize sampleAuthority 1 =
      .ok (readState bytes) := validate_ok_iff.mpr ⟨⟨rfl,Nat.one_pos,hok.generation,rfl⟩,_,hok⟩
  have hprepare : prepareRemove bytes identityDatabaseSize sampleAuthority groupRecord.identity =
      .ok (sampleState 256 255 3 1, 0) := by
    rw [prepareRemove,failIf_bind_neg (by decide),hvalid,hstate,ok_bind,failIf_bind_neg (by decide)]
    show (removalTarget bytes sampleAuthority groupRecord.identity [0] none >>= _) = _
    rw [removalTarget,hdecode,ok_bind]
    rfl
  rcases remove_cases bytes identityDatabaseSize sampleAuthority groupRecord.identity with
    ⟨status,hres⟩ | ⟨before,record,after,bytes',hres,-,-,hfound,hholds,-⟩
  · rw [ziIdentityDatabaseRemove,hprepare] at hres
    cases hres
  obtain ⟨rfl,rfl,rfl⟩ : before = [] ∧ record = groupRecord ∧ after = [] := by
    simpa [append_eq_singleton_iff] using (hok.unique hfound).2
  rw [nextState,hstate] at hholds
  exact ⟨bytes',hres,hholds⟩

theorem append_groupRequest_again {bytes : Mem}
    (h : HoldsState sampleAuthority bytes (sampleState 256 255 3 1) [groupRecord.bury 3]) :
    ∃ bytes', ziIdentityDatabaseAppend bytes identityDatabaseSize sampleAuthority groupRequest =
      (.ok ⟨.replicate 16 1,⟨authorityGroup,257⟩⟩, bytes') := by
  have hreq : validateRequest bytes (sampleState 256 255 3 1) groupRequest = .ok () := by
    refine (failIf_bind_neg (by decide)).trans
      ((failIf_bind_neg (show ¬true = false by decide)).trans
      (forM_ok_iff.mpr fun index hindex => ?_))
    obtain rfl : index = 0 := by simpa [sampleState] using hindex
    rw [h.2.decodes 0 _ rfl,ok_bind]
    exact failIf_ok_iff.mpr fun hlive => hlive.1 rfl
  obtain ⟨bytes',hres,-⟩ := h.append_accepted hreq (by decide) (by decide) (by decide) (by decide)
    rfl rfl
  exact ⟨bytes',hres⟩

/-- The name of a group that was removed is free again, its identity is not. -/
theorem identityDatabase_invariant_sample :
    let initial := emptyDatabase sampleAuthority zero
    let history : List IdentityRequest :=
      [.append identityDatabaseSize sampleAuthority groupRequest,
        .remove identityDatabaseSize sampleAuthority groupRecord.identity]
    HistorySound sampleAuthority initial history
        (.append identityDatabaseSize sampleAuthority groupRequest) ∧
      (ziIdentityDatabaseAppend (bytesAfter initial history) identityDatabaseSize sampleAuthority
        groupRequest).1 = .ok ⟨.replicate 16 1,⟨authorityGroup,257⟩⟩ := by
  intro initial history
  refine ⟨identityDatabase_invariant sampleAuthority zero _ identityDatabaseSize
    (by rw [ziIdentityDatabaseInitialise,if_neg (by decide)]) _ _,?_⟩
  obtain ⟨bytes,hfirst,hholds⟩ := append_groupRequest zero
  obtain ⟨bytes',hsecond,hholds'⟩ := remove_groupRecord hholds
  obtain ⟨bytes'',hthird⟩ := append_groupRequest_again hholds'
  rw [bytesAfter_cons_append,hfirst,bytesAfter_cons_remove,hsecond,bytesAfter,hthird]

end Zizium
