import Zizium.Executive.IdentityDatabase

/-!
# Records of the identity database

The list of records that a database buffer stands for, and what validation demands of it.
-/

namespace Zizium

open Bytes BlockIO List Except

variable {left right : ZiNativeIdentity} {state state' : ZiIdentityDatabaseState} {gen : ℕ}

/-! ## Identities -/

theorem ziIdentityEqual_iff (hleft : ziIdentityValidate left = true)
    (hright : ziIdentityValidate right = true) :
    ziIdentityEqual left right = true ↔ left = right := by
  obtain ⟨issuer,localId⟩ := left
  obtain ⟨issuer',localId'⟩ := right
  simp [ziIdentityEqual,hleft,hright,and_comm]

theorem eq_of_ziIdentityEqual (h : ziIdentityEqual left right = true) : left = right := by
  simp only [ziIdentityEqual,Bool.and_eq_true] at h
  exact (ziIdentityEqual_iff h.1.1 h.1.2).mp (by simpa [ziIdentityEqual] using h)

section Issuer

variable {issuer : ZiIdentityIssuerState} {auth value : ℕ}

@[simp] theorem setHighWater_highWater :
    (issuer.setHighWater auth value).highWater auth = value := by
  rw [ZiIdentityIssuerState.setHighWater,ZiIdentityIssuerState.highWater]
  split_ifs <;> rfl

@[simp] theorem setHighWater_issuer : (issuer.setHighWater auth value).issuer = issuer.issuer := by
  rw [ZiIdentityIssuerState.setHighWater]
  split_ifs <;> rfl

theorem le_setHighWater (h : issuer.highWater auth ≤ value) :
    issuer.groupHighWater ≤ (issuer.setHighWater auth value).groupHighWater ∧
      issuer.userHighWater ≤ (issuer.setHighWater auth value).userHighWater ∧
      issuer.serviceHighWater ≤ (issuer.setHighWater auth value).serviceHighWater := by
  rw [ZiIdentityIssuerState.highWater] at h
  rw [ZiIdentityIssuerState.setHighWater]
  split_ifs at h ⊢ <;> simp [h]

end Issuer

/-- One issuer state follows another: no mark is lower. -/
structure ZiIdentityIssuerState.Follows (later earlier : ZiIdentityIssuerState) : Prop where
  issuer : later.issuer = earlier.issuer
  group : earlier.groupHighWater ≤ later.groupHighWater
  user : earlier.userHighWater ≤ later.userHighWater
  service : earlier.serviceHighWater ≤ later.serviceHighWater

theorem ZiIdentityIssuerState.Follows.highWater {later earlier : ZiIdentityIssuerState}
    (h : later.Follows earlier) (auth : ℕ) : earlier.highWater auth ≤ later.highWater auth := by
  rw [ZiIdentityIssuerState.highWater,ZiIdentityIssuerState.highWater]
  split_ifs
  · exact h.group
  · exact h.service
  · exact h.user

/-! ## Bindings -/

/-- What binds a record to the issuer state of its database. -/
structure ZiIdentityDatabaseRecord.Bound (record : ZiIdentityDatabaseRecord)
    (state : ZiIdentityDatabaseState) : Prop where
  issuer_ok : issuerIsValid state.issuer.issuer = true
  identity_ok : ziIdentityValidate record.identity = true
  dynamic : authorityIsDynamic record.identity.localId.authority = true
  value_ge : identityFirstDynamicValue ≤ record.identity.localId.value
  issuer : record.identity.issuer = state.issuer.issuer
  value_le : record.identity.localId.value ≤
    state.issuer.highWater record.identity.localId.authority
  generation_pos : 0 < record.generation
  generation_le : record.generation ≤ state.generation

variable {record : ZiIdentityDatabaseRecord}

theorem validateRecordBinding_ok_iff :
    validateRecordBinding record state = .ok () ↔ record.Bound state := by
  rw [validateRecordBinding,bind_ok_iff]
  simp only [ziIdentityResolveLocal,failIf_bind_ok_iff,failIf_ok_iff,
    pure_ok_iff,not_or,not_not,Bool.not_eq_false,ne_eq,not_lt]
  constructor
  · rintro ⟨_,⟨⟨h1,h2⟩,⟨h3,h4,h5⟩,rfl⟩,h6,h7,h8⟩
    exact ⟨h1,h2,h3,h4,h5,h6,h7,h8⟩
  · rintro ⟨h1,h2,h3,h4,h5,h6,h7,h8⟩
    exact ⟨_,⟨⟨h1,h2⟩,⟨h3,h4,h5⟩,rfl⟩,h6,h7,h8⟩

theorem ZiIdentityDatabaseRecord.Bound.mono (h : record.Bound state)
    (hissuer : state'.issuer.Follows state.issuer) (hgen : state.generation ≤ state'.generation) :
    record.Bound state' where
  issuer_ok := by
    rw [hissuer.issuer]
    exact h.issuer_ok
  identity_ok := h.identity_ok
  dynamic := h.dynamic
  value_ge := h.value_ge
  issuer := h.issuer.trans hissuer.issuer.symm
  value_le := h.value_le.trans (hissuer.highWater _)
  generation_pos := h.generation_pos
  generation_le := h.generation_le.trans hgen

/-! ## Lists of records -/

/-- The buffer begins with the given records. -/
def Decodes (bytes : Mem) (records : List ZiIdentityDatabaseRecord) : Prop :=
  ∀ index record, records[index]? = some record →
    decodeRecord (recordBytes bytes index) = .ok record

/-- What `validate_records` accepts. -/
structure RecordsOk (state : ZiIdentityDatabaseState) (records : List ZiIdentityDatabaseRecord) :
    Prop where
  bound : ∀ record ∈ records, record.Bound state
  separate : records.Pairwise fun previous record => recordsClash record previous = false
  grouped : ∀ record ∈ records, ∀ group ∈ record.groups,
    ∃ other ∈ records, other.isGroup group = true

section Lists

variable {bytes : Mem} {recs before after : List ZiIdentityDatabaseRecord}

theorem hasGroup_iff (hd : Decodes bytes recs) {group : ℕ} :
    hasGroup bytes recs.length group = true ↔ ∃ record ∈ recs, record.isGroup group = true := by
  rw [hasGroup,any_eq_true]
  constructor
  · rintro ⟨i,hi,hgroup⟩
    have hlt := mem_range.mp hi
    rw [hd i _ (getElem?_eq_getElem hlt)] at hgroup
    exact ⟨_,getElem_mem hlt,hgroup⟩
  · rintro ⟨record,hmem,hgroup⟩
    obtain ⟨i,hlt,rfl⟩ := getElem_of_mem hmem
    refine ⟨i,mem_range.mpr hlt,?_⟩
    rwa [hd i _ (getElem?_eq_getElem hlt)]

theorem exists_decodes {count : ℕ}
    (h : ∀ i < count, ∃ record, decodeRecord (recordBytes bytes i) = .ok record) :
    ∃ recs : List ZiIdentityDatabaseRecord, recs.length = count ∧ Decodes bytes recs := by
  induction count with
  | zero => exact ⟨[],rfl,nofun⟩
  | succ count ih =>
    obtain ⟨recs,hlen,hd⟩ := ih fun i hi => h i (by omega)
    obtain ⟨record,hrec⟩ := h count (by omega)
    refine ⟨recs ++ [record],by simp [hlen],?_⟩
    intro i other hother
    by_cases hlt : i < recs.length
    · rw [getElem?_append_left hlt] at hother
      exact hd i other hother
    · have hi : i = count := by
        have := (List.getElem?_eq_some_iff.mp hother).1
        rw [List.length_append,List.length_singleton] at this
        omega
      subst hi
      rw [← hlen,getElem?_concat_length] at hother
      cases hother
      exact hrec

theorem validateRecord_ok_iff (hd : Decodes bytes recs) (hlen : recs.length = state.recordCount)
    {i : ℕ} (hi : recs[i]? = some record) :
    validateRecord bytes state i = .ok () ↔ record.Bound state ∧
        (∀ other previous, other < i → recs[other]? = some previous →
          recordsClash record previous = false) ∧
        ∀ group ∈ record.groups, ∃ other ∈ recs, other.isGroup group = true := by
  have hlt := (List.getElem?_eq_some_iff.mp hi).1
  rw [validateRecord,hd i record hi,ok_bind,unit_bind_ok_iff,
    validateRecordBinding_ok_iff,unit_bind_ok_iff,forM_ok_iff,
    failIf_ok_iff]
  refine and_congr_right fun _ => and_congr ?_ ?_
  · constructor
    · intro hloop other previous hother hprev
      have hturn := hloop other (mem_range.mpr hother)
      rw [hd other previous hprev,ok_bind,failIf_ok_iff] at hturn
      exact Bool.eq_false_iff.mpr hturn
    · intro hall other hother
      have hother := mem_range.mp hother
      have hprev : recs[other]? = some _ := getElem?_eq_getElem (hother.trans hlt)
      rw [hd other _ hprev,ok_bind,failIf_ok_iff,hall other _ hother hprev]
      exact Bool.false_ne_true
  · simp only [not_exists,not_and,Bool.not_eq_false,← hlen]
    exact forall₂_congr fun group _ => hasGroup_iff hd

theorem validateRecords_ok_iff : validateRecords bytes state = .ok () ↔
      ∃ recs, recs.length = state.recordCount ∧ Decodes bytes recs ∧ RecordsOk state recs := by
  rw [validateRecords,forM_ok_iff]
  constructor
  · intro hloop
    obtain ⟨recs,hlen,hd⟩ : ∃ recs : List ZiIdentityDatabaseRecord,
        recs.length = state.recordCount ∧ Decodes bytes recs := by
      apply exists_decodes
      intro i hi
      have hturn := hloop i (mem_range.mpr hi)
      rw [validateRecord,bind_ok_iff] at hturn
      obtain ⟨record,hrec,-⟩ := hturn
      exact ⟨record,hrec⟩
    have hturn : ∀ i record, recs[i]? = some record → _ := fun i record hrec =>
      (validateRecord_ok_iff hd hlen hrec).mp (hloop i (mem_range.mpr (by
        rw [← hlen]
        exact (List.getElem?_eq_some_iff.mp hrec).1)))
    refine ⟨recs,hlen,hd,?_,?_,?_⟩
    · intro record hmem
      obtain ⟨i,hi⟩ := getElem?_of_mem hmem
      exact (hturn i record hi).1
    · rw [pairwise_iff_getElem]
      intro other i hother hi hlt
      exact (hturn i _ (getElem?_eq_getElem hi)).2.1 other _ hlt
        (getElem?_eq_getElem hother)
    · intro record hmem
      obtain ⟨i,hi⟩ := getElem?_of_mem hmem
      exact (hturn i record hi).2.2
  · rintro ⟨recs,hlen,hd,hok⟩ i hi
    have hlt : i < recs.length := by
      rw [hlen]
      exact mem_range.mp hi
    have hmem := getElem_mem hlt
    refine (validateRecord_ok_iff hd hlen (getElem?_eq_getElem hlt)).mpr
      ⟨hok.bound _ hmem,?_,hok.grouped _ hmem⟩
    intro other previous hother hprev
    obtain ⟨hlt',rfl⟩ := List.getElem?_eq_some_iff.mp hprev
    exact List.pairwise_iff_getElem.mp hok.separate other i hlt' hlt hother

/-! ## Changes to the list -/

theorem RecordsOk.append (hok : RecordsOk state recs) (hissuer : state'.issuer.Follows state.issuer)
    (hgen : state.generation ≤ state'.generation) (hbound : record.Bound state')
    (hnew : state.issuer.highWater record.identity.localId.authority <
      record.identity.localId.value)
    (hname : ∀ previous ∈ recs, ¬(previous.state ≠ identityRecordTombstone ∧
      previous.identity.localId.authority = record.identity.localId.authority ∧
      previous.name = record.name))
    (hgroups : ∀ group ∈ record.groups, ∃ other ∈ recs, other.isGroup group = true) :
    RecordsOk state' (recs ++ [record]) where
  bound := by
    intro other hother
    rw [mem_append,mem_singleton] at hother
    rcases hother with hother | rfl
    · exact (hok.bound other hother).mono hissuer hgen
    · exact hbound
  separate := by
    refine pairwise_append.mpr ⟨hok.separate,pairwise_singleton _ _,?_⟩
    intro previous hprev other hother
    rw [mem_singleton] at hother
    subst hother
    rw [recordsClash,Bool.or_eq_false_iff]
    constructor
    · rw [Bool.eq_false_iff]
      intro hequal
      have hle := (hok.bound previous hprev).value_le
      rw [← eq_of_ziIdentityEqual hequal] at hle
      omega
    · rw [decide_eq_false_iff_not]
      rintro ⟨-,hlive,hauth,hsame⟩
      exact hname previous hprev ⟨hlive,hauth.symm,hsame.symm⟩
  grouped := by
    have hold : ∀ group, (∃ other ∈ recs, other.isGroup group = true) →
        ∃ other ∈ recs ++ [record], other.isGroup group = true := by
      rintro group ⟨other,hother,hgroup⟩
      exact ⟨other,mem_append_left _ hother,hgroup⟩
    intro other hother group hgroup
    rw [mem_append,mem_singleton] at hother
    rcases hother with hother | rfl
    · exact hold group (hok.grouped other hother group hgroup)
    · exact hold group (hgroups group hgroup)

def ZiIdentityDatabaseRecord.bury (record : ZiIdentityDatabaseRecord) (generation : ℕ) :
    ZiIdentityDatabaseRecord :=
  { record with state := identityRecordTombstone, generation, groups := [] }

theorem recordsClash_bury {other : ZiIdentityDatabaseRecord} :
    (recordsClash record other = false → recordsClash (record.bury gen) other = false) ∧
      (recordsClash other record = false → recordsClash other (record.bury gen) = false) := by
  simp only [recordsClash,Bool.or_eq_false_iff,decide_eq_false_iff_not]
  refine ⟨fun h => ⟨h.1,?_⟩,fun h => ⟨h.1,?_⟩⟩
  · rintro ⟨hlive,-⟩
    exact hlive rfl
  · rintro ⟨-,hlive,-⟩
    exact hlive rfl

theorem RecordsOk.bury (hok : RecordsOk state (before ++ record :: after))
    (hissuer : state'.issuer.Follows state.issuer) (hpos : 0 < gen)
    (hstate : state'.generation = gen) (hgen : state.generation ≤ gen)
    (hfree : ∀ other ∈ before ++ record :: after, ∀ group ∈ other.groups, record.isGroup group =
      false) :
    RecordsOk state' (before ++ record.bury gen :: after) := by
  have hmem : ∀ other, other ∈ before ++ record.bury gen :: after →
      other = record.bury gen ∨ other ∈ before ++ record :: after := by
    intro other hother
    rw [mem_append,mem_cons] at hother
    rcases hother with hother | rfl | hother
    · exact .inr (by simp [hother])
    · exact .inl rfl
    · exact .inr (by simp [hother])
  rw [← hstate] at hgen
  refine ⟨?_,?_,?_⟩
  · intro other hother
    rcases hmem other hother with rfl | hother
    · obtain ⟨h1,h2,h3,h4,h5,h6,-,-⟩ :=
        (hok.bound record (by simp)).mono hissuer hgen
      exact ⟨h1,h2,h3,h4,h5,h6,hpos,hstate.ge⟩
    · exact (hok.bound other hother).mono hissuer hgen
  · have hsep := hok.separate
    rw [pairwise_append,pairwise_cons] at hsep ⊢
    obtain ⟨hbefore,⟨hnext,hafter⟩,hcross⟩ := hsep
    refine ⟨hbefore,⟨fun other hother => recordsClash_bury.2 (hnext other hother),hafter⟩,?_⟩
    intro previous hprev other hother
    rw [mem_cons] at hother
    rcases hother with rfl | hother
    · exact recordsClash_bury.1 (hcross previous hprev record mem_cons_self)
    · exact hcross previous hprev other (mem_cons_of_mem _ hother)
  · intro other hother group hgroup
    rcases hmem other hother with rfl | hother
    · cases hgroup
    · obtain ⟨found,hfound,hisGroup⟩ := hok.grouped other hother group hgroup
      rw [mem_append,mem_cons] at hfound
      rcases hfound with hfound | rfl | hfound
      · exact ⟨found,by simp [hfound],hisGroup⟩
      · rw [hfree other hother group hgroup] at hisGroup
        cases hisGroup
      · exact ⟨found,by simp [hfound],hisGroup⟩

end Lists

end Zizium
