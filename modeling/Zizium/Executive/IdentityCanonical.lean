import Zizium.Executive.IdentityInvariant

/-!
# The identity database is canonical

Validation fixes every byte of an identity database.
-/

namespace Bytes.Mem

/-- Two memories agree on a range. -/
def AgreeOn (m m' : Mem) (first last : ℕ) : Prop := ∀ i, first ≤ i → i < last → m i = m' i

variable {m m' : Mem} {first middle last n : ℕ}

theorem AgreeOn.append (h : AgreeOn m m' first middle) (h' : AgreeOn m m' middle last) :
    AgreeOn m m' first last := by
  intro i hfirst hlast
  by_cases hi : i < middle
  · exact h i hfirst hi
  · exact h' i (by omega) hlast

theorem agreeOn_of_shift (h : ∀ k < n, m (first+k) = m' (first+k)) :
    AgreeOn m m' first (first+n) := by
  intro i hfirst hlast
  obtain ⟨k,rfl⟩ := Nat.exists_eq_add_of_le hfirst
  exact h k (by omega)

theorem agreeOn_of_readLe (h : m.readLe n first = m'.readLe n first) :
    AgreeOn m m' first (first+n) := agreeOn_of_shift fun _ => eq_of_readLe_eq h

theorem agreeOn_of_slice (h : m.slice first n = m'.slice first n) :
    AgreeOn m m' first (first+n) := agreeOn_of_shift (slice_eq_iff.mp h)

end Bytes.Mem

namespace Zizium

open Bytes BlockIO Mem List Except

variable {bytes bytes' : Mem}

theorem agreeOn_of_readUuid {off : ℕ} (h : readUuid bytes off = readUuid bytes' off) :
    Mem.AgreeOn bytes bytes' off (off+16) :=
  agreeOn_of_slice ((readUuid_eq_iff.mp h).trans (readUuid_eq_iff.mp rfl).symm)

theorem agreeOn_of_ziIdentityDecode {identity : ZiNativeIdentity}
    (h : ziIdentityDecode bytes = .ok identity) (h' : ziIdentityDecode bytes' = .ok identity) :
    Mem.AgreeOn bytes bytes' 0 32 := by
  simp only [ziIdentityDecode,failIf_bind_ok_iff,pure_ok_iff,not_or,ne_eq,not_not] at h h'
  obtain ⟨⟨hmagic,hversion,hsize⟩,-,rfl⟩ := h
  obtain ⟨⟨hmagic',hversion',hsize'⟩,-,heq⟩ := h'
  simp only [ZiNativeIdentity.mk.injEq,ZiSecurityId.mk.injEq] at heq
  exact ((((agreeOn_of_slice (hmagic.trans hmagic'.symm)).append
    (agreeOn_of_readLe (hversion.trans hversion'.symm))).append
    (agreeOn_of_readLe (hsize.trans hsize'.symm))).append
    (agreeOn_of_readUuid heq.1)).append
    ((agreeOn_of_readLe heq.2.1).append (agreeOn_of_readLe heq.2.2))

section Records

variable {record : ZiIdentityDatabaseRecord}

theorem RecordAt.agreeOn_groups (h : RecordAt bytes record) (h' : RecordAt bytes' record) :
    Mem.AgreeOn bytes bytes' 192 (192+record.groups.length*4) := by
  refine agreeOn_of_shift fun k hk => ?_
  have hgroups := h.groups.trans h'.groups.symm
  have hvalue := map_inj_left.mp hgroups (k/4) (mem_range.mpr (by omega))
  exact agreeOn_of_readLe hvalue _ (by omega) (by omega)

theorem RecordAt.agreeOn (h : RecordAt bytes record) (h' : RecordAt bytes' record) :
    Mem.AgreeOn bytes bytes' 0 512 := by
  have hidentity : Mem.AgreeOn bytes bytes' 16 48 := agreeOn_of_shift (n := 32) fun k hk =>
    agreeOn_of_ziIdentityDecode h.identity h'.identity k (Nat.zero_le _) hk
  have hhead : Mem.AgreeOn bytes bytes' 0 16 :=
    ((((agreeOn_of_slice (h.magic.trans h'.magic.symm)).append
      (agreeOn_of_readLe (h.version.trans h'.version.symm))).append
      (agreeOn_of_readLe (h.size.trans h'.size.symm))).append
      (agreeOn_of_readLe (h.state.trans h'.state.symm))).append
      (agreeOn_of_readLe (h.reserved12.trans h'.reserved12.symm))
  have hcounts : Mem.AgreeOn bytes bytes' 48 64 :=
    (((agreeOn_of_readLe (h.nameSize.trans h'.nameSize.symm)).append
      (agreeOn_of_readLe (h.groupCount.trans h'.groupCount.symm))).append
      (agreeOn_of_readLe (h.reserved52.trans h'.reserved52.symm))).append
      (agreeOn_of_readLe (h.generation.trans h'.generation.symm))
  have hnames : Mem.AgreeOn bytes bytes' 64 192 :=
    (agreeOn_of_slice (h.name.trans h'.name.symm)).append
      fun i hi hlt => (h.name_end i hi hlt).trans (h'.name_end i hi hlt).symm
  have hgroups : Mem.AgreeOn bytes bytes' 192 508 :=
    (h.agreeOn_groups h').append
      fun i hi hlt => (h.groups_end i hi hlt).trans (h'.groups_end i hi hlt).symm
  have hbody : Mem.AgreeOn bytes bytes' 0 508 :=
    (((hhead.append hidentity).append hcounts).append hnames).append hgroups
  refine hbody.append (agreeOn_of_readLe (h.checksum.trans ?_))
  rw [checksum_congr fun i hi => hbody i (Nat.zero_le i) hi]
  exact h'.checksum.symm

end Records

section Database

variable {auth : ZiIdentityDatabaseAuthority} {recs : List ZiIdentityDatabaseRecord}

section

variable (h : DatabaseOk auth bytes recs)

include h

theorem DatabaseOk.agreeOn_header (h' : DatabaseOk auth bytes' recs)
    (hstate : readState bytes = readState bytes') : Mem.AgreeOn bytes bytes' 0 4092 := by
  obtain ⟨hmagic,hversion,hhdr,hsize,hrec,hcap,hrsv,hrest⟩ := h.header
  obtain ⟨hmagic',hversion',hheader',hsize',hrecord',hcapacity',hreserved',hrest'⟩ :=
    h'.header
  simp only [readState,ZiIdentityDatabaseState.mk.injEq,ZiIdentityIssuerState.mk.injEq] at hstate
  obtain ⟨⟨-,-,hissuer,hgroup,huser,hserv⟩,hgen,hcount⟩ := hstate
  have hfront : Mem.AgreeOn bytes bytes' 0 16 :=
    (((((agreeOn_of_slice (hmagic.trans hmagic'.symm)).append
      (agreeOn_of_readLe (hversion.trans hversion'.symm))).append
      (agreeOn_of_readLe (hhdr.trans hheader'.symm))).append
      (agreeOn_of_readLe (hsize.trans hsize'.symm))).append
      (agreeOn_of_readLe (hrec.trans hrecord'.symm))).append
      (agreeOn_of_readLe (hcap.trans hcapacity'.symm))
  have hcounts : Mem.AgreeOn bytes bytes' 16 32 :=
    ((agreeOn_of_readLe hcount).append (agreeOn_of_readLe (hrsv.trans hreserved'.symm))).append
      (agreeOn_of_readLe hgen)
  have huuids : Mem.AgreeOn bytes bytes' 32 80 :=
    ((agreeOn_of_readUuid hissuer).append
      (agreeOn_of_readUuid (h.volume.trans h'.volume.symm))).append
      (agreeOn_of_readUuid (h.database.trans h'.database.symm))
  have hmarks : Mem.AgreeOn bytes bytes' 80 92 :=
    ((agreeOn_of_readLe hgroup).append (agreeOn_of_readLe huser)).append
      (agreeOn_of_readLe hserv)
  have hzero : Mem.AgreeOn bytes bytes' 92 4092 := agreeOn_of_shift (n := 4000) fun k hk => by
    rw [hrest k hk,hrest' k hk]
  exact (((hfront.append hcounts).append huuids).append hmarks).append hzero

theorem DatabaseOk.agreeOn_records (h' : DatabaseOk auth bytes' recs) :
    Mem.AgreeOn bytes bytes' 4096 36864 := by
  intro i hfirst hlast
  by_cases hused : i < 4096+recs.length*512
  · obtain ⟨k,rfl⟩ := Nat.exists_eq_add_of_le hfirst
    have hi : k/512 < recs.length := by omega
    have hat := decodeRecord_ok_iff.mp (h.decodes (k/512) _ (getElem?_eq_getElem hi))
    have hat' := decodeRecord_ok_iff.mp (h'.decodes (k/512) _ (getElem?_eq_getElem hi))
    have hbyte := hat.agreeOn hat' (k%512) (Nat.zero_le _) (Nat.mod_lt _ (by omega))
    have hoff : recordOffset (k/512)+k%512 = 4096+k := by
      simp only [recordOffset,identityDatabaseHeaderSize,identityDatabaseRecordSize]
      omega
    simpa only [recordBytes,shift_apply,hoff] using hbyte
  · rw [h.unused i (by rw [← h.length]; omega) hlast,
      h'.unused i (by rw [← h'.length]; omega) hlast]

theorem DatabaseOk.record_eq {i : ℕ} (hi : i < recs.length) :
    ziIdentityDatabaseRecord bytes identityDatabaseSize auth i = .ok recs[i] := by
  have hvalid : ziIdentityDatabaseValidate bytes identityDatabaseSize auth 1 =
      .ok (readState bytes) := validate_ok_iff.mpr ⟨⟨rfl,by omega,h.generation,rfl⟩,recs,h⟩
  rw [ziIdentityDatabaseRecord,hvalid,ok_bind,failIf_bind_neg (by rw [← h.length]; omega)]
  exact h.decodes i _ (getElem?_eq_getElem hi)

theorem DatabaseOk.agreeOn (h' : DatabaseOk auth bytes' recs)
    (hstate : readState bytes = readState bytes') : Mem.AgreeOn bytes bytes' 0 36864 := by
  have hhdr := h.agreeOn_header h' hstate
  have hrecs := h.agreeOn_records h'
  have hsum : databaseChecksum bytes = databaseChecksum bytes' := by
    have hfront : bytes.slice 0 4092 = bytes'.slice 0 4092 :=
      slice_congr fun i hi => hhdr _ (by omega) (by omega)
    have hback : bytes.slice 4096 (identityDatabaseSize-4096) =
        bytes'.slice 4096 (identityDatabaseSize-4096) :=
      slice_congr fun i hi => hrecs _ (by omega) (Nat.add_lt_of_lt_sub' hi)
    rw [databaseChecksum,databaseChecksum,hfront,hback]
  have hchecksum : ziReadU32Le bytes 4092 = ziReadU32Le bytes' 4092 := by
    rw [h.checksum,h'.checksum,hsum]
  exact (hhdr.append (agreeOn_of_readLe hchecksum)).append hrecs

end

end Database

theorem identity_database_canonical (auth : ZiIdentityDatabaseAuthority) (bytes bytes' : Mem)
    (minimum minimum' : ℕ) (state state' : ZiIdentityDatabaseState)
    (hvalid : ziIdentityDatabaseValidate bytes identityDatabaseSize auth minimum = .ok state)
    (hvalid' : ziIdentityDatabaseValidate bytes' identityDatabaseSize auth minimum' = .ok state')
    (hgeneration : state.generation = state'.generation)
    (hgroup : state.issuer.groupHighWater = state'.issuer.groupHighWater)
    (huser : state.issuer.userHighWater = state'.issuer.userHighWater)
    (hservice : state.issuer.serviceHighWater = state'.issuer.serviceHighWater)
    (hcount : state.recordCount = state'.recordCount) (hrecords : ∀ index < state.recordCount,
      ziIdentityDatabaseRecord bytes identityDatabaseSize auth index =
        ziIdentityDatabaseRecord bytes' identityDatabaseSize auth index) :
    ∀ i < identityDatabaseSize, bytes i = bytes' i := by
  obtain ⟨⟨-,-,-,rfl⟩,recs,hok⟩ := validate_ok_iff.mp hvalid
  obtain ⟨⟨-,-,-,rfl⟩,records',hok'⟩ := validate_ok_iff.mp hvalid'
  have hstate : readState bytes = readState bytes' := by
    have hissuer : readUuid bytes 32 = readUuid bytes' 32 := hok.issuer.trans hok'.issuer.symm
    simp only [readState] at *
    simp only [hgeneration,hgroup,huser,hservice,hcount,hissuer]
  have hlength : recs.length = records'.length := by rw [hok.length,hok'.length,hcount]
  have hsame : recs = records' := by
    apply ext_getElem hlength
    intro index hindex hindex'
    have hlt : index < (readState bytes).recordCount := hok.length ▸ hindex
    have hrecord := hrecords index hlt
    rw [hok.record_eq hindex,hok'.record_eq hindex'] at hrecord
    exact ok.inj hrecord
  subst hsame
  exact fun i hi => hok.agreeOn hok' hstate i (Nat.zero_le i) hi

/-- What the buffer held before it was initialised leaves no trace behind a group and a user. -/
theorem identity_database_canonical_sample : (readState (sampleDatabase zero)).recordCount = 2 ∧
    ∀ i < identityDatabaseSize, sampleDatabase zero i = sampleDatabase (fun _ => 1) i := by
  obtain ⟨hstate,hok⟩ := sampleDatabase_holds zero
  obtain ⟨hstate',hok'⟩ := sampleDatabase_holds fun _ => 1
  have hsame := hstate.trans hstate'.symm
  refine ⟨by rw [hstate]; rfl,?_⟩
  refine identity_database_canonical sampleAuthority _ _ 1 1 _ _
    (validate_ok_iff.mpr ⟨⟨rfl,Nat.one_pos,hok.generation,rfl⟩,_,hok⟩)
    (validate_ok_iff.mpr ⟨⟨rfl,Nat.one_pos,hok'.generation,rfl⟩,_,hok'⟩)
    (by rw [hsame]) (by rw [hsame]) (by rw [hsame]) (by rw [hsame]) (by rw [hsame]) ?_
  intro index hindex
  have hlt : index < [groupRecord,userRecord].length := hok.length ▸ hindex
  rw [hok.record_eq hlt,hok'.record_eq hlt]

end Zizium
