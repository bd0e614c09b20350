import Zizium.Fs.Directory
import Mathlib.Data.List.Nodup

/-!
# A directory block as a finite map

A block that validates and whose names are distinct is a map from names to entries.
-/

namespace Zizium

open Bytes BlockIO List Except Mem Buffer Function

variable {data bytes : Mem} {off i size : ℕ} {es : List (ZiFsDirectoryEntry × ℕ)}

/-- The entries that the headers place one behind the other. -/
def entriesFrom (data : Mem) : (count offset : ℕ) → List ZiFsDirectoryEntry
  | 0, _ => []
  | count+1, offset =>
    entryAt data offset :: entriesFrom data count (offset+ziReadU16Le data offset)

def blockEntries (block : Block) : List ZiFsDirectoryEntry :=
  entriesFrom block.mem (ziReadU32Le block.mem 16) directoryHeaderSize

def directoryMap (block : Block) (name : List UInt8) : Option ZiFsDirectoryEntry :=
  (blockEntries block).find? (·.name = name)

def DistinctNames (block : Block) : Prop := ((blockEntries block).map (·.name)).Nodup

/-- Nothing but zeros behind the last entry. -/
def ZeroTail (block : Block) : Prop :=
  ∀ i, ziReadU32Le block.mem 20 ≤ i → block.mem i = 0

theorem EntriesAt.entriesFrom_eq {final : ℕ} (h : EntriesAt data off es final) :
    entriesFrom data es.length off = es.map Prod.fst := by
  induction es generalizing off with
  | nil => rfl
  | cons x es ih => rw [length_cons,entriesFrom,h.1.entry_eq,h.1.size_eq,ih h.2,map_cons]

/-- A block that validates, with the entries of a map. -/
structure HoldsMap (block : Block) (fileId generation : ℕ) : Prop where
  holds : ∃ es, HoldsEntries block fileId generation es
  distinct : DistinctNames block

variable {block block' : Block} {f g : ℕ} {name : List UInt8} {e : ZiFsDirectoryEntry}

theorem HoldsEntries.blockEntries_eq (h : HoldsEntries block f g es) :
    blockEntries block = es.map Prod.fst := by
  rw [blockEntries,h.count]
  exact h.entries.entriesFrom_eq

theorem filter_eq_find?_toList {entries : List ZiFsDirectoryEntry}
    (h : (entries.map (·.name)).Nodup) :
    entries.filter (·.name = name) = (entries.find? (·.name = name)).toList := by
  induction entries with
  | nil => rfl
  | cons entry entries ih =>
    rw [map_cons,nodup_cons] at h
    by_cases hname : entry.name = name
    · have hnone : entries.filter (·.name = name) = [] := by
        rw [filter_eq_nil_iff]
        intro other hother heq
        refine h.1 (mem_map.mpr ⟨other,hother,?_⟩)
        exact (of_decide_eq_true heq).trans hname.symm
      simp [hname,hnone]
    · simpa [hname] using ih h.2

theorem HoldsEntries.named_eq (h : HoldsEntries block f g es) (hdistinct : DistinctNames block)
    (name : List UInt8) : named name es = (directoryMap block name).toList := by
  rw [DistinctNames,h.blockEntries_eq] at hdistinct
  rw [named,directoryMap,h.blockEntries_eq]
  exact filter_eq_find?_toList hdistinct

theorem canAdd_eq_true_iff : ziFsCanAddDirectoryEntry block e = .ok true ↔
      ∃ block', ziFsAddDirectoryEntry block e = .ok block' := by
  simp only [ziFsCanAddDirectoryEntry,ziFsAddDirectoryEntry,bind_ok_iff,
    failIf_ok_iff,exists_const,pure_ok_iff]
  constructor
  · rintro ⟨hargument,_,hvalid,_,hname,_,habsent,hroom⟩
    have hroom' := of_decide_eq_true hroom.symm
    exact ⟨_,hargument,_,hvalid,_,hname,_,habsent,by omega,rfl⟩
  · rintro ⟨block',hargument,_,hvalid,_,hname,_,habsent,hroom,-⟩
    exact ⟨hargument,_,hvalid,_,hname,_,habsent,(decide_eq_true (by omega)).symm⟩

theorem removeEntryLoop_eq_none {used : ℕ} (hname : IsName name) (hes : EntriesAt data off es used)
    (hnone : named name es = []) : removeEntryLoop data name es.length off none = .ok none := by
  induction es generalizing off with
  | nil => rfl
  | cons x es ih =>
    obtain ⟨entry,size⟩ := x
    obtain ⟨hentry,hrest⟩ := hes
    have hne : entry.name ≠ name := by
      intro heq
      rw [named_cons_self heq] at hnone
      exact absurd hnone (cons_ne_nil _ _)
    rw [named_cons_of_ne hne] at hnone
    rw [length_cons,removeEntryLoop,hentry.entry_eq,hentry.size_eq,
      ziPathCompareComponent_of_isName hentry.name hname,failIf_bind_neg (by simp),
      if_neg fun heq => hne (compareBytes_eq_zero_iff.mp heq)]
    exact ih hrest hnone

theorem HoldsEntries.exists_split (h : HoldsEntries block f g es) (hdistinct : DistinctNames block)
    (hsome : directoryMap block name = some e) :
    e.name = name ∧ ∃ xs ys size, es = xs ++ (e, size) :: ys ∧ named name xs = [] ∧
      named name ys = [] := by
  have hnamed := h.named_eq hdistinct name
  rw [hsome,Option.toList_some] at hnamed
  have hmem : e ∈ named name es := by
    rw [hnamed]
    exact mem_singleton_self e
  obtain ⟨hin,heq⟩ := mem_filter.mp hmem
  obtain ⟨⟨entry,size⟩,hx,hfst⟩ := mem_map.mp hin
  obtain rfl : entry = e := hfst
  obtain ⟨xs,ys,rfl⟩ := append_of_mem hx
  have hname : entry.name = name := of_decide_eq_true heq
  refine ⟨hname,xs,ys,size,rfl,?_⟩
  have hlen := congrArg length hnamed
  rw [named,map_append,filter_append,map_cons,
    filter_cons_of_pos (by simpa using hname),length_append,length_cons,
    length_singleton] at hlen
  rw [named,named,← length_eq_zero_iff,← length_eq_zero_iff]
  omega

namespace HoldsMap

variable (h : HoldsMap block f g)

include h

theorem validate : validateDirectoryBlock block = .ok () := by
  obtain ⟨es,hes⟩ := h.holds
  exact hes.validate

theorem validate_fileId (hf : f ≠ 0) : ziFsValidateDirectoryBlock block f = .ok () := by
  obtain ⟨es,hes⟩ := h.holds
  rw [ziFsValidateDirectoryBlock,failIf_bind_neg hf,bind_ok_iff]
  refine ⟨(),hes.validate,failIf_ok_iff.mpr ?_⟩
  rw [hes.fileId]
  exact not_not.mpr rfl

theorem find_eq (hname : IsName name) :
    ziFsFindDirectoryEntry block name = (directoryMap block name).elim (.error .notFound) .ok := by
  obtain ⟨es,hes⟩ := h.holds
  rw [ziFsFindDirectoryEntry_eq hes hname,hes.named_eq h.distinct]
  cases directoryMap block name <;> rfl

/-! ## Adding -/

theorem add_ok_iff : ziFsAddDirectoryEntry block e = .ok block' ↔
      IsName e.name ∧ e.fileId ≠ 0 ∧ 1 ≤ e.fileType ∧ e.fileType ≤ 4 ∧
        directoryMap block e.name = none ∧ entrySizeOf e ≤ 4096-ziReadU32Le block.mem 20 ∧
        block' = .ofMem 4096 (updateDirectoryChecksum (addedBytes block e)) := by
  obtain ⟨es,hes⟩ := h.holds
  rw [ziFsAddDirectoryEntry_ok_iff hes,hes.named_eq h.distinct]
  simp

theorem add (hfits : e.Fits) (hadd : ziFsAddDirectoryEntry block e = .ok block') :
    HoldsMap block' f g ∧
      directoryMap block' = update (directoryMap block) e.name (some e) := by
  obtain ⟨hname,hid,htype,htype',hnone,hroom,rfl⟩ := h.add_ok_iff.mp hadd
  obtain ⟨es,hes⟩ := h.holds
  have hadded := hes.add hfits ⟨htype,htype'⟩ hid hname hroom
  have hentries := hadded.blockEntries_eq
  rw [map_append,← hes.blockEntries_eq] at hentries
  have habsent : ∀ other ∈ blockEntries block, other.name ≠ e.name := by
    intro other hother heq
    exact find?_eq_none.mp hnone other hother (decide_eq_true heq)
  refine ⟨⟨⟨_,hadded⟩,?_⟩,?_⟩
  · rw [DistinctNames,hentries,map_append]
    refine List.Nodup.append h.distinct (nodup_singleton _) fun x hx hx' => ?_
    obtain ⟨other,hother,rfl⟩ := mem_map.mp hx
    exact habsent other hother (mem_singleton.mp hx')
  · funext name
    rw [directoryMap,hentries,find?_append]
    by_cases hsame : name = e.name
    · subst hsame
      rw [update_self,show (blockEntries block).find? (·.name = e.name) = none from hnone]
      simp
    · rw [update_of_ne hsame]
      have hother : ¬ e.name = name := fun heq => hsame heq.symm
      simp [directoryMap,hother]

/-! ## Removing -/

theorem remove_of_none (hname : IsName name) (hnone : directoryMap block name = none) :
    ziFsRemoveDirectoryEntry block name = .error .notFound := by
  obtain ⟨es,hes⟩ := h.holds
  have hnamed : named name es = [] := by
    rw [hes.named_eq h.distinct,hnone]
    rfl
  have hloop : removeEntryLoop block.mem name (ziReadU32Le block.mem 16) directoryHeaderSize none =
      .ok none := by
    rw [hes.count]
    exact removeEntryLoop_eq_none hname hes.entries hnamed
  rw [ziFsRemoveDirectoryEntry,hes.validate,hname]
  dsimp only [bind,bind]
  rw [hloop]
  rfl

theorem remove (hname : IsName name) (hsome : directoryMap block name = some e) :
    ∃ block', ziFsRemoveDirectoryEntry block name = .ok (block', e) ∧ HoldsMap block' f g ∧
      directoryMap block' = update (directoryMap block) name none := by
  obtain ⟨es,hes⟩ := h.holds
  obtain ⟨hentry,xs,ys,size,rfl,hxs,hys⟩ := hes.exists_split h.distinct hsome
  obtain ⟨off,hbefore,-⟩ := hes.entries.split
  have hremoved := hes.remove hbefore
  have hentries := hremoved.blockEntries_eq
  have hold := hes.blockEntries_eq
  rw [map_append,map_cons] at hold
  rw [map_append] at hentries
  refine ⟨_,(ziFsRemoveDirectoryEntry_ok_iff hes).mpr ⟨hname,xs,ys,off,size,rfl,hbefore,
    hentry,hxs,hys,rfl⟩,⟨⟨_,hremoved⟩,?_⟩,?_⟩
  · have hdistinct := h.distinct
    rw [DistinctNames,hold] at hdistinct
    rw [DistinctNames,hentries]
    refine hdistinct.sublist (List.Sublist.map _ ?_)
    exact (sublist_cons_self e (ys.map Prod.fst)).append_left (xs.map Prod.fst)
  · funext other
    rw [directoryMap,hentries]
    by_cases hsame : other = name
    · subst hsame
      rw [update_self,find?_eq_none]
      intro found hfound heq
      have hnamed : found ∈ named other xs ++ named other ys := by
        rw [named,named,← filter_append]
        exact mem_filter.mpr ⟨hfound,heq⟩
      rw [hxs,hys] at hnamed
      exact absurd hnamed not_mem_nil
    · rw [update_of_ne hsame,directoryMap,hold,find?_append,find?_append,find?_cons_of_neg]
      rw [decide_eq_true_eq,hentry]
      exact fun heq => hsame heq.symm

end HoldsMap

/-! ## The bytes behind the entries -/

theorem ZeroTail.updateChecksum (hused : 64 ≤ ziReadU32Le bytes 20 ∧ ziReadU32Le bytes 20 ≤ 4096)
    (hzero : ∀ i, ziReadU32Le bytes 20 ≤ i → i < 4096 → bytes i = 0) :
    ZeroTail (.ofMem 4096 (updateDirectoryChecksum bytes)) := by
  have hread : ziReadU32Le (ofMem 4096 (updateDirectoryChecksum bytes)).mem 20 =
      ziReadU32Le bytes 20 := by
    rw [ziReadU32Le,readLe_ofMem (by omega)]
    exact readLe_congr fun i hi => updateDirectoryChecksum_apply (.inl (by omega))
  intro i hi
  by_cases hin : i < 4096
  · rw [mem_ofMem_of_lt hin,updateDirectoryChecksum_apply (.inr (by omega))]
    exact hzero i hi hin
  · exact dif_neg hin

theorem ZeroTail.initialise (hinit : ziFsInitialiseDirectoryBlock f g = .ok block) :
    ZeroTail block := by
  rw [ziFsInitialiseDirectoryBlock,failIf_bind_ok_iff] at hinit
  obtain ⟨-,hinit⟩ := hinit
  rw [pure_ok_iff.mp hinit]
  have hmagic : directoryMagic.length = 4 := rfl
  have hused := read_initialisedUsed f g
  refine ZeroTail.updateChecksum ?_ fun i hi _ => ?_
  · omega
  · simp (disch := (first | omega | (rw [length_leBytes]; omega))) only [ziWriteU64Le,
      ziWriteU32Le,ziWriteU16Le,put_of_ge]
    rfl

theorem addedBytes_used (h : HoldsEntries block f g es)
    (hroom : entrySizeOf e ≤ 4096-ziReadU32Le block.mem 20) :
    ziReadU32Le (addedBytes block e) 20 = ziReadU32Le block.mem 20+entrySizeOf e := by
  have hused := h.used
  unfold addedBytes
  simp (disch := omega) only [readLe_put_self_of_lt]

theorem addedBytes_apply (hi : i < 16 ∨ 24 ≤ i) :
    addedBytes block e i = writeEntry block.mem (ziReadU32Le block.mem 20) (entrySizeOf e) e i := by
  unfold addedBytes ziWriteU32Le
  rw [put_of_outside (by rw [length_leBytes]; omega),
    put_of_outside (by rw [length_leBytes]; omega)]

theorem ZeroTail.add (hzero : ZeroTail block) (h : HoldsMap block f g)
    (hadd : ziFsAddDirectoryEntry block e = .ok block') : ZeroTail block' := by
  obtain ⟨-,-,-,-,-,hroom,rfl⟩ := h.add_ok_iff.mp hadd
  obtain ⟨es,hes⟩ := h.holds
  have hused := hes.used
  have hsize : 24+e.name.length ≤ entrySizeOf e := (alignUpEight_spec _).1
  have hnew := addedBytes_used hes hroom
  refine ZeroTail.updateChecksum ?_ fun i hi _ => ?_
  · omega
  · rw [hnew] at hi
    rw [addedBytes_apply (.inr (by omega)),writeEntry_apply hsize (.inr hi)]
    exact hzero i (by omega)

theorem removedBytes_used (off size : ℕ) (hused : ziReadU32Le block.mem 20 ≤ 4096) :
    ziReadU32Le (removedBytes block off size) 20 = ziReadU32Le block.mem 20-size := by
  unfold removedBytes
  simp (disch := omega) only [readLe_put_self_of_lt]

theorem removedBytes_count (off size : ℕ) (block : Block) :
    ziReadU32Le (removedBytes block off size) 16 = ziReadU32Le block.mem 16-1 := by
  have hcount : ziReadU32Le block.mem 16 < 256^4 := readLe_lt _ _ _
  unfold removedBytes
  simp (disch := omega) only [readLe_put_leBytes,readLe_put_self_of_lt]

theorem removedBytes_tail (hlow : 24 ≤ off) (hsize : off+size ≤ ziReadU32Le block.mem 20)
    (hzero : ZeroTail block) (hi : ziReadU32Le block.mem 20-size ≤ i) :
    removedBytes block off size i = 0 := by
  unfold removedBytes
  have hslice : (block.mem.slice (off+size) (ziReadU32Le block.mem 20-off-size)).length =
      ziReadU32Le block.mem 20-off-size := length_slice
  have hlen : (replicate size (0 : UInt8)).length = size := length_replicate
  rw [ziWriteU32Le,put_of_ge (by rw [length_leBytes]; omega),ziWriteU32Le,
    put_of_ge (by rw [length_leBytes]; omega)]
  by_cases hin : i < ziReadU32Le block.mem 20
  · rw [put_of_mem hi (by omega),getD_eq_getElem?_getD,getElem?_replicate, if_pos (by omega)]
    rfl
  · rw [put_of_ge (by omega),put_of_ge (by omega)]
    exact hzero i (by omega)

theorem ZeroTail.remove (hzero : ZeroTail block) (h : HoldsMap block f g)
    (hremove : ziFsRemoveDirectoryEntry block name = .ok (block', e)) : ZeroTail block' := by
  obtain ⟨es,hes⟩ := h.holds
  obtain ⟨-,xs,ys,off,size,rfl,hxs,-,-,-,rfl⟩ :=
    (ziFsRemoveDirectoryEntry_ok_iff hes).mp hremove
  obtain ⟨mid,hbefore,-,hafter⟩ := hes.entries.split
  obtain rfl := hbefore.final_unique hxs
  have hlow := hxs.le
  have hhigh := hafter.le
  have hused := hes.used
  have hnew := removedBytes_used mid size hused.2
  refine ZeroTail.updateChecksum ?_ fun i hi _ => ?_
  · omega
  · rw [hnew] at hi
    exact removedBytes_tail (by omega) hhigh hzero hi

theorem updateDirectoryChecksum_eq_of_holds (h : HoldsEntries block f g es)
    (hbytes : ∀ i, i < 60 ∨ 64 ≤ i → i < 4096 → bytes i = block.mem i) :
    ofMem 4096 (updateDirectoryChecksum bytes) = block := by
  have hsum : checksum (ziWriteU32Le bytes 60 0) 4096 =
      checksum (ziWriteU32Le block.mem 60 0) 4096 := by
    refine checksum_congr fun i hi => ?_
    by_cases hfield : 60 ≤ i ∧ i < 64
    · rw [ziWriteU32Le,ziWriteU32Le,put_of_mem hfield.1 (by rw [length_leBytes]; omega),
        put_of_mem hfield.1 (by rw [length_leBytes]; omega)]
    · have hout : i < 60 ∨ 64 ≤ i := by omega
      rw [ziWriteU32Le,ziWriteU32Le,put_of_outside (by rw [length_leBytes]; omega),
        put_of_outside (by rw [length_leBytes]; omega)]
      exact hbytes i hout hi
  have hread : (ofMem 4096 (updateDirectoryChecksum bytes)).mem.readLe 4 60 =
      block.mem.readLe 4 60 := by
    rw [readLe_ofMem (by omega),updateDirectoryChecksum,
      readLe_put_self_of_lt (checksum_lt _ _),hsum,← directoryChecksum_eq]
    exact h.checksum.symm
  refine ext_mem fun i hi => ?_
  by_cases hfield : 60 ≤ i ∧ i < 64
  · have hbyte := eq_of_readLe_eq hread (show i-60 < 4 by omega)
    rwa [show 60+(i-60) = i by omega] at hbyte
  · have hout : i < 60 ∨ 64 ≤ i := by omega
    rw [mem_ofMem_of_lt hi,updateDirectoryChecksum_apply hout]
    exact hbytes i hout hi

theorem removedBytes_of_lt (hlow : 24 ≤ off) (hsize : off+size ≤ ziReadU32Le block.mem 20)
    (hi : i < 16 ∨ 24 ≤ i) (hlt : i < off) : removedBytes block off size i = block.mem i := by
  unfold removedBytes
  rw [ziWriteU32Le,put_of_outside (by rw [length_leBytes]; omega),ziWriteU32Le,
    put_of_outside (by rw [length_leBytes]; omega),put_of_lt (by omega),
    put_of_lt hlt]

theorem HoldsMap.remove_add (h : HoldsMap block f g) (hzero : ZeroTail block) (hfits : e.Fits)
    (hadd : ziFsAddDirectoryEntry block e = .ok block') :
    ziFsRemoveDirectoryEntry block' e.name = .ok (block, e) := by
  have hzero' := hzero.add h hadd
  obtain ⟨hname,hid,htype,htype',hnone,hroom,rfl⟩ := h.add_ok_iff.mp hadd
  obtain ⟨es,hes⟩ := h.holds
  have hadded := hes.add hfits ⟨htype,htype'⟩ hid hname hroom
  have hused := hes.used
  have hsize : 24+e.name.length ≤ entrySizeOf e := (alignUpEight_spec _).1
  have hnew := addedBytes_used hes hroom
  generalize hafter : ofMem 4096 (updateDirectoryChecksum (addedBytes block e)) = after
    at hadded hzero'
  -- The block after the addition has the old bytes outside the counts, the entry and the checksum.
  have hbyte : ∀ i, i < 16 ∨ 24 ≤ i → i < 60 ∨ 64 ≤ i → i < ziReadU32Le block.mem 20 →
      after.mem i = block.mem i := by
    intro i hcounts hsum hi
    rw [← hafter,mem_ofMem_of_lt (by omega),updateDirectoryChecksum_apply hsum,
      addedBytes_apply hcounts,writeEntry_apply hsize (.inl hi)]
  have hcount : ziReadU32Le after.mem 16 = ziReadU32Le block.mem 16+1 := by
    rw [hadded.count,hes.count,length_append,length_singleton]
  have hend : ziReadU32Le after.mem 20 = ziReadU32Le block.mem 20+entrySizeOf e := by
    rw [← hafter,← hnew,ziReadU32Le,readLe_ofMem (by omega)]
    exact readLe_congr fun i hi => updateDirectoryChecksum_apply (.inl (by omega))
  obtain ⟨mid,hbefore,-,hlast⟩ := hadded.entries.split
  have hmid : mid = ziReadU32Le block.mem 20 := by
    have hfinal : ziReadU32Le after.mem 20 = mid+entrySizeOf e := hlast
    omega
  subst hmid
  refine (ziFsRemoveDirectoryEntry_ok_iff hadded).mpr ⟨hname,es,[],_,entrySizeOf e,rfl,
    hbefore,rfl,?_,rfl,(updateDirectoryChecksum_eq_of_holds hes fun i hsum hi => ?_).symm⟩
  · rw [hes.named_eq h.distinct,hnone]
    rfl
  · by_cases htail : ziReadU32Le block.mem 20 ≤ i
    · rw [removedBytes_tail (by omega) (by omega) hzero' (by omega)]
      exact (hzero i htail).symm
    · by_cases hcounts : i < 16 ∨ 24 ≤ i
      · rw [removedBytes_of_lt (by omega) (by omega) hcounts (by omega)]
        exact hbyte i hcounts hsum (by omega)
      · -- The counts are those before the addition.
        by_cases hfirst : i < 20
        · have hread := removedBytes_count (ziReadU32Le block.mem 20) (entrySizeOf e) after
          rw [hcount,Nat.add_sub_cancel] at hread
          have hfield := eq_of_readLe_eq hread (show i-16 < 4 by omega)
          rwa [show 16+(i-16) = i by omega] at hfield
        · have hread := removedBytes_used (ziReadU32Le block.mem 20) (entrySizeOf e) hadded.used.2
          rw [hend,Nat.add_sub_cancel] at hread
          have hfield := eq_of_readLe_eq hread (show i-20 < 4 by omega)
          rwa [show 20+(i-20) = i by omega] at hfield

/-! ## Calls on a block -/

/-- A call that changes a block.  The fields of an entry have their widths. -/
inductive DirectoryCall where
  | add (entry : ZiFsDirectoryEntry) (fits : entry.Fits)
  | remove (name : List UInt8)

namespace DirectoryCall

def perform (block : Block) : DirectoryCall → Result Block
  | add entry _ => ziFsAddDirectoryEntry block entry
  | remove name => do
    let (block, _) ← ziFsRemoveDirectoryEntry block name
    pure block

def effect (map : List UInt8 → Option ZiFsDirectoryEntry) :
    DirectoryCall → List UInt8 → Option ZiFsDirectoryEntry
  | add entry _ => update map entry.name (some entry)
  | remove name => update map name none

end DirectoryCall

def performAll (block : Block) : List DirectoryCall → Result Block
  | [] => pure block
  | call :: calls => do
    let block ← call.perform block
    performAll block calls

theorem HoldsMap.perform (h : HoldsMap block f g) {call : DirectoryCall}
    (hcall : call.perform block = .ok block') :
    HoldsMap block' f g ∧ directoryMap block' = call.effect (directoryMap block) := by
  cases call with
  | add entry fits => exact h.add fits hcall
  | remove name =>
    obtain ⟨⟨after,removed⟩,hremove,hafter⟩ := bind_ok_iff.mp hcall
    obtain rfl : block' = after := pure_ok_iff.mp hafter
    obtain ⟨es,hes⟩ := h.holds
    have hname := ((ziFsRemoveDirectoryEntry_ok_iff hes).mp hremove).1
    cases hfound : directoryMap block name with
    | none =>
      rw [h.remove_of_none hname hfound] at hremove
      cases hremove
    | some entry =>
      obtain ⟨block'',hremove',hholds,hmap⟩ := h.remove hname hfound
      rw [hremove] at hremove'
      cases hremove'
      exact ⟨hholds,hmap⟩

theorem ZeroTail.perform (hzero : ZeroTail block) (h : HoldsMap block f g) {call : DirectoryCall}
    (hcall : call.perform block = .ok block') : ZeroTail block' := by
  cases call with
  | add entry fits => exact hzero.add h hcall
  | remove name =>
    obtain ⟨⟨after,removed⟩,hremove,hafter⟩ := bind_ok_iff.mp hcall
    obtain rfl : block' = after := pure_ok_iff.mp hafter
    exact hzero.remove h hremove

theorem HoldsMap.performAll (h : HoldsMap block f g) (hzero : ZeroTail block)
    {calls : List DirectoryCall} (hcalls : performAll block calls = .ok block') :
    HoldsMap block' f g ∧ ZeroTail block' ∧
      directoryMap block' = calls.foldl DirectoryCall.effect (directoryMap block) := by
  induction calls generalizing block with
  | nil =>
    obtain rfl := pure_ok_iff.mp hcalls
    exact ⟨h,hzero,rfl⟩
  | cons call calls ih =>
    obtain ⟨next,hcall,hcalls⟩ := bind_ok_iff.mp hcalls
    obtain ⟨hnext,hmap⟩ := h.perform hcall
    rw [foldl_cons,← hmap]
    exact ih hnext (hzero.perform h hcall) hcalls

theorem HoldsMap.initialise (hf : f < 256^8) (hg : g < 256^8)
    (hinit : ziFsInitialiseDirectoryBlock f g = .ok block) :
    HoldsMap block f g ∧ directoryMap block = fun _ => none := by
  have hne : f ≠ 0 := by
    rw [ziFsInitialiseDirectoryBlock,failIf_bind_ok_iff] at hinit
    exact hinit.1
  obtain ⟨block',hinit',hholds⟩ := ziFsInitialiseDirectoryBlock_holds hne hf hg
  rw [hinit] at hinit'
  cases hinit'
  have hentries : blockEntries block = [] := hholds.blockEntries_eq
  refine ⟨⟨⟨[],hholds⟩,?_⟩,?_⟩
  · rw [DistinctNames,hentries]
    exact nodup_nil
  · funext name
    rw [directoryMap,hentries]
    rfl

theorem HoldsMap.find_of_not_name (h : HoldsMap block f g) {status : ZiStatus}
    (hname : validateDirectoryName name = .error status) :
    ziFsFindDirectoryEntry block name = .error status := by
  rw [ziFsFindDirectoryEntry,h.validate,hname]
  rfl

/-- The laws of a finite map, for the calls made on a block. -/
structure MapLaws (block : Block) : Prop where
  find : ∀ name, IsName name → ziFsFindDirectoryEntry block name =
    (directoryMap block name).elim (.error .notFound) .ok
  refuses : ∀ name status, validateDirectoryName name = .error status →
    ziFsFindDirectoryEntry block name = .error status
  canAdd : ∀ e, ziFsCanAddDirectoryEntry block e = .ok true ↔
    ∃ block', ziFsAddDirectoryEntry block e = .ok block'
  addable : ∀ e, (∃ block', ziFsAddDirectoryEntry block e = .ok block') ↔
    IsName e.name ∧ e.fileId ≠ 0 ∧ 1 ≤ e.fileType ∧ e.fileType ≤ 4 ∧
      directoryMap block e.name = none ∧ entrySizeOf e ≤ 4096-ziReadU32Le block.mem 20
  add : ∀ e block', e.Fits → ziFsAddDirectoryEntry block e = .ok block' →
    validateDirectoryBlock block' = .ok () ∧ DistinctNames block' ∧
      directoryMap block' = update (directoryMap block) e.name (some e)
  remove_none : ∀ name, IsName name → directoryMap block name = none →
    ziFsRemoveDirectoryEntry block name = .error .notFound
  remove_some : ∀ name e, IsName name → directoryMap block name = some e →
    ∃ block', ziFsRemoveDirectoryEntry block name = .ok (block', e) ∧
      validateDirectoryBlock block' = .ok () ∧ DistinctNames block' ∧
      directoryMap block' = update (directoryMap block) name none

theorem HoldsMap.laws (h : HoldsMap block f g) : MapLaws block where
  find := fun _ hname => h.find_eq hname
  refuses := fun _ _ hname => h.find_of_not_name hname
  canAdd := fun _ => canAdd_eq_true_iff
  addable := by
    intro e
    constructor
    · rintro ⟨block',hadd⟩
      obtain ⟨hname,hid,htype,htype',hnone,hroom,-⟩ := h.add_ok_iff.mp hadd
      exact ⟨hname,hid,htype,htype',hnone,hroom⟩
    · rintro ⟨hname,hid,htype,htype',hnone,hroom⟩
      exact ⟨_,h.add_ok_iff.mpr ⟨hname,hid,htype,htype',hnone,hroom,rfl⟩⟩
  add := by
    intro e block' hfits hadd
    obtain ⟨hholds,hmap⟩ := h.add hfits hadd
    exact ⟨hholds.validate,hholds.distinct,hmap⟩
  remove_none := fun _ hname hnone => h.remove_of_none hname hnone
  remove_some := by
    intro name e hname hsome
    obtain ⟨block',hremove,hholds,hmap⟩ := h.remove hname hsome
    exact ⟨block',hremove,hholds.validate,hholds.distinct,hmap⟩

theorem directoryBlock_is_map (hf : f < 256^8) (hg : g < 256^8) :
    (∀ first calls block, ziFsInitialiseDirectoryBlock f g = .ok first →
      performAll first calls = .ok block →
      ziFsValidateDirectoryBlock block f = .ok () ∧ MapLaws block ∧
        directoryMap block = calls.foldl DirectoryCall.effect (fun _ => none) ∧ ZeroTail block ∧
        ∀ e block', e.Fits → ziFsAddDirectoryEntry block e = .ok block' →
          ziFsRemoveDirectoryEntry block' e.name = .ok (block, e)) ∧
    ∀ block, validateDirectoryBlock block = .ok () → DistinctNames block → MapLaws block := by
  refine ⟨fun first calls block hinit hcalls => ?_,fun block hvalid hdistinct => ?_⟩
  · obtain ⟨hfirst,hempty⟩ := HoldsMap.initialise hf hg hinit
    obtain ⟨h,hzero,hmap⟩ := hfirst.performAll (ZeroTail.initialise hinit) hcalls
    rw [hempty] at hmap
    refine ⟨?_,h.laws,hmap,hzero,fun e block' hfits hadd => h.remove_add hzero hfits hadd⟩
    have hne : f ≠ 0 := by
      rw [ziFsInitialiseDirectoryBlock,failIf_bind_ok_iff] at hinit
      exact hinit.1
    exact h.validate_fileId hne
  · obtain ⟨f,g,es,hes⟩ := validateDirectoryBlock_ok_iff.mp hvalid
    exact HoldsMap.laws ⟨⟨es,hes⟩,hdistinct⟩

/-- An entry added to a new block is found. -/
theorem directoryBlock_is_map_sample :
    5 < 256^8 ∧ 1 < 256^8 ∧ ∃ first block, ziFsInitialiseDirectoryBlock 5 1 = .ok first ∧
      performAll first [.add ⟨7,0,1,0,[97]⟩ ⟨by decide,by decide,by decide,by decide⟩] =
        .ok block ∧ ziFsFindDirectoryEntry block [97] = .ok ⟨7,0,1,0,[97]⟩ := by
  have hf : 5 < 256^8 := by decide
  have hg : 1 < 256^8 := by decide
  have hname : IsName [97] := by rfl
  obtain ⟨first,hinit,hholds⟩ := ziFsInitialiseDirectoryBlock_holds (by decide) hf hg
  have hused : ziReadU32Le first.mem 20 = 64 := hholds.entries
  have hmap := directoryBlock_is_map hf hg
  have hfirst := (hmap.1 first [] first hinit rfl).2
  have hnone : directoryMap first [97] = none := by
    rw [hfirst.2.1]
    rfl
  obtain ⟨block,hadd⟩ := (hfirst.1.addable ⟨7,0,1,0,[97]⟩).mpr
    ⟨hname,by decide,by decide,by decide,hnone,by rw [hused]; decide⟩
  have hcalls : performAll first [.add ⟨7,0,1,0,[97]⟩
      ⟨by decide,by decide,by decide,by decide⟩] = .ok block :=
    bind_ok_iff.mpr ⟨block,hadd,rfl⟩
  have hlast := (hmap.1 first _ block hinit hcalls).2
  refine ⟨hf,hg,first,block,hinit,hcalls,?_⟩
  rw [hlast.1.find _ hname,hlast.2.1]
  rfl

end Zizium
