import Zizium.Executive.AddressSpaceRuns

/-!
# Copies to user memory

When `zi_copy_to_user` succeeds, and what user code finds in memory after it.
-/

namespace Zizium

open BlockIO List

/-- The byte at an address of the user half, if there is a page. -/
def userByte (callbacks : ZiX64PagingCallbacks) (space : ZiAddressSpace) (st : PagingState)
    (address : ℕ) : Option ℕ :=
  match ziX64PagingQuery callbacks space.paging address st with
  | .error _ => none
  | .ok mapping => some (pageByte (st.tables (mapping.physicalBase-mapping.physicalBase%4096))
      ⟨mapping.physicalBase%4096,Nat.mod_lt _ (by decide)⟩)

/-- Each byte of a range of the user half is on a page that user code may write to. -/
structure UserWritable (callbacks : ZiX64PagingCallbacks) (backing : ZiAddressSpaceBacking)
    (space : ZiAddressSpace) (address size : ℕ) (st : PagingState) : Prop where
  active : addressSpaceIsActive backing space = true
  range : ziUserRangeIsValid address size = true
  pages : ∀ i < size, ∃ mapping,
    ziX64PagingQuery callbacks space.paging (address+i) st = .ok mapping ∧
      mapping.protection &&& x64PageUser ≠ 0 ∧ mapping.protection &&& x64PageWrite ≠ 0

theorem foldr_byte (values : List ℕ) (lane : ℕ) :
    values.foldr (fun value word => word*256+value%256) 0/256^lane%256 =
      values[lane]?.getD 0%256 := by
  induction values generalizing lane with
  | nil => simp
  | cons value values ih =>
    cases lane with
    | zero => simp only [foldr_cons,pow_zero,Nat.div_one,getElem?_cons_zero,Option.getD_some]; omega
    | succ lane =>
      rw [foldr_cons,pow_succ',← Nat.div_div_eq_div_mul,getElem?_cons_succ,← ih lane]
      congr 2
      omega

theorem pageByte_writePageBytes (words : Fin 512 → ℕ) (offset : ℕ) (bytes : List ℕ)
    (hbytes : ∀ byte ∈ bytes, byte < 256) (position : Fin 4096) :
    pageByte (writePageBytes words offset bytes) position =
      if offset ≤ position ∧ position < offset+bytes.length then bytes.getD (position-offset) 0
      else pageByte words position := by
  obtain ⟨position,hposition⟩ := position
  have hplace : position/8*8+position%8 = position := by omega
  have hold : pageByte words ⟨position,hposition⟩ < 256 := Nat.mod_lt _ (by decide)
  have hlane : position%8 < (finRange 8).length := by rw [length_finRange]; omega
  let byte (lane : Fin 8) : ℕ :=
    let place : Fin 4096 := ⟨position/8*8+lane,by omega⟩
    if offset ≤ place then (bytes[place.val-offset]?).getD (pageByte words place)
    else pageByte words place
  have hword : writePageBytes words offset bytes ⟨position/8,by omega⟩ =
      ((finRange 8).map byte).foldr (fun value word => word*256+value%256) 0 := by
    rw [foldr_map]
    rfl
  rw [pageByte,hword,foldr_byte,getElem?_map,getElem?_eq_getElem hlane]
  simp only [byte,Option.map_some,Option.getD_some,getElem_finRange,Fin.val_cast,hplace]
  by_cases hlow : offset ≤ position
  · by_cases hin : position-offset < bytes.length
    · have hlt := hbytes _ (getElem_mem hin)
      rw [if_pos hlow,if_pos ⟨hlow,by omega⟩,getD_eq_getElem?_getD,getElem?_eq_getElem hin,
        Option.getD_some,Option.getD_some,Nat.mod_eq_of_lt hlt]
    · rw [if_pos hlow,if_neg (by omega),getElem?_eq_none (by omega),Option.getD_none,
        Nat.mod_eq_of_lt hold]
  · rw [if_neg hlow,if_neg (by omega),Nat.mod_eq_of_lt hold]

theorem refused_iff {status : ZiStatus} {P Q : Prop} (h : ¬P) :
    ((.error status : Result Unit) = .ok () ↔ P) ∧
      ((.error status : Result Unit) = .ok () → Q) := by
  simp [h]

section

variable {cb : ZiX64PagingCallbacks} {backing : ZiAddressSpaceBacking} {kernel : ZiX64PagingContext}
  {others : Set ℕ} {outside : List ℕ} {space : ZiAddressSpace} {st : PagingState} {m : PageMap}
  {v w cursor : ℕ} {mapping mapping' : ZiX64PageMapping} {bytes : List ℕ}

namespace AddressSpaceOwns

variable (cb) (h : AddressSpaceOwns backing kernel others outside space st m)

include h

theorem query_ok_iff (hv : v < userAddressMaxExclusive) :
    ziX64PagingQuery cb space.paging v st = .ok mapping ↔
      ∃ page, m (v-v%4096) = some page ∧
        mapping = ⟨page.physicalBase+v%4096,page.protection⟩ := by
  rw [h.query_eq cb hv,PageMap.query,if_neg (by simp [ziX64AddressIsCanonical_iff.mpr (.inl hv)])]
  cases m (v-v%4096) with
  | none => simp
  | some page => simp [eq_comm]

theorem userByte_eq (hv : v < userAddressMaxExclusive) :
    userByte cb space st v = (m (v-v%4096)).map fun page =>
      pageByte (st.tables page.physicalBase) ⟨v%4096,Nat.mod_lt _ (by decide)⟩ := by
  rw [userByte,h.query_eq cb hv,PageMap.query,
    if_neg (by simp [ziX64AddressIsCanonical_iff.mpr (.inl hv)])]
  cases hpage : m (v-v%4096) with
  | none => rfl
  | some page =>
    have hmod := (h.mapped_backing hpage).2.1
    have hoffset : (page.physicalBase+v%4096)%4096 = v%4096 := by omega
    simp only [hoffset,Nat.add_sub_cancel,Option.map_some]

omit cb in
theorem eq_of_physicalBase_eq (hv : m v = some mapping) (hw : m w = some mapping')
    (heq : mapping.physicalBase = mapping'.physicalBase) : v = w := by
  obtain ⟨region,hregion,hcovers⟩ := h.regions.only v (by simp [hv])
  obtain ⟨other,hother,hcovers'⟩ := h.regions.only w (by simp [hw])
  obtain ⟨prot,hsome,-⟩ := h.regions.mapped region hregion v hcovers
  obtain ⟨prot',hsome',-⟩ := h.regions.mapped other hother w hcovers'
  cases hv.symm.trans hsome
  cases hw.symm.trans hsome'
  have hmem : region.backingOf v ∈ regionsBacking space.regions := mem_regionsBacking.mpr
    ⟨region,hregion,(h.regions.placed region hregion).mem_backing.mpr ⟨v,hcovers,rfl⟩⟩
  have hunique : (region, v) = (other, w) := (h.regions.backing_unique h.once hmem).unique
    ⟨hregion,hcovers,rfl⟩ ⟨hother,hcovers',heq.symm⟩
  exact congrArg Prod.snd hunique

theorem userByte_write (bytes : List ℕ) (hmapped : m (cursor-cursor%4096) = some mapping)
    (hroom : bytes.length ≤ 4096-cursor%4096) (hbytes : ∀ byte ∈ bytes, byte < 256)
    (hv : v < userAddressMaxExclusive) :
    userByte cb space { st with
      tables := Function.update st.tables mapping.physicalBase
        (writePageBytes (st.tables mapping.physicalBase) (cursor%4096) bytes) } v =
      if cursor ≤ v ∧ v < cursor+bytes.length then bytes[v-cursor]?
      else userByte cb space st v := by
  have howns := h.scribbles (scribbles_write (h.mapped_backing hmapped).1
    (writePageBytes (st.tables mapping.physicalBase) (cursor%4096) bytes))
  rw [howns.userByte_eq cb hv,h.userByte_eq cb hv]
  by_cases hpage : v-v%4096 = cursor-cursor%4096
  · rw [hpage,hmapped]
    simp only [Option.map_some,Function.update_self,pageByte_writePageBytes _ _ _ hbytes]
    by_cases hin : cursor ≤ v ∧ v < cursor+bytes.length
    · have hget : v%4096-cursor%4096 = v-cursor := by omega
      rw [if_pos hin,if_pos (by omega),hget,getD_eq_getElem?_getD,getElem?_eq_getElem (by omega),
        Option.getD_some]
    · rw [if_neg hin,if_neg (by omega)]
  · rw [if_neg (by omega)]
    cases hother : m (v-v%4096) with
    | none => rfl
    | some page =>
      have hne : page.physicalBase ≠ mapping.physicalBase :=
        fun heq => hpage (h.eq_of_physicalBase_eq hother hmapped heq)
      simp only [Option.map_some,Function.update_of_ne hne]

theorem copyToUserLoop_spec (rounds cursor : ℕ) (bytes : List ℕ) (hrounds : bytes.length ≤ rounds)
    (hlow : userAddressMin ≤ cursor) (hhigh : cursor+bytes.length ≤ userAddressMaxExclusive)
    (hbytes : ∀ byte ∈ bytes, byte < 256) :
    let done := copyToUserLoop cb backing space rounds cursor bytes st
    (done.1 = .ok () ↔ ∀ i < bytes.length, ∃ mapping,
      m (cursor+i-(cursor+i)%4096) = some mapping ∧ mapping.protection &&& x64PageWrite ≠ 0) ∧
    (done.1 = .ok () → ∀ v < userAddressMaxExclusive, userByte cb space done.2 v =
      if cursor ≤ v ∧ v < cursor+bytes.length then bytes[v-cursor]?
      else userByte cb space st v) := by
  induction rounds generalizing cursor bytes st with
  | zero =>
    obtain rfl : bytes = [] := by simpa using hrounds
    refine ⟨by simp [copyToUserLoop],fun _ v _ => ?_⟩
    rw [copyToUserLoop,if_neg (by rw [length_nil]; omega)]
  | succ rounds ih =>
    rw [copyToUserLoop]
    by_cases hempty : bytes = []
    · subst hempty
      refine ⟨by simp,fun _ v _ => ?_⟩
      rw [if_pos rfl,if_neg (by rw [length_nil]; omega)]
    have hpos := length_pos_iff.mpr hempty
    have hvalid : ziUserRangeIsValid cursor 1 = true :=
      ziUserRangeIsValid_iff.mpr ⟨by decide,hlow,by omega⟩
    rw [if_neg hempty]
    cases htarget : copyTarget cb backing space cursor userAccessWrite st with
    | error status =>
      refine refused_iff fun hall => ?_
      obtain ⟨mapping,hmapped,hwrite⟩ := hall 0 hpos
      have hok := (h.copyTarget_ok_iff cb).mpr ⟨hvalid,mapping,hmapped,hwrite,rfl⟩
      rw [htarget] at hok
      cases hok
    | ok target =>
      obtain ⟨-,mapping,hmapped,hwrite,rfl⟩ := (h.copyTarget_ok_iff cb).mp htarget
      dsimp only
      generalize hroom : x64PageSize-cursor%4096 = room
      replace hroom : 4096-cursor%4096 = room := hroom
      have hscribbles := scribbles_write (h.mapped_backing hmapped).1
        (writePageBytes (st.tables mapping.physicalBase) (cursor%4096) (bytes.take room))
      have hstep (v) (hv : v < userAddressMaxExclusive) := h.userByte_write cb (bytes.take room)
        hmapped (by rw [length_take]; omega)
        (fun byte hmem => hbytes byte (mem_of_mem_take hmem)) hv
      generalize ({ st with
        tables := Function.update st.tables mapping.physicalBase (writePageBytes
          (st.tables mapping.physicalBase) (cursor%4096) (bytes.take room)) } : PagingState) = st'
        at hscribbles hstep ⊢
      obtain ⟨hiff,hafter⟩ := ih (h.scribbles hscribbles) (cursor+room) (bytes.drop room)
        (by rw [length_drop]; omega) (by omega)
        (by simp only [length_drop,userAddressMaxExclusive] at *; omega)
        fun byte hmem => hbytes byte (mem_of_mem_drop hmem)
      rw [length_drop] at hiff hafter
      refine ⟨hiff.trans ⟨fun hall i hi => ?_,fun hall i hi => ?_⟩,fun hok v hv => ?_⟩
      · by_cases hin : i < room
        · have hpage : cursor+i-(cursor+i)%4096 = cursor-cursor%4096 := by omega
          exact ⟨mapping,by rw [hpage,hmapped],hwrite⟩
        · have hrest := hall (i-room) (by omega)
          rwa [show cursor+room+(i-room) = cursor+i by omega] at hrest
      · have hrest := hall (room+i) (by omega)
        rwa [← Nat.add_assoc] at hrest
      · rw [hafter hok v hv,hstep v hv,length_take,getElem?_drop]
        by_cases hlate : cursor+room ≤ v
        · by_cases hin : v < cursor+bytes.length
          · rw [if_pos (by omega),if_pos (by omega)]
            congr 1
            omega
          · rw [if_neg (by omega),if_neg (by omega),if_neg (by omega)]
        · rw [if_neg (by omega)]
          by_cases hin : cursor ≤ v ∧ v < cursor+bytes.length
          · rw [if_pos (by omega),if_pos hin,getElem?_take_of_lt (by omega)]
          · rw [if_neg (by omega),if_neg hin]

theorem ziCopyToUser_spec (hbytes : ∀ byte ∈ bytes, byte < 256) :
    let done := ziCopyToUser cb backing space cursor bytes st
    (done.1 = .ok () ↔ UserWritable cb backing space cursor bytes.length st) ∧
    (done.1 = .ok () → ∀ v < userAddressMaxExclusive, userByte cb space done.2 v =
      if cursor ≤ v ∧ v < cursor+bytes.length then bytes[v-cursor]?
      else userByte cb space st v) := by
  rw [ziCopyToUser]
  by_cases hrange : ziUserRangeIsValid cursor bytes.length = true
  swap
  · rw [if_pos (.inr (Bool.eq_false_iff.mpr hrange))]
    exact refused_iff fun hwritable => hrange hwritable.range
  obtain ⟨-,hlow,hhigh⟩ := ziUserRangeIsValid_iff.mp hrange
  rw [if_neg (by simp [h.active,hrange])]
  obtain ⟨hiff,hafter⟩ := h.copyToUserLoop_spec cb _ _ _ le_rfl hlow hhigh hbytes
  refine ⟨hiff.trans ⟨fun hall => ⟨h.active,hrange,fun i hi => ?_⟩,fun hall i hi => ?_⟩,hafter⟩
  · obtain ⟨page,hpage,hwrite⟩ := hall i hi
    exact ⟨_,(h.query_ok_iff cb (by omega)).mpr ⟨page,hpage,rfl⟩,(h.mapped_backing hpage).2.2,
      hwrite⟩
  · obtain ⟨mapping,hquery,-,hwrite⟩ := hall.pages i hi
    obtain ⟨page,hpage,rfl⟩ := (h.query_ok_iff cb (by omega)).mp hquery
    exact ⟨page,hpage,hwrite⟩

end AddressSpaceOwns

end

end Zizium
