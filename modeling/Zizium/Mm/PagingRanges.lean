import Zizium.Mm.PagingMap

/-!
# Calls on ranges of pages

A range is mapped, unmapped or protected as a whole or not at all.
-/

namespace Zizium

open BlockIO PageMap Function Except

variable {m : PageMap} {prot : UInt32} {st0 : PagingState}

def InRange (base pages virtualAddress : ℕ) : Prop :=
  base ≤ virtualAddress ∧ virtualAddress < base+pages*4096 ∧ virtualAddress%4096 = 0

instance (base pages virtualAddress : ℕ) : Decidable (InRange base pages virtualAddress) := by
  unfold InRange
  infer_instance

namespace PageMap

def add (m : PageMap) (base physicalBase : ℕ) (protection : UInt32) (pages : ℕ) : PageMap :=
  fun v => if InRange base pages v then some ⟨physicalBase+(v-base),protection⟩ else m v

def drop (m : PageMap) (base pages : ℕ) : PageMap :=
  fun v => if InRange base pages v then none else m v

def protect (m : PageMap) (base : ℕ) (protection : UInt32) (pages : ℕ) : PageMap :=
  fun v => if InRange base pages v then
    (m v).map fun mapping => ⟨mapping.physicalBase,protection⟩ else m v

end PageMap

/-- What `validate_virtual_range` accepts. -/
structure RangeOk (virtualAddress size : ℕ) : Prop where
  pos : size ≠ 0
  canonical : ziX64AddressIsCanonical virtualAddress = true
  size_mod : size%4096 = 0
  address_mod : virtualAddress%4096 = 0
  fits : virtualAddress+size ≤ 2^64
  last : ziX64AddressIsCanonical (virtualAddress+size-1) = true

/-- What a mapping of a range may be asked with. -/
structure MapRangeArguments (virtualAddress physicalAddress size : ℕ) (protection : UInt32) :
    Prop where
  range : RangeOk virtualAddress size
  physical_mod : physicalAddress%4096 = 0
  physical_fits : physicalAddress+size ≤ x64MaxPhysicalAddress
  protection : ValidProtection protection

section Arithmetic

variable {base pbase pages v size : ℕ}

theorem not_inRange_zero : ¬InRange base 0 v := by
  rintro ⟨hle,hlt,-⟩
  omega

theorem inRange_succ (hbase : base%4096 = 0) :
    InRange base (pages+1) v ↔ v = base+pages*4096 ∨ InRange base pages v := by
  simp only [InRange]
  omega

theorem inRange_page (hbase : base%4096 = 0) {page : ℕ} (h : page < pages) :
    InRange base pages (base+page*4096) := by
  simp only [InRange]
  omega

theorem InRange.exists_page (hbase : base%4096 = 0) (h : InRange base pages v) :
    ∃ page < pages, v = base+page*4096 := by
  obtain ⟨hle,hlt,hmod⟩ := h
  exact ⟨(v-base)/4096,by omega,by omega⟩

theorem InRange.mono {more : ℕ} (h : InRange base pages v) (hle : pages ≤ more) :
    InRange base more v := by
  obtain ⟨hbase,hlt,hmod⟩ := h
  have hmore : base+pages*4096 ≤ base+more*4096 :=
    Nat.add_le_add_left (Nat.mul_le_mul_right 4096 hle) base
  exact ⟨hbase,hlt.trans_le hmore,hmod⟩

theorem not_inRange_next : ¬InRange base pages (base+pages*4096) := by
  rintro ⟨-,hlt,-⟩
  omega

namespace PageMap

theorem add_zero : m.add base pbase prot 0 = m := by
  funext v
  rw [add,if_neg not_inRange_zero]

theorem change_succ (m : PageMap) (pages : ℕ) (hbase : base%4096 = 0) (f : PageMap) :
    (fun v => if InRange base (pages+1) v then f v else m v) =
      update (fun v => if InRange base pages v then f v else m v) (base+pages*4096)
        (f (base+pages*4096)) := by
  funext v
  by_cases hv : v = base+pages*4096
  · subst hv
    rw [update_self,if_pos ((inRange_succ hbase).mpr (.inl rfl))]
  · rw [update_of_ne hv]
    simp only [inRange_succ hbase,hv,false_or]

theorem add_succ (hbase : base%4096 = 0) : m.add base pbase prot (pages+1) =
      update (m.add base pbase prot pages) (base+pages*4096)
        (some ⟨pbase+pages*4096,prot⟩) := by
  have hadd := change_succ m pages hbase fun v => some ⟨pbase+(v-base),prot⟩
  rwa [Nat.add_sub_cancel_left] at hadd

theorem update_add_succ (hbase : base%4096 = 0) (hnone : m (base+pages*4096) = none) :
    update (m.add base pbase prot (pages+1)) (base+pages*4096) none =
      m.add base pbase prot pages := by
  rw [add_succ hbase,update_idem]
  apply update_eq_self_iff.mpr
  rw [add,if_neg not_inRange_next,hnone]

theorem drop_zero : m.drop base 0 = m := by
  funext v
  rw [drop,if_neg not_inRange_zero]

theorem drop_succ (hbase : base%4096 = 0) :
    m.drop base (pages+1) = update (m.drop base pages) (base+pages*4096) none :=
  change_succ m pages hbase fun _ => none

theorem protect_zero : m.protect base prot 0 = m := by
  funext v
  rw [protect,if_neg not_inRange_zero]

theorem protect_succ (hbase : base%4096 = 0) {mapping : ZiX64PageMapping}
    (hmapping : m (base+pages*4096) = some mapping) : m.protect base prot (pages+1) =
      update (m.protect base prot pages) (base+pages*4096)
        (some ⟨mapping.physicalBase,prot⟩) := by
  have hprotect := change_succ m pages hbase fun v =>
    (m v).map fun mapping => ⟨mapping.physicalBase,prot⟩
  rwa [hmapping] at hprotect

end PageMap

theorem validateVirtualRange_ok_iff :
    validateVirtualRange base size = .ok () ↔ RangeOk base size := by
  simp only [validateVirtualRange,failIf_bind_ok_iff,failIf_ok_iff,not_or,
    Bool.not_eq_false,ne_eq,not_not,not_lt,and_offsetMask]
  constructor
  · rintro ⟨⟨hpos,hcanon⟩,⟨hsize,haddress⟩,-,hlast⟩
    refine ⟨hpos,hcanon,hsize,haddress,?_,hlast⟩
    rw [ziX64AddressIsCanonical_iff] at hlast
    omega
  · rintro ⟨hpos,hcanon,hsize,haddress,hfits,hlast⟩
    refine ⟨⟨hpos,hcanon⟩,⟨hsize,haddress⟩,?_,hlast⟩
    simp only [uint64Max]
    omega

theorem validateVirtualRange_cases (base size : ℕ) :
    (∃ status, validateVirtualRange base size = .error status ∧ ¬RangeOk base size) ∨
    validateVirtualRange base size = .ok () ∧ RangeOk base size :=
  cases_of_ok_iff validateVirtualRange_ok_iff

theorem MapRangeArguments.page {page : ℕ} (h : MapRangeArguments base pbase size prot)
    (hpage : page < size/4096) : MapArguments (base+page*4096) (pbase+page*4096) prot := by
  obtain ⟨⟨-,hcanon,-,haddress,-,hlast⟩,hphys,hlimit,hvalid⟩ := h
  rw [ziX64AddressIsCanonical_iff] at hcanon hlast
  simp only [x64MaxPhysicalAddress] at hlimit
  refine ⟨⟨?_,by omega⟩,⟨?_,?_⟩,hvalid⟩
  · rw [ziX64AddressIsCanonical_iff]
    omega
  · rw [and_offsetMask]
    omega
  · simp only [x64MaxPhysicalAddress]
    omega

end Arithmetic

section Loops

variable {st st' : PagingState} {root : ℕ} {owns : Fin 512 → Prop} {others : Set ℕ}
  {va pa size pages : ℕ} {cb : ZiX64PagingCallbacks} {ctx : ZiX64PagingContext}

theorem changePages_invariant (change : ℕ → PagingState → Result Unit × PagingState) (pages : ℕ)
    (P : ℕ → PagingState → Prop) (hstep : ∀ page st, page < pages → P page st →
      ∃ st', change page st = (.ok (), st') ∧ P (page+1) st') (hstart : P 0 st) :
    ∃ st', changePages change (List.range pages) st = (.ok (), st') ∧ P pages st' := by
  have hfrom : ∀ remaining start st, start+remaining = pages → P start st →
      ∃ st', changePages change (List.range' start remaining) st = (.ok (), st') ∧ P pages st' := by
    intro remaining
    induction remaining with
    | zero =>
      intro start st hpages hst
      obtain rfl : start = pages := by omega
      exact ⟨st,rfl,hst⟩
    | succ remaining ih =>
      intro start st hpages hst
      obtain ⟨st',hchange,hst'⟩ := hstep start st (by omega) hst
      rw [List.range'_succ,changePages,hchange]
      exact ih (start+1) st' (by omega) hst'
  rw [List.range_eq_range']
  exact hfrom pages 0 st (Nat.zero_add pages) hstart

namespace PagingState.Maps

theorem queryPages_cases (h : st.Maps root owns others m) (cb : ZiX64PagingCallbacks)
    (hroot : ctx.rootPhysicalBase = root) (halign : va%4096 = 0)
    (howns : ∀ v, InRange va pages v → ziX64AddressIsCanonical v = true → owns (rootSlot v)) :
    (∃ status, queryPages cb ctx va st pages = .error status ∧
      ∃ v, InRange va pages v ∧ m v = none) ∨
    queryPages cb ctx va st pages = .ok () ∧ ∀ v, InRange va pages v → m v ≠ none := by
  have hpage : ∀ page < pages, (∃ mapping,
      ziX64PagingQuery cb ctx (va+page*x64PageSize) st = .ok mapping) ↔
      m (va+page*4096) ≠ none := by
    intro page hlt
    have hin := inRange_page halign hlt
    have hmod := hin.2.2
    rw [h.query cb hroot (howns _ hin),PageMap.query,hmod,Nat.sub_zero]
    by_cases hcanon : ziX64AddressIsCanonical (va+page*4096) = false
    · rw [if_pos hcanon]
      refine iff_of_false (by simp) (not_not.mpr ?_)
      by_contra hmapped
      rw [(h.isPage hmapped).1] at hcanon
      cases hcanon
    · rw [if_neg hcanon]
      cases m (va+page*4096) with
      | none => simp
      | some mapping => simp
  have hok : queryPages cb ctx va st pages = .ok () ↔ ∀ v, InRange va pages v → m v ≠ none := by
    rw [queryPages,forM_ok_iff]
    constructor
    · intro hall v hv
      obtain ⟨page,hlt,rfl⟩ := hv.exists_page halign
      obtain ⟨mapping,hmapping,-⟩ := bind_ok_iff.mp (hall page (List.mem_range.mpr hlt))
      exact (hpage page hlt).mp ⟨mapping,hmapping⟩
    · intro hall page hmem
      have hlt := List.mem_range.mp hmem
      obtain ⟨mapping,hmapping⟩ := (hpage page hlt).mpr (hall _ (inRange_page halign hlt))
      exact bind_ok_iff.mpr ⟨mapping,hmapping,rfl⟩
  refine (cases_of_ok_iff hok).imp_left ?_
  rintro ⟨status,hquery,hmissing⟩
  push Not at hmissing
  exact ⟨status,hquery,hmissing⟩

theorem unmapMapped (h : st.Maps root owns others (m.add va pa prot pages))
    (h0 : st0.Maps root owns others m) (hbelow : st0.Below st root owns) (cb : ZiX64PagingCallbacks)
    (hroot : ctx.rootPhysicalBase = root) (halign : va%4096 = 0)
    (hnone : ∀ v, InRange va pages v → m v = none)
    (howns : ∀ v, InRange va pages v → ziX64AddressIsCanonical v = true → owns (rootSlot v)) :
    (unmapMapped cb ctx va pages st).Maps root owns others m ∧
    st.Keeps (Zizium.unmapMapped cb ctx va pages st) root owns others ∧
    st0.Below (Zizium.unmapMapped cb ctx va pages st) root owns ∧
    (Zizium.unmapMapped cb ctx va pages st).asked = st.asked := by
  induction pages generalizing st with
  | zero =>
    rw [add_zero] at h
    exact ⟨h,.refl,hbelow,rfl⟩
  | succ pages ih =>
    have hlast : InRange va (pages+1) (va+pages*4096) :=
      (inRange_succ halign).mpr (.inl rfl)
    have hmapped : m.add va pa prot (pages+1) (va+pages*4096) ≠ none := by
      rw [add,if_pos hlast]
      exact Option.some_ne_none _
    rw [Zizium.unmapMapped]
    rcases h.unmapPage cb hroot (howns _ hlast) with
      ⟨status,-,hpage | hnone'⟩ | ⟨st1,hunmap,-,-,hmaps,hkeeps,hless,hasked⟩
    · exact absurd (h.isPage hmapped) hpage
    · exact absurd hnone' hmapped
    rw [hunmap]
    rw [update_add_succ halign (hnone _ hlast)] at hmaps
    have hsub : ∀ {v}, InRange va pages v → InRange va (pages+1) v :=
      fun hv => (inRange_succ halign).mpr (.inr hv)
    have hbelow' : st0.Below st1 root owns := by
      apply h0.below_of_below hmaps _ hbelow hless
      intro v hv
      rwa [add,if_neg fun hin => hv (hnone v (hsub hin))]
    obtain ⟨hmaps',hkeeps',hbelow'',hasked'⟩ := ih hmaps hbelow' (fun v hv => hnone v (hsub hv))
      (fun v hv => howns v (hsub hv))
    exact ⟨hmaps',hkeeps.trans hkeeps',hbelow'',hasked'.trans hasked⟩

theorem mapPages {remaining mapped : ℕ} (h : st.Maps root owns others (m.add va pa prot mapped))
    (h0 : st0.Maps root owns others m) (hbelow : st0.Below st root owns) (cb : ZiX64PagingCallbacks)
    (hroot : ctx.rootPhysicalBase = root) (hnx : ctx.nxEnabled = true) (halign : va%4096 = 0)
    (hnone : ∀ v, InRange va mapped v → m v = none)
    (howns : ∀ v, InRange va (mapped+remaining) v → ziX64AddressIsCanonical v = true →
      owns (rootSlot v)) :
    (∃ status st', mapPages cb ctx va pa prot remaining mapped st = (.error status, st') ∧
      st.GivesUp cb st' (3*remaining)
        ((∃ page < mapped+remaining, ¬MapArguments (va+page*4096) (pa+page*4096) prot) ∨
          ∃ v, InRange va (mapped+remaining) v ∧ m v ≠ none) ∧
      st'.Maps root owns others m ∧ st.Keeps st' root owns others ∧ st0.Below st' root owns) ∨
    ∃ st', Zizium.mapPages cb ctx va pa prot remaining mapped st = (.ok (), st') ∧
      (remaining ≠ 0 → ValidProtection prot) ∧
      (∀ v, InRange va (mapped+remaining) v → m v = none) ∧ st'.Maps root owns others
        (m.add va pa prot (mapped+remaining)) ∧ st.Keeps st' root owns others := by
  induction remaining generalizing mapped st with
  | zero => exact .inr ⟨st,rfl,fun hne => absurd rfl hne,hnone,h,.refl⟩
  | succ remaining ih =>
    have hnext : InRange va (mapped+(remaining+1))
        (va+mapped*4096) := inRange_page halign (by omega)
    have hbefore : ∀ {v}, InRange va mapped v → InRange va (mapped+(remaining+1)) v :=
      fun hv => hv.mono (Nat.le_add_right mapped _)
    have hsame : m.add va pa prot mapped (va+mapped*4096) = m (va+mapped*4096) := by
      rw [add,if_neg not_inRange_next]
    rw [Zizium.mapPages]
    rcases h.mapPage cb hroot hnx (howns _ hnext) (pa+mapped*4096) prot with
      ⟨status,st1,hmap,hreason,hmaps,hkeeps,hmore⟩ | ⟨st1,hmap,hargs,hfree,hmaps,hkeeps,hmore,hasks⟩
    · -- the pages mapped so far are taken back
      rw [hmap]
      obtain ⟨hmaps',hkeeps',hbelow',hasked⟩ := hmaps.unmapMapped h0 (hbelow.trans hmore)
        cb hroot halign hnone (fun v hv => howns v (hbefore hv))
      refine .inl ⟨status,_,rfl,?_,hmaps',hkeeps.trans hkeeps',hbelow'⟩
      obtain ⟨n,hn,hasked',hreason⟩ := hreason
      refine ⟨n,by omega,hasked.trans hasked',hreason.imp_left ?_⟩
      rintro (hargs | hmapped)
      · exact .inl ⟨mapped,by omega,hargs⟩
      · rw [hsame] at hmapped
        exact .inr ⟨_,hnext,hmapped⟩
    · rw [hmap]
      rw [hsame] at hfree
      rw [← add_succ halign] at hmaps
      have hnone' : ∀ v, InRange va (mapped+1) v → m v = none := by
        intro v hv
        rcases (inRange_succ halign).mp hv with rfl | hv
        · exact hfree
        · exact hnone v hv
      have hcount : mapped+(remaining+1) = mapped+1+remaining := by omega
      rw [hcount] at howns ⊢
      rcases ih hmaps (hbelow.trans hmore) hnone' howns with
        ⟨status,st',hrest,hreason,hmaps',hkeeps',hbelow'⟩ | ⟨st',hrest,-,hall,hmaps',hkeeps'⟩
      · exact .inl ⟨status,st',hrest,hasks.givesUp hreason (by omega) id,hmaps',
          hkeeps.trans hkeeps',hbelow'⟩
      · exact .inr ⟨st',hrest,fun _ => hargs.2.2,hall,hmaps',hkeeps.trans hkeeps'⟩

section

variable (h : st.Maps root owns others m) (cb) (hroot : ctx.rootPhysicalBase = root)

include h cb hroot

theorem mapRange (hnx : ctx.nxEnabled = true)
    (howns : ∀ v, InRange va (size/4096) v → ziX64AddressIsCanonical v = true → owns (rootSlot v))
    (pa : ℕ) (prot : UInt32) :
    (∃ status st', ziX64PagingMapRange cb ctx va pa size prot st = (.error status, st') ∧
      st.GivesUp cb st' (3*(size/4096)) (¬MapRangeArguments va pa size prot ∨
        ∃ v, InRange va (size/4096) v ∧ m v ≠ none) ∧
      st'.Maps root owns others m ∧ st.Keeps st' root owns others ∧
      ∀ page, page ∈ st'.held ↔ page ∈ st.held) ∨
    ∃ st', ziX64PagingMapRange cb ctx va pa size prot st = (.ok (), st') ∧
      MapRangeArguments va pa size prot ∧ (∀ v, InRange va (size/4096) v → m v = none) ∧
      st'.Maps root owns others (m.add va pa prot (size/4096)) ∧ st.Keeps st' root owns others := by
  rw [ziX64PagingMapRange]
  rcases validateVirtualRange_cases va size with ⟨status,hcheck,hrange⟩ | ⟨hcheck,hrange⟩
  · rw [hcheck]
    exact .inl ⟨status,st,rfl,.of_reason (.inl fun hargs => hrange hargs.range),h,.refl,
      fun _ => Iff.rfl⟩
  · rw [hcheck]
    dsimp only
    split
    next hmod =>
      refine .inl ⟨_,st,rfl,.of_reason (.inl ?_),h,.refl,fun _ => Iff.rfl⟩
      intro hargs
      exact hmod ((and_offsetMask _).trans hargs.physical_mod)
    next hmod =>
    split
    next hlimit =>
      refine .inl ⟨_,st,rfl,.of_reason (.inl ?_),h,.refl,fun _ => Iff.rfl⟩
      intro hargs
      have hfits := hargs.physical_fits
      have hpos := hrange.pos
      omega
    next hlimit =>
    rw [not_not,and_offsetMask] at hmod
    have hstart : st.Maps root owns others (m.add va pa prot 0) := by rwa [add_zero]
    have hcount : 0+size/4096 = size/4096 := Nat.zero_add _
    rcases hstart.mapPages h (fun _ _ _ _ htable => htable) cb hroot hnx hrange.address_mod
      (fun v hv => absurd hv not_inRange_zero) (hcount.symm ▸ howns) with
      ⟨status,st',hmap,hreason,hmaps,hkeeps,hbelow⟩ | ⟨st',hmap,hvalid,hfree,hmaps,hkeeps⟩
    · rw [hcount] at hreason
      refine .inl ⟨status,st',hmap,?_,hmaps,hkeeps,h.held_iff hmaps hbelow⟩
      refine PagingState.Asks.refl.givesUp hreason (Nat.zero_add _).le (Or.imp_left ?_)
      rintro ⟨page,hlt,hpage⟩ hargs
      exact hpage (hargs.page hlt)
    · rw [hcount] at hfree hmaps
      refine .inr ⟨st',hmap,⟨hrange,hmod,?_,?_⟩,hfree,hmaps,hkeeps⟩
      · omega
      · apply hvalid
        have hpos := hrange.pos
        have hsize := hrange.size_mod
        omega

theorem unmapRange
    (howns : ∀ v, InRange va (size/4096) v → ziX64AddressIsCanonical v = true → owns (rootSlot v)) :
    (∃ status, ziX64PagingUnmapRange cb ctx va size st =
        (.error status, st) ∧ (¬RangeOk va size ∨ ∃ v, InRange va (size/4096) v ∧ m v = none)) ∨
    ∃ st', ziX64PagingUnmapRange cb ctx va size st = (.ok (), st') ∧
      RangeOk va size ∧ (∀ v, InRange va (size/4096) v → m v ≠ none) ∧
      st'.Maps root owns others (m.drop va (size/4096)) ∧ st.Keeps st' root owns others := by
  rw [ziX64PagingUnmapRange]
  rcases validateVirtualRange_cases va size with ⟨status,hcheck,hrange⟩ | ⟨hcheck,hrange⟩
  · rw [hcheck]
    exact .inl ⟨status,rfl,.inl hrange⟩
  rw [hcheck]
  rcases h.queryPages_cases cb hroot hrange.address_mod howns with
    ⟨status,hquery,hmissing⟩ | ⟨hquery,hall⟩
  · rw [hquery]
    exact .inl ⟨status,rfl,.inr hmissing⟩
  rw [hquery]
  -- page after page, every one of them still mapped when its turn comes
  obtain ⟨st',hchange,hmaps,hkeeps⟩ := changePages_invariant
    (fun page st => ziX64PagingUnmapPage cb ctx (va+page*x64PageSize) st) (size/4096)
    (fun page st' => st'.Maps root owns others (m.drop va page) ∧ st.Keeps st' root owns others)
    (by
      rintro page st1 hlt ⟨hmaps,hkeeps⟩
      have hin := inRange_page hrange.address_mod hlt
      have hmapped : m.drop va page (va+page*4096) ≠ none := by
        rw [drop,if_neg not_inRange_next]
        exact hall _ hin
      rcases hmaps.unmapPage cb hroot (howns _ hin) with
        ⟨status,-,hpage | hnone⟩ | ⟨st2,hunmap,-,-,hmaps',hkeeps',-⟩
      · exact absurd (hmaps.isPage hmapped) hpage
      · exact absurd hnone hmapped
      rw [← drop_succ hrange.address_mod] at hmaps'
      exact ⟨st2,hunmap,hmaps',hkeeps.trans hkeeps'⟩)
    ⟨by rwa [drop_zero],.refl⟩
  exact .inr ⟨st',hchange,hrange,hall,hmaps,hkeeps⟩

theorem protectRange (hnx : ctx.nxEnabled = true)
    (howns : ∀ v, InRange va (size/4096) v → ziX64AddressIsCanonical v = true → owns (rootSlot v))
    (prot : UInt32) :
    (∃ status, ziX64PagingProtectRange cb ctx va size prot st = (.error status, st) ∧
      (¬RangeOk va size ∨ ¬ValidProtection prot ∨ ∃ v, InRange va (size/4096) v ∧ m v = none)) ∨
    ∃ st', ziX64PagingProtectRange cb ctx va size prot st = (.ok (), st') ∧
      RangeOk va size ∧ ValidProtection prot ∧ (∀ v, InRange va (size/4096) v → m v ≠ none) ∧
      st'.Maps root owns others (m.protect va prot (size/4096)) ∧
      st.Keeps st' root owns others := by
  rw [ziX64PagingProtectRange]
  rcases validateVirtualRange_cases va size with ⟨status,hcheck,hrange⟩ | ⟨hcheck,hrange⟩
  · rw [hcheck]
    exact .inl ⟨status,rfl,.inl hrange⟩
  rw [hcheck]
  rcases validateProtection_cases hnx prot with ⟨status,hprot,hbad⟩ | ⟨hprot,hvalid⟩
  · rw [hprot]
    exact .inl ⟨status,rfl,.inr (.inl hbad)⟩
  rw [hprot]
  rcases h.queryPages_cases cb hroot hrange.address_mod howns with
    ⟨status,hquery,hmissing⟩ | ⟨hquery,hall⟩
  · rw [hquery]
    exact .inl ⟨status,rfl,.inr (.inr hmissing)⟩
  rw [hquery]
  obtain ⟨st',hchange,hmaps,hkeeps⟩ := changePages_invariant
    (fun page st => ziX64PagingProtectPage cb ctx (va+page*x64PageSize) prot st) (size/4096)
    (fun page st' => st'.Maps root owns others (m.protect va prot page) ∧
      st.Keeps st' root owns others)
    (by
      rintro page st1 hlt ⟨hmaps,hkeeps⟩
      have hin := inRange_page hrange.address_mod hlt
      have hsame : m.protect va prot page (va+page*4096) = m (va+page*4096) := by
        rw [protect,if_neg not_inRange_next]
      rcases hmaps.protectPage cb hroot hnx (howns _ hin) prot with
        ⟨status,-,hpage | hinvalid | hnone⟩ | ⟨st2,mapping,hprotect,-,-,hmapping,hmaps',hkeeps'⟩
      · exact absurd (hmaps.isPage (hsame ▸ hall _ hin)) hpage
      · exact absurd hvalid hinvalid
      · exact absurd (hsame ▸ hnone) (hall _ hin)
      rw [hsame] at hmapping
      rw [← protect_succ hrange.address_mod hmapping] at hmaps'
      exact ⟨st2,hprotect,hmaps',hkeeps.trans hkeeps'⟩)
    ⟨by rwa [protect_zero],.refl⟩
  exact .inr ⟨st',hchange,hrange,hvalid,hall,hmaps,hkeeps⟩

end

end PagingState.Maps

end Loops

end Zizium
