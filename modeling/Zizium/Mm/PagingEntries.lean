import Zizium.Mm.Paging

/-!
# Entries and addresses of page tables

What the bits of an entry say, and how a canonical address falls into four indices.
-/

namespace Zizium

open BlockIO

/-- An aligned address that the address bits of an entry can hold. -/
def IsFrame (page : ℕ) : Prop :=
  page &&& x64PageOffsetMask = 0 ∧ page < x64MaxPhysicalAddress

def ValidProtection (protection : UInt32) : Prop :=
  protection &&& x64PageRead ≠ 0 ∧ protection &&& ~~~x64PageValid = 0 ∧
    ¬(protection &&& x64PageWrite ≠ 0 ∧ protection &&& x64PageExecute ≠ 0) ∧
    ¬(protection &&& x64PageDevice ≠ 0 ∧ protection &&& x64PageExecute ≠ 0)

instance (protection : UInt32) : Decidable (ValidProtection protection) := by
  unfold ValidProtection
  infer_instance

/-- An entry above the last level that leads to a table. -/
structure LinksTo (entry page : ℕ) (user : Bool) : Prop where
  present : entry &&& x64EntryPresent ≠ 0
  small : entry &&& x64EntryLarge = 0
  mask : entry &&& x64EntryPhysicalMask = page
  user : entry &&& x64EntryUser ≠ 0 ↔ user = true

/-- An entry of the last level that maps a page.  Bits that say neither where nor how, as the
accessed and the dirty bit, are free. -/
structure MapsTo (entry : ℕ) (mapping : ZiX64PageMapping) : Prop where
  present : entry &&& x64EntryPresent ≠ 0
  mask : entry &&& x64EntryPhysicalMask = mapping.physicalBase
  protection : protectionFromLeaf entry = mapping.protection

theorem and_offsetMask (x : ℕ) : x &&& x64PageOffsetMask = x%4096 :=
  Nat.and_two_pow_sub_one_eq_mod x 12

section Bits

variable {page : ℕ} (h : IsFrame page)

include h

theorem IsFrame.and_mask : page &&& x64EntryPhysicalMask = page := by
  obtain ⟨halign,hlt⟩ := h
  rw [and_offsetMask] at halign
  have hlt' : page < 4503599627370496 := hlt
  have hpage : page = (page/4096) <<< 12 := by omega
  have hmask : x64EntryPhysicalMask = (2^40-1) <<< 12 := by decide
  rw [hmask]
  nth_rewrite 1 [hpage]
  rw [← Nat.shiftLeft_and_distrib,Nat.and_two_pow_sub_one_eq_mod,Nat.mod_eq_of_lt (by omega),
    ← hpage]

theorem IsFrame.or_offset {off : ℕ} (hoff : off < 4096) : page ||| off = page+off := by
  have halign := h.1
  rw [and_offsetMask] at halign
  have hpage : page = 2^12*(page/4096) := by omega
  rw [hpage]
  exact (Nat.two_pow_add_eq_or_of_lt hoff _).symm

end Bits

section Links

variable {entry page : ℕ} {user : Bool}

theorem LinksTo.or_user (h : LinksTo entry page user) :
    LinksTo (entry ||| x64EntryUser) page true := by
  have hbit : ∀ bit, x64EntryUser &&& bit = 0 →
      (entry ||| x64EntryUser) &&& bit = entry &&& bit := by
    intro bit hbit
    rw [Nat.and_or_distrib_right,hbit,Nat.or_zero]
  refine ⟨?_,?_,?_,?_⟩
  · rw [hbit _ (by decide)]
    exact h.present
  · rw [hbit _ (by decide)]
    exact h.small
  · rw [hbit _ (by decide)]
    exact h.mask
  · simp [Nat.and_or_distrib_right]

theorem IsFrame.linksTo (h : IsFrame page) (prot : UInt32) :
    LinksTo (page ||| tableFlags prot) page (prot &&& x64PageUser ≠ 0) := by
  have hbit : ∀ bit, x64EntryPhysicalMask &&& bit = 0 →
      (page ||| tableFlags prot) &&& bit = tableFlags prot &&& bit := by
    intro bit hbit
    rw [Nat.and_or_distrib_right,← h.and_mask,Nat.and_assoc,hbit,Nat.and_zero,Nat.zero_or]
  refine ⟨?_,?_,?_,?_⟩
  · rw [hbit _ (by decide),tableFlags]
    split <;> decide
  · rw [hbit _ (by decide),tableFlags]
    split <;> decide
  · rw [Nat.and_or_distrib_right,h.and_mask,tableFlags]
    split <;> exact Nat.or_zero page
  · rw [hbit _ (by decide),tableFlags,decide_eq_true_iff]
    split
    next huser => exact iff_of_true (by decide) huser
    next huser => exact iff_of_false (by decide) huser

end Links

section Leaves

variable {prot : UInt32} {mapping : ZiX64PageMapping}

theorem validateProtection_ok_iff {ctx : ZiX64PagingContext} :
    validateProtection ctx prot = .ok () ↔ ctx.nxEnabled = true ∧ ValidProtection prot := by
  rw [validateProtection,Except.failIf_ok_iff,ValidProtection]
  simp only [not_or,Bool.not_eq_false,ne_eq,not_not]

theorem validateProtection_cases {ctx : ZiX64PagingContext} (hnx : ctx.nxEnabled = true)
    (prot : UInt32) : (∃ status, validateProtection ctx prot = .error status ∧
      ¬ValidProtection prot) ∨ validateProtection ctx prot = .ok () ∧ ValidProtection prot :=
  Except.cases_of_ok_iff (validateProtection_ok_iff.trans (and_iff_right hnx))

theorem exists_fin_of_and_eq_zero (h : prot &&& ~~~x64PageValid = 0) :
    ∃ n : Fin 64, prot = UInt32.ofNat n := by
  have hnone := congrArg UInt32.toNat h
  have hmask : (~~~x64PageValid).toNat = (2^26-1) <<< 6 := by decide
  rw [UInt32.toNat_and,hmask] at hnone
  have hhigh := congrArg (· >>> 6) hnone
  simp only [Nat.shiftRight_and_distrib,Nat.shiftLeft_shiftRight] at hhigh
  rw [Nat.and_two_pow_sub_one_eq_mod,Nat.shiftRight_eq_div_pow,
    show (0 : UInt32).toNat >>> 6 = 0 by decide] at hhigh
  have hlt : prot.toNat < 64 := by
    have := prot.toNat_lt
    omega
  exact ⟨⟨prot.toNat,hlt⟩,(UInt32.ofNat_toNat).symm⟩

theorem ValidProtection.exists_fin (h : ValidProtection prot) :
    ∃ n : Fin 64, prot = UInt32.ofNat n :=
  exists_fin_of_and_eq_zero h.2.1

theorem leafFlags_spec (h : ValidProtection prot) : leafFlags true prot &&& x64EntryPresent ≠ 0 ∧
    leafFlags true prot &&& x64EntryPhysicalMask = 0 ∧
    protectionFromLeaf (leafFlags true prot) = prot := by
  obtain ⟨n,rfl⟩ := h.exists_fin
  revert n
  decide +kernel

/-- A mapping that the code can have made. -/
def ZiX64PageMapping.Valid (mapping : ZiX64PageMapping) : Prop :=
  IsFrame mapping.physicalBase ∧ ValidProtection mapping.protection

/-- The bits that a protection decides. -/
abbrev protectionBits : ℕ :=
  x64EntryWrite ||| x64EntryNoExecute ||| x64EntryUser ||| x64EntryGlobal |||
    (x64EntryWriteThrough ||| x64EntryCacheDisable)

theorem protectionFromLeaf_congr {entry other : ℕ}
    (h : entry &&& protectionBits = other &&& protectionBits) :
    protectionFromLeaf entry = protectionFromLeaf other := by
  have hbit : ∀ bit, protectionBits &&& bit = bit → entry &&& bit = other &&& bit := by
    intro bit hbit
    rw [← hbit,← Nat.and_assoc,← Nat.and_assoc,h]
  rw [protectionFromLeaf,hbit _ (by decide),hbit _ (by decide),hbit _ (by decide),
    hbit _ (by decide),hbit _ (by decide),← protectionFromLeaf]

theorem MapsTo.of_flags (hvalid : ValidProtection prot) {entry base : ℕ}
    (hmask : entry &&& x64EntryPhysicalMask = base) (hfree : entry &&& protectionBits = 0) :
    MapsTo (entry ||| leafFlags true prot) ⟨base,prot⟩ := by
  obtain ⟨hpresent,hclear,hprot⟩ := leafFlags_spec hvalid
  refine ⟨?_,?_,?_⟩
  · rw [Nat.and_or_distrib_right]
    exact fun hzero => hpresent (Nat.or_eq_zero_iff.mp hzero).2
  · rw [Nat.and_or_distrib_right,hclear,Nat.or_zero,hmask]
  · refine (protectionFromLeaf_congr ?_).trans hprot
    rw [Nat.and_or_distrib_right,hfree,Nat.zero_or]

theorem IsFrame.mapsTo {page : ℕ} (h : IsFrame page) (hvalid : ValidProtection prot) :
    MapsTo (page ||| leafFlags true prot) ⟨page,prot⟩ := by
  apply MapsTo.of_flags hvalid h.and_mask
  rw [← h.and_mask,Nat.and_assoc]
  exact Nat.and_zero page

section

variable {entry : ℕ} (h : MapsTo entry mapping)

include h

theorem MapsTo.protect (hvalid : ValidProtection prot) :
    MapsTo (entry &&& (x64EntryPhysicalMask ||| x64EntryAccessed ||| x64EntryDirty) |||
      leafFlags true prot) ⟨mapping.physicalBase,prot⟩ := by
  apply MapsTo.of_flags hvalid
  · rw [Nat.and_assoc]
    exact h.mask
  · rw [Nat.and_assoc]
    exact Nat.and_zero entry

theorem MapsTo.user : entry &&& x64EntryUser ≠ 0 ↔ mapping.protection &&& x64PageUser ≠ 0 := by
  rw [← h.protection,protectionFromLeaf]
  by_cases huser : entry &&& x64EntryUser ≠ 0
  · rw [if_pos huser]
    refine iff_of_true huser ?_
    split_ifs <;> decide
  · rw [if_neg huser]
    refine iff_of_false huser ?_
    split_ifs <;> decide

theorem MapsTo.not_writable_executable (hvalid : mapping.Valid) :
    ¬(entry &&& x64EntryWrite ≠ 0 ∧ entry &&& x64EntryNoExecute = 0) := by
  rintro ⟨hwrite,hexecute⟩
  apply hvalid.2.2.2.1
  rw [← h.protection,protectionFromLeaf,if_pos hwrite,if_pos hexecute]
  split_ifs <;> decide

end

/-! The processor sets the accessed and the dirty bit of an entry it uses. -/

section

variable {entry bits : ℕ} (hbits : bits &&& (x64EntryAccessed ||| x64EntryDirty) = bits)

include hbits

theorem or_marks {bit : ℕ} (hbit : (x64EntryAccessed ||| x64EntryDirty) &&& bit = 0) :
    (entry ||| bits) &&& bit = entry &&& bit := by
  rw [Nat.and_or_distrib_right,← hbits,Nat.and_assoc,hbit,Nat.and_zero,Nat.or_zero]

theorem LinksTo.mark {page : ℕ} {user : Bool} (h : LinksTo entry page user) :
    LinksTo (entry ||| bits) page user := by
  refine ⟨?_,?_,?_,?_⟩ <;> rw [or_marks hbits (by decide)]
  exacts [h.present,h.small,h.mask,h.user]

theorem MapsTo.mark (h : MapsTo entry mapping) : MapsTo (entry ||| bits) mapping := by
  refine ⟨?_,?_,?_⟩
  · rw [or_marks hbits (by decide)]
    exact h.present
  · rw [or_marks hbits (by decide)]
    exact h.mask
  · rw [← h.protection]
    exact protectionFromLeaf_congr (or_marks hbits (by decide))

end

end Leaves

section Addresses

variable {va other : ℕ}

theorem ziX64AddressIsCanonical_iff : ziX64AddressIsCanonical va = true ↔
      va < 2^47 ∨ 2^64-2^47 ≤ va ∧ va < 2^64 := by
  rw [ziX64AddressIsCanonical,Nat.and_one_is_mod,Nat.shiftRight_eq_div_pow,
    Nat.shiftRight_eq_div_pow]
  split
  · rw [decide_eq_true_iff]
    omega
  · rw [decide_eq_true_iff]
    omega

theorem tableIndex_val (shift : ℕ) : (tableIndex va shift : ℕ) = va/2^shift%512 := by
  rw [tableIndex]
  dsimp only
  rw [Nat.shiftRight_eq_div_pow]
  exact Nat.and_two_pow_sub_one_eq_mod _ 9

section

variable (h : ziX64AddressIsCanonical va = true)

include h

theorem tableIndices_injective (h' : ziX64AddressIsCanonical other = true) (halign : va%4096 = 0)
    (halign' : other%4096 = 0) (heq : tableIndices va = tableIndices other) : va = other := by
  rw [ziX64AddressIsCanonical_iff] at h h'
  rw [tableIndices,tableIndices] at heq
  simp only [List.cons.injEq,and_true,Fin.ext_iff,tableIndex_val] at heq
  obtain ⟨h0,h1,h2,h3⟩ := heq
  omega

theorem tableIndex_lt_iff : (tableIndex va 39 : ℕ) < 256 ↔ va < 2^47 := by
  rw [ziX64AddressIsCanonical_iff] at h
  rw [tableIndex_val]
  omega

omit h in
theorem pageAddress_eq : pageAddress va = va-va%4096 := by rw [pageAddress,and_offsetMask]

omit h in
theorem pageAddress_mod : pageAddress va%4096 = 0 := by
  rw [pageAddress_eq]
  omega

theorem pageAddress_canonical : ziX64AddressIsCanonical (pageAddress va) = true := by
  rw [ziX64AddressIsCanonical_iff] at h ⊢
  rw [pageAddress_eq]
  omega

end

theorem tableIndex_pageAddress : tableIndex (pageAddress va) 39 = tableIndex va 39 := by
  rw [Fin.ext_iff,tableIndex_val,tableIndex_val,pageAddress_eq]
  omega

end Addresses

end Zizium
