import Zizium.Aligned
import Zizium.Executive.AddressSpace
import Zizium.Mm.PagingClone
import Mathlib.Data.List.Perm.Basic

/-!
# The regions of an address space and their page map

Which page map a table of regions stands for, and what adding, protecting and giving up a region
does to both.
-/

namespace Zizium

open BlockIO List

def OwnedProtection (protection : UInt32) : Prop :=
  protection &&& (x64PageRead ||| x64PageUser) = x64PageRead ||| x64PageUser ∧
    protection &&& ~~~(x64PageRead ||| x64PageWrite ||| x64PageExecute ||| x64PageUser) = 0 ∧
    ¬(protection &&& x64PageWrite ≠ 0 ∧ protection &&& x64PageExecute ≠ 0)

instance (protection : UInt32) : Decidable (OwnedProtection protection) := by
  unfold OwnedProtection
  infer_instance

structure OwnedArguments (virtualBase size : ℕ) (protection : UInt32) : Prop where
  pos : size ≠ 0
  low : userAddressMin ≤ virtualBase
  high : virtualBase+size ≤ userAddressMaxExclusive
  base_mod : virtualBase%4096 = 0
  size_mod : size%4096 = 0
  protection : OwnedProtection protection

namespace ZiAddressSpaceRegion

abbrev Covers (region : ZiAddressSpaceRegion) (virtualAddress : ℕ) : Prop :=
  InRange region.virtualBase region.pageCount virtualAddress

def backing (region : ZiAddressSpaceRegion) : List ℕ :=
  backingPages region.physicalBase region.pageCount

/-- The physical page behind a page of the region. -/
def backingOf (region : ZiAddressSpaceRegion) (virtualAddress : ℕ) : ℕ :=
  region.physicalBase+(virtualAddress-region.virtualBase)

def Apart (a b : ZiAddressSpaceRegion) : Prop :=
  a.virtualBase+a.size ≤ b.virtualBase ∨ b.virtualBase+b.size ≤ a.virtualBase

/-- Inside the user half, and in physical memory that a page table can refer to. -/
structure Placed (region : ZiAddressSpaceRegion) : Prop where
  pos : region.pageCount ≠ 0
  low : userAddressMin ≤ region.virtualBase
  high : region.virtualBase+region.size ≤ userAddressMaxExclusive
  base_mod : region.virtualBase%4096 = 0
  physical_mod : region.physicalBase%4096 = 0
  physical_fits : region.physicalBase+region.size ≤ x64MaxPhysicalAddress

def MappedIn (region : ZiAddressSpaceRegion) (m : PageMap) : Prop :=
  ∀ v, region.Covers v → ∃ protection, m v = some ⟨region.backingOf v,protection⟩ ∧
    OwnedProtection protection ∧ (region.protection ≠ 0 → protection = region.protection)

end ZiAddressSpaceRegion

structure RegionsMap (regions : List ZiAddressSpaceRegion) (m : PageMap) : Prop where
  placed : ∀ region ∈ regions, region.Placed
  apart : regions.Pairwise ZiAddressSpaceRegion.Apart
  mapped : ∀ region ∈ regions, region.MappedIn m
  only : ∀ v, m v ≠ none → ∃ region ∈ regions, region.Covers v

section

variable {region other : ZiAddressSpaceRegion} {regions : List ZiAddressSpaceRegion} {m : PageMap}
  {vbase pbase size pageCount page v i : ℕ} {prot : UInt32}

theorem OwnedProtection.valid (h : OwnedProtection prot) : ValidProtection prot := by
  have hnone : prot &&& ~~~x64PageValid = 0 := by
    rw [show ~~~x64PageValid = ~~~(x64PageRead ||| x64PageWrite ||| x64PageExecute |||
      x64PageUser) &&& ~~~x64PageValid by decide,← UInt32.and_assoc,h.2.1,UInt32.zero_and]
  obtain ⟨n,rfl⟩ := exists_fin_of_and_eq_zero hnone
  revert h
  revert n
  decide +kernel

theorem OwnedProtection.user (h : OwnedProtection prot) : prot &&& x64PageUser ≠ 0 := by
  obtain ⟨n,rfl⟩ := h.valid.exists_fin
  revert h
  revert n
  decide +kernel

theorem validateOwnedMapping_ok_iff : validateOwnedMapping vbase size prot = .ok () ↔
      OwnedArguments vbase size prot := by
  rw [validateOwnedMapping,Except.failIf_bind_ok_iff,Except.failIf_bind_ok_iff,
    Except.failIf_ok_iff,Bool.not_eq_false,ziUserRangeIsValid_iff,and_offsetMask,and_offsetMask]
  constructor
  · rintro ⟨⟨hpos,hlow,hhigh⟩,halign,hprot⟩
    rw [not_or,not_not,not_not] at halign
    rw [not_or,not_or,not_not,not_not] at hprot
    exact ⟨hpos,hlow,hhigh,halign.1,halign.2,hprot⟩
  · intro h
    refine ⟨⟨h.pos,h.low,h.high⟩,?_,?_⟩
    · rw [not_or,not_not,not_not]
      exact ⟨h.base_mod,h.size_mod⟩
    · rw [not_or,not_or,not_not,not_not]
      exact h.protection

theorem mem_backingPages :
    page ∈ backingPages pbase pageCount ↔ ∃ i < pageCount, page = pbase+i*4096 := by
  simp [backingPages,eq_comm]

theorem nodup_backingPages : (backingPages pbase pageCount).Nodup := by
  apply nodup_range.map
  intro i j hij
  simpa using hij

theorem ZiAddressSpaceRegion.Apart.symm (h : region.Apart other) : other.Apart region :=
  Or.symm h

theorem ZiAddressSpaceRegion.Apart.not_covers (h : region.Apart other) (hv : region.Covers v) :
    ¬other.Covers v := by
  simp only [Apart,size,Covers,InRange,x64PageSize] at h hv ⊢
  omega

theorem ZiAddressSpaceRegion.Placed.mem_backing (h : region.Placed) :
    page ∈ region.backing ↔ ∃ v, region.Covers v ∧ page = region.backingOf v := by
  rw [backing,mem_backingPages]
  constructor
  · rintro ⟨i,hi,rfl⟩
    refine ⟨region.virtualBase+i*4096,inRange_page h.base_mod hi,?_⟩
    rw [backingOf,Nat.add_sub_cancel_left]
  · rintro ⟨v,hv,rfl⟩
    obtain ⟨i,hi,rfl⟩ := InRange.exists_page h.base_mod hv
    refine ⟨i,hi,?_⟩
    rw [backingOf,Nat.add_sub_cancel_left]

theorem ZiAddressSpaceRegion.Placed.covers_lt (h : region.Placed) (hv : region.Covers v) :
    v < 2^47 := by
  have hhigh : region.virtualBase+region.pageCount*4096 ≤ 0x800000000000 := h.high
  have hlt := hv.2.1
  omega

theorem RegionsMap.nil : RegionsMap [] fun _ => none :=
  ⟨by simp,.nil,by simp,by simp⟩

theorem RegionsMap.append (h : RegionsMap regions m) (hplaced : region.Placed)
    (hprot : OwnedProtection region.protection) (hapart : ∀ other ∈ regions, region.Apart other) :
    RegionsMap (regions ++ [region])
      (m.add region.virtualBase region.physicalBase region.protection region.pageCount) := by
  refine ⟨?_,?_,?_,?_⟩
  · intro r hr
    rcases mem_append.mp hr with hr | hr
    · exact h.placed r hr
    · rwa [mem_singleton.mp hr]
  · rw [pairwise_append]
    refine ⟨h.apart,pairwise_singleton _ _,?_⟩
    intro a ha b hb
    rw [mem_singleton.mp hb]
    exact (hapart a ha).symm
  · intro r hr v hv
    rw [PageMap.add]
    rcases mem_append.mp hr with hr | hr
    · rw [if_neg ((hapart r hr).symm.not_covers hv)]
      exact h.mapped r hr v hv
    · obtain rfl := mem_singleton.mp hr
      rw [if_pos hv]
      exact ⟨r.protection,rfl,hprot,fun _ => rfl⟩
  · intro v hv
    by_cases hcovers : region.Covers v
    · exact ⟨region,by simp,hcovers⟩
    · rw [PageMap.add,if_neg hcovers] at hv
      obtain ⟨r,hr,hrv⟩ := h.only v hv
      exact ⟨r,mem_append_left _ hr,hrv⟩

section Replace

variable {before after : List ZiAddressSpaceRegion}

section

variable (h : RegionsMap (before ++ region :: after) m)

include h

theorem RegionsMap.apart_others : ∀ other ∈ before ++ after, other.Apart region := by
  obtain ⟨-,hafter,hbefore⟩ := pairwise_append.mp h.apart
  intro other hother
  rcases mem_append.mp hother with hother | hother
  · exact hbefore other hother region mem_cons_self
  · exact ((pairwise_cons.mp hafter).1 other hother).symm

omit h in
theorem mem_others_or_eq :
    other ∈ before ++ region :: after ↔ other = region ∨ other ∈ before ++ after := by
  simp only [mem_append,mem_cons]
  tauto

theorem RegionsMap.erase :
    RegionsMap (before ++ after) (m.drop region.virtualBase region.pageCount) := by
  have hothers : ∀ r ∈ before ++ after, r ∈ before ++ region :: after :=
    fun r hr => mem_others_or_eq.mpr (.inr hr)
  refine ⟨fun r hr => h.placed r (hothers r hr),
    h.apart.sublist ((sublist_cons_self region after).append_left before),?_,?_⟩
  · intro r hr v hv
    rw [PageMap.drop,if_neg ((h.apart_others r hr).not_covers hv)]
    exact h.mapped r (hothers r hr) v hv
  · intro v hv
    by_cases hcovers : region.Covers v
    · rw [PageMap.drop,if_pos hcovers] at hv
      exact absurd rfl hv
    · rw [PageMap.drop,if_neg hcovers] at hv
      obtain ⟨r,hr,hrv⟩ := h.only v hv
      refine ⟨r,(mem_others_or_eq.mp hr).resolve_left ?_,hrv⟩
      rintro rfl
      exact hcovers hrv

theorem RegionsMap.protect (hinside : ∀ v, InRange vbase pageCount v → region.Covers v)
    (hprot : OwnedProtection prot) {recorded : UInt32} (hrecorded : recorded ≠ 0 →
      recorded = prot ∧ ∀ v, region.Covers v → InRange vbase pageCount v) :
    RegionsMap (before ++ { region with protection := recorded } :: after)
      (m.protect vbase prot pageCount) := by
  have hhere : region ∈ before ++ region :: after := mem_others_or_eq.mpr (.inl rfl)
  have hplaced := h.placed region hhere
  refine ⟨?_,?_,?_,?_⟩
  · intro r hr
    rcases mem_others_or_eq.mp hr with rfl | hr
    · exact ⟨hplaced.pos,hplaced.low,hplaced.high,hplaced.base_mod,hplaced.physical_mod,
        hplaced.physical_fits⟩
    · exact h.placed r (mem_others_or_eq.mpr (.inr hr))
  · obtain ⟨hbefore,hafter,hacross⟩ := pairwise_append.mp h.apart
    obtain ⟨hregion,hafter⟩ := pairwise_cons.mp hafter
    refine pairwise_append.mpr ⟨hbefore,pairwise_cons.mpr ⟨hregion,hafter⟩,?_⟩
    intro a ha
    obtain ⟨hhead,htail⟩ := forall_mem_cons.mp (hacross a ha)
    exact forall_mem_cons.mpr ⟨hhead,htail⟩
  · intro r hr v hv
    rw [PageMap.protect]
    rcases mem_others_or_eq.mp hr with rfl | hr
    · obtain ⟨old,hold,howned,-⟩ := h.mapped region hhere v hv
      by_cases hv' : InRange vbase pageCount v
      · rw [if_pos hv',hold]
        exact ⟨prot,rfl,hprot,fun hne => (hrecorded hne).1.symm⟩
      · rw [if_neg hv',hold]
        exact ⟨old,rfl,howned,fun hne => absurd ((hrecorded hne).2 v hv) hv'⟩
    · rw [if_neg fun hv' => (h.apart_others r hr).symm.not_covers (hinside v hv') hv]
      exact h.mapped r (mem_others_or_eq.mpr (.inr hr)) v hv
  · intro v hv
    have hmapped : m v ≠ none := by
      intro hnone
      rw [PageMap.protect,hnone] at hv
      simp at hv
    obtain ⟨r,hr,hrv⟩ := h.only v hmapped
    rcases mem_others_or_eq.mp hr with rfl | hr
    · exact ⟨_,mem_others_or_eq.mpr (.inl rfl),hrv⟩
    · exact ⟨r,mem_others_or_eq.mpr (.inr hr),hrv⟩

end

end Replace

end

end Zizium
