import Mathlib.Order.Bounds.Basic
import Zizium.Executive.AddressSpaceRuns

/-!
# The search for a free range of addresses

`zi_address_space_find_free_range` looks at all regions from one candidate and goes on past the
farthest region that is in the way.
-/

namespace Zizium

open BlockIO List

/-- The range keeps clear of the region. -/
def ZiAddressSpaceRegion.Avoids (region : ZiAddressSpaceRegion) (base size : ℕ) : Prop :=
  base+size ≤ region.virtualBase ∨ region.virtualBase+region.size ≤ base

/-- The aligned places in the window where a range of the size keeps clear of all regions. -/
def freeRanges (regions : List ZiAddressSpaceRegion) (searchBase searchEnd size alignment : ℕ) :
    Set ℕ :=
  {base | searchBase ≤ base ∧ base+size ≤ searchEnd ∧ alignment ∣ base ∧
    ∀ region ∈ regions, region.Avoids base size}

section Search

variable {regions : List ZiAddressSpaceRegion} {space : ZiAddressSpace}
  {k value candidate next searchBase searchEnd rounds : ℕ}

theorem alignUpU64_eq (hk : k < 64) (hvalue : value ≤ userAddressMaxExclusive) :
    ∃ raised, alignUpU64 value (2^k) = some raised ∧ IsFirstAligned (2^k) value raised := by
  have hself : ¬(2^k = 0 ∨ 2^k &&& (2^k-1) ≠ 0) := by
    rw [Nat.and_two_pow_sub_one_eq_mod,Nat.mod_self]
    have := Nat.two_pow_pos k
    omega
  have hroom : ¬uint64Max-(2^k-1) < value := by
    have hmax : uint64Max = 2^64-1 := rfl
    have hhalf : userAddressMaxExclusive ≤ 2^63 := by decide
    have hlimit : 2^k ≤ 2^63 := Nat.pow_le_pow_right (by decide) (by omega)
    omega
  rw [alignUpU64,if_neg hself,if_neg hroom]
  exact ⟨_,rfl,isFirstAligned_mask k value⟩

theorem freeRangeScan_spec (size : ℕ) (isFree : Bool) (hk : k < 64)
    (hregions : ∀ region ∈ regions, region.virtualBase+region.size ≤ userAddressMaxExclusive)
    (hnext : 2^k ∣ next) :
    ∃ isFree' next', freeRangeScan candidate size (2^k) regions isFree next =
        some (isFree', next') ∧ 2^k ∣ next' ∧ next ≤ next' ∧
      (isFree' = true → isFree = true ∧ ∀ region ∈ regions, region.Avoids candidate size) ∧
      (isFree' = false → isFree = false ∨ candidate < next') ∧
      ∀ b, 2^k ∣ b → candidate ≤ b → next ≤ b → (∀ region ∈ regions, region.Avoids b size) →
        next' ≤ b := by
  induction regions generalizing isFree next with
  | nil => exact ⟨isFree,next,rfl,hnext,le_rfl,fun h => ⟨h,nofun⟩,.inl,fun _ _ _ hle _ => hle⟩
  | cons region rest ih =>
    rw [forall_mem_cons] at hregions
    rw [freeRangeScan]
    by_cases hoverlap : regionsOverlap candidate size region.virtualBase region.size = false
    · rw [if_pos hoverlap]
      rw [regionsOverlap,decide_eq_false_iff_not] at hoverlap
      have havoids : region.Avoids candidate size := by
        rw [ZiAddressSpaceRegion.Avoids]
        omega
      obtain ⟨isFree',next',hscan,hdvd,hle,hfree,hmore,hleast⟩ :=
        ih isFree hregions.2 hnext
      refine ⟨isFree',next',hscan,hdvd,hle,?_,hmore,?_⟩
      · intro htrue
        exact ⟨(hfree htrue).1,forall_mem_cons.mpr ⟨havoids,(hfree htrue).2⟩⟩
      · intro b hb hfrom hpast hall
        exact hleast b hb hfrom hpast (forall_mem_cons.mp hall).2
    · rw [if_neg hoverlap]
      rw [Bool.not_eq_false,regionsOverlap,decide_eq_true_eq] at hoverlap
      obtain ⟨raised,hraised,hfirst⟩ := alignUpU64_eq hk hregions.1
      have hpast := hfirst.le
      rw [hraised]
      have hdvd : 2^k ∣ if next < raised then raised else next := by
        split
        · exact hfirst.dvd
        · exact hnext
      obtain ⟨isFree',next',hscan,hdvd',hle,hfree,-,hleast⟩ := ih false hregions.2 hdvd
      refine ⟨isFree',next',hscan,hdvd',?_,?_,?_,?_⟩
      · split at hle <;> omega
      · intro htrue
        cases (hfree htrue).1
      · intro _
        split at hle <;> omega
      · intro b hb hfrom hnextb hall
        rw [forall_mem_cons,ZiAddressSpaceRegion.Avoids] at hall
        -- past the candidate, only the far side of the region is left
        have hend : raised ≤ b := hfirst.le_of_dvd hb (by omega)
        refine hleast b hb hfrom ?_ hall.2
        split <;> assumption

theorem freeRangeSearch_spec {size : ℕ} (hk : k < 64) (hsize : size ≠ 0)
    (hregions : ∀ region ∈ space.regions,
      region.virtualBase+region.size ≤ userAddressMaxExclusive) (hcandidate : 2^k ∣ candidate)
    (hlow : searchBase ≤ candidate)
    (hbelow : candidate ∈ lowerBounds (freeRanges space.regions searchBase searchEnd size (2^k)))
    (hrounds : searchEnd < candidate+rounds) :
    (∃ base, freeRangeSearch space searchEnd size (2^k) rounds candidate = .ok base ∧
      IsLeast (freeRanges space.regions searchBase searchEnd size (2^k)) base) ∨
    freeRangeSearch space searchEnd size (2^k) rounds candidate = .error .notFound ∧
      freeRanges space.regions searchBase searchEnd size (2^k) = ∅ := by
  induction rounds generalizing candidate with
  | zero =>
    refine .inr ⟨rfl,Set.eq_empty_of_forall_notMem ?_⟩
    intro base hbase
    have hfrom := hbelow hbase
    have hfits := hbase.2.1
    omega
  | succ rounds ih =>
    rw [freeRangeSearch]
    split
    swap
    next hout =>
      refine .inr ⟨rfl,Set.eq_empty_of_forall_notMem ?_⟩
      intro base hbase
      have hfrom := hbelow hbase
      have hfits := hbase.2.1
      omega
    next hin =>
      obtain ⟨isFree,next,hscan,hdvd,-,hfree,hmore,hleast⟩ :=
        freeRangeScan_spec size true hk hregions hcandidate
      rw [hscan]
      cases isFree with
      | true => exact .inl ⟨candidate,rfl,⟨hlow,by omega,hcandidate,(hfree rfl).2⟩,hbelow⟩
      | false =>
        have hpast := (hmore rfl).resolve_left nofun
        dsimp only
        rw [if_neg (by omega)]
        refine ih hdvd (by omega) ?_ (by omega)
        intro base hbase
        exact hleast base hbase.2.2.1 (hbelow hbase) (hbelow hbase) hbase.2.2.2

theorem findFreeRange_exact (backing : ZiAddressSpaceBacking) (space : ZiAddressSpace)
    (hactive : addressSpaceIsActive backing space = true)
    (hregions : ∀ region ∈ space.regions,
      region.virtualBase+region.size ≤ userAddressMaxExclusive) (searchBase searchEnd size k : ℕ)
    (hlow : userAddressMin ≤ searchBase) (hhigh : searchEnd ≤ userAddressMaxExclusive)
    (hsize : size ≠ 0) (hpages : size%4096 = 0) (hfits : searchBase+size ≤ searchEnd)
    (hpage : 12 ≤ k) (hk : k < 64) :
    ((∃ base, ziAddressSpaceFindFreeRange backing space searchBase searchEnd size (2^k) =
        .ok base ∧ IsLeast (freeRanges space.regions searchBase searchEnd size (2^k)) base) ∨
      ziAddressSpaceFindFreeRange backing space searchBase searchEnd size (2^k) =
          .error .notFound ∧
        freeRanges space.regions searchBase searchEnd size (2^k) = ∅) ∧
    ∀ candidate, 2^k ∣ candidate → ∃ isFree next,
      freeRangeScan candidate size (2^k) space.regions true candidate = some (isFree, next) ∧
        (isFree = false → candidate < next) := by
  constructor
  · obtain ⟨first,hfirst,haligned⟩ :=
      alignUpU64_eq hk (show searchBase ≤ userAddressMaxExclusive by omega)
    have hdvd : 4096 ∣ 2^k := Nat.pow_dvd_pow 2 hpage
    rw [ziAddressSpaceFindFreeRange,hactive,Nat.and_two_pow_sub_one_eq_mod,Nat.mod_self,
      and_offsetMask,and_offsetMask,Nat.mod_eq_zero_of_dvd hdvd,hpages,
      if_neg (by grind),hfirst]
    refine freeRangeSearch_spec hk hsize hregions haligned.dvd haligned.le ?_ (by omega)
    intro base hbase
    exact haligned.le_of_dvd hbase.2.2.1 hbase.1
  · intro candidate hcandidate
    obtain ⟨isFree,next,hscan,-,-,-,hmore,-⟩ :=
      freeRangeScan_spec size true hk hregions hcandidate
    exact ⟨isFree,next,hscan,fun hfalse => (hmore hfalse).resolve_left nofun⟩

theorem findFreeRange_exact_sample :
    let space := { sampleSpace with regions := [⟨0x14000,0,1,0,0⟩,⟨0x10000,0,3,0,0⟩] }
    IsLeast (freeRanges space.regions 0x10000 0x20000 0x2000 (2^12)) 0x15000 := by
  intro space
  rcases (findFreeRange_exact megabyteBacking space (by decide) (by decide) 0x10000 0x20000 0x2000
    12 le_rfl (by decide) (by decide) (by decide) (by decide) le_rfl (by decide)).1 with
    ⟨base,hfound,hleast⟩ | ⟨hmissing,-⟩
  · cases hfound
    exact hleast
  · cases hmissing

end Search

end Zizium
