import Zizium.Security
import Mathlib.Data.Nat.Bitwise

/-!
# What an access check grants

The ordered access check right by right: a right is granted if and only if the first entry for the
token that has it allows it.
-/

namespace Zizium

open BlockIO List

/-- Every right of the first mask is in the second. -/
def RightsWithin (access rights : ℕ) : Prop :=
  ∀ bit, access.testBit bit = true → rights.testBit bit = true

theorem RightsWithin.trans {a b c : ℕ} (hab : RightsWithin a b) (hbc : RightsWithin b c) :
    RightsWithin a c := fun bit h => hbc bit (hab bit h)

theorem RightsWithin.lt {a b : ℕ} (h : RightsWithin a b) {n : ℕ} (hb : b < 2^n) : a < 2^n := by
  refine Nat.lt_pow_two_of_testBit a fun bit hbit => ?_
  by_contra hset
  rw [Bool.not_eq_false] at hset
  have hlt : b < 2^bit := Nat.lt_of_lt_of_le hb (Nat.pow_le_pow_right (Nat.succ_pos 1) hbit)
  have hclear := Nat.testBit_lt_two_pow hlt
  rw [h bit hset] at hclear
  cases hclear

/-- An entry of an access list that the check looks at. -/
def ZiAce.AppliesTo (entry : ZiAce) (token : ZiAccessToken) : Prop :=
  entry.inheritanceFlags &&& aceInheritOnly = 0 ∧ tokenContainsId token entry.trustee = true

variable {entries : List ZiAce}

def ApprovedIn (token : ZiAccessToken) (bit : ℕ) (entries : List ZiAce) : Prop :=
  ∃ before entry after, entries = before ++ entry :: after ∧ entry.AppliesTo token ∧
    entry.type = aceAllow ∧ entry.accessMask.testBit bit = true ∧
    ∀ earlier ∈ before, earlier.AppliesTo token → earlier.accessMask.testBit bit = false

/-- The descriptor allows the token every right of the mask. -/
def Approves (descriptor : ZiSecurityDescriptor) (token : ZiAccessToken) (access : ℕ) : Prop :=
  ∀ bit, access.testBit bit = true → ∃ dacl, descriptor.dacl = some dacl ∧
    ApprovedIn token bit dacl.entries

variable {token : ZiAccessToken} {entry : ZiAce} {bit : ℕ}

theorem not_approvedIn_nil : ¬ ApprovedIn token bit [] := by
  rintro ⟨before,found,after,hnil,-⟩
  simp at hnil

theorem approvedIn_cons : ApprovedIn token bit (entry :: entries) ↔
    (entry.AppliesTo token ∧ entry.accessMask.testBit bit = true ∧ entry.type = aceAllow) ∨
      ((entry.AppliesTo token → entry.accessMask.testBit bit = false) ∧
        ApprovedIn token bit entries) := by
  constructor
  · rintro ⟨before,found,after,hsplit,happlies,hallow,hbit,hbefore⟩
    cases before with
    | nil =>
      cases hsplit
      exact .inl ⟨happlies,hbit,hallow⟩
    | cons first before =>
      cases hsplit
      exact .inr ⟨hbefore entry mem_cons_self,before,found,after,rfl,happlies,hallow,
        hbit,fun earlier hmem => hbefore earlier (mem_cons_of_mem entry hmem)⟩
  · rintro (⟨happlies,hbit,hallow⟩ | ⟨hskip,before,found,after,rfl,hfound⟩)
    · exact ⟨[],entry,entries,rfl,happlies,hallow,hbit,fun _ hmem => absurd hmem not_mem_nil⟩
    · obtain ⟨happlies,hallow,hbit,hbefore⟩ := hfound
      exact ⟨entry :: before,found,after,rfl,happlies,hallow,hbit,
        forall_mem_cons.mpr ⟨hskip,hbefore⟩⟩

theorem testBit_and_complement {remaining relevant : ℕ} (hrelevant : relevant < 2^32)
    (hremaining : remaining < 2^32) : (remaining &&& (uint32Max-relevant)).testBit bit =
      (remaining.testBit bit && !relevant.testBit bit) := by
  rw [Nat.testBit_and,show uint32Max-relevant = 2^32-(relevant+1) by
    show 4294967295-relevant = 4294967296-(relevant+1)
    omega,Nat.testBit_two_pow_sub_succ hrelevant]
  by_cases hbit : bit < 32
  · rw [decide_eq_true hbit,Bool.true_and]
  · have hlt := Nat.lt_of_lt_of_le hremaining
      (Nat.pow_le_pow_right (Nat.succ_pos 1) (Nat.le_of_not_lt hbit))
    rw [Nat.testBit_lt_two_pow hlt,Bool.false_and,Bool.false_and]

theorem accessCheckLoop_ok_iff {remaining granted result : ℕ} (hremaining : remaining < 2^32)
    (hnone : remaining ≠ 0) : accessCheckLoop token remaining granted entries = .ok result ↔
      result = granted ||| remaining ∧
        ∀ bit, remaining.testBit bit = true → ApprovedIn token bit entries := by
  have hsome : ∃ bit, remaining.testBit bit = true := Nat.exists_testBit_of_ne_zero hnone
  induction entries generalizing remaining granted with
  | nil =>
    obtain ⟨bit,hbit⟩ := hsome
    constructor
    · intro h
      cases h
    · rintro ⟨-,happroved⟩
      exact absurd (happroved bit hbit) not_approvedIn_nil
  | cons entry entries ih =>
    rw [accessCheckLoop]
    by_cases hskip : entry.inheritanceFlags &&& aceInheritOnly ≠ 0 ∨
        tokenContainsId token entry.trustee = false
    · have hother : ¬ entry.AppliesTo token := by
        rintro ⟨hinherit,hcontains⟩
        rcases hskip with h | h
        · exact h hinherit
        · rw [hcontains] at h
          cases h
      rw [if_pos hskip]
      refine (ih hremaining hnone hsome).trans ?_
      simp only [approvedIn_cons,hother,false_and,false_implies,true_and,false_or]
    · rw [if_neg hskip]
      rw [not_or,not_not,Bool.not_eq_false] at hskip
      have happlies : entry.AppliesTo token := hskip
      simp only [approvedIn_cons,happlies,true_and,true_implies]
      generalize hrelevant : entry.accessMask &&& remaining = relevant
      have hbits : ∀ bit, remaining.testBit bit = true →
          relevant.testBit bit = entry.accessMask.testBit bit := by
        intro bit hbit
        rw [← hrelevant,Nat.testBit_and,hbit,Bool.and_true]
      have hwithin : RightsWithin relevant remaining := by
        intro bit hbit
        rw [← hrelevant,Nat.testBit_and,Bool.and_eq_true] at hbit
        exact hbit.2
      by_cases hzero : relevant = 0
      · -- The entry has none of the rights that are left.
        rw [if_pos hzero]
        refine (ih hremaining hnone hsome).trans ?_
        refine and_congr_right fun _ => forall₂_congr fun bit hbit => ?_
        rw [← hbits bit hbit,hzero,Nat.zero_testBit]
        simp
      · rw [if_neg hzero]
        obtain ⟨decided,hdecided⟩ := Nat.exists_testBit_of_ne_zero hzero
        have hmask : entry.accessMask.testBit decided = true :=
          (hbits decided (hwithin decided hdecided)).symm.trans hdecided
        -- An entry that does not allow its rights makes the check fail.
        have hrefused : entry.type ≠ aceAllow → ¬ ∀ bit, remaining.testBit bit = true →
            entry.accessMask.testBit bit = true ∧ entry.type = aceAllow ∨
              entry.accessMask.testBit bit = false ∧ ApprovedIn token bit entries := by
          intro htype hall
          rcases hall decided (hwithin decided hdecided) with ⟨-,hallow⟩ | ⟨hnot,-⟩
          · exact htype hallow
          · rw [hmask] at hnot
            cases hnot
        have hleft : ∀ bit, (remaining &&& (uint32Max-relevant)).testBit bit =
            (remaining.testBit bit && !relevant.testBit bit) :=
          fun bit => testBit_and_complement (hwithin.lt hremaining) hremaining
        by_cases hallow : entry.type = aceAllow
        · have hdeny : ¬ entry.type = aceDeny := by
            rw [hallow]
            decide
          rw [if_neg hdeny,if_neg (not_not.mpr hallow)]
          have hunion : granted ||| relevant ||| (remaining &&& (uint32Max-relevant)) =
              granted ||| remaining := by
            refine Nat.eq_of_testBit_eq fun bit => ?_
            rw [Nat.testBit_or,Nat.testBit_or,Nat.testBit_or,hleft]
            have := hwithin bit
            cases hset : relevant.testBit bit <;> cases hrest : remaining.testBit bit <;>
              simp_all
          have happroved : (∀ bit, remaining.testBit bit = true →
              entry.accessMask.testBit bit = true ∧ entry.type = aceAllow ∨
                entry.accessMask.testBit bit = false ∧ ApprovedIn token bit entries) ↔
              ∀ bit, (remaining &&& (uint32Max-relevant)).testBit bit = true →
                ApprovedIn token bit entries := by
            refine forall_congr' fun bit => ?_
            rw [hleft,Bool.and_eq_true,Bool.not_eq_true',and_imp]
            refine forall_congr' fun hbit => ?_
            rw [hbits bit hbit]
            cases entry.accessMask.testBit bit <;> simp [hallow]
          rw [happroved,← hunion]
          by_cases hdone : remaining &&& (uint32Max-relevant) = 0
          · rw [if_pos hdone,hdone,Except.pure_ok_iff,Nat.or_zero]
            simp
          · rw [if_neg hdone]
            exact ih (Nat.lt_of_le_of_lt Nat.and_le_left hremaining) hdone
              (Nat.exists_testBit_of_ne_zero hdone)
        · constructor
          · intro h
            split_ifs at h
          · rintro ⟨-,hall⟩
            exact absurd hall (hrefused hallow)

variable {desc : ZiSecurityDescriptor} {wanted granted : ℕ}

section

variable (hreq : wanted < 2^32)

include hreq

theorem ziSecurityAccessCheck_ok_iff : ziSecurityAccessCheck desc token wanted = .ok granted ↔
      outsideFullControl wanted = false ∧
        ziSecurityDescriptorValidate desc = true ∧ ziSecurityTokenValidate token = true ∧
        granted = wanted ∧ Approves desc token wanted := by
  rw [ziSecurityAccessCheck,Except.failIf_bind_ok_iff]
  simp only [not_or,Bool.not_eq_true,Bool.not_eq_false,and_assoc]
  refine and_congr_right fun _ => and_congr_right fun _ => and_congr_right fun _ => ?_
  by_cases hzero : wanted = 0
  · subst hzero
    rw [if_pos rfl,Except.pure_ok_iff]
    simp [Approves]
  · rw [if_neg hzero]
    obtain ⟨bit,hbit⟩ := Nat.exists_testBit_of_ne_zero hzero
    split
    · rename_i hdacl
      simp only [Approves,hdacl]
      simpa using fun _ => ⟨bit,hbit⟩
    · rename_i dacl hdacl
      have happroves : Approves desc token wanted ↔
          ∀ bit, wanted.testBit bit = true → ApprovedIn token bit dacl.entries := by
        simp only [Approves,hdacl,Option.some.injEq,exists_eq_left']
      rw [happroves]
      split_ifs with hempty
      · rw [length_eq_zero_iff] at hempty
        constructor
        · intro h
          cases h
        · rintro ⟨-,happroved⟩
          have hnil := happroved bit hbit
          rw [hempty] at hnil
          exact absurd hnil not_approvedIn_nil
      · rw [accessCheckLoop_ok_iff hreq hzero,Nat.zero_or]

section

variable (h : ziSecurityAccessCheck desc token wanted = .ok granted)

include h

theorem ziSecurityAccessCheck_within : RightsWithin granted wanted := by
  obtain ⟨-,-,-,rfl,-⟩ := (ziSecurityAccessCheck_ok_iff hreq).mp h
  exact fun _ hbit => hbit

theorem ziSecurityAccessCheck_approves : Approves desc token granted := by
  obtain ⟨-,-,-,rfl,happroves⟩ := (ziSecurityAccessCheck_ok_iff hreq).mp h
  exact happroves

end

end

/-! ## Changes to the list that do not matter -/

/-- The second list is the first with entries added that are not for the token. -/
inductive InsertsOthers (token : ZiAccessToken) : List ZiAce → List ZiAce → Prop where
  | nil : InsertsOthers token [] []
  | keep (entry : ZiAce) {entries entries' : List ZiAce}
    (h : InsertsOthers token entries entries') :
      InsertsOthers token (entry :: entries) (entry :: entries')
  | insert {entry : ZiAce} (hother : ¬ entry.AppliesTo token) {entries entries' : List ZiAce}
      (h : InsertsOthers token entries entries') : InsertsOthers token entries (entry :: entries')

theorem InsertsOthers.approvedIn {entries' : List ZiAce}
    (h : InsertsOthers token entries entries') :
    ApprovedIn token bit entries' ↔ ApprovedIn token bit entries := by
  induction h with
  | nil => exact Iff.rfl
  | keep entry _ ih => rw [approvedIn_cons,approvedIn_cons,ih]
  | insert hother _ ih =>
    rw [approvedIn_cons,ih]
    simp only [hother,false_and,false_implies,true_and,false_or]

theorem approvedIn_swap {first second : ZiAce} (htype : first.type = second.type)
    (before after : List ZiAce) : ApprovedIn token bit (before ++ second :: first :: after) ↔
      ApprovedIn token bit (before ++ first :: second :: after) := by
  induction before with
  | nil =>
    simp only [nil_append,approvedIn_cons,htype]
    cases first.accessMask.testBit bit <;> cases second.accessMask.testBit bit <;>
      simp
    tauto
  | cons entry before ih => rw [cons_append,cons_append,approvedIn_cons,approvedIn_cons,ih]

def ZiSecurityDescriptor.withEntries (descriptor : ZiSecurityDescriptor) (dacl : ZiAcl)
    (entries : List ZiAce) : ZiSecurityDescriptor :=
  { descriptor with dacl := some { dacl with entries := entries } }

theorem approves_withEntries (dacl : ZiAcl) (entries : List ZiAce) (access : ℕ) :
    Approves (desc.withEntries dacl entries) token access ↔
      ∀ bit, access.testBit bit = true → ApprovedIn token bit entries := by
  simp [Approves,ZiSecurityDescriptor.withEntries]

theorem ziSecurityAccessCheck_isOk_iff (hreq : wanted < 2^32) :
    (ziSecurityAccessCheck desc token wanted).isOk = true ↔ outsideFullControl wanted = false ∧
        ziSecurityDescriptorValidate desc = true ∧ ziSecurityTokenValidate token = true ∧
        Approves desc token wanted := by
  have hok : (ziSecurityAccessCheck desc token wanted).isOk = true ↔
      ∃ granted, ziSecurityAccessCheck desc token wanted = .ok granted := by
    cases ziSecurityAccessCheck desc token wanted with
    | error status => simp [Except.isOk,Except.toBool]
    | ok granted => simp [Except.isOk,Except.toBool]
  rw [hok]
  simp only [ziSecurityAccessCheck_ok_iff hreq]
  constructor
  · rintro ⟨granted,hinside,hdesc,htoken,-,happroves⟩
    exact ⟨hinside,hdesc,htoken,happroves⟩
  · rintro ⟨hinside,hdesc,htoken,happroves⟩
    exact ⟨wanted,hinside,hdesc,htoken,rfl,happroves⟩

theorem outsideFullControl_or (first second : ℕ) : outsideFullControl (first ||| second) = false ↔
      outsideFullControl first = false ∧ outsideFullControl second = false := by
  simp only [outsideFullControl,decide_eq_false_iff_not,not_not,Nat.and_or_distrib_right,
    Nat.or_eq_zero_iff]

theorem approves_or (first second : ℕ) : Approves desc token (first ||| second) ↔
      Approves desc token first ∧ Approves desc token second := by
  simp only [Approves,Nat.testBit_or,Bool.or_eq_true,or_imp,forall_and]

theorem isOk_withEntries {dacl : ZiAcl} (hdacl : desc.dacl = some dacl)
    (hvalid : ziSecurityDescriptorValidate (desc.withEntries dacl entries) =
      ziSecurityDescriptorValidate desc)
    (hsame : ∀ bit, ApprovedIn token bit entries ↔ ApprovedIn token bit dacl.entries)
    (requested : BitVec 32) :
    (ziSecurityAccessCheck (desc.withEntries dacl entries) token requested.toNat).isOk =
      (ziSecurityAccessCheck desc token requested.toNat).isOk := by
  rw [Bool.eq_iff_iff,ziSecurityAccessCheck_isOk_iff requested.isLt,
    ziSecurityAccessCheck_isOk_iff requested.isLt,hvalid,approves_withEntries]
  simp only [hsame,Approves,hdacl,Option.some.injEq,exists_eq_left']

theorem validate_withEntries_perm {dacl : ZiAcl} (hdacl : desc.dacl = some dacl)
    (hperm : entries.Perm dacl.entries) :
    ziSecurityDescriptorValidate (desc.withEntries dacl entries) =
      ziSecurityDescriptorValidate desc := by
  rw [ziSecurityDescriptorValidate,ziSecurityDescriptorValidate,
    ZiSecurityDescriptor.withEntries,hdacl]
  dsimp only
  rw [hperm.length_eq,hperm.all_eq]

theorem accessCheck_exact (hdescriptor : ziSecurityDescriptorValidate desc = true)
    (htoken : ziSecurityTokenValidate token = true) :
    (∀ requested : BitVec 32, requested ≠ 0 → outsideFullControl requested.toNat = false →
      ∀ granted, ziSecurityAccessCheck desc token requested.toNat = .ok granted ↔
        granted = requested.toNat ∧ Approves desc token requested.toNat) ∧
    (∀ first second : BitVec 32,
      (ziSecurityAccessCheck desc token (first ||| second).toNat).isOk = true ↔
        (ziSecurityAccessCheck desc token first.toNat).isOk = true ∧
          (ziSecurityAccessCheck desc token second.toNat).isOk = true) ∧
    (∀ dacl entries, desc.dacl = some dacl → InsertsOthers token dacl.entries entries →
      ziSecurityDescriptorValidate (desc.withEntries dacl entries) = true → ∀ requested : BitVec 32,
        (ziSecurityAccessCheck (desc.withEntries dacl entries) token requested.toNat).isOk =
          (ziSecurityAccessCheck desc token requested.toNat).isOk) ∧
    ∀ dacl before first second after, desc.dacl = some dacl →
      dacl.entries = before ++ first :: second :: after → first.type = second.type →
      ∀ requested : BitVec 32,
        (ziSecurityAccessCheck (desc.withEntries dacl (before ++ second :: first :: after))
          token requested.toNat).isOk =
          (ziSecurityAccessCheck desc token requested.toNat).isOk := by
  refine ⟨fun requested hnone hinside granted => ?_,fun first second => ?_,
    fun dacl entries hdacl hinserts hvalid => ?_,
    fun dacl before first second after hdacl hentries htype => ?_⟩
  · rw [ziSecurityAccessCheck_ok_iff requested.isLt]
    simp only [hinside,hdescriptor,htoken,true_and]
  · rw [ziSecurityAccessCheck_isOk_iff first.isLt,ziSecurityAccessCheck_isOk_iff second.isLt,
      ziSecurityAccessCheck_isOk_iff (first ||| second).isLt,BitVec.toNat_or,
      outsideFullControl_or,approves_or]
    tauto
  · exact isOk_withEntries hdacl (hvalid.trans hdescriptor.symm) fun bit => hinserts.approvedIn
  · have hperm : (before ++ second :: first :: after).Perm dacl.entries := by
      rw [hentries]
      exact (List.Perm.swap first second after).append_left before
    refine isOk_withEntries hdacl (validate_withEntries_perm hdacl hperm) fun bit => ?_
    rw [hentries]
    exact approvedIn_swap htype before after

/-- An entry that denies a group of others does not keep a user from writing. -/
theorem accessCheck_exact_sample : let entry : ZiAce := ⟨aceAllow,0,0,3,⟨3,7⟩⟩
    let denied : ZiAce := ⟨aceDeny,0,0,2,⟨2,9⟩⟩
    let dacl : ZiAcl := ⟨24,1,[entry]⟩
    let desc : ZiSecurityDescriptor := ⟨40,1,⟨3,7⟩,⟨2,8⟩,some dacl,0⟩
    let token : ZiAccessToken := ⟨40,1,⟨3,7⟩,[⟨2,8⟩],0⟩
    ziSecurityDescriptorValidate desc = true ∧ ziSecurityTokenValidate token = true ∧
      (ziSecurityAccessCheck (desc.withEntries dacl [denied,entry]) token 2).isOk = true := by
  intro entry denied dacl desc token
  have hdescriptor : ziSecurityDescriptorValidate desc = true := by decide
  have htoken : ziSecurityTokenValidate token = true := by decide
  have hother : ¬ denied.AppliesTo token := by
    rintro ⟨-,hcontains⟩
    exact absurd hcontains (by decide)
  refine ⟨hdescriptor,htoken,?_⟩
  have hsame := (accessCheck_exact hdescriptor htoken).2.2.1 dacl [denied,entry] rfl
    (.insert hother (.keep entry .nil)) (by decide) 2
  exact hsame.trans (by decide)

end Zizium
