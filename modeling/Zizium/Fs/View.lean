import Zizium.Fs.Prepare

/-!
# The staged view

The images of a transaction laid over the device: what the volume will hold once it is committed.
-/

namespace Zizium

open Bytes BlockIO List Function

namespace ZiFsTransaction

def targets (transaction : ZiFsTransaction) : List ℕ := transaction.blockImages.map Prod.fst

def view (transaction : ZiFsTransaction) (image : ℕ → Block) (n : ℕ) : Block :=
  (transaction.stagedBlock n).getD (image n)

variable {transaction : ZiFsTransaction} {img : ℕ → Block} {n : ℕ} {data : Block}

theorem stagedBlock_eq_none_iff : transaction.stagedBlock n = none ↔ n ∉ transaction.targets := by
  simp only [stagedBlock,Option.map_eq_none_iff,find?_eq_none,targets,mem_map,
    decide_eq_true_eq,not_exists,not_and]

theorem mem_targets_of_stagedBlock (h : transaction.stagedBlock n = some data) :
    n ∈ transaction.targets := by
  by_contra hn
  rw [stagedBlock_eq_none_iff.mpr hn] at h
  cases h

theorem view_of_notMem (h : n ∉ transaction.targets) : transaction.view img n = img n := by
  rw [view,stagedBlock_eq_none_iff.mpr h]
  rfl

theorem view_of_stagedBlock (h : transaction.stagedBlock n = some data) :
    transaction.view img n = data := by
  rw [view,h]
  rfl

theorem view_addImage (h : n ∉ transaction.targets) : (transaction.addImage n data).view img =
      update (transaction.view img) n data := by
  have hnone := stagedBlock_eq_none_iff.mpr h
  simp only [stagedBlock,Option.map_eq_none_iff] at hnone
  funext k
  by_cases hk : k = n
  · subst hk
    simp [view,stagedBlock,addImage,find?_append,hnone]
  · have hk' : ¬n = k := fun h => hk h.symm
    rw [update_of_ne hk]
    simp [view,stagedBlock,addImage,find?_append,hk']

theorem view_setImage (h : n ∈ transaction.targets) : (transaction.setImage n data).view img =
      update (transaction.view img) n data := by
  have hfind : ∀ (l : List BlockImage) (k : ℕ),
      ((l.map fun i => if i.1 = n then (n, data) else i).find? fun i => i.1 = k) =
        if k = n then (l.find? fun i => i.1 = n).map fun _ => (n, data)
        else l.find? fun i => i.1 = k := by
    intro l k
    induction l with
    | nil => simp
    | cons i l ih =>
      simp only [map_cons,find?_cons,ih]
      by_cases hi : i.1 = n
      · by_cases hk : k = n
        · simp [hi,hk]
        · have hk' : ¬n = k := fun h => hk h.symm
          simp [hi,hk,hk']
      · by_cases hk : k = n
        · simp [hi,hk]
        · simp [hi,hk]
  funext k
  simp only [view,stagedBlock,setImage,hfind]
  by_cases hk : k = n
  · subst hk
    have hsome : (transaction.blockImages.find? fun i => i.1 = k).isSome := by
      rw [find?_isSome]
      obtain ⟨i,hi,hik⟩ := mem_map.mp h
      exact ⟨i,hi,by simpa using hik⟩
    obtain ⟨i,hi⟩ := Option.isSome_iff_exists.mp hsome
    simp [hi]
  · rw [update_of_ne hk,if_neg hk]
    rfl

@[simp] theorem targets_addImage :
    (transaction.addImage n data).targets = transaction.targets ++ [n] := by
  simp [targets,addImage]

@[simp] theorem targets_setImage : (transaction.setImage n data).targets = transaction.targets := by
  simp only [targets,setImage,map_map]
  apply map_congr_left
  intro i _
  by_cases hi : i.1 = n
  · simp [hi]
  · simp [hi]

/-! ### What a staging step may do -/

/-- Only images for blocks in `P` are added, each block has at most one image, and the
identity of the transaction is kept. -/
structure Grows (P : ℕ → Prop) (before after : ZiFsTransaction) : Prop where
  sourceGeneration : after.sourceGeneration = before.sourceGeneration
  targetGeneration : after.targetGeneration = before.targetGeneration
  transactionId : after.transactionId = before.transactionId
  capacity : after.blockImageCapacity = before.blockImageCapacity
  state : after.state = before.state
  targets : ∀ n ∈ after.targets, n ∈ before.targets ∨ P n
  kept : ∀ n ∈ before.targets, n ∈ after.targets
  nodup : before.targets.Nodup → after.targets.Nodup

namespace Grows

variable {P P' : ℕ → Prop} {a b c : ZiFsTransaction}

theorem refl (P : ℕ → Prop) (a : ZiFsTransaction) : a.Grows P a :=
  ⟨rfl,rfl,rfl,rfl,rfl,fun _ h => .inl h,fun _ h => h,fun h => h⟩

theorem trans (h : a.Grows P b) (h' : b.Grows P c) : a.Grows P c := by
  refine ⟨h'.sourceGeneration.trans h.sourceGeneration,
    h'.targetGeneration.trans h.targetGeneration,h'.transactionId.trans h.transactionId,
    h'.capacity.trans h.capacity,h'.state.trans h.state,?_,fun n hn => h'.kept n (h.kept n hn),
    fun hn => h'.nodup (h.nodup hn)⟩
  intro n hn
  rcases h'.targets n hn with hn | hn
  · exact h.targets n hn
  · exact .inr hn

theorem addImage (h : n ∉ a.targets) (hn : P n) : a.Grows P (a.addImage n data) := by
  refine ⟨rfl,rfl,rfl,rfl,rfl,?_,?_,?_⟩
  · intro k hk
    rw [targets_addImage] at hk
    rcases mem_append.mp hk with hk | hk
    · exact .inl hk
    · cases mem_singleton.mp hk
      exact .inr hn
  · intro k hk
    rw [targets_addImage]
    exact mem_append_left _ hk
  · intro hnodup
    rw [targets_addImage]
    refine nodup_append.mpr ⟨hnodup,by simp,?_⟩
    intro k hk m hm heq
    cases mem_singleton.mp hm
    exact h (heq ▸ hk)

theorem setImage : a.Grows P (a.setImage n data) :=
  ⟨rfl,rfl,rfl,rfl,rfl,fun k hk => .inl (by simpa using hk),fun k hk => by simpa using hk,
    fun h => by simpa using h⟩

end Grows

end ZiFsTransaction

/-! ### Staging a block -/

variable {vol : ZiFsVolume} {img : ℕ → Block} {tx tx' : ZiFsTransaction} {block : ℕ}

theorem transactionStageExistingBlock_ok {data : Block}
    (h : (transactionStageExistingBlock vol block).eval img tx = (.ok data, tx')) :
    data = tx.view img block ∧ tx'.view img = tx.view img ∧ block ∈ tx'.targets ∧
      tx'.deferredExtents = tx.deferredExtents := by
  simp only [transactionStageExistingBlock,TaskM.failIf_bind_ok_iff,TaskM.get_bind_ok_iff,
    not_le,ge_iff_le] at h
  replace h := h.2
  cases hs : tx.stagedBlock block with
  | some staged =>
    rw [hs] at h
    cases h
    exact ⟨(ZiFsTransaction.view_of_stagedBlock hs).symm,rfl,
      ZiFsTransaction.mem_targets_of_stagedBlock hs,rfl⟩
  | none =>
    have hnew := ZiFsTransaction.stagedBlock_eq_none_iff.mp hs
    rw [hs] at h
    simp only [TaskM.failIf_bind_ok_iff,TaskM.lift_bind_ok_iff,TaskM.modify_bind_ok_iff,
      TaskM.pure_ok_iff,ZiBlockDevice.readBlock_ok_iff] at h
    obtain ⟨-,_,⟨-,rfl⟩,rfl,rfl⟩ := h
    have hview : tx.view img block = img block := ZiFsTransaction.view_of_notMem hnew
    refine ⟨hview.symm,?_,by simp,rfl⟩
    rw [ZiFsTransaction.view_addImage hnew,← hview,update_eq_self]

theorem editStagedBlock_ok {α : Type} {edit : Block → Result (α × Block)} {a : α}
    (h : (editStagedBlock vol block edit).eval img tx = (.ok a, tx')) :
    ∃ data, edit (tx.view img block) = .ok (a, data) ∧
      tx'.view img = update (tx.view img) block data ∧
      tx'.deferredExtents = tx.deferredExtents := by
  obtain ⟨data,tx1,hstage,h⟩ := TaskM.bind_ok_iff.mp h
  simp only [TaskM.lift_bind_ok_iff,TaskM.modify_bind_ok_iff,TaskM.pure_ok_iff,
    ReadM.eval_ofExcept] at h
  obtain ⟨⟨a',data'⟩,hedit,rfl,rfl⟩ := h
  obtain ⟨rfl,hview,hmem,hdef⟩ := transactionStageExistingBlock_ok hstage
  refine ⟨data',hedit,?_,hdef⟩
  rw [ZiFsTransaction.view_setImage hmem,hview]

end Zizium
