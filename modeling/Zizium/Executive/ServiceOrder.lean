import Zizium.Executive.ServiceManifest
import Zizium.Greedy.Order

/-!
# The start order of services

`zi_service_resolve_start_order` emits one manifest a round: the least by start order and name
among those whose dependencies are emitted.
-/

namespace Zizium

open BlockIO List

/-! ### The key -/

def startKey (manifest : ZiServiceManifest) : ℕ ×ₗ List ℕ :=
  toLex (manifest.startOrder, manifest.name.map UInt8.toNat)

theorem compareBytes_neg_iff {left right : List UInt8} :
    compareBytes left right < 0 ↔ left.map UInt8.toNat < right.map UInt8.toNat := by
  induction left generalizing right with
  | nil => cases right <;> simp [compareBytes]
  | cons a left ih =>
    cases right with
    | nil => simp [compareBytes]
    | cons b right =>
      rw [compareBytes,map_cons,map_cons,cons_lt_cons_iff]
      by_cases hlt : a < b
      · simp [hlt,UInt8.lt_iff_toNat_lt.mp hlt]
      · by_cases hgt : b < a
        · have hnat : b.toNat < a.toNat := UInt8.lt_iff_toNat_lt.mp hgt
          simp only [hlt,hgt,if_true,if_false]
          omega
        · have heq : a = b := UInt8.le_antisymm (UInt8.not_lt.mp hgt) (UInt8.not_lt.mp hlt)
          simp [heq,ih]

theorem candidatePrecedes_iff {manifest current : ZiServiceManifest} :
    candidatePrecedes manifest current = true ↔ startKey manifest < startKey current := by
  rw [candidatePrecedes,startKey,startKey,Prod.Lex.toLex_lt_toLex]
  by_cases horder : manifest.startOrder = current.startOrder
  · simp [horder,compareViews,compareBytes_neg_iff]
  · simp [horder]

theorem name_eq_of_startKey_eq {manifest other : ZiServiceManifest}
    (h : startKey manifest = startKey other) : manifest.name = other.name := by
  have hnames : manifest.name.map UInt8.toNat = other.name.map UInt8.toNat :=
    congrArg (fun key => (ofLex key).2) h
  exact map_injective_iff.mpr (fun _ _ hab => UInt8.toNat_inj.mp hab) hnames

/-! ### The dependency relation -/

def DependsOn (manifest other : ZiServiceManifest) : Prop :=
  ∃ dependency ∈ manifest.dependencies, dependency.serviceName = other.name

/-- The manifests at some indices. -/
def manifestsAt (manifests : List ZiServiceManifest) (order : List ℕ) : List ZiServiceManifest :=
  order.filterMap fun index => manifests[index]?

/-- An array whose manifests are valid, have distinct names and depend on one another only. -/
structure ServiceSet (manifests : List ZiServiceManifest) : Prop where
  valid : ∀ manifest ∈ manifests, ziServiceManifestValidate manifest = .ok ()
  distinct : (manifests.map ZiServiceManifest.name).Nodup
  closed : ∀ manifest ∈ manifests, ∀ dependency ∈ manifest.dependencies,
    ∃ other ∈ manifests, other.name = dependency.serviceName

section Resolve

variable {manifests : List ZiServiceManifest} {manifest other : ZiServiceManifest}
  {emitted : ℕ → Bool} {order : List ℕ} {idx : ℕ}

theorem mem_manifestsAt :
    manifest ∈ manifestsAt manifests order ↔ ∃ idx ∈ order, manifests[idx]? = some manifest :=
  mem_filterMap

theorem considerCandidate_eq (manifests : List ZiServiceManifest) (emitted : ℕ → Bool) :
    considerCandidate manifests emitted = Greedy.keepLeast (fun entry => startKey entry.1)
        (fun entry => !(emitted entry.2 || !dependenciesAreEmitted manifests emitted entry.1)) := by
  funext current entry
  unfold considerCandidate Greedy.keepLeast
  by_cases hskip : (emitted entry.2 || !dependenciesAreEmitted manifests emitted entry.1) = true
  · rw [if_pos hskip,if_neg (by simp [hskip])]
  · rw [if_neg hskip,if_pos (by simpa using hskip)]
    cases current with
    | none => rfl
    | some best => simp [candidatePrecedes_iff]

namespace ServiceSet

variable (h : ServiceSet manifests)

include h

theorem nodup : manifests.Nodup := h.distinct.of_map

theorem eq_of_name_eq (hm : manifest ∈ manifests) (ho : other ∈ manifests)
    (hname : manifest.name = other.name) : manifest = other :=
  inj_on_of_nodup_map h.distinct hm ho hname

theorem eq_of_startKey_eq : ∀ x ∈ manifests, ∀ y ∈ manifests, startKey x = startKey y → x = y :=
  fun _ hx _ hy hkey => h.eq_of_name_eq hx hy (name_eq_of_startKey_eq hkey)

theorem index_unique {i j : ℕ} (hi : manifests[i]? = some manifest)
    (hj : manifests[j]? = some manifest) : i = j := by
  obtain ⟨hlt,-⟩ := List.getElem?_eq_some_iff.mp hi
  exact (List.getElem?_inj hlt h.nodup).mp (hi.trans hj.symm)

theorem mem_manifestsAt_iff (hidx : manifests[idx]? = some manifest) :
    manifest ∈ manifestsAt manifests order ↔ idx ∈ order := by
  rw [mem_manifestsAt]
  constructor
  · rintro ⟨i,hi,hget⟩
    rwa [h.index_unique hidx hget]
  · exact fun hi => ⟨idx,hi,hidx⟩

theorem findManifest_eq (hi : manifests[idx]? = some manifest) :
    findManifest manifests manifest.name = .ok idx := by
  have hfind : manifests.findIdx? (fun other => compareViews other.name manifest.name = 0) =
      some idx := by
    obtain ⟨hlt,hget⟩ := List.getElem?_eq_some_iff.mp hi
    rw [List.findIdx?_eq_some_iff_getElem]
    refine ⟨hlt,by simp [hget,compareViews,compareBytes_eq_zero_iff],?_⟩
    intro j hj
    simp only [compareViews,compareBytes_eq_zero_iff,decide_eq_true_eq]
    intro hname
    have hother : manifests[j] = manifest := h.eq_of_name_eq (getElem_mem _)
      (mem_of_getElem? hi) hname
    have : j = idx :=
      h.index_unique (List.getElem?_eq_some_iff.mpr ⟨by omega,hother⟩) hi
    omega
  rw [findManifest,hfind]
  rfl

/-! ### The checks -/

theorem forM_findManifest_eq (hm : manifest ∈ manifests) :
    (manifest.dependencies.forM fun dependency => do
      let _ ← findManifest manifests dependency.serviceName) = .ok () := by
  rw [Except.forM_ok_iff]
  intro dependency hdependency
  obtain ⟨other,ho,hname⟩ := h.closed manifest hm dependency hdependency
  obtain ⟨i,hi⟩ := mem_iff_getElem?.mp ho
  rw [← hname,h.findManifest_eq hi]
  rfl

theorem checkManifests_eq (previous rest) (hsplit : previous ++ rest = manifests) :
    checkManifests manifests previous rest = .ok () := by
  induction rest generalizing previous with
  | nil => rfl
  | cons manifest rest ih =>
    have hmem : manifest ∈ manifests := by simp [← hsplit]
    have hname : ¬∃ earlier ∈ previous, compareViews manifest.name earlier.name = 0 := by
      rintro ⟨earlier,hearlier,hcompare⟩
      have hdistinct := h.distinct
      rw [← hsplit,map_append,nodup_append] at hdistinct
      exact hdistinct.2.2 earlier.name (mem_map_of_mem hearlier) manifest.name (by simp)
        (compareBytes_eq_zero_iff.mp hcompare).symm
    rw [checkManifests,Except.failIf_bind_neg (not_not.mpr (h.valid manifest hmem)),
      Except.failIf_bind_neg hname,h.forM_findManifest_eq hmem]
    exact ih (previous ++ [manifest]) (by simpa using hsplit)

/-! ### A round -/

theorem dependenciesAreEmitted_iff (hemitted : ∀ i, emitted i = true ↔ i ∈ order)
    (hm : manifest ∈ manifests) :
    dependenciesAreEmitted manifests emitted manifest = true ↔
      ∀ other ∈ manifests, DependsOn manifest other → other ∈ manifestsAt manifests order := by
  rw [dependenciesAreEmitted,all_eq_true]
  constructor
  · rintro hall other ho ⟨dependency,hdependency,hname⟩
    obtain ⟨i,hi⟩ := mem_iff_getElem?.mp ho
    have hfound := hall dependency hdependency
    rw [hname,h.findManifest_eq hi] at hfound
    exact (h.mem_manifestsAt_iff hi).mpr ((hemitted i).mp hfound)
  · intro hall dependency hdependency
    obtain ⟨other,ho,hname⟩ := h.closed manifest hm dependency hdependency
    obtain ⟨i,hi⟩ := mem_iff_getElem?.mp ho
    rw [← hname,h.findManifest_eq hi]
    exact (hemitted i).mpr
      ((h.mem_manifestsAt_iff hi).mp (hall other ho ⟨dependency,hdependency,hname.symm⟩))

theorem eligible_iff (hemitted : ∀ i, emitted i = true ↔ i ∈ order)
    (hi : manifests[idx]? = some manifest) :
    (!(emitted idx || !dependenciesAreEmitted manifests emitted manifest)) = true ↔
      Greedy.Ready manifests DependsOn (manifestsAt manifests order) manifest := by
  have hm : manifest ∈ manifests := mem_of_getElem? hi
  have hplaced : manifest ∈ manifestsAt manifests order ↔ emitted idx = true :=
    (h.mem_manifestsAt_iff hi).trans (hemitted idx).symm
  rw [Bool.not_eq_true',Bool.or_eq_false_iff,Bool.not_eq_false',
    h.dependenciesAreEmitted_iff hemitted hm]
  constructor
  · rintro ⟨hnot,hneeded⟩
    exact ⟨hm,by simp [hplaced,hnot],hneeded⟩
  · intro hready
    exact ⟨by simpa [hplaced] using hready.notPlaced,hready.needed⟩

theorem selectCandidate_cases (hemitted : ∀ i, emitted i = true ↔ i ∈ order) :
    (selectCandidate manifests emitted = none ∧
      ∀ x, ¬Greedy.Ready manifests DependsOn (manifestsAt manifests order) x) ∨
    ∃ idx x, selectCandidate manifests emitted = some idx ∧ manifests[idx]? = some x ∧
      Greedy.LeastReady manifests DependsOn startKey (manifestsAt manifests order) x := by
  rw [selectCandidate,considerCandidate_eq]
  rcases Greedy.isBest_foldl_keepLeast (fun entry : ZiServiceManifest × ℕ => startKey entry.1)
    (fun entry => !(emitted entry.2 || !dependenciesAreEmitted manifests emitted entry.1))
    manifests.zipIdx with ⟨hbest,hnone⟩ | ⟨⟨x,i⟩,hx,hbest,hx',hleast⟩
  · refine .inl ⟨by rw [hbest]; rfl,?_⟩
    intro x hready
    obtain ⟨i,hi⟩ := mem_iff_getElem?.mp hready.mem
    have hx := hnone (x, i) (mk_mem_zipIdx_iff_getElem?.mpr hi)
    have hx' := (h.eligible_iff hemitted hi).mpr hready
    simp_all
  · have hi := mk_mem_zipIdx_iff_getElem?.mp hx
    refine .inr ⟨i,x,by rw [hbest]; rfl,hi,(h.eligible_iff hemitted hi).mp hx',?_⟩
    intro y hy
    obtain ⟨j,hj⟩ := mem_iff_getElem?.mp hy.mem
    exact hleast (y, j) (mk_mem_zipIdx_iff_getElem?.mpr hj)
      ((h.eligible_iff hemitted hj).mpr hy)

end ServiceSet

/-! ### The loop -/

/-- What holds before each round: the marks are those of the order so far, and it is greedy. -/
structure Emitting (manifests : List ZiServiceManifest) (emitted : ℕ → Bool) (order : List ℕ) :
    Prop where
  marks : ∀ i, emitted i = true ↔ i ∈ order
  inRange : ∀ i ∈ order, i < manifests.length
  nodup : order.Nodup
  greedy : Greedy.IsOrder manifests DependsOn startKey (manifestsAt manifests order)

theorem emitting_start (manifests : List ZiServiceManifest) :
    Emitting manifests (fun _ => false) [] where
  marks := by simp
  inRange := by simp
  nodup := nodup_nil
  greedy := Greedy.isOrder_nil

theorem Emitting.emit (h : ServiceSet manifests) (hstate : Emitting manifests emitted order)
    (hidx : manifests[idx]? = some manifest)
    (hleast : Greedy.LeastReady manifests DependsOn startKey (manifestsAt manifests order)
      manifest) : Emitting manifests (Function.update emitted idx true) (order ++ [idx]) where
  marks i := by
    by_cases hi : i = idx
    · simp [hi]
    · simp [hi,hstate.marks]
  inRange i hi := by
    rcases mem_append.mp hi with hi | hi
    · exact hstate.inRange i hi
    · rw [List.mem_singleton.mp hi]
      exact (List.getElem?_eq_some_iff.mp hidx).1
  nodup := by
    have hnew : idx ∉ order := fun hmem => hleast.notPlaced ((h.mem_manifestsAt_iff hidx).mpr hmem)
    rw [nodup_append]
    refine ⟨hstate.nodup,nodup_singleton idx,?_⟩
    rintro x hx y hy rfl
    exact hnew (mem_singleton.mp hy ▸ hx)
  greedy := by
    have hplaced : manifestsAt manifests (order ++ [idx]) =
        manifestsAt manifests order ++ [manifest] := by
      simp [manifestsAt,filterMap_append,hidx]
    rw [hplaced]
    exact hstate.greedy.concat hleast

theorem ServiceSet.emitManifests_cases (h : ServiceSet manifests) (rounds : ℕ)
    (hstate : Emitting manifests emitted order) (hrounds : order.length+rounds = manifests.length) :
    ∃ status final marks, emitManifests manifests rounds emitted order = (status, final) ∧
      Emitting manifests marks final ∧ ((status = .ok () ∧ final.length = manifests.length) ∨
        (status = .error .serviceDependencyCycle ∧ final.length < manifests.length ∧
          ∀ x, ¬Greedy.Ready manifests DependsOn (manifestsAt manifests final) x)) := by
  induction rounds generalizing emitted order with
  | zero => exact ⟨_,_,emitted,rfl,hstate,.inl ⟨rfl,hrounds⟩⟩
  | succ rounds ih =>
    rw [emitManifests]
    rcases h.selectCandidate_cases hstate.marks with ⟨hselect,hnone⟩ |
      ⟨idx,x,hselect,hi,hleast⟩
    · rw [hselect]
      exact ⟨_,_,emitted,rfl,hstate,.inr ⟨rfl,by omega,hnone⟩⟩
    · rw [hselect]
      exact ih (hstate.emit h hi hleast) (by simp; omega)

theorem manifestsAt_range (manifests : List ZiServiceManifest) :
    manifestsAt manifests (range manifests.length) = manifests := by
  induction manifests using reverseRecOn with
  | nil => rfl
  | append_singleton manifests manifest ih =>
    have hfront : manifestsAt (manifests ++ [manifest]) (range manifests.length) =
        manifestsAt manifests (range manifests.length) := by
      apply filterMap_congr
      intro i hi
      exact getElem?_append_left (mem_range.mp hi)
    rw [length_append,length_singleton,range_succ,manifestsAt,
      filterMap_append,← manifestsAt,hfront,ih]
    simp

theorem Emitting.perm_range (hstate : Emitting manifests emitted order)
    (hlen : order.length = manifests.length) : order.Perm (range manifests.length) := by
  have hsubset : order ⊆ range manifests.length := fun i hi => mem_range.mpr (hstate.inRange i hi)
  exact (subperm_of_subset hstate.nodup hsubset).perm_of_length_le (by simp [hlen])

theorem Emitting.perm_manifests (hstate : Emitting manifests emitted order)
    (hlen : order.length = manifests.length) : (manifestsAt manifests order).Perm manifests := by
  have hperm := (hstate.perm_range hlen).filterMap fun idx => manifests[idx]?
  rwa [← manifestsAt,← manifestsAt,manifestsAt_range] at hperm

theorem ServiceSet.exists_missing (h : ServiceSet manifests)
    (hlen : order.length < manifests.length) :
    ∃ x ∈ manifests, x ∉ manifestsAt manifests order := by
  by_contra hall
  push Not at hall
  have hsub : manifests.Subperm (manifestsAt manifests order) :=
    subperm_of_subset h.nodup hall
  have hle : (manifestsAt manifests order).length ≤ order.length := length_filterMap_le _ _
  have := hsub.length_le
  omega

theorem ServiceSet.resolve_cases (h : ServiceSet manifests) {orderCapacity : ℕ}
    (hnonempty : manifests ≠ []) (hcount : manifests.length ≤ ziServiceMaxManifests)
    (hcap : manifests.length ≤ orderCapacity) : ∃ status order marks,
      ziServiceResolveStartOrder manifests orderCapacity = (status, order) ∧
      Emitting manifests marks order ∧ ((status = .ok () ∧ order.length = manifests.length ∧
          Greedy.Acyclic manifests DependsOn) ∨
        (status = .error .serviceDependencyCycle ∧ ¬Greedy.Acyclic manifests DependsOn)) := by
  have hlen : manifests.length ≠ 0 := by simpa using hnonempty
  have hchecks : ¬(manifests.length = 0 ∨ manifests.length > ziServiceMaxManifests ∨
      orderCapacity < manifests.length) := by omega
  rw [ziServiceResolveStartOrder,if_neg hchecks,h.checkManifests_eq [] manifests rfl]
  obtain ⟨status,order,marks,hemit,hstate,hcases⟩ :=
    h.emitManifests_cases manifests.length (emitting_start manifests) (by simp)
  refine ⟨status,order,marks,hemit,hstate,?_⟩
  rcases hcases with ⟨hok,hfull⟩ | ⟨hcycle,hshort,hnone⟩
  · have hall : ∀ x ∈ manifests, x ∈ manifestsAt manifests order := fun x hx =>
      (hstate.perm_manifests hfull).mem_iff.mpr hx
    exact .inl ⟨hok,hfull,hstate.greedy.acyclic hall⟩
  · refine .inr ⟨hcycle,fun hacyclic => ?_⟩
    obtain ⟨x,hx⟩ := Greedy.exists_ready hacyclic (h.exists_missing hshort)
    exact hnone x hx

theorem ServiceSet.of_perm {permuted : List ZiServiceManifest} (h : ServiceSet manifests)
    (hperm : permuted.Perm manifests) : ServiceSet permuted where
  valid x hx := h.valid x (hperm.mem_iff.mp hx)
  distinct := (hperm.map ZiServiceManifest.name).nodup_iff.mpr h.distinct
  closed x hx dependency hdependency := by
    obtain ⟨other,ho,hname⟩ := h.closed x (hperm.mem_iff.mp hx) dependency hdependency
    exact ⟨other,hperm.mem_iff.mpr ho,hname⟩

end Resolve

theorem service_start_order_exact (manifests : List ZiServiceManifest) (orderCapacity : ℕ)
    (hset : ServiceSet manifests) (hnonempty : manifests ≠ [])
    (hcount : manifests.length ≤ ziServiceMaxManifests)
    (hcapacity : manifests.length ≤ orderCapacity) :
    -- success exactly without a cycle, and a cycle is reported otherwise
    ((ziServiceResolveStartOrder manifests orderCapacity).1 = .ok () ↔
      Greedy.Acyclic manifests DependsOn) ∧ (¬Greedy.Acyclic manifests DependsOn →
      (ziServiceResolveStartOrder manifests orderCapacity).1 = .error .serviceDependencyCycle) ∧
    ∀ order, ziServiceResolveStartOrder manifests orderCapacity = (.ok (), order) →
      -- all manifests, each behind its dependencies
      order.Perm (range manifests.length) ∧ (manifestsAt manifests order).Perm manifests ∧
      (∀ before manifest after, manifestsAt manifests order = before ++ manifest :: after →
        (∀ other ∈ manifests, DependsOn manifest other → other ∈ before) ∧
        -- the least of those not placed yet whose dependencies are placed
        ∀ other ∈ manifests, other ∉ before →
          (∀ needed ∈ manifests, DependsOn other needed → needed ∈ before) →
          startKey manifest ≤ startKey other) ∧
      -- the names do not depend on the order of the array
      ∀ permuted : List ZiServiceManifest, permuted.Perm manifests →
        ∀ capacity ≥ permuted.length, ∃ order',
          ziServiceResolveStartOrder permuted capacity = (.ok (), order') ∧
          (manifestsAt permuted order').map ZiServiceManifest.name =
            (manifestsAt manifests order).map ZiServiceManifest.name := by
  obtain ⟨status,order,marks,hresolve,hstate,hcases⟩ :=
    hset.resolve_cases hnonempty hcount hcapacity
  rw [hresolve]
  refine ⟨?_,?_,?_⟩
  · rcases hcases with ⟨hok,-,hacyclic⟩ | ⟨hcycle,hcyclic⟩
    · simp [hok,hacyclic]
    · simp [hcycle,hcyclic]
  · intro hcyclic
    rcases hcases with ⟨-,-,hacyclic⟩ | ⟨hcycle,-⟩
    · exact absurd hacyclic hcyclic
    · exact hcycle
  intro order' heq
  obtain ⟨rfl,rfl⟩ := Prod.mk.inj heq
  obtain ⟨hfull,hacyclic⟩ : order.length = manifests.length ∧
      Greedy.Acyclic manifests DependsOn := by
    rcases hcases with ⟨-,hfull,hacyclic⟩ | ⟨hcycle,-⟩
    · exact ⟨hfull,hacyclic⟩
    · cases hcycle
  refine ⟨hstate.perm_range hfull,hstate.perm_manifests hfull,?_,?_⟩
  · intro before manifest after hsplit
    have hleast := hstate.greedy before manifest after hsplit
    exact ⟨hleast.needed,fun other ho hbefore hneeded => hleast.least other ⟨ho,hbefore,hneeded⟩⟩
  · intro permuted hperm capacity hcapacity'
    have hset' : ServiceSet permuted := hset.of_perm hperm
    have hmem : ∀ x, x ∈ permuted ↔ x ∈ manifests := fun x => hperm.mem_iff
    obtain ⟨status,order',marks',hresolve',hstate',hcases'⟩ :=
      hset'.resolve_cases (fun h => hnonempty (by simpa [h] using hperm.symm))
        (hperm.length_eq ▸ hcount) hcapacity'
    rcases hcases' with ⟨rfl,hfull',-⟩ | ⟨-,hcyclic⟩
    · have hsame : manifestsAt permuted order' = manifestsAt manifests order := by
        apply Greedy.IsOrder.eq_of_length_eq hset.eq_of_startKey_eq
          ((Greedy.isOrder_congr hmem).mp hstate'.greedy) hstate.greedy
        rw [(hstate'.perm_manifests hfull').length_eq,(hstate.perm_manifests hfull).length_eq,
          hperm.length_eq]
      exact ⟨order',hresolve',by rw [hsame]⟩
    · exact absurd ((Greedy.acyclic_congr hmem).mpr hacyclic) hcyclic

def sampleServices : List ZiServiceManifest :=
  [{ sampleManifest with name := asciiText "Log", dependencies := [⟨sampleManifest.name,0⟩] },
    sampleManifest]

theorem service_start_order_exact_sample : ServiceSet sampleServices ∧
    ((ziServiceResolveStartOrder sampleServices 2).1 = .ok () ↔
      Greedy.Acyclic sampleServices DependsOn) := by
  have hset : ServiceSet sampleServices :=
    { valid := by decide, distinct := by decide, closed := by decide }
  exact ⟨hset,(service_start_order_exact sampleServices 2 hset (by decide) (by decide)
    (by decide)).1⟩

/-- An array without manifests has no cycle and is refused. -/
theorem service_start_order_empty :
    ServiceSet [] ∧ Greedy.Acyclic [] DependsOn ∧
      (ziServiceResolveStartOrder [] 16).1 ≠ .ok () := by
  refine ⟨⟨by simp,by simp,by simp⟩,?_,?_⟩
  · exact (@Greedy.isOrder_nil _ _ _ _ _ startKey).acyclic (by simp)
  · simp [ziServiceResolveStartOrder]

end Zizium
