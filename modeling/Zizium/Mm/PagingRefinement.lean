import Zizium.Mm.PagingRanges

/-!
# Page tables refine a page map

Whatever is called on a context, the tables behave as a partial map from canonical pages to frames,
and keep what the hardware relies on.
-/

namespace Zizium

open BlockIO Radix PageTree PagingState Function List

inductive PagingCall where
  | mapPage (virtualAddress physicalAddress : ℕ) (protection : UInt32)
  | mapRange (virtualAddress physicalAddress size : ℕ) (protection : UInt32)
  | unmapPage (virtualAddress : ℕ)
  | unmapRange (virtualAddress size : ℕ)
  | protectPage (virtualAddress : ℕ) (protection : UInt32)
  | protectRange (virtualAddress size : ℕ) (protection : UInt32)
  | query (virtualAddress : ℕ)

namespace PagingCall

def run (callbacks : ZiX64PagingCallbacks) (context : ZiX64PagingContext) :
    PagingCall → PagingState → Result Unit × PagingState
  | mapPage v p protection, st => ziX64PagingMapPage callbacks context v p protection st
  | mapRange v p size protection, st => ziX64PagingMapRange callbacks context v p size protection st
  | unmapPage v, st => ziX64PagingUnmapPage callbacks context v st
  | unmapRange v size, st => ziX64PagingUnmapRange callbacks context v size st
  | protectPage v protection, st => ziX64PagingProtectPage callbacks context v protection st
  | protectRange v size protection, st =>
    ziX64PagingProtectRange callbacks context v size protection st
  | query v, st => ((ziX64PagingQuery callbacks context v st).map fun _ => (), st)

def Admissible (m : PageMap) : PagingCall → Prop
  | mapPage v p protection => MapArguments v p protection ∧ m v = none
  | mapRange v p size protection =>
    MapRangeArguments v p size protection ∧ ∀ page, InRange v (size/4096) page → m page = none
  | unmapPage v => IsPage v ∧ m v ≠ none
  | unmapRange v size => RangeOk v size ∧ ∀ page, InRange v (size/4096) page → m page ≠ none
  | protectPage v protection => IsPage v ∧ ValidProtection protection ∧ m v ≠ none
  | protectRange v size protection =>
    RangeOk v size ∧ ValidProtection protection ∧
      ∀ page, InRange v (size/4096) page → m page ≠ none
  | query v => ziX64AddressIsCanonical v = true ∧ m (v-v%4096) ≠ none

/-- The pages that tables may be needed for. -/
def pages : PagingCall → ℕ
  | mapPage .. => 1
  | mapRange _ _ size _ => size/4096
  | _ => 0

def apply (m : PageMap) : PagingCall → PageMap
  | mapPage v p protection => update m v (some ⟨p,protection⟩)
  | mapRange v p size protection => m.add v p protection (size/4096)
  | unmapPage v => update m v none
  | unmapRange v size => m.drop v (size/4096)
  | protectPage v protection =>
    update m v ((m v).map fun mapping => ⟨mapping.physicalBase,protection⟩)
  | protectRange v size protection => m.protect v protection (size/4096)
  | query _ => m

end PagingCall

/-- The tables beside the map they stand for. -/
structure PagingRun where
  st : PagingState
  map : PageMap

namespace PagingRun

def step (callbacks : ZiX64PagingCallbacks) (context : ZiX64PagingContext) (run : PagingRun)
    (call : PagingCall) : PagingRun :=
  let done := call.run callbacks context run.st
  ⟨done.2,if done.1.toBool then call.apply run.map else run.map⟩

def after (callbacks : ZiX64PagingCallbacks) (context : ZiX64PagingContext) (run : PagingRun)
    (calls : List PagingCall) : PagingRun :=
  calls.foldl (step callbacks context) run

end PagingRun

/-- No page is writable and executable, a user page has the user bit on its path, no table below
the root is empty, and the pages held are the tables that can be reached. -/
structure TablesSound (st : PagingState) (root : ℕ) : Prop where
  writeOrExecute : ∀ path table index, path.length = 3 → tableAt st.tables root path = some table →
    st.tables table index &&& x64EntryPresent ≠ 0 →
    ¬(st.tables table index &&& x64EntryWrite ≠ 0 ∧ st.tables table index &&& x64EntryNoExecute = 0)
  userPath : ∀ path table index, path.length = 3 → tableAt st.tables root path = some table →
    st.tables table index &&& x64EntryPresent ≠ 0 → st.tables table index &&& x64EntryUser ≠ 0 →
    ∀ above next below parent, path = above ++ next :: below →
      tableAt st.tables root above = some parent → st.tables parent next &&& x64EntryUser ≠ 0
  occupied : ∀ path table, path ≠ [] → path.length ≤ 3 → tableAt st.tables root path = some table →
    ∃ index, st.tables table index &&& x64EntryPresent ≠ 0
  held : ∀ page, page ∈ st.held ↔
    ∃ path, path.length ≤ 3 ∧ tableAt st.tables root path = some page
  nodup : st.held.Nodup
  stray : st.stray = []

section Refinement

variable {st : PagingState} {root : ℕ} {m : PageMap} {t : PageTree} {cb : ZiX64PagingCallbacks}
  {ctx : ZiX64PagingContext}

/-- A context owns the whole root and no other page is held. -/
abbrev PagingState.Alone (st : PagingState) (root : ℕ) (m : PageMap) : Prop :=
  st.Maps root (fun _ => True) ∅ m

theorem PageTree.Holds.leaf_of_present (h : t.Holds st root (fun _ => True) ∅) {path : TablePath}
    {table : ℕ} {i : Fin 512} (hlen : path.length = 3) (hnode : t.node path = some table)
    (hpresent : st.tables table i &&& x64EntryPresent ≠ 0) :
    ∃ mapping, t.leaf (path ++ [i]) = some mapping ∧ mapping.Valid ∧
      MapsTo (st.tables table i) mapping := by
  have hentry := h.memory path table i hnode fun _ => trivial
  rcases (h.sound.present_iff hentry).mp hpresent with ⟨page,hpage⟩ | ⟨mapping,hmapping⟩
  · have := h.sound.wellFormed.short hpage
    rw [length_append,length_singleton] at this
    omega
  · rw [matches_leaf_iff hlen,hmapping] at hentry
    exact ⟨mapping,hmapping,h.sound.valid hmapping,hentry⟩

theorem PagingState.Alone.tablesSound (h : st.Alone root m) : TablesSound st root := by
  obtain ⟨t,hholds,hpop,-⟩ := h
  refine ⟨?_,?_,?_,?_,hholds.nodup,hholds.stray⟩
  · intro path table i hlen htable hpresent
    rw [hholds.tableAt_eq hlen.le fun _ _ => trivial] at htable
    obtain ⟨mapping,-,hvalid,hentry⟩ := hholds.leaf_of_present hlen htable hpresent
    exact hentry.not_writable_executable hvalid
  · intro path table i hlen htable hpresent huser above next below parent hpath hparent
    rw [hholds.tableAt_eq hlen.le fun _ _ => trivial] at htable
    obtain ⟨mapping,hleaf,-,hentry⟩ := hholds.leaf_of_present hlen htable hpresent
    rw [hentry.user] at huser
    have hsplit : path ++ [i] = (above ++ [next]) ++ (below ++ [i]) := by
      rw [hpath]
      simp
    rw [hsplit] at hleaf
    have hmark := hholds.sound.userPath hleaf huser (by simp) (by simp)
    obtain ⟨page,hpage⟩ := hholds.sound.wellFormed.node_of_leaf hleaf (by simp)
    have habove : above.length ≤ 2 := by
      rw [hpath,length_append,length_cons] at hlen
      omega
    rw [hholds.tableAt_eq (habove.trans (by decide)) fun _ _ => trivial] at hparent
    have hlink := (hholds.memory above parent next hparent fun _ => trivial).links (by omega) hpage
    exact hlink.user.mpr hmark
  · intro path table hne hlen htable
    rw [hholds.tableAt_eq hlen fun _ _ => trivial] at htable
    obtain ⟨i,hi⟩ := hpop path table htable hne
    exact ⟨i,(hholds.sound.present_iff (hholds.memory path table i htable fun _ => trivial)).mpr hi⟩
  · intro page
    rw [hholds.held]
    constructor
    · rintro (hempty | ⟨path,hpath⟩)
      · exact absurd hempty (Set.notMem_empty page)
      · have hlen : path.length ≤ 3 := Nat.le_of_lt_succ (hholds.sound.wellFormed.short hpath)
        exact ⟨path,hlen,(hholds.tableAt_eq hlen fun _ _ => trivial).trans hpath⟩
    · rintro ⟨path,hlen,hpath⟩
      exact .inr ⟨path,(hholds.tableAt_eq hlen fun _ _ => trivial).symm.trans hpath⟩

theorem PagingState.Alone.run (h : st.Alone root m) (hroot : ctx.rootPhysicalBase = root)
    (hnx : ctx.nxEnabled = true) (cb : ZiX64PagingCallbacks) (call : PagingCall) :
    (∃ st', call.run cb ctx st = (.ok (), st') ∧ call.Admissible m ∧
      st'.Alone root (call.apply m)) ∨
    ∃ status st', call.run cb ctx st = (.error status, st') ∧ st'.Alone root m ∧
      st.GivesUp cb st' (3*call.pages) ¬call.Admissible m := by
  cases call with
  | mapPage v p prot =>
    rcases h.mapPage cb hroot hnx (fun _ => trivial) p prot with
      ⟨status,st',hrun,hreason,hmaps,-⟩ | ⟨st',hrun,hargs,hnone,hmaps,-⟩
    · refine .inr ⟨status,st',hrun,hmaps,Asks.refl.givesUp hreason (Nat.zero_add _).le ?_⟩
      rintro hreason ⟨hargs,hnone⟩
      exact hreason.elim (not_not.mpr hargs) (not_not.mpr hnone)
    · exact .inl ⟨st',hrun,⟨hargs,hnone⟩,hmaps⟩
  | mapRange v p size prot =>
    rcases h.mapRange cb hroot hnx (fun _ _ _ => trivial) p prot with
      ⟨status,st',hrun,hreason,hmaps,-⟩ | ⟨st',hrun,hargs,hnone,hmaps,-⟩
    · refine .inr ⟨status,st',hrun,hmaps,Asks.refl.givesUp hreason (Nat.zero_add _).le ?_⟩
      rintro (hrefused | ⟨page,hpage,hmapped⟩) ⟨hargs,hnone⟩
      · exact hrefused hargs
      · exact hmapped (hnone page hpage)
    · exact .inl ⟨st',hrun,⟨hargs,hnone⟩,hmaps⟩
  | unmapPage v =>
    rcases h.unmapPage cb hroot (fun _ => trivial) with
      ⟨status,hrun,hreason⟩ | ⟨st',hrun,hpage,hmapped,hmaps,-⟩
    · refine .inr ⟨status,st,hrun,h,.of_reason ?_⟩
      rintro ⟨hpage,hmapped⟩
      exact absurd (hreason.resolve_left (not_not.mpr hpage)) hmapped
    · exact .inl ⟨st',hrun,⟨hpage,hmapped⟩,hmaps⟩
  | unmapRange v size =>
    rcases h.unmapRange cb hroot (fun _ _ _ => trivial) with
      ⟨status,hrun,hreason⟩ | ⟨st',hrun,hrange,hmapped,hmaps,-⟩
    · refine .inr ⟨status,st,hrun,h,.of_reason ?_⟩
      rintro ⟨hrange,hmapped⟩
      obtain ⟨page,hpage,hnone⟩ := hreason.resolve_left (not_not.mpr hrange)
      exact absurd hnone (hmapped page hpage)
    · exact .inl ⟨st',hrun,⟨hrange,hmapped⟩,hmaps⟩
  | protectPage v prot =>
    rcases h.protectPage cb hroot hnx (fun _ => trivial) prot with
      ⟨status,hrun,hreason⟩ | ⟨st',mapping,hrun,hpage,hvalid,hmapping,hmaps,-⟩
    · refine .inr ⟨status,st,hrun,h,.of_reason ?_⟩
      rintro ⟨hpage,hvalid,hmapped⟩
      exact absurd ((hreason.resolve_left (not_not.mpr hpage)).resolve_left (not_not.mpr hvalid))
        hmapped
    · refine .inl ⟨st',hrun,⟨hpage,hvalid,?_⟩,?_⟩
      · rw [hmapping]
        exact Option.some_ne_none mapping
      · rwa [PagingCall.apply,hmapping]
  | protectRange v size prot =>
    rcases h.protectRange cb hroot hnx (fun _ _ _ => trivial) prot with
      ⟨status,hrun,hreason⟩ | ⟨st',hrun,hrange,hvalid,hmapped,hmaps,-⟩
    · refine .inr ⟨status,st,hrun,h,.of_reason ?_⟩
      rintro ⟨hrange,hvalid,hmapped⟩
      obtain ⟨page,hpage,hnone⟩ :=
        (hreason.resolve_left (not_not.mpr hrange)).resolve_left (not_not.mpr hvalid)
      exact absurd hnone (hmapped page hpage)
    · exact .inl ⟨st',hrun,⟨hrange,hvalid,hmapped⟩,hmaps⟩
  | query v =>
    rw [PagingCall.run,h.query cb hroot (fun _ => trivial),PageMap.query]
    by_cases hcanon : ziX64AddressIsCanonical v = false
    · rw [if_pos hcanon]
      refine .inr ⟨_,st,rfl,h,.of_reason ?_⟩
      rintro ⟨hcanonical',-⟩
      rw [hcanon] at hcanonical'
      cases hcanonical'
    · rw [if_neg hcanon]
      rw [Bool.not_eq_false] at hcanon
      cases hmapping : m (v-v%4096) with
      | none => exact .inr ⟨_,st,rfl,h,.of_reason fun hadmissible => hadmissible.2 hmapping⟩
      | some mapping =>
        refine .inl ⟨st,rfl,⟨hcanon,?_⟩,h⟩
        rw [hmapping]
        exact Option.some_ne_none mapping

theorem PagingRun.step_alone {run : PagingRun} (h : run.st.Alone root run.map)
    (hroot : ctx.rootPhysicalBase = root) (hnx : ctx.nxEnabled = true) (cb : ZiX64PagingCallbacks)
    (call : PagingCall) : (run.step cb ctx call).st.Alone root (run.step cb ctx call).map := by
  rw [PagingRun.step]
  rcases h.run hroot hnx cb call with ⟨st',hrun,-,hmaps⟩ | ⟨status,st',hrun,hmaps,-⟩
  · rwa [hrun]
  · rwa [hrun]

theorem PagingRun.after_alone {run : PagingRun} (h : run.st.Alone root run.map)
    (hroot : ctx.rootPhysicalBase = root) (hnx : ctx.nxEnabled = true) (cb : ZiX64PagingCallbacks)
    (calls : List PagingCall) :
    (run.after cb ctx calls).st.Alone root (run.after cb ctx calls).map := by
  induction calls generalizing run with
  | nil => exact h
  | cons call calls ih => exact ih (PagingRun.step_alone h hroot hnx cb call)

/-- No page is held yet, whatever memory contains and whatever else is in use. -/
def PagingState.initial (tables : ℕ → Fin 512 → ℕ) (reserved : List ℕ) : PagingState :=
  ⟨tables,[],reserved,0,[]⟩

/-- The tree of one table without entries. -/
def PageTree.leafless (root : ℕ) : PageTree :=
  ⟨⟨fun path => if path = [] then some root else none,fun _ => none⟩,fun _ => false⟩

theorem PageTree.node_leafless_iff {path : TablePath} {page : ℕ} :
    (leafless root).node path = some page ↔ path = [] ∧ page = root := by
  rw [leafless]
  by_cases hpath : path = []
  · simp [hpath,eq_comm]
  · simp [hpath]

theorem PageTree.has_leafless_iff {page : ℕ} : (leafless root).Has page ↔ page = root := by
  constructor
  · rintro ⟨path,hpath⟩
    exact (node_leafless_iff.mp hpath).2
  · rintro rfl
    exact ⟨[],node_leafless_iff.mpr ⟨rfl,rfl⟩⟩

theorem PageTree.leafless_sound {owns : Fin 512 → Prop} (h : IsFrame root ∧ root ≠ 0) :
    (leafless root).Sound root owns where
  wellFormed := by
    refine ⟨?_,?_,?_,nofun,nofun⟩
    · intro path page hpath
      rw [(node_leafless_iff.mp hpath).1]
      decide
    · intro path i page hpath
      have hnil := (node_leafless_iff.mp hpath).1
      simp at hnil
    · intro p q page hp hq
      rw [(node_leafless_iff.mp hp).1,(node_leafless_iff.mp hq).1]
  root := node_leafless_iff.mpr ⟨rfl,rfl⟩
  frame := by
    intro path page hpath
    rwa [(node_leafless_iff.mp hpath).2]
  ownsNode := by
    intro i path page hpath
    cases (node_leafless_iff.mp hpath).1
  ownsLeaf := nofun
  valid := nofun
  userPath := nofun
  userNode := fun _ => rfl

theorem create_alone {tables : ℕ → Fin 512 → ℕ} {reserved : List ℕ} {nxEnabled : Bool}
    (h : ziX64PagingCreate cb nxEnabled (.initial tables reserved) = (.ok ctx, st)) :
    ctx.nxEnabled = true ∧ st.Alone ctx.rootPhysicalBase fun _ => none := by
  rw [ziX64PagingCreate] at h
  split at h
  · cases h
  next hnx =>
  rw [Bool.not_eq_false] at hnx
  rcases allocateTable_cases cb (.initial tables reserved) with
    ⟨status,hask,-⟩ | ⟨root,hask,hframe,-,hrsv,-⟩
  · rw [hask] at h
    cases h
  rw [hask] at h
  cases h
  refine ⟨hnx,leafless root,⟨leafless_sound hframe,?_,?_,?_,?_,?_,rfl⟩,?_,?_⟩
  · intro path page i hpath _
    obtain ⟨rfl,rfl⟩ := node_leafless_iff.mp hpath
    rw [tables_zeroPage_self]
    exact Nat.zero_and _
  · intro page
    rw [PagingState.zeroPage,PagingState.initial]
    rw [mem_singleton,has_leafless_iff]
    simp
  · intro page hpage
    exact absurd hpage (Set.notMem_empty page)
  · exact nodup_singleton root
  · intro page hpage hmem
    obtain rfl := mem_singleton.mp hmem
    exact hrsv hpage
  · intro path page hpath hne
    exact absurd (node_leafless_iff.mp hpath).1 hne
  · funext v
    exact (ite_self none).symm

theorem paging_refines_pageMap (cb : ZiX64PagingCallbacks) (tables : ℕ → Fin 512 → ℕ)
    (reserved : List ℕ) (nxEnabled : Bool) (ctx : ZiX64PagingContext) (st : PagingState)
    (hcreate : ziX64PagingCreate cb nxEnabled (.initial tables reserved) = (.ok ctx, st))
    (calls : List PagingCall) :
    let run := (PagingRun.mk st fun _ => none).after cb ctx calls
    (∀ v, ziX64PagingQuery cb ctx v run.st = run.map.query v) ∧
    TablesSound run.st ctx.rootPhysicalBase ∧
    ∀ call : PagingCall,
      let done := call.run cb ctx run.st
      (done.1 = .ok () → call.Admissible run.map) ∧
      (call.Admissible run.map → done.1 = .ok () ∨ ∃ requests ≤ 3*call.pages,
        done.2.asked = run.st.asked+requests ∧ ¬run.st.Meets cb requests) := by
  intro run
  obtain ⟨hnx,hstart⟩ := create_alone hcreate
  have hrun : run.st.Alone ctx.rootPhysicalBase run.map :=
    PagingRun.after_alone hstart rfl hnx cb calls
  refine ⟨fun v => hrun.query cb rfl fun _ => trivial,hrun.tablesSound,?_⟩
  intro call
  rcases hrun.run rfl hnx cb call with
    ⟨st',hdone,hadmissible,-⟩ | ⟨status,st',hdone,-,hreason⟩
  · rw [hdone]
    exact ⟨fun _ => hadmissible,fun _ => .inl rfl⟩
  · rw [hdone]
    refine ⟨nofun,?_⟩
    intro hadmissible
    obtain ⟨requests,hle,hasked,hreason⟩ := hreason
    exact .inr ⟨requests,hle,hasked,hreason.resolve_left (not_not.mpr hadmissible)⟩

/-- An allocator that gives out one page after the other. -/
def countingCallbacks : ZiX64PagingCallbacks where
  allocatePage asked inUse :=
    if 4096*(asked+1) ∈ inUse then .error .noMemory else .ok (4096*(asked+1))
  physicalPointer held page := .ok (decide (page ∈ held))
  allocated := by
    intro asked inUse page h
    split at h
    · cases h
    next hfree =>
      cases h
      exact ⟨by omega,by rw [and_offsetMask]; omega,hfree⟩
  accessible := by
    intro held page h
    rw [decide_eq_true h]

theorem countingCallbacks_meets {asked requests : ℕ} {inUse : List ℕ}
    (hlow : ∀ page ∈ inUse, page ≤ 4096*asked) (hfew : asked+requests ≤ 256) :
    countingCallbacks.Meets asked inUse requests := by
  induction requests generalizing asked inUse with
  | zero => trivial
  | succ requests ih =>
    refine ⟨4096*(asked+1),if_neg ?_,?_,ih ?_ (by omega)⟩
    · intro hmem
      have := hlow _ hmem
      omega
    · simp only [x64MaxPhysicalAddress]
      omega
    · refine forall_mem_cons.mpr ⟨le_rfl,fun page hpage => ?_⟩
      have := hlow page hpage
      omega

theorem paging_refines_pageMap_counting :
    ∃ ctx st, ziX64PagingCreate countingCallbacks true (.initial (fun _ _ => 0) []) =
        (.ok ctx, st) ∧
      let call := PagingCall.mapPage 0x400000 0x9000 (x64PageRead ||| x64PageUser)
      let run := (PagingRun.mk st fun _ => none).after countingCallbacks ctx [call]
      (∀ v, ziX64PagingQuery countingCallbacks ctx v run.st = run.map.query v) ∧
      TablesSound run.st ctx.rootPhysicalBase ∧
      run.map.query 0x400abc = .ok ⟨0x9abc,x64PageRead ||| x64PageUser⟩ ∧
      (∀ requests ≤ 3*call.pages, st.Meets countingCallbacks requests) ∧
      (call.run countingCallbacks ctx st).1 = .ok () := by
  refine ⟨_,_,rfl,?_⟩
  intro call run
  have hrun := paging_refines_pageMap countingCallbacks (fun _ _ => 0) [] true _ _ rfl [call]
  have hstart := paging_refines_pageMap countingCallbacks (fun _ _ => 0) [] true _ _ rfl []
  have hmeets : ∀ requests ≤ 3*call.pages, (ziX64PagingCreate countingCallbacks true
      (.initial (fun _ _ => 0) [])).2.Meets countingCallbacks requests := by
    intro requests hle
    have hfew : requests ≤ 3 := hle
    exact countingCallbacks_meets (by decide) (show 1+requests ≤ 256 by omega)
  refine ⟨hrun.1,hrun.2.1,rfl,hmeets,((hstart.2.2 call).2 ⟨?_,rfl⟩).resolve_right ?_⟩
  · exact ⟨⟨by decide,by decide⟩,⟨by decide,by decide⟩,by decide⟩
  · rintro ⟨requests,hle,-,hrefused⟩
    exact hrefused (hmeets requests hle)

/-- Every address is translated as before, and as many pages are held for tables. -/
def PagingState.Untraced (callbacks : ZiX64PagingCallbacks) (context : ZiX64PagingContext)
    (st st' : PagingState) : Prop :=
  (∀ v, ziX64PagingQuery callbacks context v st' = ziX64PagingQuery callbacks context v st) ∧
    st'.held.length = st.held.length

section NoTrace

variable {others : Set ℕ} {st' : PagingState}

theorem PagingState.Maps.untraced (h : st.Maps ctx.rootPhysicalBase (fun _ => True) others m)
    (h' : st'.Maps ctx.rootPhysicalBase (fun _ => True) others m)
    (hheld : ∀ page, page ∈ st'.held ↔ page ∈ st.held) : st.Untraced cb ctx st' := by
  constructor
  · intro v
    rw [h'.query cb rfl fun _ => trivial,h.query cb rfl fun _ => trivial]
  · obtain ⟨t,hholds,-⟩ := h
    obtain ⟨t',hholds',-⟩ := h'
    exact ((perm_ext_iff_of_nodup hholds'.nodup hholds.nodup).mpr hheld).length_eq

theorem PagingState.Maps.mark {owns : Fin 512 → Prop} (h : st.Maps root owns others m) {bits : ℕ}
    (hbits : bits &&& (x64EntryAccessed ||| x64EntryDirty) = bits) (entry : EntryPointer) :
    (st.store entry (st.load entry ||| bits)).Maps root owns others m := by
  obtain ⟨t,hholds,hpop,rfl⟩ := h
  refine ⟨t,⟨hholds.sound,?_,hholds.held,hholds.apart,hholds.nodup,hholds.reserved,hholds.stray⟩,
    hpop,rfl⟩
  intro path page i hpath howns
  have hentry := hholds.memory path page i hpath howns
  rw [tables_store]
  split
  next heq =>
    obtain ⟨rfl,rfl⟩ := heq
    exact hentry.mark hbits
  next => exact hentry

section WithoutNx

variable {v p size : ℕ} (st) (cb) (prot : UInt32) (hnx : ctx.nxEnabled = false)

include hnx

theorem validateProtection_of_nx : ∃ status, validateProtection ctx prot = .error status := by
  cases hcheck : validateProtection ctx prot with
  | error status => exact ⟨status,rfl⟩
  | ok _ =>
    rw [(validateProtection_ok_iff.mp hcheck).1] at hnx
    cases hnx

theorem ziX64PagingMapPage_of_nx :
    ∃ status, ziX64PagingMapPage cb ctx v p prot st = (.error status, st) := by
  obtain ⟨status,hcheck⟩ := validateProtection_of_nx prot hnx
  rw [ziX64PagingMapPage,hcheck]
  cases validatePageArguments v p prot with
  | error status => exact ⟨status,rfl⟩
  | ok _ => exact ⟨status,rfl⟩

theorem ziX64PagingMapRange_of_nx
    (hfail : ziX64PagingMapRange cb ctx v p size prot st ≠ (.ok (), st)) :
    ∃ status, ziX64PagingMapRange cb ctx v p size prot st = (.error status, st) := by
  rw [ziX64PagingMapRange] at hfail ⊢
  cases hcheck : validateVirtualRange v size with
  | error status => exact ⟨status,rfl⟩
  | ok _ =>
    rw [hcheck] at hfail
    split_ifs at hfail ⊢
    · exact ⟨_,rfl⟩
    · exact ⟨_,rfl⟩
    cases hpages : size/x64PageSize with
    | zero =>
      rw [hpages] at hfail
      exact absurd rfl hfail
    | succ pages =>
      obtain ⟨status,hpage⟩ := ziX64PagingMapPage_of_nx st cb prot hnx
      rw [mapPages,hpage]
      exact ⟨status,rfl⟩

theorem ziX64PagingProtectRange_of_nx :
    ∃ status, ziX64PagingProtectRange cb ctx v size prot st = (.error status, st) := by
  obtain ⟨status,hcheck⟩ := validateProtection_of_nx prot hnx
  rw [ziX64PagingProtectRange,hcheck]
  cases validateVirtualRange v size with
  | error status => exact ⟨status,rfl⟩
  | ok _ => exact ⟨status,rfl⟩

end WithoutNx

theorem failed_update_leaves_no_trace (cb : ZiX64PagingCallbacks) (ctx : ZiX64PagingContext)
    (st : PagingState) (others : Set ℕ) (m : PageMap)
    (h : st.Maps ctx.rootPhysicalBase (fun _ => True) others m) :
    (∀ v p prot status st', ziX64PagingMapPage cb ctx v p prot st = (.error status, st') →
      st'.Maps ctx.rootPhysicalBase (fun _ => True) others m ∧ st.Untraced cb ctx st') ∧
    (∀ v p size prot status st',ziX64PagingMapRange cb ctx v p size prot st = (.error status, st') →
      st'.Maps ctx.rootPhysicalBase (fun _ => True) others m ∧ st.Untraced cb ctx st') ∧
    (∀ v size, (∃ status, ziX64PagingUnmapRange cb ctx v size st = (.error status, st)) ∨
      ∃ st', ziX64PagingUnmapRange cb ctx v size st = (.ok (), st') ∧
        ∀ a, ziX64PagingQuery cb ctx a st' = (m.drop v (size/4096)).query a) ∧
    ∀ v size prot,
      (∃ status, ziX64PagingProtectRange cb ctx v size prot st = (.error status, st)) ∨
      ∃ st', ziX64PagingProtectRange cb ctx v size prot st = (.ok (), st') ∧
        ∀ a, ziX64PagingQuery cb ctx a st' = (m.protect v prot (size/4096)).query a := by
  have hsame : st.Maps ctx.rootPhysicalBase (fun _ => True) others m ∧ st.Untraced cb ctx st :=
    ⟨h,h.untraced h fun _ => Iff.rfl⟩
  refine ⟨?_,?_,?_,?_⟩
  · intro v p prot status st' hfail
    cases hnx : ctx.nxEnabled with
    | false =>
      obtain ⟨status',hrun⟩ := ziX64PagingMapPage_of_nx st cb prot hnx
      cases hrun.symm.trans hfail
      exact hsame
    | true =>
      rcases h.mapPage cb rfl hnx (fun _ => trivial) p prot with
        ⟨status',st1,hrun,-,hmaps,-,hbelow⟩ | ⟨st1,hrun,-⟩
      · cases hrun.symm.trans hfail
        exact ⟨hmaps,h.untraced hmaps (h.held_iff hmaps hbelow)⟩
      · cases hrun.symm.trans hfail
  · intro v p size prot status st' hfail
    cases hnx : ctx.nxEnabled with
    | false =>
      obtain ⟨status',hrun⟩ := ziX64PagingMapRange_of_nx st cb prot hnx (by
        rw [hfail]
        nofun)
      cases hrun.symm.trans hfail
      exact hsame
    | true =>
      rcases h.mapRange cb rfl hnx (fun _ _ _ => trivial) p prot with
        ⟨status',st1,hrun,-,hmaps,-,hheld⟩ | ⟨st1,hrun,-⟩
      · cases hrun.symm.trans hfail
        exact ⟨hmaps,h.untraced hmaps hheld⟩
      · cases hrun.symm.trans hfail
  · intro v size
    rcases h.unmapRange cb rfl (fun _ _ _ => trivial) with
      ⟨status,hrun,-⟩ | ⟨st',hrun,-,-,hmaps,-⟩
    · exact .inl ⟨status,hrun⟩
    · exact .inr ⟨st',hrun,fun a => hmaps.query cb rfl fun _ => trivial⟩
  · intro v size prot
    cases hnx : ctx.nxEnabled with
    | false => exact .inl (ziX64PagingProtectRange_of_nx st cb prot hnx)
    | true =>
      rcases h.protectRange cb rfl hnx (fun _ _ _ => trivial) prot with
        ⟨status,hrun,-⟩ | ⟨st',hrun,-,-,-,hmaps,-⟩
      · exact .inl ⟨status,hrun⟩
      · exact .inr ⟨st',hrun,fun a => hmaps.query cb rfl fun _ => trivial⟩

/-- The allocator of `countingCallbacks` with five pages. -/
def scarceCallbacks : ZiX64PagingCallbacks where
  allocatePage asked inUse :=
    if 5 ≤ asked then .error .noMemory else countingCallbacks.allocatePage asked inUse
  physicalPointer := countingCallbacks.physicalPointer
  allocated := by
    intro asked inUse page h
    split at h
    · cases h
    · exact countingCallbacks.allocated asked inUse page h
  accessible := countingCallbacks.accessible

/-- A root and the three tables above one page. -/
def scarceState : PagingState :=
  (ziX64PagingMapPage scarceCallbacks ⟨0x1000,true⟩ 0x7fffffe000 0x9000
    (x64PageRead ||| x64PageWrite)
    (ziX64PagingCreate scarceCallbacks true (.initial (fun _ _ => 0) [])).2).2

theorem scarceState_alone : ∃ m, scarceState.Alone 0x1000 m := by
  have hcreate : ziX64PagingCreate scarceCallbacks true (.initial (fun _ _ => 0) []) =
      (.ok ⟨0x1000,true⟩,
        (ziX64PagingCreate scarceCallbacks true (.initial (fun _ _ => 0) [])).2) := rfl
  rcases (create_alone hcreate).2.run rfl rfl scarceCallbacks
    (.mapPage 0x7fffffe000 0x9000 (x64PageRead ||| x64PageWrite)) with
    ⟨st,hrun,-,hmaps⟩ | ⟨status,st,hrun,hmaps,-⟩
  · obtain rfl : scarceState = st := congrArg Prod.snd hrun
    exact ⟨_,hmaps⟩
  · obtain rfl : scarceState = st := congrArg Prod.snd hrun
    exact ⟨_,hmaps⟩

/-- The page has been written to since. -/
def dirtyState : PagingState :=
  scarceState.store ⟨0x4000,510⟩ (scarceState.load ⟨0x4000,510⟩ ||| 0x60)

/-- The first page of the range finds its tables, the second gets one of three.  That table and
the first page are taken back. -/
theorem failed_update_leaves_no_trace_scarce :
    let done := ziX64PagingMapRange scarceCallbacks ⟨0x1000,true⟩ 0x7ffffff000 0x20000 0x2000
      (x64PageRead ||| x64PageWrite) dirtyState
    (dirtyState.load ⟨0x4000,510⟩ = 0x8000000000009063 ∧ done.1 = .error .noMemory ∧
      done.2.asked = dirtyState.asked+2) ∧
    dirtyState.Untraced scarceCallbacks ⟨0x1000,true⟩ done.2 := by
  have hfails : (ziX64PagingMapRange scarceCallbacks ⟨0x1000,true⟩ 0x7ffffff000 0x20000 0x2000
      (x64PageRead ||| x64PageWrite) dirtyState).1 = .error .noMemory := by decide +kernel
  refine ⟨by decide +kernel,?_⟩
  obtain ⟨m,hmaps⟩ := scarceState_alone
  have hdirty : dirtyState.Alone 0x1000 m := hmaps.mark (by decide) ⟨0x4000,510⟩
  generalize hrun : ziX64PagingMapRange scarceCallbacks ⟨0x1000,true⟩ 0x7ffffff000 0x20000 0x2000
    (x64PageRead ||| x64PageWrite) dirtyState = done at hfails ⊢
  obtain ⟨status,st'⟩ := done
  obtain rfl : status = .error .noMemory := hfails
  exact ((failed_update_leaves_no_trace scarceCallbacks ⟨0x1000,true⟩ dirtyState ∅ m hdirty).2.1
    _ _ _ _ _ _ hrun).2

end NoTrace

end Refinement

end Zizium
