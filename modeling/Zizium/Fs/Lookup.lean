import Zizium.Fs.SecurityTable

/-!
# Path lookup

The path walk `lookup_path_record` of `kernel/fs/zifs/zifs.c`, plain and authorised.  An
authorised walk checks traverse rights on a directory before it looks into it.
-/

namespace Zizium

open Bytes BlockIO ReadM

variable {record : ZiFsFileRecord} {current next r : LocatedRecord} {comp : List UInt8}
  {comps : List (List UInt8)} {k : ℕ}

structure ZiFsPathAccess where
  token : ZiAccessToken
  requestedAccess : ℕ

/-- The check made on a record during an authorised walk; a plain walk has none. -/
def checkPathAccess (volume : ZiFsVolume) (access : Option ZiFsPathAccess) (record : ZiFsFileRecord)
    (rights : ZiFsPathAccess → ℕ) : ReadIo Unit :=
  match access with
  | none => pure ()
  | some access => do
    let _ ← ziFsCheckSecurityAccess volume record.securityId access.token (rights access)
    pure ()

def lookupComponent (volume : ZiFsVolume) (access : Option ZiFsPathAccess) (current : LocatedRecord)
    (component : List UInt8) : ReadIo LocatedRecord := do
  failIf (current.record.fileType ≠ fileTypeDirectory) .notFound
  checkPathAccess volume access current.record fun _ => accessExecute
  let found ← ziFsFindDirectoryEntryInRecord volume current.record component
  let next ← ziFsReadFileRecord volume found.entry.recordIndex
  failIf (next.fileId ≠ found.entry.fileId ∨ next.fileType ≠ found.entry.fileType ∨
    next.parentFileId ≠ current.record.fileId) .corruptFilesystem
  pure ⟨next,found.entry.recordIndex⟩

def lookupComponents (volume : ZiFsVolume) (access : Option ZiFsPathAccess) :
    LocatedRecord → List (List UInt8) → ReadIo LocatedRecord
  | current, [] => pure current
  | current, component :: components => do
    let next ← lookupComponent volume access current component
    lookupComponents volume access next components

def lookupPathRecord (volume : ZiFsVolume) (path : ZiParsedPath)
    (access : Option ZiFsPathAccess) : ReadIo LocatedRecord := do
  failIf (path.driveLetter ≠ 0x43) .invalidArgument
  let root ← ziFsReadFileRecord volume volume.superblock.rootRecordIndex
  let current ← lookupComponents volume access ⟨root,volume.superblock.rootRecordIndex⟩
    path.components
  checkPathAccess volume access current.record (·.requestedAccess)
  pure current

def ziFsLookupPathRecord (volume : ZiFsVolume) (path : ZiParsedPath) : ReadIo LocatedRecord :=
  lookupPathRecord volume path none

def ziFsLookupPath (volume : ZiFsVolume) (path : ZiParsedPath) : ReadIo ZiFsFileRecord := do
  let located ← ziFsLookupPathRecord volume path
  pure located.record

def ziFsLookupPathAuthorised (volume : ZiFsVolume) (path : ZiParsedPath) (token : ZiAccessToken)
    (requestedAccess : ℕ) : ReadIo ZiFsFileRecord := do
  failIf (ziSecurityTokenValidate token = false ∨ requestedAccess = 0 ∨
    outsideFullControl requestedAccess) .invalidArgument
  let located ← lookupPathRecord volume path (some ⟨token,requestedAccess⟩)
  pure located.record

/-- A mounted volume object whose security state is valid on the device's image. -/
structure ZiFsVolume.MountedOn (volume : ZiFsVolume) (image : ℕ → Block) : Prop where
  isMounted : volume.isMounted = true
  blockCount : volume.device.blockCount = volume.superblock.totalBlocks
  security : (ziFsValidateSecurityState volume).eval image =
    .ok (volume.securityGeneration, volume.securityRecordCount)

/-! ### Authorisation -/

variable {img image' : ℕ → Block} {vol volume' : ZiFsVolume} {token : ZiAccessToken} {wanted : ℕ}
  {access : ZiFsPathAccess}

def Grants (volume : ZiFsVolume) (image : ℕ → Block) (token : ZiAccessToken) (rights : ℕ)
    (record : ZiFsFileRecord) : Prop :=
  ∃ granted, (ziFsCheckSecurityAccess volume record.securityId token rights).eval image =
    .ok granted

theorem checkPathAccess_ok_iff {rights : ZiFsPathAccess → ℕ} {u : Unit} :
    (checkPathAccess vol (some access) record rights).eval img = .ok u ↔
      Grants vol img access.token (rights access) record := by
  simp only [checkPathAccess,bind_ok_iff,pure_ok_iff,and_true,Grants]

theorem Grants.arguments {rights : ℕ} (h : Grants vol img token rights record) :
    ziSecurityTokenValidate token = true ∧ outsideFullControl rights = false := by
  obtain ⟨granted,h⟩ := h
  obtain ⟨storage,-,h⟩ := bind_ok_iff.mp h
  obtain ⟨_,hguard,-⟩ := Except.bind_ok_iff.mp h
  have hguard := Except.failIf_ok_iff.mp hguard
  simp only [not_or,Bool.not_eq_true,Bool.not_eq_false] at hguard
  exact ⟨hguard.2.2,hguard.1⟩

theorem lookupComponent_some_ok_iff :
    (lookupComponent vol (some access) current comp).eval img = .ok next ↔
      (lookupComponent vol none current comp).eval img = .ok next ∧
        Grants vol img access.token accessExecute current.record := by
  simp only [lookupComponent,bind_ok_iff,failIf_ok_iff,checkPathAccess_ok_iff,exists_const]
  simp only [checkPathAccess,pure_ok_iff,exists_const,true_and]
  constructor
  · rintro ⟨h1,h2,h3⟩
    exact ⟨⟨h1,h3⟩,h2⟩
  · rintro ⟨⟨h1,h3⟩,h2⟩
    exact ⟨h1,h2,h3⟩

theorem lookupComponents_some_ok_iff :
    (lookupComponents vol (some access) current comps).eval img = .ok r ↔
      (lookupComponents vol none current comps).eval img = .ok r ∧ ∀ k < comps.length, ∀ rk,
          (lookupComponents vol none current (comps.take k)).eval img = .ok rk →
            Grants vol img access.token accessExecute rk.record := by
  induction comps generalizing current with
  | nil => simp [lookupComponents]
  | cons comp comps ih =>
    simp only [lookupComponents,bind_ok_iff,lookupComponent_some_ok_iff,ih]
    constructor
    · rintro ⟨next,⟨hnext,hgrant⟩,hrest,hall⟩
      refine ⟨⟨next,hnext,hrest⟩,fun k hk rk hrk => ?_⟩
      cases k with
      | zero =>
        cases hrk
        exact hgrant
      | succ k =>
        obtain ⟨next',hnext',hrk⟩ := bind_ok_iff.mp hrk
        cases hnext.symm.trans hnext'
        exact hall k (by simpa using hk) rk hrk
    · rintro ⟨⟨next,hnext,hrest⟩,hall⟩
      refine ⟨next,⟨hnext,hall 0 (by simp) _ rfl⟩,hrest,fun k hk rk hrk => ?_⟩
      exact hall (k+1) (by simpa using hk) rk (bind_ok_iff.mpr ⟨next,hnext,hrk⟩)

def ZiParsedPath.take (path : ZiParsedPath) (k : ℕ) : ZiParsedPath :=
  { path with components := path.components.take k }

variable {path : ZiParsedPath}

theorem lookupPathRecord_none_ok_iff :
    (lookupPathRecord vol path none).eval img = .ok r ↔ path.driveLetter = 0x43 ∧
        ∃ root, (ziFsReadFileRecord vol vol.superblock.rootRecordIndex).eval img = .ok root ∧
          (lookupComponents vol none ⟨root,vol.superblock.rootRecordIndex⟩
            path.components).eval img = .ok r := by
  simp only [lookupPathRecord,bind_ok_iff,failIf_ok_iff,exists_const,ne_eq,
    not_not,checkPathAccess,pure_ok_iff,true_and]
  constructor
  · rintro ⟨h1,root,hroot,r',hr,rfl⟩
    exact ⟨h1,root,hroot,hr⟩
  · rintro ⟨h1,root,hroot,hr⟩
    exact ⟨h1,root,hroot,r,hr,rfl⟩

theorem ziFsLookupPath_ok_iff : (ziFsLookupPath vol path).eval img = .ok record ↔
      ∃ i, (ziFsLookupPathRecord vol path).eval img = .ok ⟨record,i⟩ := by
  simp only [ziFsLookupPath,bind_ok_iff,pure_ok_iff]
  constructor
  · rintro ⟨⟨record',i⟩,h,rfl⟩
    exact ⟨i,h⟩
  · rintro ⟨i,h⟩
    exact ⟨⟨record,i⟩,h,rfl⟩

theorem lookupPathRecord_some_ok_iff : (lookupPathRecord vol path (some access)).eval img = .ok r ↔
      (ziFsLookupPathRecord vol path).eval img = .ok r ∧ (∀ k < path.components.length, ∀ rk,
          (ziFsLookupPathRecord vol (path.take k)).eval img = .ok rk →
            Grants vol img access.token accessExecute rk.record) ∧
        Grants vol img access.token access.requestedAccess r.record := by
  simp only [ziFsLookupPathRecord,lookupPathRecord_none_ok_iff]
  simp only [lookupPathRecord,bind_ok_iff,failIf_ok_iff,exists_const,ne_eq,
    not_not,checkPathAccess_ok_iff,pure_ok_iff,lookupComponents_some_ok_iff]
  constructor
  · rintro ⟨hdrive,root,hroot,r',⟨hr,hall⟩,hfinal,rfl⟩
    refine ⟨⟨hdrive,root,hroot,hr⟩,?_,hfinal⟩
    rintro k hk rk ⟨-,root',hroot',hrk⟩
    cases hroot.symm.trans hroot'
    exact hall k hk rk hrk
  · rintro ⟨⟨hdrive,root,hroot,hr⟩,hall,hfinal⟩
    exact ⟨hdrive,root,hroot,r,
      ⟨hr,fun k hk rk hrk => hall k hk rk ⟨hdrive,root,hroot,hrk⟩⟩,hfinal,rfl⟩

theorem ziFsLookupPathAuthorised_ok_iff (hmask : wanted ≠ 0) :
    (ziFsLookupPathAuthorised vol path token wanted).eval img = .ok record ↔
      (ziFsLookupPath vol path).eval img = .ok record ∧ (∀ k < path.components.length, ∀ rk,
          (ziFsLookupPath vol (path.take k)).eval img = .ok rk →
            Grants vol img token accessExecute rk) ∧ Grants vol img token wanted record := by
  simp only [ziFsLookupPath_ok_iff]
  simp only [ziFsLookupPathAuthorised,bind_ok_iff,failIf_ok_iff,exists_const,
    pure_ok_iff,lookupPathRecord_some_ok_iff,not_or,Bool.not_eq_false,Bool.not_eq_true]
  constructor
  · rintro ⟨-,r,⟨hr,hall,hfinal⟩,rfl⟩
    refine ⟨⟨r.recordIndex,hr⟩,?_,hfinal⟩
    intro k hk rk hrk
    obtain ⟨i,hrk⟩ := hrk
    exact hall k hk _ hrk
  · rintro ⟨⟨i,hr⟩,hall,hfinal⟩
    exact ⟨⟨hfinal.arguments.1,hmask,hfinal.arguments.2⟩,⟨record,i⟩,
      ⟨hr,fun k hk rk hrk => hall k hk rk.record ⟨rk.recordIndex,hrk⟩,hfinal⟩,rfl⟩

/-! ### Two volumes -/

/-- Two mounted volumes that agree on the superblock and the security table. -/
structure SameSecurity (volume volume' : ZiFsVolume) (image image' : ℕ → Block) : Prop where
  mounted : volume.MountedOn image
  mounted' : volume'.MountedOn image'
  superblock : volume'.superblock = volume.superblock
  table : ∀ i < volume.superblock.securityTableBlocks,
    image' (volume.superblock.securityTableStart+i) =
      image (volume.superblock.securityTableStart+i)

def recordSlot (sb : ZiFsSuperblock) (image : ℕ → Block) (recordIndex : ℕ) : List UInt8 :=
  (image (sb.recordTableStart+recordIndex/recordsPerBlock)).mem.slice
    (recordIndex%recordsPerBlock*fileRecordSize) fileRecordSize

def SameDirectoryBlocks (volume : ZiFsVolume) (image image' : ℕ → Block)
    (directory : ZiFsFileRecord) : Prop :=
  ∀ logicalBlock physicalBlock,
    ziFsDirectoryBlockAt volume directory logicalBlock = .ok physicalBlock →
      image' physicalBlock = image physicalBlock

theorem ZiFsVolume.MountedOn.securityRecordCount (h : vol.MountedOn img) :
    0 < vol.superblock.securityTableBlocks ∧ vol.securityRecordCount =
      ziReadU32Le (img vol.superblock.securityTableStart).mem 16 := by
  have hstate := h.security
  simp only [ziFsValidateSecurityState,bind_ok_iff,failIf_ok_iff,exists_const,
    ZiBlockDevice.readBlock_ok_iff,eval_ofExcept,pure_ok_iff,Prod.mk.injEq] at hstate
  obtain ⟨hblocks,_,⟨-,rfl⟩,header,hhdr,-,-,-,-,-,-,-,-,-,hcount⟩ :=
    hstate
  refine ⟨by omega,hcount.trans ?_⟩
  simp only [decodeSecurityTableHeader,Except.bind_ok_iff,Except.pure_ok_iff] at hhdr
  obtain ⟨-,-,-,-,-,-,rfl⟩ := hhdr
  rfl

theorem lookupComponent_recordIndex {found : LocatedEntry}
    (hnext : (lookupComponent vol none current comp).eval img = .ok next)
    (hfound : (ziFsFindDirectoryEntryInRecord vol current.record comp).eval img = .ok found) :
    next.recordIndex = found.entry.recordIndex := by
  simp only [lookupComponent,bind_ok_iff,pure_ok_iff] at hnext
  obtain ⟨-,-,-,-,found',hfound',-,-,-,-,rfl⟩ := hnext
  cases hfound.symm.trans hfound'
  rfl

namespace SameSecurity

section

variable (h : SameSecurity vol volume' img image')

include h

theorem eval_readBlock {block : ℕ} (hblock : image' block = img block) :
    (volume'.device.readBlock block).eval image' = (vol.device.readBlock block).eval img := by
  rw [ZiBlockDevice.eval_readBlock,ZiBlockDevice.eval_readBlock,h.mounted.blockCount,
    h.mounted'.blockCount,h.superblock,hblock]

theorem recordCount : volume'.securityRecordCount = vol.securityRecordCount := by
  obtain ⟨hpos,hcount⟩ := h.mounted.securityRecordCount
  rw [hcount,h.mounted'.securityRecordCount.2,h.superblock]
  have := h.table 0 hpos
  rw [Nat.add_zero] at this
  rw [this]

theorem eval_readSecurityRecord (recordIndex : ℕ) :
    (readSecurityRecord volume' recordIndex).eval image' =
      (readSecurityRecord vol recordIndex).eval img := by
  unfold readSecurityRecord
  rw [h.superblock]
  refine eval_bind_congr ?_ fun _ hguard => ?_
  · rw [eval_failIf,eval_failIf]
  · have hguard := failIf_ok_iff.mp hguard
    exact eval_bind_congr (h.eval_readBlock (h.table _ (by omega))) fun _ _ => rfl

theorem eval_loadSecurityDescriptorLoop (securityId left i : ℕ) :
    (loadSecurityDescriptorLoop volume' securityId left i).eval image' =
      (loadSecurityDescriptorLoop vol securityId left i).eval img := by
  induction left generalizing i with
  | zero => rfl
  | succ left ih =>
    refine eval_bind_congr (h.eval_readSecurityRecord i) fun storage _ => ?_
    simp only [eval_ite,ih,eval_pure,eval_throw]

theorem eval_checkSecurityAccess (securityId : ℕ) (token : ZiAccessToken) (rights : ℕ) :
    (ziFsCheckSecurityAccess volume' securityId token rights).eval image' =
      (ziFsCheckSecurityAccess vol securityId token rights).eval img := by
  unfold ziFsCheckSecurityAccess ziFsLoadSecurityDescriptor
  rw [h.recordCount]
  refine eval_bind_congr (eval_bind_congr ?_ fun _ _ => ?_) fun _ _ => rfl
  · rw [eval_failIf,eval_failIf]
  · exact h.eval_loadSecurityDescriptorLoop _ _ _

theorem eval_checkPathAccess (access : Option ZiFsPathAccess) (record : ZiFsFileRecord)
    (rights : ZiFsPathAccess → ℕ) :
    (checkPathAccess volume' access record rights).eval image' =
      (checkPathAccess vol access record rights).eval img := by
  cases access with
  | none => rfl
  | some access => exact eval_bind_congr (h.eval_checkSecurityAccess _ _ _) fun _ _ => rfl

theorem eval_readFileRecord {recordIndex : ℕ}
    (hslot : recordSlot vol.superblock image' recordIndex =
      recordSlot vol.superblock img recordIndex) :
    (ziFsReadFileRecord volume' recordIndex).eval image' =
      (ziFsReadFileRecord vol recordIndex).eval img := by
  unfold ziFsReadFileRecord
  rw [h.superblock]
  refine eval_bind_congr ?_ fun _ _ => ?_
  · rw [eval_failIf,eval_failIf]
  · have hdec := ziFsDecodeFileRecord_congr (Mem.slice_eq_iff.mp hslot)
    rw [eval_bind,eval_bind,ZiBlockDevice.eval_readBlock,
      ZiBlockDevice.eval_readBlock,h.mounted.blockCount,h.mounted'.blockCount,h.superblock]
    split
    · exact eval_bind_congr hdec fun _ _ => eval_bind_congr rfl fun _ _ => rfl
    · rfl

theorem directoryBlockCount (dir : ZiFsFileRecord) :
    ziFsDirectoryBlockCount volume' dir = ziFsDirectoryBlockCount vol dir := by
  unfold ziFsDirectoryBlockCount
  rw [h.superblock]

theorem directoryBlockAt (dir : ZiFsFileRecord) (logical : ℕ) :
    ziFsDirectoryBlockAt volume' dir logical = ziFsDirectoryBlockAt vol dir logical := by
  unfold ziFsDirectoryBlockAt
  rw [h.directoryBlockCount]

theorem eval_findDirectoryEntryInRecord {dir : ZiFsFileRecord}
    (hblocks : SameDirectoryBlocks vol img image' dir) (name : List UInt8) :
    (ziFsFindDirectoryEntryInRecord volume' dir name).eval image' =
      (ziFsFindDirectoryEntryInRecord vol dir name).eval img := by
  unfold ziFsFindDirectoryEntryInRecord
  rw [h.directoryBlockCount]
  refine eval_bind_congr rfl fun _ _ => eval_bind_congr rfl fun count _ => ?_
  refine eval_bind_congr (eval_loop_congr fun j found _ _ => ?_) fun found _ => ?_
  · unfold findInDirectoryBlock
    rw [h.directoryBlockAt]
    refine eval_bind_congr rfl fun physicalBlock hphys => ?_
    refine eval_bind_congr (h.eval_readBlock (hblocks j _ hphys)) fun block _ => ?_
    refine eval_bind_congr rfl fun _ _ => ?_
    split
    · rfl
    · rfl
    · exact eval_bind_congr (by rw [eval_failIf,eval_failIf]) fun _ _ => rfl
  · split <;> rfl

theorem eval_lookupComponent (access : Option ZiFsPathAccess)
    (hblocks : SameDirectoryBlocks vol img image' current.record)
    (hslot : ∀ found, (ziFsFindDirectoryEntryInRecord vol current.record comp).eval img =
      .ok found → recordSlot vol.superblock image' found.entry.recordIndex =
        recordSlot vol.superblock img found.entry.recordIndex) :
    (lookupComponent volume' access current comp).eval image' =
      (lookupComponent vol access current comp).eval img := by
  refine eval_bind_congr (by rw [eval_failIf,eval_failIf]) fun _ _ => ?_
  refine eval_bind_congr (h.eval_checkPathAccess _ _ _) fun _ _ => ?_
  have hfind := h.eval_findDirectoryEntryInRecord hblocks comp
  refine eval_bind_congr hfind fun found hfound => ?_
  refine eval_bind_congr (h.eval_readFileRecord (hslot found (hfind ▸ hfound))) fun _ _ => ?_
  exact eval_bind_congr (by rw [eval_failIf,eval_failIf]) fun _ _ => rfl

theorem eval_lookupComponents {rk : LocatedRecord} (hk : k < comps.length)
    (hreach : (lookupComponents vol none current (comps.take k)).eval img = .ok rk)
    (hdenied : ¬ Grants vol img access.token accessExecute rk.record)
    (hblocks : ∀ j < k, ∀ r, (lookupComponents vol none current (comps.take j)).eval img = .ok r →
      SameDirectoryBlocks vol img image' r.record)
    (hslots : ∀ j ≤ k, ∀ r, (lookupComponents vol none current (comps.take j)).eval img = .ok r →
      recordSlot vol.superblock image' r.recordIndex =
        recordSlot vol.superblock img r.recordIndex) :
    (lookupComponents volume' (some access) current comps).eval image' =
      (lookupComponents vol (some access) current comps).eval img := by
  induction k generalizing current comps with
  | zero =>
    obtain ⟨comp,comps,rfl⟩ := List.exists_cons_of_length_pos hk
    cases hreach
    -- both runs stop at the traverse check, with the same status
    have hstep : (lookupComponent volume' (some access) rk comp).eval image' =
        (lookupComponent vol (some access) rk comp).eval img := by
      refine eval_bind_congr (by rw [eval_failIf,eval_failIf]) fun _ _ => ?_
      refine eval_bind_congr (h.eval_checkPathAccess _ _ _) fun _ hgrant => ?_
      rw [h.eval_checkPathAccess] at hgrant
      exact absurd (checkPathAccess_ok_iff.mp hgrant) hdenied
    refine eval_bind_congr hstep fun next hnext => ?_
    exact absurd (lookupComponent_some_ok_iff.mp (hstep ▸ hnext)).2 hdenied
  | succ k ih =>
    obtain ⟨comp,comps,rfl⟩ :=
      List.exists_cons_of_length_pos (by omega : 0 < comps.length)
    obtain ⟨next,hnext,hreach⟩ := bind_ok_iff.mp hreach
    have hinit : ∀ j r, (lookupComponents vol none next (comps.take j)).eval img = .ok r →
          (lookupComponents vol none current ((comp :: comps).take (j+1))).eval img = .ok r :=
      fun j r hr => bind_ok_iff.mpr ⟨next,hnext,hr⟩
    have hstep : (lookupComponent volume' (some access) current comp).eval image' =
        (lookupComponent vol (some access) current comp).eval img := by
      refine h.eval_lookupComponent _ (hblocks 0 (by omega) current rfl) fun found hfound => ?_
      rw [← lookupComponent_recordIndex hnext hfound]
      exact hslots 1 (by omega) next (hinit 0 next rfl)
    refine eval_bind_congr hstep fun next' hnext' => ?_
    obtain rfl : next = next' := by
      have hplain := (lookupComponent_some_ok_iff.mp (hstep ▸ hnext')).1
      exact Except.ok.inj (hnext.symm.trans hplain)
    exact ih (by simpa using hk) hreach
      (fun j hj r hr => hblocks (j+1) (by omega) r (hinit j r hr))
      (fun j hj r hr => hslots (j+1) (by omega) r (hinit j r hr))

end

end SameSecurity

/-- Two volumes look the same to a walk along `path` that is stopped at its `k`-th directory:
the records down to that directory agree, and so do the blocks of the directories above it. -/
structure SameDownTo (volume : ZiFsVolume) (image image' : ℕ → Block) (path : ZiParsedPath)
    (k : ℕ) : Prop where
  records : ∀ j ≤ k, ∀ r, (ziFsLookupPathRecord volume (path.take j)).eval image = .ok r →
    recordSlot volume.superblock image' r.recordIndex =
      recordSlot volume.superblock image r.recordIndex
  blocks : ∀ j < k, ∀ r, (ziFsLookupPathRecord volume (path.take j)).eval image = .ok r →
    SameDirectoryBlocks volume image image' r.record

theorem SameSecurity.eval_lookupPathAuthorised (h : SameSecurity vol volume' img image')
    {rk : ZiFsFileRecord} (hk : k < path.components.length)
    (hreach : (ziFsLookupPath vol (path.take k)).eval img = .ok rk)
    (hdenied : ¬ Grants vol img token accessExecute rk) (hsame : SameDownTo vol img image' path k) :
    (ziFsLookupPathAuthorised volume' path token wanted).eval image' =
      (ziFsLookupPathAuthorised vol path token wanted).eval img := by
  obtain ⟨i,hreach⟩ := ziFsLookupPath_ok_iff.mp hreach
  obtain ⟨hdrive,root,hroot,hwalk⟩ := lookupPathRecord_none_ok_iff.mp hreach
  have hlookup : ∀ j r, (lookupComponents vol none ⟨root,vol.superblock.rootRecordIndex⟩
      (path.components.take j)).eval img = .ok r →
        (ziFsLookupPathRecord vol (path.take j)).eval img = .ok r :=
    fun j r hr => lookupPathRecord_none_ok_iff.mpr ⟨hdrive,root,hroot,hr⟩
  have hreadRoot := h.eval_readFileRecord (hsame.records 0 (by omega) _ (hlookup 0 _ rfl))
  refine eval_bind_congr (by rw [eval_failIf,eval_failIf]) fun _ _ => ?_
  refine eval_bind_congr ?_ fun _ _ => rfl
  refine eval_bind_congr (by rw [eval_failIf,eval_failIf]) fun _ _ => ?_
  rw [h.superblock]
  refine eval_bind_congr hreadRoot fun root' hroot' => ?_
  obtain rfl : root = root' := Except.ok.inj (hroot.symm.trans (hreadRoot ▸ hroot'))
  refine eval_bind_congr ?_ fun _ _ => eval_bind_congr (h.eval_checkPathAccess _ _ _) fun _ _ => rfl
  exact h.eval_lookupComponents hk hwalk hdenied
    (fun j hj r hr => hsame.blocks j hj r (hlookup j r hr))
    (fun j hj r hr => hsame.records j hj r (hlookup j r hr))

end Zizium
