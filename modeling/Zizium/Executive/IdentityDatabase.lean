import Zizium.Security
import Zizium.Unicode

/-!
# The identity database

`kernel/executive/security/identity.c` and `identity_database.c`: native identities, the
issuer state with its high-water marks, and the byte buffer that keeps one record for every
identity ever issued.  A mutating function returns its status with the buffer it leaves.
Null pointers are not modelled.
-/

namespace Zizium

open Bytes BlockIO
open List (range replicate)

/-! ## Identities -/

abbrev nativeIdentityWireVersion : ℕ := 1
abbrev nativeIdentityWireSize : ℕ := 32
abbrev identityFirstDynamicValue : ℕ := 256
abbrev identityIssuerStateVersion : ℕ := 1
abbrev identityIssuerStateSize : ℕ := 36

/-- The sixteen octets of a UUID. -/
abbrev Uuid := Vector UInt8 16

def readUuid (bytes : Mem) (offset : ℕ) : Uuid :=
  ⟨(bytes.slice offset 16).toArray,by simp⟩

def isZero (bytes : List UInt8) : Bool := bytes.all (· = 0)

structure ZiNativeIdentity where
  issuer : Uuid
  localId : ZiSecurityId
  deriving DecidableEq, Repr

structure ZiIdentityIssuerState where
  structSize : ℕ
  version : ℕ
  issuer : Uuid
  groupHighWater : ℕ
  userHighWater : ℕ
  serviceHighWater : ℕ
  deriving DecidableEq, Repr

def issuerIsValid (issuer : Uuid) : Bool := !isZero issuer.toList

def authorityIsDynamic (authority : ℕ) : Bool :=
  authority = authorityGroup || authority = authorityUser || authority = authorityService

def ziIdentityValidate (identity : ZiNativeIdentity) : Bool :=
  issuerIsValid identity.issuer && ziSecurityIdValidate identity.localId

def ziIdentityEqual (left right : ZiNativeIdentity) : Bool :=
  ziIdentityValidate left && ziIdentityValidate right &&
    (decide (left.localId = right.localId) && decide (left.issuer = right.issuer))

def identityMagic : List UInt8 := [0x5a,0x4e,0x49,0x44]

/-- The 32 bytes that `zi_identity_encode` stores at `offset` of `output`. -/
def ziIdentityEncode (identity : ZiNativeIdentity) (output : Mem) (offset : ℕ) : Result Mem := do
  failIf (ziIdentityValidate identity = false) .invalidArgument
  let bytes := Mem.zero.put 0 identityMagic
  let bytes := ziWriteU16Le bytes 4 nativeIdentityWireVersion
  let bytes := ziWriteU16Le bytes 6 nativeIdentityWireSize
  let bytes := bytes.put 8 identity.issuer.toList
  let bytes := ziWriteU32Le bytes 24 identity.localId.authority
  let bytes := ziWriteU32Le bytes 28 identity.localId.value
  pure (output.put offset (bytes.slice 0 nativeIdentityWireSize))

def ziIdentityDecode (bytes : Mem) : Result ZiNativeIdentity := do
  failIf (bytes.slice 0 4 ≠ identityMagic ∨ ziReadU16Le bytes 4 ≠ nativeIdentityWireVersion ∨
    ziReadU16Le bytes 6 ≠ nativeIdentityWireSize) .invalidArgument
  let identity : ZiNativeIdentity :=
    { issuer := readUuid bytes 8
      localId := ⟨ziReadU32Le bytes 24,ziReadU32Le bytes 28⟩ }
  failIf (ziIdentityValidate identity = false) .invalidArgument
  pure identity

def ziIdentityResolveLocal (identity : ZiNativeIdentity) (activeIssuer : Uuid) :
    Result ZiSecurityId := do
  failIf (issuerIsValid activeIssuer = false ∨ ziIdentityValidate identity = false)
    .invalidArgument
  failIf (authorityIsDynamic identity.localId.authority = false ∨
    identity.localId.value < identityFirstDynamicValue ∨ identity.issuer ≠ activeIssuer)
    .accessDenied
  pure identity.localId

def ziIdentityIssuerValidate (state : ZiIdentityIssuerState) : Bool :=
  decide (state.structSize = identityIssuerStateSize ∧
    state.version = identityIssuerStateVersion ∧ issuerIsValid state.issuer = true ∧
    ¬state.groupHighWater < identityFirstDynamicValue-1 ∧
    ¬state.userHighWater < identityFirstDynamicValue-1 ∧
    ¬state.serviceHighWater < identityFirstDynamicValue-1)

def ZiIdentityIssuerState.highWater (state : ZiIdentityIssuerState) (authority : ℕ) : ℕ :=
  if authority = authorityGroup then state.groupHighWater
  else if authority = authorityService then state.serviceHighWater
  else state.userHighWater

def ZiIdentityIssuerState.setHighWater (state : ZiIdentityIssuerState) (authority value : ℕ) :
    ZiIdentityIssuerState :=
  if authority = authorityGroup then { state with groupHighWater := value }
  else if authority = authorityService then { state with serviceHighWater := value }
  else { state with userHighWater := value }

def ziIdentityReserve (state : ZiIdentityIssuerState) (authority : ℕ) :
    Result (ZiIdentityIssuerState × ZiNativeIdentity) := do
  failIf (ziIdentityIssuerValidate state = false ∨ authorityIsDynamic authority = false)
    .invalidArgument
  failIf (state.highWater authority = uint32Max) .outOfBounds
  let value := state.highWater authority+1
  pure (state.setHighWater authority value, ⟨state.issuer,⟨authority,value⟩⟩)

/-! ## Header -/

abbrev identityDatabaseVersion : ℕ := 1
abbrev identityDatabaseHeaderSize : ℕ := 4096
abbrev identityDatabaseRecordSize : ℕ := 512
abbrev identityDatabaseCapacity : ℕ := 64
abbrev identityDatabaseNameBytes : ℕ := 128
abbrev identityDatabaseGroups : ℕ := 16
abbrev identityDatabaseSize : ℕ := 36864
abbrev identityRecordDisabled : ℕ := 1
abbrev identityRecordTombstone : ℕ := 2

/-- Sizes of the C structures, checked through their `struct_size` fields. -/
abbrev identityAuthoritySize : ℕ := 56
abbrev identityCreateRequestSize : ℕ := 48

structure ZiIdentityDatabaseAuthority where
  structSize : ℕ
  version : ℕ
  issuer : Uuid
  volume : Uuid
  database : Uuid
  deriving DecidableEq, Repr

structure ZiIdentityDatabaseState where
  issuer : ZiIdentityIssuerState
  generation : ℕ
  recordCount : ℕ
  deriving DecidableEq, Repr

/-- A decoded record; the lists carry `name_size` and `group_count`. -/
structure ZiIdentityDatabaseRecord where
  identity : ZiNativeIdentity
  generation : ℕ
  state : ℕ
  name : List UInt8
  groups : List ℕ
  deriving DecidableEq, Repr

structure ZiIdentityCreateRequest where
  structSize : ℕ
  version : ℕ
  authority : ℕ
  name : List UInt8
  groups : List ℕ
  deriving DecidableEq, Repr

def databaseMagic : List UInt8 := [0x5a,0x49,0x44,0x42]
def databaseRecordMagic : List UInt8 := [0x5a,0x49,0x41,0x52]

def authorityValid (authority : ZiIdentityDatabaseAuthority) : Bool :=
  decide (authority.structSize = identityAuthoritySize ∧
    authority.version = identityDatabaseVersion) &&
    (!isZero authority.issuer.toList && !isZero authority.volume.toList &&
      !isZero authority.database.toList)

/-- The loop of `name_valid`; every decoded scalar consumes at least one byte, so the length of
the name bounds the number of rounds. -/
def nameValidLoop : ℕ → List UInt8 → Bool
  | 0, _ => true
  | rounds+1, name =>
    if name.length = 0 then true
    else match ziUtf8Decode name with
      | .error _ => false
      | .ok decoded =>
        if decoded.scalar < 32 ∨ (decoded.scalar ≥ 127 ∧ decoded.scalar ≤ 159) ∨
            decoded.scalar = 0x2f ∨ decoded.scalar = 0x5c ∨ decoded.scalar = 0x3a then false
        else nameValidLoop rounds (name.drop decoded.consumed)

def nameValid (name : List UInt8) : Bool :=
  if name.length = 0 ∨ name.length > identityDatabaseNameBytes then false
  else nameValidLoop name.length name

def databaseChecksum (bytes : Mem) : ℕ :=
  let checksum := ziCrc32c 0 (bytes.slice 0 4092)
  let checksum := ziCrc32c checksum [0,0,0,0]
  (ziCrc32c checksum (bytes.slice 4096 (identityDatabaseSize-4096))).toNat

def updateChecksum (bytes : Mem) : Mem := ziWriteU32Le bytes 4092 (databaseChecksum bytes)

def writeState (bytes : Mem) (state : ZiIdentityDatabaseState) : Mem :=
  let bytes := ziWriteU32Le bytes 16 state.recordCount
  let bytes := ziWriteU64Le bytes 24 state.generation
  let bytes := ziWriteU32Le bytes 80 state.issuer.groupHighWater
  let bytes := ziWriteU32Le bytes 84 state.issuer.userHighWater
  ziWriteU32Le bytes 88 state.issuer.serviceHighWater

def readState (bytes : Mem) : ZiIdentityDatabaseState where
  recordCount := ziReadU32Le bytes 16
  generation := ziReadU64Le bytes 24
  issuer :=
    { structSize := identityIssuerStateSize
      version := identityIssuerStateVersion
      issuer := readUuid bytes 32
      groupHighWater := ziReadU32Le bytes 80
      userHighWater := ziReadU32Le bytes 84
      serviceHighWater := ziReadU32Le bytes 88 }

def recordOffset (index : ℕ) : ℕ := identityDatabaseHeaderSize+index*identityDatabaseRecordSize

def recordBytes (bytes : Mem) (index : ℕ) : Mem := bytes.shift (recordOffset index)

def emptyDatabase (authority : ZiIdentityDatabaseAuthority) (output : Mem) : Mem :=
  let output := output.put 0 (replicate identityDatabaseSize 0)
  let output := output.put 0 databaseMagic
  let output := ziWriteU16Le output 4 identityDatabaseVersion
  let output := ziWriteU16Le output 6 identityDatabaseHeaderSize
  let output := ziWriteU32Le output 8 identityDatabaseSize
  let output := ziWriteU16Le output 12 identityDatabaseRecordSize
  let output := ziWriteU16Le output 14 identityDatabaseCapacity
  let output := ziWriteU64Le output 24 1
  let output := output.put 32 authority.issuer.toList
  let output := output.put 48 authority.volume.toList
  let output := output.put 64 authority.database.toList
  let output := ziWriteU32Le output 80 (identityFirstDynamicValue-1)
  let output := ziWriteU32Le output 84 (identityFirstDynamicValue-1)
  let output := ziWriteU32Le output 88 (identityFirstDynamicValue-1)
  updateChecksum output

def ziIdentityDatabaseInitialise (authority : ZiIdentityDatabaseAuthority) (bytes : Mem)
    (size : ℕ) : Result Unit × Mem :=
  if authorityValid authority = false ∨ size ≠ identityDatabaseSize then
    (.error .invalidArgument, bytes)
  else (.ok (), emptyDatabase authority bytes)

/-! ## Records -/

/-- The group loop of `decode_record`: dynamic values in ascending order. -/
def groupsAscend : (previous : Option ℕ) → List ℕ → Bool
  | _, [] => true
  | previous, group :: groups =>
    if group < identityFirstDynamicValue ∨ (∃ last ∈ previous, group ≤ last) then false
    else groupsAscend (some group) groups

def decodeRecord (bytes : Mem) : Result ZiIdentityDatabaseRecord := do
  failIf (bytes.slice 0 4 ≠ databaseRecordMagic ∨
    ziReadU16Le bytes 4 ≠ identityDatabaseVersion ∨
    ziReadU16Le bytes 6 ≠ identityDatabaseRecordSize ∨ ziReadU32Le bytes 12 ≠ 0 ∨
    ziReadU32Le bytes 52 ≠ 0 ∨ isZero (bytes.slice 256 252) = false) .invalidArgument
  failIf (ziReadU32Le bytes 508 ≠ checksum bytes 508) .checksumMismatch
  let identity ← ziIdentityDecode (bytes.shift 16)
  let state := ziReadU32Le bytes 8
  let nameSize := ziReadU16Le bytes 48
  let groupCount := ziReadU16Le bytes 50
  let generation := ziReadU64Le bytes 56
  failIf ((state ≠ identityRecordDisabled ∧ state ≠ identityRecordTombstone) ∨
    nameSize > identityDatabaseNameBytes ∨ groupCount > identityDatabaseGroups ∨
    ((state = identityRecordTombstone ∨ identity.localId.authority = authorityGroup) ∧
      groupCount ≠ 0)) .invalidArgument
  let name := bytes.slice 64 nameSize
  failIf (nameValid name = false ∨ isZero (bytes.slice (64+nameSize) (128-nameSize)) = false ∨
    isZero (bytes.slice (192+groupCount*4) (64-groupCount*4)) = false) .invalidArgument
  let groups := (range groupCount).map fun index => ziReadU32Le bytes (192+index*4)
  failIf (groupsAscend none groups = false) .invalidArgument
  pure { identity, generation, state, name, groups }

def validateRecordBinding (record : ZiIdentityDatabaseRecord) (state : ZiIdentityDatabaseState) :
    Result Unit := do
  let localId ← ziIdentityResolveLocal record.identity state.issuer.issuer
  let highWater := state.issuer.highWater localId.authority
  failIf (¬(localId.value ≤ highWater ∧ record.generation > 0 ∧
    record.generation ≤ state.generation)) .invalidArgument

def ZiIdentityDatabaseRecord.isGroup (record : ZiIdentityDatabaseRecord) (value : ℕ) : Bool :=
  decide (record.state = identityRecordDisabled ∧
    record.identity.localId.authority = authorityGroup ∧ record.identity.localId.value = value)

def hasGroup (bytes : Mem) (count value : ℕ) : Bool :=
  (range count).any fun index =>
    match decodeRecord (recordBytes bytes index) with
    | .error _ => false
    | .ok record => record.isGroup value

/-- Two records that exclude each other: the same identity, or the same name of one authority
in two live records. -/
def recordsClash (record previous : ZiIdentityDatabaseRecord) : Bool :=
  ziIdentityEqual record.identity previous.identity ||
    decide (record.state ≠ identityRecordTombstone ∧ previous.state ≠ identityRecordTombstone ∧
      record.identity.localId.authority = previous.identity.localId.authority ∧
      record.name = previous.name)

/-- One turn of the outer loop of `validate_records`. -/
def validateRecord (bytes : Mem) (state : ZiIdentityDatabaseState) (index : ℕ) : Result Unit := do
  let record ← decodeRecord (recordBytes bytes index)
  validateRecordBinding record state
  (range index).forM fun other => do
    let previous ← decodeRecord (recordBytes bytes other)
    failIf (recordsClash record previous = true) .alreadyExists
  failIf (∃ group ∈ record.groups, hasGroup bytes state.recordCount group = false)
    .invalidArgument

def validateRecords (bytes : Mem) (state : ZiIdentityDatabaseState) : Result Unit :=
  (range state.recordCount).forM (validateRecord bytes state)

def ziIdentityDatabaseValidate (input : Mem) (size : ℕ) (authority : ZiIdentityDatabaseAuthority)
    (minimumGeneration : ℕ) : Result ZiIdentityDatabaseState := do
  failIf (size ≠ identityDatabaseSize ∨ authorityValid authority = false ∨
    minimumGeneration = 0) .invalidArgument
  failIf (input.slice 0 4 ≠ databaseMagic ∨ ziReadU16Le input 4 ≠ identityDatabaseVersion ∨
    ziReadU16Le input 6 ≠ identityDatabaseHeaderSize ∨
    ziReadU32Le input 8 ≠ identityDatabaseSize ∨
    ziReadU16Le input 12 ≠ identityDatabaseRecordSize ∨
    ziReadU16Le input 14 ≠ identityDatabaseCapacity ∨ ziReadU32Le input 20 ≠ 0 ∨
    isZero (input.slice 92 4000) = false) .invalidArgument
  failIf (ziReadU32Le input 4092 ≠ databaseChecksum input) .checksumMismatch
  failIf (readUuid input 32 ≠ authority.issuer ∨ readUuid input 48 ≠ authority.volume ∨
    readUuid input 64 ≠ authority.database) .accessDenied
  let state := readState input
  failIf (state.recordCount > identityDatabaseCapacity ∨ state.generation = 0 ∨
    ziIdentityIssuerValidate state.issuer = false) .invalidArgument
  failIf (state.generation < minimumGeneration) .invalidState
  let used := identityDatabaseHeaderSize+state.recordCount*identityDatabaseRecordSize
  failIf (isZero (input.slice used (size-used)) = false) .invalidArgument
  validateRecords input state
  pure state

def ziIdentityDatabaseRecord (bytes : Mem) (size : ℕ) (authority : ZiIdentityDatabaseAuthority)
    (index : ℕ) : Result ZiIdentityDatabaseRecord := do
  let state ← ziIdentityDatabaseValidate bytes size authority 1
  failIf (index ≥ state.recordCount) .notFound
  decodeRecord (recordBytes bytes index)

/-! ## Requests -/

/-- The group loop of `validate_request`: ascending values of live groups. -/
def requestGroupsValid (bytes : Mem) (count : ℕ) : (previous : Option ℕ) → List ℕ → Bool
  | _, [] => true
  | previous, group :: groups =>
    if (∃ last ∈ previous, group ≤ last) ∨ hasGroup bytes count group = false then false
    else requestGroupsValid bytes count (some group) groups

def validateRequest (bytes : Mem) (state : ZiIdentityDatabaseState)
    (request : ZiIdentityCreateRequest) : Result Unit := do
  failIf (request.structSize ≠ identityCreateRequestSize ∨
    request.version ≠ identityDatabaseVersion ∨ nameValid request.name = false ∨
    request.groups.length > identityDatabaseGroups ∨
    (request.authority = authorityGroup ∧ request.groups.length ≠ 0)) .invalidArgument
  failIf (requestGroupsValid bytes state.recordCount none request.groups = false) .invalidArgument
  (range state.recordCount).forM fun index => do
    let record ← decodeRecord (recordBytes bytes index)
    failIf (record.state ≠ identityRecordTombstone ∧
      record.identity.localId.authority = request.authority ∧ record.name = request.name)
      .alreadyExists

def writeGroups (bytes : Mem) (offset : ℕ) : List ℕ → Mem
  | [] => bytes
  | group :: groups => writeGroups (ziWriteU32Le bytes offset group) (offset+4) groups

/-- The record that `zi_identity_database_append` encodes. -/
def encodeRecord (identity : ZiNativeIdentity) (request : ZiIdentityCreateRequest)
    (generation : ℕ) : Result Mem := do
  let encoded := Mem.zero.put 0 databaseRecordMagic
  let encoded := ziWriteU16Le encoded 4 identityDatabaseVersion
  let encoded := ziWriteU16Le encoded 6 identityDatabaseRecordSize
  let encoded := ziWriteU32Le encoded 8 identityRecordDisabled
  let encoded ← ziIdentityEncode identity encoded 16
  let encoded := ziWriteU16Le encoded 48 request.name.length
  let encoded := ziWriteU16Le encoded 50 request.groups.length
  let encoded := ziWriteU64Le encoded 56 generation
  let encoded := encoded.put 64 request.name
  let encoded := writeGroups encoded 192 request.groups
  pure (ziWriteU32Le encoded 508 (checksum encoded 508))

/-- What `zi_identity_database_append` computes before it writes: the record, the state and the
identity. -/
def prepareAppend (bytes : Mem) (size : ℕ) (authority : ZiIdentityDatabaseAuthority)
    (request : ZiIdentityCreateRequest) :
    Result (Mem × ZiIdentityDatabaseState × ZiNativeIdentity) := do
  let state ← ziIdentityDatabaseValidate bytes size authority 1
  validateRequest bytes state request
  failIf (state.recordCount = identityDatabaseCapacity ∨ state.generation = uint64Max) .outOfBounds
  let reserved ← ziIdentityReserve state.issuer request.authority
  let state := { state with issuer := reserved.1, generation := state.generation+1 }
  let encoded ← encodeRecord reserved.2 request state.generation
  pure (encoded, state, reserved.2)

def ziIdentityDatabaseAppend (bytes : Mem) (size : ℕ) (authority : ZiIdentityDatabaseAuthority)
    (request : ZiIdentityCreateRequest) : Result ZiNativeIdentity × Mem :=
  match prepareAppend bytes size authority request with
  | .error status => (.error status, bytes)
  | .ok (encoded, state, identity) =>
    let output := bytes.put (recordOffset state.recordCount)
      (encoded.slice 0 identityDatabaseRecordSize)
    let output := writeState output { state with recordCount := state.recordCount+1 }
    (.ok identity, updateChecksum output)

/-- The loop of `zi_identity_database_remove`: the record to remove, unless a live record
refers to the group. -/
def removalTarget (bytes : Mem) (authority : ZiIdentityDatabaseAuthority)
    (identity : ZiNativeIdentity) : (indices : List ℕ) → (target : Option ℕ) → Result (Option ℕ)
  | [], target => pure target
  | index :: indices, target => do
    let record ← decodeRecord (recordBytes bytes index)
    if record.state = identityRecordTombstone then
      removalTarget bytes authority identity indices target
    else do
      let target := if ziIdentityEqual record.identity identity then some index else target
      failIf (identity.localId.authority = authorityGroup ∧ identity.issuer = authority.issuer ∧
        identity.localId.value ∈ record.groups) .resourceInUse
      removalTarget bytes authority identity indices target

/-- What `zi_identity_database_remove` computes before it writes: the state and the index of the
record. -/
def prepareRemove (bytes : Mem) (size : ℕ) (authority : ZiIdentityDatabaseAuthority)
    (identity : ZiNativeIdentity) : Result (ZiIdentityDatabaseState × ℕ) := do
  failIf (ziIdentityValidate identity = false) .invalidArgument
  let state ← ziIdentityDatabaseValidate bytes size authority 1
  failIf (state.generation = uint64Max) .outOfBounds
  match ← removalTarget bytes authority identity (range state.recordCount) none with
  | none => throw .notFound
  | some target => pure ({ state with generation := state.generation+1 }, target)

def buryRecord (record : Mem) (generation : ℕ) : Mem :=
  let record := ziWriteU32Le record 8 identityRecordTombstone
  let record := ziWriteU16Le record 50 0
  let record := record.put 192 (replicate 64 0)
  let record := ziWriteU64Le record 56 generation
  ziWriteU32Le record 508 (checksum record 508)

def ziIdentityDatabaseRemove (bytes : Mem) (size : ℕ) (authority : ZiIdentityDatabaseAuthority)
    (identity : ZiNativeIdentity) : Result Unit × Mem :=
  match prepareRemove bytes size authority identity with
  | .error status => (.error status, bytes)
  | .ok (state, target) =>
    let record := buryRecord (recordBytes bytes target) state.generation
    let output := bytes.put (recordOffset target) (record.slice 0 identityDatabaseRecordSize)
    (.ok (), updateChecksum (writeState output state))

end Zizium
