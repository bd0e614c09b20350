import Zizium.Unicode

/-!
# Service manifests

`kernel/executive/service/manifest.c`: the parser and the checks of service manifests, the
resolution of their start order and the supervision of a service.  A string view is its bytes,
and an array of dependencies a list.
-/

namespace Zizium

open BlockIO

def asciiText (text : String) : List UInt8 := text.toList.map fun c => UInt8.ofNat c.toNat

abbrev ziServiceManifestVersion : ℕ := 1
abbrev ziServiceManifestFormatVersion : ℕ := 1
abbrev ziServiceMaxManifestBytes : ℕ := 4096
abbrev ziServiceMaxNameBytes : ℕ := 96
abbrev ziServiceMaxPathBytes : ℕ := 512
abbrev ziServiceMaxIdentityBytes : ℕ := 128
abbrev ziServiceMaxDependencies : ℕ := 16
abbrev ziServiceMaxManifests : ℕ := 32
abbrev ziServiceMaxRestarts : ℕ := 8
abbrev ziServiceSupervisionResultVersion : ℕ := 1

abbrev ziServiceBoot : ℕ := 0
abbrev ziServiceSystem : ℕ := 1
abbrev ziServiceAutomatic : ℕ := 2
abbrev ziServiceDemand : ℕ := 3
abbrev ziServiceDisabled : ℕ := 4

abbrev ziServiceRestartNever : ℕ := 0
abbrev ziServiceRestartOnFailure : ℕ := 1
abbrev ziServiceRestartAlways : ℕ := 2

abbrev ziServiceKindSystem : ℕ := 1
abbrev ziServiceKindUser : ℕ := 2

abbrev ziServiceTokenSystem : ℕ := 1
abbrev ziServiceTokenService : ℕ := 2
abbrev ziServiceTokenSessionBootstrap : ℕ := 3

abbrev ziServiceImplementationScaffolded : ℕ := 1
abbrev ziServiceImplementationImplemented : ℕ := 2
abbrev ziServiceImplementationFuture : ℕ := 3

structure ZiServiceDependency where
  serviceName : List UInt8
  minimumVersion : ℕ
  deriving DecidableEq, Repr

structure ZiServiceManifest where
  structSize : ℕ
  version : ℕ
  formatVersion : ℕ
  name : List UInt8
  executablePath : List UInt8
  identity : List UInt8
  permissions : List UInt8
  logPath : List UInt8
  dependencies : List ZiServiceDependency
  serviceKind : ℕ
  startMode : ℕ
  startOrder : ℕ
  restartPolicy : ℕ
  tokenPolicy : ℕ
  maximumRestarts : ℕ
  implementationStatus : ℕ
  flags : ℕ
  deriving DecidableEq, Repr

/-- `sizeof(ZiServiceManifest)`. -/
abbrev manifestStructSize : ℕ := 144

/-! ### Views -/

def viewEquals (view : List UInt8) (expected : String) : Bool := view == asciiText expected

def compareViews (left right : List UInt8) : ℤ := compareBytes left right

/-! ### Checks -/

def isForbiddenNameByte (byte : UInt8) : Bool :=
  byte ≤ 0x20 || byte == 0x7f || byte == backslashByte || byte == slashByte || byte == colonByte ||
    byte == 0x2c || byte == 0x3d || byte == 0x40

def validateServiceName (name : List UInt8) : Result Unit := do
  failIf (name.length = 0 ∨ name.length > ziServiceMaxNameBytes ∨ ziUtf8Validate name ≠ .ok ())
    .invalidServiceManifest
  failIf (∃ byte ∈ name, isForbiddenNameByte byte) .invalidServiceManifest

def validateExecutablePath (path : List UInt8) : Result Unit := do
  failIf (path.length = 0 ∨ path.length > ziServiceMaxPathBytes) .invalidServiceManifest
  match ziPathParseAbsolute path 32 with
  | .error _ => throw .invalidServiceManifest
  | .ok parsed =>
    failIf (¬(parsed.driveLetter = 0x43 ∧ parsed.components.length ≠ 0)) .invalidServiceManifest

/-- The bytes an identity may not have behind its prefix. -/
def isForbiddenIdentityByte (byte : UInt8) : Bool :=
  byte ≤ 0x20 || byte == 0x7f || byte == backslashByte || byte == slashByte || byte == 0x2c ||
    byte == 0x3d

def validateIdentity (identity : List UInt8) : Result Unit := do
  failIf (identity.length < (asciiText "NID:X").length ∨
    identity.length > ziServiceMaxIdentityBytes ∨
    identity.take (asciiText "NID:").length ≠ asciiText "NID:" ∨
    ziUtf8Validate identity ≠ .ok ()) .invalidServiceManifest
  failIf (∃ byte ∈ identity.drop 4, isForbiddenIdentityByte byte) .invalidServiceManifest

/-- The loop of `validate_manifest_dependencies`; `previous` are the names already seen. -/
def validateDependencyList (name : List UInt8) :
    (previous : List ZiServiceDependency) → List ZiServiceDependency → Result Unit
  | _, [] => pure ()
  | previous, dependency :: rest => do
    failIf (dependency.minimumVersion ≠ 0 ∨ validateServiceName dependency.serviceName ≠ .ok () ∨
      compareViews name dependency.serviceName = 0) .invalidServiceManifest
    failIf (∃ earlier ∈ previous, compareViews earlier.serviceName dependency.serviceName = 0)
      .invalidServiceManifest
    validateDependencyList name (previous ++ [dependency]) rest

def validateManifestDependencies (manifest : ZiServiceManifest) : Result Unit :=
  validateDependencyList manifest.name [] manifest.dependencies

def ziServiceManifestValidate (manifest : ZiServiceManifest) : Result Unit := do
  failIf (manifest.structSize < manifestStructSize ∨ manifest.version ≠ ziServiceManifestVersion ∨
    manifest.formatVersion ≠ ziServiceManifestFormatVersion ∨
    manifest.dependencies.length > ziServiceMaxDependencies ∨
    manifest.startOrder > uint16Max ∨ manifest.maximumRestarts > ziServiceMaxRestarts ∨
    (manifest.serviceKind ≠ ziServiceKindSystem ∧ manifest.serviceKind ≠ ziServiceKindUser) ∨
    manifest.startMode > ziServiceDisabled ∨
    manifest.restartPolicy > ziServiceRestartAlways ∨
    manifest.tokenPolicy < ziServiceTokenSystem ∨
    manifest.tokenPolicy > ziServiceTokenSessionBootstrap ∨ manifest.flags ≠ 0)
    .invalidServiceManifest
  failIf (validateServiceName manifest.name ≠ .ok () ∨
    validateExecutablePath manifest.executablePath ≠ .ok () ∨
    validateIdentity manifest.identity ≠ .ok () ∨
    validateManifestDependencies manifest ≠ .ok ()) .invalidServiceManifest
  failIf (manifest.logPath.length ≠ 0 ∧ validateExecutablePath manifest.logPath ≠ .ok ())
    .invalidServiceManifest
  if manifest.restartPolicy = ziServiceRestartNever then
    failIf (manifest.maximumRestarts ≠ 0) .invalidServiceManifest
  else failIf (manifest.maximumRestarts = 0) .invalidServiceManifest
  failIf (manifest.tokenPolicy = ziServiceTokenSystem ∧
    ¬viewEquals manifest.identity "NID:SYSTEM") .invalidServiceManifest
  failIf (manifest.tokenPolicy ≠ ziServiceTokenSystem ∧
    (manifest.identity.length ≤ (asciiText "NID:SERVICE:").length ∨
      manifest.identity.take (asciiText "NID:SERVICE:").length ≠ asciiText "NID:SERVICE:"))
    .invalidServiceManifest
  failIf (manifest.tokenPolicy ≠ ziServiceTokenSystem ∧
    validateServiceName (manifest.identity.drop (asciiText "NID:SERVICE:").length) ≠ .ok ())
    .invalidServiceManifest

/-- A service that is restarted on failure, once. -/
def sampleManifest : ZiServiceManifest where
  structSize := manifestStructSize
  version := ziServiceManifestVersion
  formatVersion := ziServiceManifestFormatVersion
  name := asciiText "Clock"
  executablePath := asciiText "C:\\Clock"
  identity := asciiText "NID:SERVICE:Clock"
  permissions := []
  logPath := []
  dependencies := []
  serviceKind := ziServiceKindSystem
  startMode := ziServiceBoot
  startOrder := 0
  restartPolicy := ziServiceRestartOnFailure
  tokenPolicy := ziServiceTokenService
  maximumRestarts := 1
  implementationStatus := 0
  flags := 0

example : ziServiceManifestValidate sampleManifest = .ok () := by decide

/-! ### Values -/

def isDigit (byte : UInt8) : Bool := 0x30 ≤ byte && byte ≤ 0x39

/-- The loop of `parse_uint32`. -/
def parseDigits (maximum : ℕ) : (result : ℕ) → List UInt8 → Result ℕ
  | result, [] => pure result
  | result, digit :: rest => do
    failIf (¬isDigit digit) .invalidServiceManifest
    let valueDigit := digit.toNat-0x30
    failIf (valueDigit > maximum ∨ result > (maximum-valueDigit)/10) .invalidServiceManifest
    parseDigits maximum (result*10+valueDigit) rest

def parseUint32 (value : List UInt8) (maximum : ℕ) : Result ℕ := do
  failIf (value.length = 0) .invalidServiceManifest
  parseDigits maximum 0 value

def parseWord (words : List (String × ℕ)) (value : List UInt8) : Result ℕ :=
  match words.find? fun word => viewEquals value word.1 with
  | some word => pure word.2
  | none => throw .invalidServiceManifest

def parseStartMode : List UInt8 → Result ℕ :=
  parseWord [("Boot", ziServiceBoot),("System", ziServiceSystem),
    ("Automatic", ziServiceAutomatic),("Demand", ziServiceDemand),
    ("Disabled", ziServiceDisabled)]

def parseRestartPolicy : List UInt8 → Result ℕ :=
  parseWord [("Never", ziServiceRestartNever),("OnFailure", ziServiceRestartOnFailure),
    ("Always", ziServiceRestartAlways)]

def parseServiceKind : List UInt8 → Result ℕ :=
  parseWord [("System", ziServiceKindSystem),("User", ziServiceKindUser)]

def parseTokenPolicy : List UInt8 → Result ℕ :=
  parseWord [("System", ziServiceTokenSystem),("Service", ziServiceTokenService),
    ("SessionBootstrap", ziServiceTokenSessionBootstrap)]

def parseImplementationStatus : List UInt8 → Result ℕ :=
  parseWord [("Scaffolded", ziServiceImplementationScaffolded),
    ("Implemented", ziServiceImplementationImplemented),
    ("Future", ziServiceImplementationFuture)]

def commaByte : UInt8 := 0x2c

/-- The loop of `parse_dependencies`; a round takes at least one byte, so the size of the value
bounds the number of rounds. -/
def parseDependenciesLoop (dependencyCapacity : ℕ) :
    (rounds : ℕ) → (rest : List UInt8) → List ZiServiceDependency →
    Result (List ZiServiceDependency)
  | 0, _, stored => pure stored
  | rounds+1, rest, stored =>
    if rest.length = 0 then pure stored
    else do
      let name := rest.takeWhile (· ≠ commaByte)
      let behind := rest.dropWhile (· ≠ commaByte)
      failIf (stored.length ≥ dependencyCapacity ∨ validateServiceName name ≠ .ok ())
        .invalidServiceManifest
      failIf (∃ earlier ∈ stored, compareViews earlier.serviceName name = 0)
        .invalidServiceManifest
      if behind.length = 0 then pure (stored ++ [⟨name,0⟩])
      else do
        failIf ((behind.drop 1).length = 0) .invalidServiceManifest
        parseDependenciesLoop dependencyCapacity rounds (behind.drop 1) (stored ++ [⟨name,0⟩])

def parseDependencies (value : List UInt8) (dependencyCapacity : ℕ) :
    Result (List ZiServiceDependency) :=
  parseDependenciesLoop dependencyCapacity value.length value []

/-! ### Assignments -/

inductive ManifestField where
  | formatVersion
  | name
  | executable
  | serviceKind
  | identity
  | startMode
  | startOrder
  | dependencies
  | restartPolicy
  | tokenPolicy
  | maximumRestarts
  | permissions
  | log
  | status
  deriving DecidableEq, Repr

/-- `MANIFEST_REQUIRED_FIELDS`. -/
def manifestRequiredFields : List ManifestField :=
  [.formatVersion,.name,.executable,.serviceKind,.identity,.startMode,.startOrder,
    .dependencies,.restartPolicy,.tokenPolicy,.maximumRestarts]

def manifestKeys : List (String × ManifestField) :=
  [("FormatVersion", .formatVersion),("Name", .name),("Executable", .executable),
    ("ServiceKind", .serviceKind),("Identity", .identity),("StartMode", .startMode),
    ("StartOrder", .startOrder),("Dependencies", .dependencies),
    ("RestartPolicy", .restartPolicy),("TokenPolicy", .tokenPolicy),
    ("MaximumRestarts", .maximumRestarts),("Permissions", .permissions),("Log", .log),
    ("Status", .status)]

def manifestFieldOf (key : List UInt8) : Option ManifestField :=
  (manifestKeys.find? fun entry => viewEquals key entry.1).map Prod.snd

/-- What a value of the text stands for. -/
inductive ManifestValue where
  | number (value : ℕ)
  | text (value : List UInt8)
  | services (value : List ZiServiceDependency)
  deriving DecidableEq

/-- The branches of `assign_manifest_field`: check and convert the value of a field. -/
def parseManifestValue (dependencyCapacity : ℕ) (value : List UInt8) :
    ManifestField → Result ManifestValue
  | .formatVersion => do
    let number ← parseUint32 value ziServiceManifestFormatVersion
    failIf (number ≠ ziServiceManifestFormatVersion) .invalidServiceManifest
    pure (.number number)
  | .name => do
    validateServiceName value
    pure (.text value)
  | .executable => do
    validateExecutablePath value
    pure (.text value)
  | .serviceKind => do
    let number ← parseServiceKind value
    pure (.number number)
  | .identity => do
    validateIdentity value
    pure (.text value)
  | .startMode => do
    let number ← parseStartMode value
    pure (.number number)
  | .startOrder => do
    let number ← parseUint32 value uint16Max
    pure (.number number)
  | .dependencies => do
    let services ← parseDependencies value dependencyCapacity
    pure (.services services)
  | .restartPolicy => do
    let number ← parseRestartPolicy value
    pure (.number number)
  | .tokenPolicy => do
    let number ← parseTokenPolicy value
    pure (.number number)
  | .maximumRestarts => do
    let number ← parseUint32 value ziServiceMaxRestarts
    pure (.number number)
  | .permissions => pure (.text value)
  | .log => do
    failIf (value.length ≠ 0 ∧ validateExecutablePath value ≠ .ok ()) .invalidServiceManifest
    pure (.text value)
  | .status => do
    let number ← parseImplementationStatus value
    pure (.number number)

def ZiServiceManifest.store (manifest : ZiServiceManifest) :
    ManifestField → ManifestValue → ZiServiceManifest
  | .formatVersion, .number n => { manifest with formatVersion := n }
  | .name, .text t => { manifest with name := t }
  | .executable, .text t => { manifest with executablePath := t }
  | .serviceKind, .number n => { manifest with serviceKind := n }
  | .identity, .text t => { manifest with identity := t }
  | .startMode, .number n => { manifest with startMode := n }
  | .startOrder, .number n => { manifest with startOrder := n }
  | .dependencies, .services l => { manifest with dependencies := l }
  | .restartPolicy, .number n => { manifest with restartPolicy := n }
  | .tokenPolicy, .number n => { manifest with tokenPolicy := n }
  | .maximumRestarts, .number n => { manifest with maximumRestarts := n }
  | .permissions, .text t => { manifest with permissions := t }
  | .log, .text t => { manifest with logPath := t }
  | .status, .number n => { manifest with implementationStatus := n }
  | _, _ => manifest

/-- The variables of the parser: the fields seen so far and the manifest. -/
structure ManifestProgress where
  fields : List ManifestField
  manifest : ZiServiceManifest
  deriving DecidableEq

def assignManifestField (dependencyCapacity : ℕ) (key value : List UInt8)
    (progress : ManifestProgress) : Result ManifestProgress :=
  match manifestFieldOf key with
  | none => throw .invalidServiceManifest
  | some field => do
    let parsed ← parseManifestValue dependencyCapacity value field
    failIf (field ∈ progress.fields) .invalidServiceManifest
    pure ⟨field :: progress.fields,progress.manifest.store field parsed⟩

/-! ### The parser -/

def lineFeedByte : UInt8 := 0x0a
def carriageReturnByte : UInt8 := 0x0d
def hashByte : UInt8 := 0x23
def equalsSign : UInt8 := 0x3d

def isLineByte (byte : UInt8) : Bool := byte != lineFeedByte && byte != carriageReturnByte

def skipLineEnding (rest : List UInt8) : Result (List UInt8) :=
  match rest with
  | [] => pure []
  | byte :: behind =>
    if byte = carriageReturnByte then do
      failIf (behind.getD 0 0 ≠ lineFeedByte) .invalidServiceManifest
      pure (behind.drop 1)
    else pure behind

/-- One line that is neither empty nor a comment. -/
def parseAssignment (dependencyCapacity : ℕ) (line : List UInt8) (progress : ManifestProgress) :
    Result ManifestProgress := do
  let key := line.takeWhile (· ≠ equalsSign)
  let behind := line.dropWhile (· ≠ equalsSign)
  failIf (key.length = 0 ∨ behind.length = 0) .invalidServiceManifest
  assignManifestField dependencyCapacity key (behind.drop 1) progress

/-- The loop of `zi_service_manifest_parse`; a round takes at least one byte. -/
def parseManifestLines (dependencyCapacity : ℕ) :
    (rounds : ℕ) → (data : List UInt8) → ManifestProgress → Result ManifestProgress
  | 0, _, progress => pure progress
  | rounds+1, data, progress =>
    if data.length = 0 then pure progress
    else do
      let line := data.takeWhile isLineByte
      let rest ← skipLineEnding (data.dropWhile isLineByte)
      if line.length = 0 ∨ line.getD 0 0 = hashByte then
        parseManifestLines dependencyCapacity rounds rest progress
      else do
        let progress ← parseAssignment dependencyCapacity line progress
        parseManifestLines dependencyCapacity rounds rest progress

/-- The manifest before any assignment. -/
def emptyManifest : ZiServiceManifest where
  structSize := manifestStructSize
  version := ziServiceManifestVersion
  formatVersion := 0
  name := []
  executablePath := []
  identity := []
  permissions := []
  logPath := []
  dependencies := []
  serviceKind := 0
  startMode := 0
  startOrder := 0
  restartPolicy := 0
  tokenPolicy := 0
  maximumRestarts := 0
  implementationStatus := 0
  flags := 0

def ziServiceManifestParse (data : List UInt8) (dependencyCapacity : ℕ) :
    Result ZiServiceManifest := do
  failIf (data.length = 0 ∨ data.length > ziServiceMaxManifestBytes ∨
    dependencyCapacity > ziServiceMaxDependencies) .invalidArgument
  failIf (ziUtf8Validate data ≠ .ok ()) .invalidServiceManifest
  failIf (∃ byte ∈ data, byte = 0) .invalidServiceManifest
  let progress ← parseManifestLines dependencyCapacity data.length data ⟨[],emptyManifest⟩
  failIf (∃ field ∈ manifestRequiredFields, field ∉ progress.fields) .invalidServiceManifest
  ziServiceManifestValidate progress.manifest
  pure progress.manifest

/-! ### The start order -/

def findManifest (manifests : List ZiServiceManifest) (name : List UInt8) : Result ℕ :=
  match manifests.findIdx? fun manifest => compareViews manifest.name name = 0 with
  | some index => pure index
  | none => throw .notFound

/-- The checks of `zi_service_resolve_start_order`; `previous` are the manifests before. -/
def checkManifests (manifests : List ZiServiceManifest) :
    (previous rest : List ZiServiceManifest) → Result Unit
  | _, [] => pure ()
  | previous, manifest :: rest => do
    failIf (ziServiceManifestValidate manifest ≠ .ok ()) .invalidServiceManifest
    failIf (∃ earlier ∈ previous, compareViews manifest.name earlier.name = 0) .alreadyExists
    manifest.dependencies.forM fun dependency => do
      let _ ← findManifest manifests dependency.serviceName
    checkManifests manifests (previous ++ [manifest]) rest

def dependenciesAreEmitted (manifests : List ZiServiceManifest) (emitted : ℕ → Bool)
    (manifest : ZiServiceManifest) : Bool :=
  manifest.dependencies.all fun dependency =>
    match findManifest manifests dependency.serviceName with
    | .ok index => emitted index
    | .error _ => false

def candidatePrecedes (manifest current : ZiServiceManifest) : Bool :=
  if manifest.startOrder ≠ current.startOrder then manifest.startOrder < current.startOrder
  else compareViews manifest.name current.name < 0

/-- One turn of the scan for the next manifest. -/
def considerCandidate (manifests : List ZiServiceManifest) (emitted : ℕ → Bool)
    (current : Option (ZiServiceManifest × ℕ)) (entry : ZiServiceManifest × ℕ) :
    Option (ZiServiceManifest × ℕ) :=
  if emitted entry.2 || !dependenciesAreEmitted manifests emitted entry.1 then current
  else
    match current with
    | none => some entry
    | some best => if candidatePrecedes entry.1 best.1 then some entry else some best

/-- The scan; `none` is the index `SIZE_MAX`. -/
def selectCandidate (manifests : List ZiServiceManifest) (emitted : ℕ → Bool) : Option ℕ :=
  (manifests.zipIdx.foldl (considerCandidate manifests emitted) none).map Prod.snd

def emitManifests (manifests : List ZiServiceManifest) :
    (rounds : ℕ) → (emitted : ℕ → Bool) → (order : List ℕ) → Result Unit × List ℕ
  | 0, _, order => (.ok (), order)
  | rounds+1, emitted, order =>
    match selectCandidate manifests emitted with
    | none => (.error .serviceDependencyCycle, order)
    | some index =>
      emitManifests manifests rounds (Function.update emitted index true) (order ++ [index])

/-- The status and the order stored so far. -/
def ziServiceResolveStartOrder (manifests : List ZiServiceManifest) (orderCapacity : ℕ) :
    Result Unit × List ℕ :=
  if manifests.length = 0 ∨ manifests.length > ziServiceMaxManifests ∨
      orderCapacity < manifests.length then
    (.error .invalidArgument, [])
  else
    match checkManifests manifests [] manifests with
    | .error status => (.error status, [])
    | .ok _ => emitManifests manifests manifests.length (fun _ => false) []

/-! ### Supervision -/

/-- Status codes as the 32-bit integers that a launch routine returns. -/
abbrev ziStatusSuccess : ℤ := 0
abbrev ziStatusPending : ℤ := 1
abbrev ziStatusNotImplemented : ℤ := -9
abbrev ziStatusProcessTerminated : ℤ := -26
abbrev ziStatusInvalidServiceManifest : ℤ := -38
abbrev ziStatusServiceRestartLimit : ℤ := -40

structure ZiServiceSupervisionResult where
  structSize : ℕ
  version : ℕ
  attemptCount : ℕ
  restartCount : ℕ
  lastLaunchStatus : ℤ
  lastExitCode : ℤ
  deriving DecidableEq, Repr

/-- What one call of a launch routine reports. -/
structure LaunchReport where
  status : ℤ
  exitCode : ℤ
  deriving DecidableEq, Repr

/-- A launch routine: from its context, the manifest, the attempt number and the exit code
cell it is handed to its report and the context afterwards. -/
abbrev LaunchRoutine (σ : Type) := σ → ZiServiceManifest → ℕ → ℤ → LaunchReport × σ

def LaunchReport.failed (report : LaunchReport) : Bool :=
  report.status < ziStatusSuccess ||
    (report.status != ziStatusPending && report.exitCode != 0)

def restarts (manifest : ZiServiceManifest) (report : LaunchReport) : Bool :=
  manifest.restartPolicy == ziServiceRestartAlways ||
    (manifest.restartPolicy == ziServiceRestartOnFailure && report.failed)

def finalStatus (report : LaunchReport) : ℤ :=
  if report.status < ziStatusSuccess then report.status
  else if report.failed then ziStatusProcessTerminated
  else ziStatusSuccess

/-- What a supervision leaves behind: the status, the result if it was stored, the calls of the
routine with their attempt numbers, and the context. -/
structure Supervision (σ : Type) where
  status : ℤ
  result : Option ZiServiceSupervisionResult
  calls : List (ℕ × LaunchReport)
  context : σ

/-- The endless loop, for a number of rounds; `none` if it is still running. -/
def superviseLoop {σ : Type} (launch : LaunchRoutine σ) (manifest : ZiServiceManifest) :
    (rounds : ℕ) → σ → ZiServiceSupervisionResult → List (ℕ × LaunchReport) →
    Option (Supervision σ)
  | 0, _, _, _ => none
  | rounds+1, context, result, calls =>
    let launched := launch context manifest result.attemptCount ziStatusProcessTerminated
    let report := launched.1
    let calls := calls ++ [(result.attemptCount, report)]
    let result := { result with
      attemptCount := (result.attemptCount+1)%2^32
      lastLaunchStatus := report.status
      lastExitCode := report.exitCode }
    if restarts manifest report = false then
      some ⟨finalStatus report,some result,calls,launched.2⟩
    else if result.restartCount ≥ manifest.maximumRestarts then
      some ⟨ziStatusServiceRestartLimit,some result,calls,launched.2⟩
    else
      superviseLoop launch manifest rounds launched.2
        { result with restartCount := (result.restartCount+1)%2^32 } calls

/-- `sizeof(ZiServiceSupervisionResult)`. -/
abbrev supervisionResultSize : ℕ := 24

def initialSupervisionResult : ZiServiceSupervisionResult :=
  ⟨supervisionResultSize,ziServiceSupervisionResultVersion,0,0,ziStatusNotImplemented,
    ziStatusProcessTerminated⟩

def ziServiceSupervise {σ : Type} (launch : LaunchRoutine σ) (manifest : ZiServiceManifest)
    (rounds : ℕ) (context : σ) : Option (Supervision σ) :=
  if ziServiceManifestValidate manifest ≠ .ok () then
    -- every failure of the validation has this status
    some ⟨ziStatusInvalidServiceManifest,none,[],context⟩
  else superviseLoop launch manifest rounds context initialSupervisionResult []

end Zizium
