import Zizium.Executive.ProcessParameters

/-!
# The process parameters in the C runtime

`sdk/crt/process.c`: the runtime checks the block that the kernel has mapped and looks up
environment variables in it.  The memory of the process is a byte view from address zero.
-/

namespace Zizium

open Bytes BlockIO ZiProcessParameterInput List Except

variable {name : List UInt8} {nameAddress : ℕ}

abbrev crtArgumentLimit : ℕ := 32
abbrev crtEnvironmentLimit : ℕ := 32
abbrev crtStringLimit : ℕ := 4096

/-- The length of a string whose terminator is among its first `limit` bytes. -/
def boundedStringSize (memory : Mem) (text limit : ℕ) : Option ℕ :=
  if text = 0 then none
  else
    let size := memory.scan (· == 0) limit text
    if size < limit then some size else none

def stringsEqual (memory : Mem) (left leftSize right rightSize : ℕ) : Bool :=
  if left = 0 ∨ right = 0 ∨ leftSize ≠ rightSize then false
  else memory.slice left leftSize == memory.slice right leftSize

def argumentsAreValid (memory : Mem) (imagePath imagePathSize : ℕ) :
    (count index slot : ℕ) → Bool
  | 0, _, _ => true
  | count+1, index, slot =>
    let argument := ziReadU64Le memory slot
    match boundedStringSize memory argument crtStringLimit with
    | none => false
    | some argumentSize =>
      if index = 0 ∧ stringsEqual memory argument argumentSize imagePath imagePathSize = false then
        false
      else argumentsAreValid memory imagePath imagePathSize count (index+1) (slot+8)

def environmentIsValid (memory : Mem) : (count slot : ℕ) → Bool
  | 0, _ => true
  | count+1, slot =>
    let entry := ziReadU64Le memory slot
    match boundedStringSize memory entry crtStringLimit with
    | none => false
    | some entrySize =>
      let separator := memory.scan (· == equalsByte) entrySize entry
      if entrySize = 0 ∨ separator = 0 ∨ separator = entrySize then false
      else environmentIsValid memory count (slot+8)

def crtCheckParameters (memory : Mem) (parameters : ℕ) : Result Unit := do
  let head := readParameters memory parameters
  failIf (parameters = 0 ∨ head.structSize ≠ processParametersSize ∨
    head.version ≠ processParametersVersion ∨ head.flags ≠ 0 ∨ head.argumentCount = 0 ∨
    head.argumentCount > crtArgumentLimit ∨ head.environmentCount > crtEnvironmentLimit ∨
    head.arguments = 0 ∨ head.environment = 0 ∨ head.commandLine = 0 ∨ head.commandLineSize = 0 ∨
    head.commandLineSize > crtStringLimit ∨ head.imagePath = 0 ∨ head.imagePathSize = 0 ∨
    head.imagePathSize > crtStringLimit) .invalidProcessParameters
  failIf (ziReadU64Le memory (head.arguments+head.argumentCount*8) ≠ 0 ∨
    ziReadU64Le memory (head.environment+head.environmentCount*8) ≠ 0)
    .invalidProcessParameters
  failIf (boundedStringSize memory head.commandLine crtStringLimit ≠ some head.commandLineSize ∨
    boundedStringSize memory head.imagePath crtStringLimit ≠ some head.imagePathSize)
    .invalidProcessParameters
  failIf (argumentsAreValid memory head.imagePath head.imagePathSize head.argumentCount 0
    head.arguments = false) .invalidProcessParameters
  failIf (environmentIsValid memory head.environmentCount head.environment = false)
    .invalidProcessParameters

/-- The static pointer to the parameters is set once they are accepted. -/
def ziCrtInitialiseProcess (memory : Mem) (sParameters parameters : ℕ) : Result Unit × ℕ :=
  match crtCheckParameters memory parameters with
  | .error status => (.error status, sParameters)
  | .ok () => (.ok (), parameters)

/-- The length of a name that can be looked up. -/
def nameIsValid (memory : Mem) (name : ℕ) : Option ℕ :=
  match boundedStringSize memory name crtStringLimit with
  | none => none
  | some size =>
    if size = 0 then none
    else if memory.scan (· == equalsByte) size name < size then none
    else some size

def getenvLoop (memory : Mem) (name nameSize : ℕ) : (count slot : ℕ) → ℕ
  | 0, _ => 0
  | count+1, slot =>
    let entry := ziReadU64Le memory slot
    match boundedStringSize memory entry crtStringLimit with
    | none => 0
    | some entrySize =>
      let separator := memory.scan (· == equalsByte) entrySize entry
      if separator ≠ nameSize then getenvLoop memory name nameSize count (slot+8)
      else if memory.slice entry nameSize = memory.slice name nameSize then entry+separator+1
      else getenvLoop memory name nameSize count (slot+8)

def getenv (memory : Mem) (sParameters name : ℕ) : ℕ :=
  if sParameters = 0 then 0
  else match nameIsValid memory name with
    | none => 0
    | some nameSize =>
      let head := readParameters memory sParameters
      getenvLoop memory name nameSize head.environmentCount head.environment

/-! ### What the runtime sees -/

/-- The string at a pointer, as far as the runtime measures it. -/
def crtString (memory : Mem) (text : ℕ) : Option (List UInt8) :=
  (boundedStringSize memory text crtStringLimit).map (memory.slice text)

/-- The strings that the pointers of a table lead to. -/
def seenStrings (memory : Mem) : (count slot : ℕ) → List (Option (List UInt8))
  | 0, _ => []
  | count+1, slot => crtString memory (ziReadU64Le memory slot) :: seenStrings memory count (slot+8)

def environmentName (entry : List UInt8) : List UInt8 := entry.take (environmentSeparator entry)

def environmentValue (entry : List UInt8) : List UInt8 := entry.drop (environmentSeparator entry+1)

def IsValueOf (memory : Mem) (environment : List (List UInt8)) (name : List UInt8) (pointer : ℕ) :
    Prop :=
  (∃ entry, environment.find? (fun entry => environmentName entry == name) = some entry ∧
      pointer ≠ 0 ∧ memory.HoldsString pointer (environmentValue entry)) ∨
    (environment.find? (fun entry => environmentName entry == name) = none ∧ pointer = 0)

variable {memory : Mem} {table first : ℕ} {text : List UInt8} {texts : List (List UInt8)}

theorem holdsStrings_cons (h : memory.HoldsStrings 0 table first (text :: texts)) :
    ziReadU64Le memory table = first ∧ memory.HoldsString first text ∧
      memory.HoldsStrings 0 (table+8) (first+text.length+1) texts := by
  obtain ⟨hpointer,hstring,hrest⟩ := h
  exact ⟨hpointer.trans (Nat.zero_add first),hstring,hrest⟩

theorem boundedStringSize_eq {address limit : ℕ} (h : memory.HoldsString address text)
    (hzero : 0 ∉ text) (haddress : address ≠ 0) :
    boundedStringSize memory address limit = if text.length < limit then some text.length
      else none := by
  rw [boundedStringSize,if_neg haddress,h.scan_zero hzero]
  by_cases hlimit : text.length < limit
  · rw [if_pos hlimit,Nat.min_eq_left (by omega),if_pos hlimit]
  · rw [if_neg hlimit,Nat.min_eq_right (by omega),if_neg (by omega)]

theorem stringsEqual_self {left right : ℕ} (hleft : memory.HoldsString left text)
    (hright : memory.HoldsString right text) (hne : left ≠ 0) (hne' : right ≠ 0) :
    stringsEqual memory left text.length right text.length = true := by
  rw [stringsEqual,if_neg (by omega),hleft.slice_eq,hright.slice_eq,beq_self_eq_true]

section

variable (h : memory.HoldsStrings 0 table first texts)

include h

section

variable (hzero : ∀ text ∈ texts, 0 ∉ text)

include hzero

theorem argumentsAreValid_iff {imagePath i : ℕ} {path : List UInt8} (hfirst : first ≠ 0)
    (himage : memory.HoldsString imagePath path) (hne : imagePath ≠ 0)
    (hhead : i = 0 → texts.head? = none ∨ texts.head? = some path) :
    argumentsAreValid memory imagePath path.length texts.length i table = true ↔
      ∀ text ∈ texts, text.length < 4096 := by
  induction texts generalizing table first i with
  | nil => simp [argumentsAreValid]
  | cons text texts ih =>
    obtain ⟨hpointer,hstring,hrest⟩ := holdsStrings_cons h
    rw [forall_mem_cons] at hzero ⊢
    rw [length_cons,argumentsAreValid,hpointer,boundedStringSize_eq hstring hzero.1 hfirst]
    by_cases hshort : text.length < 4096
    · rw [if_pos hshort]
      dsimp only
      rw [if_neg ?_,ih hrest hzero.2 (by omega) (by omega)]
      · simp [hshort]
      · rintro ⟨rfl,hdiffer⟩
        have hsame : text = path := by simpa using hhead rfl
        rw [hsame,stringsEqual_self (hsame ▸ hstring) himage hfirst hne] at hdiffer
        cases hdiffer
    · simp [hshort]

theorem environmentIsValid_iff (hfirst : first ≠ 0) (hseparators : ∀ entry ∈ texts,
      0 < environmentSeparator entry ∧ environmentSeparator entry < entry.length) :
    environmentIsValid memory texts.length table = true ↔ ∀ text ∈ texts, text.length < 4096 := by
  induction texts generalizing table first with
  | nil => simp [environmentIsValid]
  | cons entry entries ih =>
    obtain ⟨hpointer,hstring,hrest⟩ := holdsStrings_cons h
    rw [forall_mem_cons] at hzero hseparators ⊢
    rw [length_cons,environmentIsValid,hpointer]
    rw [boundedStringSize_eq hstring hzero.1 hfirst]
    by_cases hshort : entry.length < 4096
    · rw [if_pos hshort]
      dsimp only
      rw [hstring.scan_within,← environmentSeparator,if_neg (by omega),
        ih hrest hzero.2 (by omega) hseparators.2]
      simp [hshort]
    · simp [hshort]

theorem seenStrings_eq (hfirst : first ≠ 0) (hshort : ∀ text ∈ texts, text.length < 4096) :
    seenStrings memory texts.length table = texts.map some := by
  induction texts generalizing table first with
  | nil => rfl
  | cons text texts ih =>
    obtain ⟨hpointer,hstring,hrest⟩ := holdsStrings_cons h
    rw [forall_mem_cons] at hzero hshort
    rw [length_cons,seenStrings,crtString,hpointer,boundedStringSize_eq hstring hzero.1 hfirst,
      if_pos hshort.1,Option.map_some,hstring.slice_eq,ih hrest hzero.2 (by omega) hshort.2,
      map_cons]

theorem getenvLoop_isValueOf (hfirst : first ≠ 0) (hshort : ∀ text ∈ texts, text.length < 4096)
    (hseparators : ∀ entry ∈ texts, environmentSeparator entry < entry.length)
    (hname : memory.HoldsString nameAddress name) : IsValueOf memory texts name
      (getenvLoop memory nameAddress name.length texts.length table) := by
  induction texts generalizing table first with
  | nil => exact .inr ⟨rfl,rfl⟩
  | cons entry entries ih =>
    obtain ⟨hpointer,hstring,hrest⟩ := holdsStrings_cons h
    rw [forall_mem_cons] at hzero hshort hseparators
    rw [length_cons,getenvLoop,hpointer]
    rw [boundedStringSize_eq hstring hzero.1 hfirst,if_pos hshort.1]
    dsimp only
    rw [hstring.scan_within,← environmentSeparator]
    have hnext := ih hrest hzero.2 (by omega) hshort.2 hseparators.2
    have hlen : (environmentName entry).length = environmentSeparator entry := by
      rw [environmentName,length_take]
      omega
    -- An entry with another name is passed over by the search as well.
    have hskip : environmentName entry ≠ name → IsValueOf memory (entry :: entries) name
          (getenvLoop memory nameAddress name.length entries.length (table+8)) := by
      intro hother
      rwa [IsValueOf,find?_cons_of_neg (by simpa using hother)]
    by_cases hsize : environmentSeparator entry = name.length
    · rw [if_neg (by simpa using hsize),hname.slice_eq]
      have hslice : memory.slice first name.length = environmentName entry := by
        rw [← hsize,environmentName]
        exact hstring.slice_take (by omega)
      rw [hslice]
      by_cases hmatch : environmentName entry = name
      · rw [if_pos hmatch]
        refine .inl ⟨entry,find?_cons_of_pos (by simpa using hmatch),by omega,?_⟩
        exact hstring.drop hseparators.1
      · rw [if_neg hmatch]
        exact hskip hmatch
    · rw [if_pos hsize]
      refine hskip fun heq => hsize ?_
      rw [← hlen,heq]

end

end

/-! ### The block of the kernel -/

variable {input : ZiProcessParameterInput} {userBase : ℕ}

theorem HoldsParameters.readParameters_eq
    (h : HoldsParameters (memory.shift userBase) userBase input) :
    readParameters memory userBase = input.parameters userBase := by
  rw [← h.head]
  exact readParameters_congr fun i _ => by rw [Mem.shift_apply,Nat.zero_add]

theorem crtCheckParameters_ok_iff (haccepted : input.Accepted)
    (h : HoldsParameters (memory.shift userBase) userBase input) (hbase : userBase ≠ 0) :
    crtCheckParameters memory userBase = .ok () ↔ ∀ text ∈ input.texts, text.length < 4096 := by
  have htexts := haccepted.texts
  simp only [texts,forall_mem_cons,forall_mem_append]
    at htexts ⊢
  obtain ⟨himage,hcommand,hargs,henv⟩ := htexts
  have himagePath : memory.HoldsString (userBase+input.textOffset) input.imagePath := by
    have hshift := h.imagePath
    rwa [Mem.HoldsString,Mem.slice_shift] at hshift
  have hcommandLine : memory.HoldsString (userBase+input.commandLineOffset) input.commandLine := by
    have hshift := h.commandLine
    rwa [Mem.HoldsString,Mem.slice_shift] at hshift
  have hargumentsEnd := h.argumentsEnd
  have henvironmentEnd := h.environmentEnd
  rw [Mem.readLe_shift,← Nat.add_assoc] at hargumentsEnd henvironmentEnd
  have hpath := length_pos_iff.mpr haccepted.imagePath
  have hline := length_pos_iff.mpr haccepted.commandLine
  have hcounts := haccepted.arguments
  have hcount := haccepted.environment
  have hmeasured : ∀ n, (if n < crtStringLimit then some n else none) ≠ some n ↔ ¬ n < 4096 := by
    intro n
    by_cases hn : n < 4096 <;> simp [hn]
  rw [crtCheckParameters,h.readParameters_eq,failIf_bind_ok_iff,failIf_bind_ok_iff,
    failIf_bind_ok_iff,failIf_bind_ok_iff,failIf_ok_iff]
  dsimp only [parameters]
  rw [and_iff_right (by simp only [crtArgumentLimit,crtEnvironmentLimit,crtStringLimit]; omega),
    and_iff_right (by rw [not_or,not_not,not_not]; exact ⟨hargumentsEnd,henvironmentEnd⟩),
    boundedStringSize_eq himagePath himage.2 (by omega),
    boundedStringSize_eq hcommandLine hcommand.2 (by omega),hmeasured,hmeasured,
    not_or,not_not,not_not,Bool.not_eq_false,Bool.not_eq_false,
    argumentsAreValid_iff h.arguments.of_shift (fun text ht => (hargs text ht).2) (by omega)
      himagePath (by omega) ?_,
    environmentIsValid_iff h.environment.of_shift (fun text ht => (henv text ht).2)
      (by omega) haccepted.separators]
  · constructor
    · rintro ⟨⟨hline,hpath⟩,hrest⟩
      exact ⟨hpath,hline,hrest⟩
    · rintro ⟨hpath,hline,hrest⟩
      exact ⟨⟨hline,hpath⟩,hrest⟩
  · intro _
    have hfirst := haccepted.first
    cases hlist : input.arguments with
    | nil => exact .inl rfl
    | cons arg args =>
      rw [hlist] at hfirst
      exact .inr (congrArg some hfirst)

theorem nameIsValid_eq (hname : memory.HoldsString nameAddress name) (haddress : nameAddress ≠ 0)
    (hne : name ≠ []) (hzero : 0 ∉ name) (hequals : equalsByte ∉ name)
    (hshort : name.length < 4096) : nameIsValid memory nameAddress = some name.length := by
  have hpos := length_pos_iff.mpr hne
  have hnone : name.findIdx (· == equalsByte) = name.length := by
    refine findIdx_eq_length_of_false fun b hb => ?_
    rw [beq_eq_false_iff_ne]
    exact fun heq => hequals (heq ▸ hb)
  rw [nameIsValid,boundedStringSize_eq hname hzero haddress,if_pos hshort]
  dsimp only
  rw [if_neg (by omega),hname.scan_within,hnone,if_neg (by omega)]

theorem getenv_isValueOf (haccepted : input.Accepted)
    (h : HoldsParameters (memory.shift userBase) userBase input) (hbase : userBase ≠ 0)
    (hshort : ∀ text ∈ input.texts, text.length < 4096)
    (hname : memory.HoldsString nameAddress name) (haddress : nameAddress ≠ 0) (hne : name ≠ [])
    (hzero : 0 ∉ name) (hequals : equalsByte ∉ name) (hlen : name.length < 4096) :
    IsValueOf memory input.environment name (getenv memory userBase nameAddress) := by
  have hentries : ∀ entry ∈ input.environment, entry ∈ input.texts := fun entry hentry => by
    simp [texts,hentry]
  rw [getenv,if_neg hbase,nameIsValid_eq hname haddress hne hzero hequals hlen,h.readParameters_eq]
  exact getenvLoop_isValueOf h.environment.of_shift
    (fun entry hentry => (haccepted.texts entry (hentries entry hentry)).2) (by omega)
    (fun entry hentry => hshort entry (hentries entry hentry))
    (fun entry hentry => (haccepted.separators entry hentry).2) hname

/-- A program called `a` with one environment variable. -/
def sampleInput : ZiProcessParameterInput where
  structSize := processParameterInputSize
  version := processParameterInputVersion
  imagePath := [0x61]
  commandLine := [0x61,0x20,0x62]
  arguments := [[0x61],[0x62]]
  environment := [[0x50,0x3d,0x63]]

theorem exists_mapped (output : Mem) (userBase : ℕ) :
    ∃ memory : Mem, ∀ i, memory (userBase+i) = output i :=
  ⟨fun address => output (address-userBase),fun i =>
    congrArg output (Nat.add_sub_cancel_left userBase i)⟩

/-- For every input that the kernel accepts, wherever the block is mapped: the runtime accepts the
block and sees what the kernel was given if and only if every string is shorter than the limit of
the runtime.  A string of exactly the limit passes the kernel only. -/
theorem processParameters_agree_iff {outputCapacity : ℕ} {block : ParameterBlock}
    (hserialise : ziProcessParametersSerialise input userBase outputCapacity = .ok block)
    (hmapped : ∀ i < block.usedSize, memory (userBase+i) = block.output i) (sParameters : ℕ) :
    (let head := readParameters memory block.parametersAddress
      let initialised := ziCrtInitialiseProcess memory sParameters block.parametersAddress
      initialised = (.ok (), block.parametersAddress) ∧
      seenStrings memory head.argumentCount head.arguments = input.arguments.map some ∧
      seenStrings memory head.environmentCount head.environment = input.environment.map some ∧
      (∀ name nameAddress, memory.HoldsString nameAddress name → nameAddress ≠ 0 → name ≠ [] →
        0 ∉ name → equalsByte ∉ name → name.length < crtStringLimit →
        IsValueOf memory input.environment name (getenv memory initialised.2 nameAddress)) ∧
      ziProcessParametersMeasure input = .ok block.usedSize ∧
      block.usedSize = processParametersSize+(input.arguments.length+1)*8 +
        (input.environment.length+1)*8+Mem.stringsSize input.texts ∧
      ∀ i, block.usedSize ≤ i → block.output i = 0) ↔
    ∀ text ∈ input.texts, text.length < crtStringLimit := by
  obtain ⟨hmeasure,haddress,hrange,hholds,hzero⟩ := ziProcessParametersSerialise_spec hserialise
  obtain ⟨hvalid,hsize,-⟩ := ziProcessParametersMeasure_ok_iff.mp hmeasure
  have haccepted := validateInput_ok hvalid
  have hbase : userBase ≠ 0 := by
    have hmin : 65536 ≤ userBase := (ziUserRangeIsValid_iff.mp hrange).2.1
    omega
  have h : HoldsParameters (memory.shift userBase) userBase input :=
    hholds.congr fun i hi => hmapped i (hsize ▸ hi)
  rw [haddress]
  constructor
  · rintro ⟨hinitialised,-⟩
    refine (crtCheckParameters_ok_iff haccepted h hbase).mp ?_
    rw [ziCrtInitialiseProcess] at hinitialised
    cases hcheck : crtCheckParameters memory userBase with
    | error status =>
      rw [hcheck] at hinitialised
      cases hinitialised
    | ok u => rfl
  · intro hshort
    have hinitialised : ziCrtInitialiseProcess memory sParameters userBase =
        (.ok (), userBase) := by
      rw [ziCrtInitialiseProcess,(crtCheckParameters_ok_iff haccepted h hbase).mpr hshort]
    have hseen : ∀ {table first texts},
        (memory.shift userBase).HoldsStrings userBase table first texts →
        (∀ text ∈ texts, text ∈ input.texts) →
        seenStrings memory texts.length (userBase+table) = texts.map some :=
      fun hstrings hmem => seenStrings_eq hstrings.of_shift
        (fun text ht => (haccepted.texts text (hmem text ht)).2) (by omega)
        fun text ht => hshort text (hmem text ht)
    rw [hinitialised,h.readParameters_eq]
    refine ⟨rfl,hseen h.arguments fun text ht => ?_,hseen h.environment fun text ht => ?_,
      fun name nameAddress hname hne hnonempty hnul hequals hlength =>
        getenv_isValueOf haccepted h hbase hshort hname hne hnonempty hnul hequals hlength,
      hmeasure,?_,hzero⟩
    · simp [texts,ht]
    · simp [texts,ht]
    · obtain ⟨h1,h2,h3,h4,h5,h6⟩ := input.offsets
      simp only [texts,Mem.stringsSize_cons,Mem.stringsSize_append,processParametersSize]
      omega

theorem processParameters_agree_iff_sample :
    ∃ block memory, ziProcessParametersSerialise sampleInput 65536 4096 = .ok block ∧
      (∀ i < block.usedSize, memory (65536+i) = block.output i) ∧
      ziCrtInitialiseProcess memory 0 block.parametersAddress =
        (.ok (), block.parametersAddress) := by
  have hmeasure : ziProcessParametersMeasure sampleInput = .ok 126 := by decide
  obtain ⟨output,hserialise,-⟩ :=
    ziProcessParametersSerialise_ok hmeasure (show 126 ≤ 4096 by omega)
      (show ziUserRangeIsValid 65536 126 = true by decide)
  obtain ⟨memory,hmapped⟩ := exists_mapped output 65536
  refine ⟨_,memory,hserialise,fun i _ => hmapped i,?_⟩
  exact ((processParameters_agree_iff hserialise (fun i _ => hmapped i) 0).mpr (by decide)).1

def longInput : ZiProcessParameterInput :=
  { sampleInput with commandLine := replicate 4096 0x61 }

theorem ziUtf8Validate_replicate (n : ℕ) : ziUtf8Validate (replicate n 0x61) = .ok () := by
  rw [ziUtf8Validate,length_replicate]
  induction n with
  | zero => rfl
  | succ n ih =>
    have hdec : ziUtf8Decode (0x61 :: replicate n 0x61) = .ok ⟨0x61,1⟩ := rfl
    rwa [replicate_succ,utf8ValidateLoop,if_neg (by simp),hdec,ok_bind]

theorem validateText_replicate {n : ℕ} (hpos : n ≠ 0) (hlimit : n ≤ 4096) :
    validateText (replicate n 0x61) false = .ok () := by
  rw [validateText,failIf_bind_neg,failIf_bind_neg,ziUtf8Validate_replicate]
  · simp [mem_replicate]
  · rw [length_replicate,processParameterStringLimit]
    omega

/-- The kernel writes the block and the runtime refuses it. -/
theorem longCommandLine_refused :
    ∃ block memory, ziProcessParametersSerialise longInput 65536 65536 = .ok block ∧
      (∀ i < block.usedSize, memory (65536+i) = block.output i) ∧
      (ziCrtInitialiseProcess memory 0 block.parametersAddress).1 ≠ .ok () := by
  have hline : longInput.commandLine.length = 4096 := length_replicate
  have hvalid : validateInput longInput = .ok () := by
    have htext : validateText longInput.commandLine false = .ok () :=
      validateText_replicate (by omega) (by omega)
    rw [validateInput,failIf_bind_neg (by decide),failIf_bind_neg (by
      rw [htext]; decide),failIf_bind_neg (by decide)]
    rfl
  have hbytes : longInput.blockBytes = 4219 := by
    obtain ⟨h1,h2,h3,h4,h5,h6⟩ := longInput.offsets
    rw [h6,h5,h4,h3,h2,h1,hline]
    rfl
  have hmeasure : ziProcessParametersMeasure longInput = .ok 4219 :=
    ziProcessParametersMeasure_ok_iff.mpr ⟨hvalid,hbytes.symm,by omega⟩
  obtain ⟨output,hserialise,hholds,-⟩ :=
    ziProcessParametersSerialise_ok hmeasure (show 4219 ≤ 65536 by omega)
      (show ziUserRangeIsValid 65536 4219 = true by decide)
  obtain ⟨memory,hmapped⟩ := exists_mapped output 65536
  refine ⟨_,memory,hserialise,fun i _ => hmapped i,fun hok => ?_⟩
  have hshort := (crtCheckParameters_ok_iff (validateInput_ok hvalid)
    (hholds.congr fun i _ => hmapped i) (by omega)).mp ?_
  · have hmem : longInput.commandLine ∈ longInput.texts := by simp [texts]
    have hlt := hshort _ hmem
    omega
  · rw [ziCrtInitialiseProcess] at hok
    cases hcheck : crtCheckParameters memory 65536 with
    | error status =>
      rw [hcheck] at hok
      cases hok
    | ok u => rfl

end Zizium
