import Zizium.Bytes.Strings
import Zizium.Executive.AddressSpace
import Zizium.Unicode

/-!
# Process parameters

`kernel/executive/process/parameters.c`: the block that the kernel maps into a new process, with its
image path, its command line, its arguments and its environment.

A failure leaves no block behind, so only the block of a success is modelled.
-/

namespace Zizium

open Bytes BlockIO Except Mem List

variable {size address i userBase outputCapacity : ℕ} {output : Mem}

abbrev processParameterInputVersion : ℕ := 1
abbrev processParameterInputSize : ℕ := 72
abbrev processArgumentLimit : ℕ := 32
abbrev processEnvironmentLimit : ℕ := 32
abbrev processParameterStringLimit : ℕ := 4096
abbrev processParameterBlockLimit : ℕ := 65536

abbrev processParametersVersion : ℕ := 1
abbrev processParametersSize : ℕ := 72

/-- The separator of an environment entry. -/
def equalsByte : UInt8 := 0x3d

structure ZiProcessParameterInput where
  structSize : ℕ
  version : ℕ
  imagePath : List UInt8
  commandLine : List UInt8
  arguments : List (List UInt8)
  environment : List (List UInt8)
  deriving DecidableEq, Repr

/-- The head of the block, `sdk/include/zizium/process.h`. -/
structure ZiProcessParameters where
  structSize : ℕ
  version : ℕ
  flags : ℕ
  argumentCount : ℕ
  environmentCount : ℕ
  reserved : ℕ
  arguments : ℕ
  environment : ℕ
  commandLine : ℕ
  commandLineSize : ℕ
  imagePath : ℕ
  imagePathSize : ℕ
  deriving DecidableEq, Repr

/-! ### Validation -/

def validateText (text : List UInt8) (allowEmpty : Bool) : Result Unit := do
  failIf ((allowEmpty = false ∧ text.length = 0) ∨ text.length > processParameterStringLimit)
    .invalidProcessParameters
  failIf (0 ∈ text) .invalidProcessParameters
  ziUtf8Validate text

/-- The position of the separator, or the length of an entry without one. -/
def environmentSeparator (entry : List UInt8) : ℕ := entry.findIdx (· == equalsByte)

def environmentNamesEqual (left right : List UInt8) : Bool :=
  let leftSize := environmentSeparator left
  let rightSize := environmentSeparator right
  if leftSize ≠ rightSize then false else left.take leftSize == right.take leftSize

def validateEnvironmentLoop (previous : List (List UInt8)) : List (List UInt8) → Result Unit
  | [] => pure ()
  | entry :: entries => do
    failIf ((validateText entry false).isOk = false) .invalidProcessParameters
    failIf (environmentSeparator entry = 0 ∨ environmentSeparator entry = entry.length)
      .invalidProcessParameters
    failIf (∃ other ∈ previous, environmentNamesEqual entry other = true) .invalidProcessParameters
    validateEnvironmentLoop (previous ++ [entry]) entries

def validateEnvironment (input : ZiProcessParameterInput) : Result Unit :=
  validateEnvironmentLoop [] input.environment

def validateInput (input : ZiProcessParameterInput) : Result Unit := do
  failIf (input.structSize ≠ processParameterInputSize ∨
    input.version ≠ processParameterInputVersion ∨ input.arguments.length = 0 ∨
    input.arguments.length > processArgumentLimit ∨
    input.environment.length > processEnvironmentLimit) .invalidProcessParameters
  failIf ((validateText input.imagePath false).isOk = false ∨
    (validateText input.commandLine false).isOk = false ∨
    input.imagePath ≠ input.arguments.getD 0 []) .invalidProcessParameters
  failIf (∃ argument ∈ input.arguments, (validateText argument true).isOk = false)
    .invalidProcessParameters
  validateEnvironment input

/-! ### Sizes -/

def addSize (left right : ℕ) : Result ℕ := do
  failIf (right > uint64Max-left) .outOfBounds
  pure (left+right)

def alignSize (value alignment : ℕ) : Result ℕ := do
  failIf (alignment = 0 ∨ alignment &&& (alignment-1) ≠ 0) .invalidArgument
  let mask := alignment-1
  failIf (value > uint64Max-mask) .outOfBounds
  pure ((value+mask) &&& (uint64Max-mask))

def addStringSizes (size : ℕ) : List (List UInt8) → Result ℕ
  | [] => pure size
  | text :: texts => do
    let next ← addSize size (text.length+1)
    addStringSizes next texts

def ziProcessParametersMeasure (input : ZiProcessParameterInput) : Result ℕ := do
  validateInput input
  let header ← alignSize processParametersSize 8
  let arguments ← addSize header ((input.arguments.length+1)*8)
  let tables ← addSize arguments ((input.environment.length+1)*8)
  let fixed ← addStringSizes tables [input.imagePath,input.commandLine]
  let argumentStrings ← addStringSizes fixed input.arguments
  let size ← addStringSizes argumentStrings input.environment
  failIf (size > processParameterBlockLimit) .bufferTooSmall
  pure size

/-! ### Writing -/

structure ParameterWriter where
  output : Mem
  capacity : ℕ
  cursor : ℕ
  userBase : ℕ

def writeString (writer : ParameterWriter) (text : List UInt8) : Result (ParameterWriter × ℕ) := do
  failIf (writer.cursor > writer.capacity ∨ text.length+1 > writer.capacity-writer.cursor ∨
    writer.userBase > uint64Max-writer.cursor) .outOfBounds
  let copied := writer.output.put writer.cursor text
  pure ({ writer with
    output := copied.put (writer.cursor+text.length) [0]
    cursor := writer.cursor+(text.length+1) }, writer.userBase+writer.cursor)

def writePointer (writer : ParameterWriter) (offset value : ℕ) : Result ParameterWriter := do
  failIf (offset > writer.capacity ∨ 8 > writer.capacity-offset) .outOfBounds
  pure { writer with output := ziWriteU64Le writer.output offset value }

/-- The loop over the arguments or the environment, from one slot of the table on. -/
def writeStrings (writer : ParameterWriter) (slot : ℕ) : List (List UInt8) → Result ParameterWriter
  | [] => pure writer
  | text :: texts => do
    let written ← writeString writer text
    let pointed ← writePointer written.1 slot written.2
    writeStrings pointed (slot+8) texts

/-- The copy of the head to the start of the block. -/
def writeParameters (output : Mem) (parameters : ZiProcessParameters) : Mem :=
  let bytes := ziWriteU32Le output 0 parameters.structSize
  let bytes := ziWriteU32Le bytes 4 parameters.version
  let bytes := ziWriteU32Le bytes 8 parameters.flags
  let bytes := ziWriteU32Le bytes 12 parameters.argumentCount
  let bytes := ziWriteU32Le bytes 16 parameters.environmentCount
  let bytes := ziWriteU32Le bytes 20 parameters.reserved
  let bytes := ziWriteU64Le bytes 24 parameters.arguments
  let bytes := ziWriteU64Le bytes 32 parameters.environment
  let bytes := ziWriteU64Le bytes 40 parameters.commandLine
  let bytes := ziWriteU64Le bytes 48 parameters.commandLineSize
  let bytes := ziWriteU64Le bytes 56 parameters.imagePath
  ziWriteU64Le bytes 64 parameters.imagePathSize

/-- The output of the serialiser. -/
structure ParameterBlock where
  output : Mem
  usedSize : ℕ
  parametersAddress : ℕ

def ziProcessParametersSerialise (input : ZiProcessParameterInput) (userBase outputCapacity : ℕ) :
    Result ParameterBlock := do
  let requiredSize ← ziProcessParametersMeasure input
  failIf (outputCapacity < requiredSize ∨ ziUserRangeIsValid userBase requiredSize = false)
    .bufferTooSmall
  let argumentsOffset ← alignSize processParametersSize 8
  let environmentOffset ← addSize argumentsOffset ((input.arguments.length+1)*8)
  let textOffset ← addSize environmentOffset ((input.environment.length+1)*8)
  let imagePath ← writeString ⟨zero,outputCapacity,textOffset,userBase⟩ input.imagePath
  let commandLine ← writeString imagePath.1 input.commandLine
  let arguments ← writeStrings commandLine.1 argumentsOffset input.arguments
  let environment ← writeStrings arguments environmentOffset input.environment
  failIf (environment.cursor ≠ requiredSize) .invalidState
  pure {
    output := writeParameters environment.output {
      structSize := processParametersSize
      version := processParametersVersion
      flags := 0
      argumentCount := input.arguments.length
      environmentCount := input.environment.length
      reserved := 0
      arguments := userBase+argumentsOffset
      environment := userBase+environmentOffset
      commandLine := commandLine.2
      commandLineSize := input.commandLine.length
      imagePath := imagePath.2
      imagePathSize := input.imagePath.length }
    usedSize := requiredSize
    parametersAddress := userBase }

/-! ### Accepted inputs -/

variable {input : ZiProcessParameterInput} {text : List UInt8}

namespace ZiProcessParameterInput

/-- All strings of an input, in the order of the block. -/
def texts (input : ZiProcessParameterInput) : List (List UInt8) :=
  input.imagePath :: input.commandLine :: (input.arguments ++ input.environment)

/-- What validation establishes. -/
structure Accepted (input : ZiProcessParameterInput) : Prop where
  arguments : 0 < input.arguments.length ∧ input.arguments.length ≤ 32
  environment : input.environment.length ≤ 32
  texts : ∀ text ∈ input.texts, text.length ≤ 4096 ∧ 0 ∉ text
  imagePath : input.imagePath ≠ []
  commandLine : input.commandLine ≠ []
  first : input.arguments.getD 0 [] = input.imagePath
  separators : ∀ entry ∈ input.environment,
    0 < environmentSeparator entry ∧ environmentSeparator entry < entry.length

end ZiProcessParameterInput

theorem isOk_eq_true_iff {α : Type} {result : Result α} :
    result.isOk = true ↔ ∃ a, result = .ok a := by
  cases result with
  | error status => simp [Except.isOk,Except.toBool]
  | ok a => simp [Except.isOk,Except.toBool]

theorem validateText_isOk {allowEmpty : Bool} (h : (validateText text allowEmpty).isOk = true) :
    (text.length ≤ 4096 ∧ 0 ∉ text) ∧ (allowEmpty = false → text ≠ []) := by
  obtain ⟨u,hok⟩ := isOk_eq_true_iff.mp h
  obtain ⟨hsize,hok⟩ := failIf_bind_ok_iff.mp hok
  obtain ⟨hzero,-⟩ := failIf_bind_ok_iff.mp hok
  push Not at hsize
  refine ⟨⟨hsize.2,hzero⟩,fun hempty hnil => ?_⟩
  rw [hnil] at hsize
  exact hsize.1 hempty rfl

theorem validateEnvironmentLoop_ok {previous entries : List (List UInt8)}
    (h : validateEnvironmentLoop previous entries = .ok ()) :
    ∀ entry ∈ entries, (entry.length ≤ 4096 ∧ 0 ∉ entry) ∧
      0 < environmentSeparator entry ∧ environmentSeparator entry < entry.length := by
  induction entries generalizing previous with
  | nil => simp
  | cons entry entries ih =>
    obtain ⟨htext,h⟩ := failIf_bind_ok_iff.mp h
    obtain ⟨hseparator,h⟩ := failIf_bind_ok_iff.mp h
    obtain ⟨-,h⟩ := failIf_bind_ok_iff.mp h
    have hle : environmentSeparator entry ≤ entry.length := findIdx_le_length
    rw [forall_mem_cons]
    refine ⟨⟨(validateText_isOk (Bool.not_eq_false _ ▸ htext)).1,by omega,by omega⟩,ih h⟩

theorem validateInput_ok (h : validateInput input = .ok ()) : input.Accepted := by
  obtain ⟨hcounts,h⟩ := failIf_bind_ok_iff.mp h
  obtain ⟨hfixed,h⟩ := failIf_bind_ok_iff.mp h
  obtain ⟨hargs,h⟩ := failIf_bind_ok_iff.mp h
  push Not at hcounts hfixed hargs
  simp only [ne_eq,Bool.not_eq_false] at hfixed hargs
  have henv := validateEnvironmentLoop_ok h
  have himage := validateText_isOk hfixed.1
  have hcommand := validateText_isOk hfixed.2.1
  refine ⟨⟨by omega,hcounts.2.2.2.1⟩,hcounts.2.2.2.2,?_,himage.2 rfl,hcommand.2 rfl,
    hfixed.2.2.symm,fun entry hentry => (henv entry hentry).2⟩
  intro text htext
  simp only [ZiProcessParameterInput.texts,mem_cons,mem_append] at htext
  rcases htext with rfl | rfl | hargument | hentry
  · exact himage.1
  · exact hcommand.1
  · exact (validateText_isOk (hargs text hargument)).1
  · exact (henv text hentry).1

/-! ### The measured size -/

namespace ZiProcessParameterInput

def environmentOffset (input : ZiProcessParameterInput) : ℕ := 72+(input.arguments.length+1)*8

/-- The strings stand behind the tables. -/
def textOffset (input : ZiProcessParameterInput) : ℕ :=
  input.environmentOffset+(input.environment.length+1)*8

def commandLineOffset (input : ZiProcessParameterInput) : ℕ :=
  input.textOffset+(input.imagePath.length+1)

def argumentTextOffset (input : ZiProcessParameterInput) : ℕ :=
  input.commandLineOffset+(input.commandLine.length+1)

def environmentTextOffset (input : ZiProcessParameterInput) : ℕ :=
  input.argumentTextOffset+stringsSize input.arguments

def blockBytes (input : ZiProcessParameterInput) : ℕ :=
  input.environmentTextOffset+stringsSize input.environment

theorem offsets (input : ZiProcessParameterInput) :
    input.environmentOffset = 72+(input.arguments.length+1)*8 ∧
      input.textOffset = input.environmentOffset+(input.environment.length+1)*8 ∧
      input.commandLineOffset = input.textOffset+(input.imagePath.length+1) ∧
      input.argumentTextOffset = input.commandLineOffset+(input.commandLine.length+1) ∧
      input.environmentTextOffset =
        input.argumentTextOffset+stringsSize input.arguments ∧
      input.blockBytes = input.environmentTextOffset+stringsSize input.environment :=
  ⟨rfl,rfl,rfl,rfl,rfl,rfl⟩

end ZiProcessParameterInput

theorem addSize_eq {left right : ℕ} (h : left+right ≤ uint64Max) :
    addSize left right = .ok (left+right) :=
  failIf_bind_neg (by omega)

theorem addStringSizes_eq {texts : List (List UInt8)} (h : size+stringsSize texts ≤ uint64Max) :
    addStringSizes size texts = .ok (size+stringsSize texts) := by
  induction texts generalizing size with
  | nil => rfl
  | cons text texts ih =>
    rw [stringsSize_cons] at h ⊢
    rw [addStringSizes,addSize_eq (by omega),ok_bind,ih (by omega),Nat.add_assoc]

theorem stringsSize_le {texts : List (List UInt8)} {limit : ℕ}
    (h : ∀ text ∈ texts, text.length ≤ limit) : stringsSize texts ≤ texts.length*(limit+1) := by
  induction texts with
  | nil => simp
  | cons text texts ih =>
    rw [forall_mem_cons] at h
    have hrest := ih h.2
    rw [stringsSize_cons,length_cons,Nat.succ_mul]
    omega

theorem ZiProcessParameterInput.Accepted.blockBytes_le (h : input.Accepted) :
    input.blockBytes ≤ 300000 := by
  have htexts := h.texts
  simp only [ZiProcessParameterInput.texts,forall_mem_cons,forall_mem_append] at htexts
  obtain ⟨himage,hcommand,hargs,henv⟩ := htexts
  have h1 := stringsSize_le fun text ht => (hargs text ht).1
  have h2 := stringsSize_le fun text ht => (henv text ht).1
  have h3 := h.arguments.2
  have h4 := h.environment
  simp only [blockBytes,environmentTextOffset,argumentTextOffset,commandLineOffset,textOffset,
    environmentOffset]
  omega

theorem ziProcessParametersMeasure_ok_iff : ziProcessParametersMeasure input = .ok size ↔
      validateInput input = .ok () ∧ size = input.blockBytes ∧ size ≤ 65536 := by
  have hmeasure (hvalid : validateInput input = .ok ()) : ziProcessParametersMeasure input =
        (do failIf (input.blockBytes > processParameterBlockLimit) .bufferTooSmall
            pure input.blockBytes) := by
    have hbound := (validateInput_ok hvalid).blockBytes_le
    have halign : alignSize processParametersSize 8 = .ok 72 := by decide
    have hfixed : stringsSize [input.imagePath,input.commandLine] =
        input.imagePath.length+1+(input.commandLine.length+1) := by simp
    simp only [ZiProcessParameterInput.blockBytes,ZiProcessParameterInput.environmentTextOffset,
      ZiProcessParameterInput.argumentTextOffset,ZiProcessParameterInput.commandLineOffset,
      ZiProcessParameterInput.textOffset,ZiProcessParameterInput.environmentOffset] at hbound ⊢
    have hmax : 300000 ≤ uint64Max := by decide
    rw [ziProcessParametersMeasure,hvalid,ok_bind (a := ()),halign,ok_bind,
      addSize_eq (by omega),ok_bind,addSize_eq (by omega),ok_bind,
      addStringSizes_eq (by omega),ok_bind,addStringSizes_eq (by omega),ok_bind,
      addStringSizes_eq (by omega),ok_bind,hfixed]
    simp only [Nat.add_assoc]
  constructor
  · intro h
    obtain ⟨u,hvalid,-⟩ := bind_ok_iff.mp h
    rw [hmeasure hvalid] at h
    obtain ⟨hlimit,hsize⟩ := failIf_bind_ok_iff.mp h
    cases hsize
    exact ⟨hvalid,rfl,Nat.le_of_not_lt hlimit⟩
  · rintro ⟨hvalid,rfl,hlimit⟩
    rw [hmeasure hvalid]
    exact failIf_bind_neg (Nat.not_lt_of_le hlimit)

/-! ### The block -/

def readParameters (memory : Mem) (address : ℕ) : ZiProcessParameters where
  structSize := ziReadU32Le memory address
  version := ziReadU32Le memory (address+4)
  flags := ziReadU32Le memory (address+8)
  argumentCount := ziReadU32Le memory (address+12)
  environmentCount := ziReadU32Le memory (address+16)
  reserved := ziReadU32Le memory (address+20)
  arguments := ziReadU64Le memory (address+24)
  environment := ziReadU64Le memory (address+32)
  commandLine := ziReadU64Le memory (address+40)
  commandLineSize := ziReadU64Le memory (address+48)
  imagePath := ziReadU64Le memory (address+56)
  imagePathSize := ziReadU64Le memory (address+64)

theorem readParameters_congr {memory memory' : Mem} {address' : ℕ}
    (h : ∀ i < 72, memory (address+i) = memory' (address'+i)) :
    readParameters memory address = readParameters memory' address' := by
  have hfield : ∀ n off, off+n ≤ 72 →
      memory.readLe n (address+off) = memory'.readLe n (address'+off) :=
    fun n off hend => readLe_congr fun i hi => by
      rw [Nat.add_assoc,Nat.add_assoc]
      exact h _ (by omega)
  rw [readParameters,readParameters,ZiProcessParameters.mk.injEq]
  exact ⟨hfield 4 0 (by omega),hfield 4 4 (by omega),hfield 4 8 (by omega),
    hfield 4 12 (by omega),hfield 4 16 (by omega),hfield 4 20 (by omega),hfield 8 24 (by omega),
    hfield 8 32 (by omega),hfield 8 40 (by omega),hfield 8 48 (by omega),hfield 8 56 (by omega),
    hfield 8 64 (by omega)⟩

/-- The fields of a head fit their widths. -/
structure ZiProcessParameters.Fits (p : ZiProcessParameters) : Prop where
  structSize : p.structSize < 256^4
  version : p.version < 256^4
  flags : p.flags < 256^4
  argumentCount : p.argumentCount < 256^4
  environmentCount : p.environmentCount < 256^4
  reserved : p.reserved < 256^4
  arguments : p.arguments < 256^8
  environment : p.environment < 256^8
  commandLine : p.commandLine < 256^8
  commandLineSize : p.commandLineSize < 256^8
  imagePath : p.imagePath < 256^8
  imagePathSize : p.imagePathSize < 256^8

theorem readParameters_writeParameters {p : ZiProcessParameters} (h : p.Fits) :
    readParameters (writeParameters output p) 0 = p := by
  obtain ⟨h1,h2,h3,h4,h5,h6,h7,h8,h9,h10,h11,h12⟩ := h
  unfold readParameters writeParameters
  simp (disch := omega) only [ziReadU32Le,ziReadU64Le,ziWriteU32Le,ziWriteU64Le,
    readLe_put_leBytes,readLe_put_self_of_lt]

theorem writeParameters_of_le {p : ZiProcessParameters} (h : 72 ≤ i) :
    writeParameters output p i = output i := by
  unfold writeParameters
  simp (disch := simp only [length_leBytes]; omega) only [ziWriteU32Le,ziWriteU64Le,put_of_ge]

/-- What the loop over strings writes: the strings from the cursor on, and the slots of the
table. -/
structure WritesStrings (before after : ParameterWriter) (slot : ℕ) (texts : List (List UInt8)) :
    Prop where
  capacity : after.capacity = before.capacity
  userBase : after.userBase = before.userBase
  cursor : after.cursor = before.cursor+stringsSize texts
  holds : after.output.HoldsStrings before.userBase slot before.cursor texts
  same : ∀ i, (i < slot ∨ slot+texts.length*8 ≤ i) →
    (i < before.cursor ∨ after.cursor ≤ i) → after.output i = before.output i

theorem writeString_eq {writer : ParameterWriter}
    (hcap : writer.cursor+(text.length+1) ≤ writer.capacity)
    (haddress : writer.userBase+writer.cursor ≤ uint64Max) :
    writeString writer text = .ok
      (⟨(writer.output.put writer.cursor text).put (writer.cursor+text.length) [0],
        writer.capacity,writer.cursor+(text.length+1),writer.userBase⟩,
        writer.userBase+writer.cursor) :=
  failIf_bind_neg (by omega)

theorem put_string_of_outside {m : Mem} {cursor : ℕ} (h : i < cursor ∨ cursor+(text.length+1) ≤ i) :
    ((m.put cursor text).put (cursor+text.length) [0]) i = m i := by
  rw [put_of_outside (by simp only [length_singleton]; omega),
    put_of_outside (by omega)]

theorem writeStrings_ok {writer : ParameterWriter} {slot : ℕ} {texts : List (List UInt8)}
    (hslot : slot+texts.length*8 ≤ writer.cursor)
    (hcap : writer.cursor+stringsSize texts ≤ writer.capacity)
    (haddress : writer.userBase+(writer.cursor+stringsSize texts) ≤ uint64Max) :
    ∃ after, writeStrings writer slot texts = .ok after ∧
      WritesStrings writer after slot texts := by
  induction texts generalizing writer slot with
  | nil => exact ⟨writer,rfl,rfl,rfl,rfl,trivial,fun _ _ _ => rfl⟩
  | cons text texts ih =>
    rw [stringsSize_cons] at hcap haddress
    rw [length_cons] at hslot
    rw [writeStrings,writeString_eq (by omega) (by omega),ok_bind,writePointer]
    dsimp only
    rw [failIf_bind_neg (by omega)]
    -- The state after one round.
    obtain ⟨next,hnext⟩ : ∃ next : ParameterWriter, next = ⟨ziWriteU64Le
      ((writer.output.put writer.cursor text).put (writer.cursor+text.length) [0]) slot
      (writer.userBase+writer.cursor),writer.capacity,writer.cursor+(text.length+1),
      writer.userBase⟩ := ⟨_,rfl⟩
    have hstring : ∀ i, slot+8 ≤ i → next.output i =
        ((writer.output.put writer.cursor text).put (writer.cursor+text.length) [0]) i := by
      intro i hi
      rw [hnext]
      exact put_of_ge (by rw [length_leBytes]; exact hi)
    have hpointer : next.output.readLe 8 slot = writer.userBase+writer.cursor := by
      rw [hnext]
      exact readLe_put_self_of_lt (by simp only [uint64Max] at haddress; omega)
    have hkept : ∀ i, (i < slot ∨ slot+8 ≤ i) →
        (i < writer.cursor ∨ writer.cursor+(text.length+1) ≤ i) →
        next.output i = writer.output i := by
      intro i h1 h2
      rw [hnext]
      exact (put_of_outside (by rw [length_leBytes]; exact h1)).trans (put_string_of_outside h2)
    have hcursor : next.cursor = writer.cursor+(text.length+1) := by rw [hnext]
    have hbase : next.userBase = writer.userBase := by rw [hnext]
    have hsize : next.capacity = writer.capacity := by rw [hnext]
    obtain ⟨after,hok,hwrites⟩ := ih
      (show slot+8+texts.length*8 ≤ next.cursor by omega) (by omega) (by omega)
    have hend := hwrites.cursor
    refine ⟨after,hnext ▸ hok,by rw [hwrites.capacity,hsize],by rw [hwrites.userBase,hbase],
      by rw [stringsSize_cons]; omega,⟨?_,?_,?_⟩,fun i h1 h2 => ?_⟩
    · rw [← hpointer]
      exact readLe_congr fun i hi => hwrites.same _ (by omega) (by omega)
    · refine (Mem.HoldsString.put writer.output _ _).congr fun i h1 h2 => ?_
      rw [hwrites.same i (by omega) (by omega),hstring i (by omega)]
    · have hholds := hwrites.holds
      rwa [hcursor,hbase] at hholds
    · rw [length_cons] at h1
      rw [hwrites.same i (by omega) (by omega),hkept i (by omega) (by omega)]

/-- The head of the block of an input. -/
def ZiProcessParameterInput.parameters (input : ZiProcessParameterInput) (userBase : ℕ) :
    ZiProcessParameters where
  structSize := processParametersSize
  version := processParametersVersion
  flags := 0
  argumentCount := input.arguments.length
  environmentCount := input.environment.length
  reserved := 0
  arguments := userBase+72
  environment := userBase+input.environmentOffset
  commandLine := userBase+input.commandLineOffset
  commandLineSize := input.commandLine.length
  imagePath := userBase+input.textOffset
  imagePathSize := input.imagePath.length

/-- A block that holds an input, with pointers for a mapping at `userBase`.  Both tables end in a
null pointer. -/
structure HoldsParameters (block : Mem) (userBase : ℕ)
    (input : ZiProcessParameterInput) : Prop where
  head : readParameters block 0 = input.parameters userBase
  imagePath : block.HoldsString input.textOffset input.imagePath
  commandLine : block.HoldsString input.commandLineOffset input.commandLine
  arguments : block.HoldsStrings userBase 72 input.argumentTextOffset input.arguments
  argumentsEnd : block.readLe 8 (72+input.arguments.length*8) = 0
  environment : block.HoldsStrings userBase input.environmentOffset input.environmentTextOffset
    input.environment
  environmentEnd : block.readLe 8 (input.environmentOffset+input.environment.length*8) = 0

theorem HoldsParameters.congr {block block' : Mem} (h : HoldsParameters block userBase input)
    (hsame : ∀ i < input.blockBytes, block' i = block i) :
    HoldsParameters block' userBase input := by
  obtain ⟨h1,h2,h3,h4,h5,h6⟩ := input.offsets
  have hbyte : ∀ off i, off+i < input.blockBytes → block' (off+i) = block (off+i) :=
    fun off i hi => hsame _ hi
  refine ⟨?_,h.imagePath.congr fun i _ _ => hsame i (by omega),
    h.commandLine.congr fun i _ _ => hsame i (by omega),
    h.arguments.congr (fun i _ _ => hsame i (by omega)) fun i _ _ => hsame i (by omega),?_,
    h.environment.congr (fun i _ _ => hsame i (by omega)) fun i _ _ => hsame i (by omega),?_⟩
  · rw [← h.head]
    exact readParameters_congr fun i hi => hbyte 0 i (by omega)
  · rw [← h.argumentsEnd]
    exact readLe_congr fun i hi => hbyte _ i (by omega)
  · rw [← h.environmentEnd]
    exact readLe_congr fun i hi => hbyte _ i (by omega)

theorem ziProcessParametersSerialise_ok (hmeasure : ziProcessParametersMeasure input = .ok size)
    (hcap : size ≤ outputCapacity) (hrange : ziUserRangeIsValid userBase size = true) :
    ∃ output, ziProcessParametersSerialise input userBase outputCapacity =
        .ok ⟨output,size,userBase⟩ ∧
      HoldsParameters output userBase input ∧ ∀ i, size ≤ i → output i = 0 := by
  obtain ⟨hvalid,rfl,hlimit⟩ := ziProcessParametersMeasure_ok_iff.mp hmeasure
  have haccepted := validateInput_ok hvalid
  obtain ⟨-,hmin,hmax⟩ : _ ∧ 65536 ≤ userBase ∧ userBase+_ ≤ 140737488355328 :=
    ziUserRangeIsValid_iff.mp hrange
  have halign : alignSize processParametersSize 8 = .ok 72 := by decide
  obtain ⟨h1,h2,h3,h4,h5,h6⟩ := input.offsets
  have hwide : 140737488355328 ≤ uint64Max := by decide
  rw [ziProcessParametersSerialise,hmeasure,ok_bind,
    failIf_bind_neg (by simpa [hrange] using hcap),halign,ok_bind,
    addSize_eq (by omega),ok_bind,← h1,addSize_eq (by omega),ok_bind,← h2,
    writeString_eq (by dsimp only; omega) (by dsimp only; omega),ok_bind]
  dsimp only
  rw [← h3,writeString_eq (by dsimp only; omega) (by dsimp only; omega),ok_bind]
  dsimp only
  rw [← h4]
  -- The image path and the command line stand in a block of zeros.
  obtain ⟨fixed,hfixed⟩ : ∃ fixed : Mem, fixed = ((((zero.put input.textOffset input.imagePath).put
        (input.textOffset+input.imagePath.length) [0]).put input.commandLineOffset
        input.commandLine).put (input.commandLineOffset+input.commandLine.length) [0]) := ⟨_,rfl⟩
  have himage : fixed.HoldsString input.textOffset input.imagePath := by
    refine (Mem.HoldsString.put zero _ _).congr fun i hlow hhigh => ?_
    rw [hfixed,put_string_of_outside (by omega)]
  have hcommand : fixed.HoldsString input.commandLineOffset input.commandLine := by
    rw [hfixed]
    exact Mem.HoldsString.put _ _ _
  have hzero : ∀ i, i < input.textOffset ∨ input.argumentTextOffset ≤ i → fixed i = 0 := by
    intro i hi
    rw [hfixed,put_string_of_outside (by omega),put_string_of_outside (by omega)]
    rfl
  rw [← hfixed]
  obtain ⟨args,hargs,hwrites⟩ : ∃ after, writeStrings
      ⟨fixed,outputCapacity,input.argumentTextOffset,userBase⟩ 72 input.arguments = .ok after ∧ _ :=
    writeStrings_ok (by dsimp only; omega) (by dsimp only; omega) (by dsimp only; omega)
  obtain ⟨hroom,hbase,hcursor,hstrings,hsame⟩ := hwrites
  dsimp only at hroom hbase hcursor hstrings hsame
  obtain ⟨environment,henv,hwrites'⟩ : ∃ after, writeStrings args
      input.environmentOffset input.environment = .ok after ∧ _ :=
    writeStrings_ok (by omega) (by omega) (by omega)
  obtain ⟨-,-,hcursor',hstrings',hsame'⟩ := hwrites'
  rw [hbase,hcursor,← h5] at hstrings'
  rw [hargs,ok_bind,henv,ok_bind,failIf_bind_neg (by omega)]
  -- The head is written last, over the first bytes only.
  obtain ⟨output,houtput⟩ : ∃ output, output =
      writeParameters environment.output (input.parameters userBase) := ⟨_,rfl⟩
  have hbehind : ∀ i, 72 ≤ i → output i = environment.output i := by
    intro i hi
    rw [houtput,writeParameters_of_le hi]
  have hfits : (input.parameters userBase).Fits := by
    have hcount := haccepted.arguments.2
    have hcount' := haccepted.environment
    constructor <;> simp only [ZiProcessParameterInput.parameters,processParametersSize,
      processParametersVersion] <;> omega
  refine ⟨output,houtput ▸ rfl,⟨?_,?_,?_,?_,?_,?_,?_⟩,fun i hi => ?_⟩
  · rw [houtput,readParameters_writeParameters hfits]
  · refine himage.congr fun i _ _ => ?_
    rw [hbehind i (by omega),hsame' i (by omega) (by omega),hsame i (by omega) (by omega)]
  · refine hcommand.congr fun i _ _ => ?_
    rw [hbehind i (by omega),hsame' i (by omega) (by omega),hsame i (by omega) (by omega)]
  · refine hstrings.congr (fun i _ _ => ?_) fun i _ _ => ?_ <;>
      rw [hbehind i (by omega),hsame' i (by omega) (by omega)]
  · refine readLe_eq_zero fun i hi => ?_
    rw [hbehind _ (by omega),hsame' _ (by omega) (by omega),hsame _ (by omega) (by omega),
      hzero _ (by omega)]
  · exact hstrings'.congr (fun i _ _ => hbehind i (by omega)) fun i _ _ => hbehind i (by omega)
  · refine readLe_eq_zero fun i hi => ?_
    rw [hbehind _ (by omega),hsame' _ (by omega) (by omega),hsame _ (by omega) (by omega),
      hzero _ (by omega)]
  · rw [hbehind i (by omega),hsame' i (by omega) (by omega),hsame i (by omega) (by omega),
      hzero i (by omega)]

theorem ziProcessParametersSerialise_spec {block : ParameterBlock}
    (h : ziProcessParametersSerialise input userBase outputCapacity = .ok block) :
    ziProcessParametersMeasure input = .ok block.usedSize ∧ block.parametersAddress = userBase ∧
      ziUserRangeIsValid userBase block.usedSize = true ∧
      HoldsParameters block.output userBase input ∧ ∀ i, block.usedSize ≤ i →
        block.output i = 0 := by
  have hchecks : ∃ size, ziProcessParametersMeasure input = .ok size ∧ size ≤ outputCapacity ∧
      ziUserRangeIsValid userBase size = true := by
    obtain ⟨size,hmeasure,h⟩ := bind_ok_iff.mp h
    obtain ⟨hroom,-⟩ := failIf_bind_ok_iff.mp h
    push Not at hroom
    exact ⟨size,hmeasure,hroom.1,by simpa using hroom.2⟩
  obtain ⟨size,hmeasure,hcap,hrange⟩ := hchecks
  obtain ⟨output,hok,hholds,hzero⟩ := ziProcessParametersSerialise_ok hmeasure hcap hrange
  cases hok.symm.trans h
  exact ⟨hmeasure,rfl,hrange,hholds,hzero⟩

end Zizium
