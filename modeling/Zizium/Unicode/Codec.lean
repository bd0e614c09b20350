import Mathlib.Data.List.Forall2
import Zizium.Code.Prefix
import Zizium.Unicode

/-!
# UTF-8 and UTF-16 conversion

The encoder and the UTF-16 conversion of `kernel/unicode/unicode.c`: prefix codes of the same
scalars.
-/

namespace Zizium

open BlockIO List Except Option

variable {value scalar rounds off : ℕ} {bytes text : List UInt8} {scalars : List ℕ}

/-- What a call that fills a caller's buffer leaves behind: its status, the size stored
through the size pointer if any, and the buffer. -/
structure Written (α : Type) where
  status : Result Unit
  size : Option ℕ
  output : Option (List α)
  deriving DecidableEq

/-- The part of the buffer that the stored size covers. -/
def Written.contents {α : Type} (written : Written α) : List α :=
  (written.output.getD []).take (written.size.getD 0)

def storeUnits {α : Type} (buffer : List α) (offset : ℕ) (units : List α) : List α :=
  buffer.take offset ++ units ++ buffer.drop (offset+units.length)

/-- The size `zi_utf8_encode` asks for. -/
def utf8RequiredSize (scalar : ℕ) : ℕ :=
  if scalar ≤ 0x7f then 1 else if scalar ≤ 0x7ff then 2 else if scalar ≤ 0xffff then 3 else 4

/-- The bytes `zi_utf8_encode` stores. -/
def utf8Bytes (scalar : ℕ) : List UInt8 :=
  if utf8RequiredSize scalar = 1 then
    [UInt8.ofNat scalar]
  else if utf8RequiredSize scalar = 2 then
    [UInt8.ofNat (0xc0 ||| scalar >>> 6),UInt8.ofNat (0x80 ||| scalar &&& 0x3f)]
  else if utf8RequiredSize scalar = 3 then
    [UInt8.ofNat (0xe0 ||| scalar >>> 12),UInt8.ofNat (0x80 ||| (scalar >>> 6) &&& 0x3f),
      UInt8.ofNat (0x80 ||| scalar &&& 0x3f)]
  else
    [UInt8.ofNat (0xf0 ||| scalar >>> 18),UInt8.ofNat (0x80 ||| (scalar >>> 12) &&& 0x3f),
      UInt8.ofNat (0x80 ||| (scalar >>> 6) &&& 0x3f),UInt8.ofNat (0x80 ||| scalar &&& 0x3f)]

def outputTooSmall {α : Type} (output : Option (List α)) (required : ℕ) : Bool :=
  output.all fun buffer => buffer.length < required

/-- `output` is the caller's buffer of `output_capacity` bytes, if there is one. -/
def ziUtf8Encode (scalar : ℕ) (output : Option (List UInt8)) : Written UInt8 :=
  if ¬ziUnicodeIsScalar scalar then ⟨.error .invalidArgument,none,output⟩
  else if outputTooSmall output (utf8RequiredSize scalar) then
    ⟨.error .bufferTooSmall,some (utf8RequiredSize scalar),output⟩
  else
    ⟨.ok (),some (utf8RequiredSize scalar),
      output.map fun buffer => storeUnits buffer 0 (utf8Bytes scalar)⟩

/-- The units `zi_utf8_to_utf16` stores for one scalar. -/
def utf16StoredUnits (scalar : ℕ) : List UInt16 :=
  if scalar ≤ 0xffff then [UInt16.ofNat scalar]
  else
    [UInt16.ofNat (0xd800 ||| (scalar-0x10000) >>> 10),
      UInt16.ofNat (0xdc00 ||| (scalar-0x10000) &&& 0x3ff)]

def utf16Store (output : Option (List UInt16)) (outputOffset scalar : ℕ) : Option (List UInt16) :=
  output.map fun buffer =>
    if outputOffset+(utf16StoredUnits scalar).length ≤ buffer.length then
      storeUnits buffer outputOffset (utf16StoredUnits scalar)
    else buffer

/-- The conversion loop: the number of units so far and the buffer. -/
def utf8ToUtf16Loop : ℕ → List UInt8 → ℕ → Option (List UInt16) → Written UInt16
  | 0, _, outputOffset, output => ⟨.ok (),some outputOffset,output⟩
  | rounds+1, text, outputOffset, output =>
    if text.length = 0 then ⟨.ok (),some outputOffset,output⟩
    else
      match ziUtf8Decode text with
      | .error status => ⟨.error status,none,output⟩
      | .ok result =>
        utf8ToUtf16Loop rounds (text.drop result.consumed)
          (outputOffset+(utf16StoredUnits result.scalar).length)
          (utf16Store output outputOffset result.scalar)

def ziUtf8ToUtf16 (text : List UInt8) (output : Option (List UInt16)) : Written UInt16 :=
  let converted := utf8ToUtf16Loop text.length text 0 output
  match converted.status with
  | .error _ => converted
  | .ok _ =>
    if outputTooSmall output (converted.size.getD 0) then
      { converted with status := .error .bufferTooSmall }
    else converted

/-! ### Bytes as numbers -/

theorem isContinuation_iff {byte : UInt8} :
    isContinuation byte ↔ 0x80 ≤ byte.toNat ∧ byte.toNat < 0xc0 := by
  have hall : ∀ n < 256, (isContinuation (UInt8.ofNat n) = true ↔ 0x80 ≤ n ∧ n < 0xc0) := by
    decide +kernel
  simpa using hall byte.toNat byte.toNat_lt

theorem continuationBits_eq (byte : UInt8) : continuationBits byte = byte.toNat%64 := by
  exact Nat.and_two_pow_sub_one_eq_mod byte.toNat 6

theorem toNat_and_31 (byte : UInt8) : (byte &&& 0x1f).toNat = byte.toNat%32 := by
  exact Nat.and_two_pow_sub_one_eq_mod byte.toNat 5

theorem toNat_and_15 (byte : UInt8) : (byte &&& 0x0f).toNat = byte.toNat%16 := by
  exact Nat.and_two_pow_sub_one_eq_mod byte.toNat 4

theorem toNat_and_7 (byte : UInt8) : (byte &&& 0x07).toNat = byte.toNat%8 := by
  exact Nat.and_two_pow_sub_one_eq_mod byte.toNat 3

theorem toNat_ofNat_or (width marker : ℕ) (hvalue : value < 2^width)
    (hfits : 2^width*marker+2^width ≤ 256) :
    (UInt8.ofNat (2^width*marker ||| value)).toNat = 2^width*marker+value := by
  rw [← Nat.two_pow_add_eq_or_of_lt hvalue,UInt8.toNat_ofNat']
  exact Nat.mod_eq_of_lt (by omega)

theorem toNat_continuation (value : ℕ) :
    (UInt8.ofNat (0x80 ||| value &&& 0x3f)).toNat = 0x80+value%64 := by
  have hmask : value &&& 0x3f = value%64 := Nat.and_two_pow_sub_one_eq_mod value 6
  rw [hmask]
  exact toNat_ofNat_or 6 2 (Nat.mod_lt _ (by decide)) (by decide)

/-! ### The encoder's bytes -/

/-- The bytes of a scalar as base-64 digits behind a marker. -/
inductive Utf8Form : ℕ → List UInt8 → Prop
  | one {s : ℕ} {b0 : UInt8} : s < 0x80 → b0.toNat = s → Utf8Form s [b0]
  | two {s : ℕ} {b0 b1 : UInt8} : 0x80 ≤ s → s < 0x800 → b0.toNat = 0xc0+s/64 →
      b1.toNat = 0x80+s%64 → Utf8Form s [b0,b1]
  | three {s : ℕ} {b0 b1 b2 : UInt8} : 0x800 ≤ s → s < 0x10000 → b0.toNat = 0xe0+s/4096 →
      b1.toNat = 0x80+s/64%64 → b2.toNat = 0x80+s%64 → Utf8Form s [b0,b1,b2]
  | four {s : ℕ} {b0 b1 b2 b3 : UInt8} : 0x10000 ≤ s → s < 0x110000 →
      b0.toNat = 0xf0+s/262144 → b1.toNat = 0x80+s/4096%64 →
      b2.toNat = 0x80+s/64%64 → b3.toNat = 0x80+s%64 → Utf8Form s [b0,b1,b2,b3]

theorem ziUnicodeIsScalar_iff :
    ziUnicodeIsScalar value ↔ value < 0x110000 ∧ (value < 0xd800 ∨ 0xe000 ≤ value) := by
  simp only [ziUnicodeIsScalar,Bool.and_eq_true,decide_eq_true_eq,Bool.not_eq_true',
    Bool.and_eq_false_iff,decide_eq_false_iff_not]
  omega

theorem length_utf8Bytes (scalar : ℕ) : (utf8Bytes scalar).length = utf8RequiredSize scalar := by
  unfold utf8Bytes utf8RequiredSize
  split_ifs <;> simp_all

theorem utf8Form_utf8Bytes (h : scalar < 0x110000) : Utf8Form scalar (utf8Bytes scalar) := by
  have hshift : ∀ k, scalar >>> k = scalar/2^k := Nat.shiftRight_eq_div_pow scalar
  rw [utf8Bytes,utf8RequiredSize,hshift 6,hshift 12,hshift 18]
  by_cases h1 : scalar ≤ 0x7f
  · have hbyte : (UInt8.ofNat scalar).toNat = scalar := by exact Nat.mod_eq_of_lt (by omega)
    simp only [h1,if_true]
    exact .one (by omega) hbyte
  by_cases h2 : scalar ≤ 0x7ff
  · have hlead : (UInt8.ofNat (0xc0 ||| scalar/2^6)).toNat = 0xc0+scalar/64 :=
      toNat_ofNat_or 5 6 (by omega) (by decide)
    simp only [h1,h2,if_true,if_false,Nat.reduceEqDiff]
    exact .two (by omega) (by omega) hlead (toNat_continuation scalar)
  by_cases h3 : scalar ≤ 0xffff
  · have hlead : (UInt8.ofNat (0xe0 ||| scalar/2^12)).toNat = 0xe0+scalar/4096 :=
      toNat_ofNat_or 4 14 (by omega) (by decide)
    simp only [h1,h2,h3,if_true,if_false,Nat.reduceEqDiff]
    exact .three (by omega) (by omega) hlead
      (toNat_continuation (scalar/2^6)) (toNat_continuation scalar)
  · have hlead : (UInt8.ofNat (0xf0 ||| scalar/2^18)).toNat = 0xf0+scalar/262144 :=
      toNat_ofNat_or 3 30 (by omega) (by decide)
    simp only [h1,h2,h3,if_false,Nat.reduceEqDiff]
    exact .four (by omega) h hlead (toNat_continuation (scalar/2^12))
      (toNat_continuation (scalar/2^6)) (toNat_continuation scalar)

theorem Utf8Form.unique {bytes' : List UInt8} (h : Utf8Form scalar bytes)
    (h' : Utf8Form scalar bytes') : bytes = bytes' := by
  cases h <;> cases h' <;> try omega
  all_goals
    simp only [cons.injEq,← UInt8.toNat_inj,and_true]
    omega

/-! ### The decoder -/

theorem ziUtf8Decode_of_form (h : Utf8Form scalar bytes) (hscalar : ziUnicodeIsScalar scalar)
    (rest : List UInt8) : ziUtf8Decode (bytes ++ rest) = .ok ⟨scalar,bytes.length⟩ := by
  have hrange := ziUnicodeIsScalar_iff.mp hscalar
  rw [ziUtf8Decode,failIf_bind_neg (by cases h <;> simp)]
  cases h with
  | @one b0 h0 hb0 =>
    have hlead : b0 ≤ 0x7f := by
      simp only [UInt8.le_iff_toNat_le,UInt8.reduceToNat]
      omega
    simp only [cons_append,nil_append,getD_cons_zero]
    rw [if_pos hlead,pure_bind,hb0,failIf_bind_neg (not_not_intro hscalar)]
    rfl
  | @two b0 b1 h0 h1 hb0 hb1 =>
    have hlead : ¬b0 ≤ 0x7f ∧ 0xc2 ≤ b0 ∧ b0 ≤ 0xdf := by
      simp only [UInt8.le_iff_toNat_le,UInt8.reduceToNat]
      omega
    have hb1' : isContinuation b1 := isContinuation_iff.mpr (by omega)
    have hvalue : (b0 &&& 0x1f).toNat*64+continuationBits b1 = scalar := by
      rw [toNat_and_31,continuationBits_eq]
      omega
    simp only [cons_append,nil_append,getD_cons_zero,getD_cons_succ]
    rw [if_neg hlead.1,if_pos hlead.2,failIf_bind_neg (by simp [hb1']),pure_bind,
      hvalue,failIf_bind_neg (not_not_intro hscalar)]
    rfl
  | @three b0 b1 b2 h0 h1 hb0 hb1 hb2 =>
    have hlead : ¬b0 ≤ 0x7f ∧ ¬(0xc2 ≤ b0 ∧ b0 ≤ 0xdf) ∧ 0xe0 ≤ b0 ∧ b0 ≤ 0xef := by
      simp only [UInt8.le_iff_toNat_le,UInt8.reduceToNat]
      omega
    have hb1' : isContinuation b1 := isContinuation_iff.mpr (by omega)
    have hb2' : isContinuation b2 := isContinuation_iff.mpr (by omega)
    -- the overlong forms and the surrogates are out of range
    have hfirst : ¬((b0 = 0xe0 ∧ b1 < 0xa0) ∨ (b0 = 0xed ∧ 0xa0 ≤ b1)) := by
      simp only [← UInt8.toNat_inj,UInt8.lt_iff_toNat_lt,UInt8.le_iff_toNat_le,UInt8.reduceToNat]
      omega
    have hvalue : (b0 &&& 0x0f).toNat*4096+continuationBits b1*64+continuationBits b2 = scalar := by
      rw [toNat_and_15,continuationBits_eq,continuationBits_eq]
      omega
    simp only [cons_append,nil_append,getD_cons_zero,getD_cons_succ]
    rw [if_neg hlead.1,if_neg hlead.2.1,if_pos hlead.2.2,
      failIf_bind_neg (by simp [hb1',hb2']),failIf_bind_neg hfirst,pure_bind,
      hvalue,failIf_bind_neg (not_not_intro hscalar)]
    rfl
  | @four b0 b1 b2 b3 h0 h1 hb0 hb1 hb2 hb3 =>
    have hlead : ¬b0 ≤ 0x7f ∧ ¬(0xc2 ≤ b0 ∧ b0 ≤ 0xdf) ∧ ¬(0xe0 ≤ b0 ∧ b0 ≤ 0xef) ∧
        0xf0 ≤ b0 ∧ b0 ≤ 0xf4 := by
      simp only [UInt8.le_iff_toNat_le,UInt8.reduceToNat]
      omega
    have hb1' : isContinuation b1 := isContinuation_iff.mpr (by omega)
    have hb2' : isContinuation b2 := isContinuation_iff.mpr (by omega)
    have hb3' : isContinuation b3 := isContinuation_iff.mpr (by omega)
    have hfirst : ¬((b0 = 0xf0 ∧ b1 < 0x90) ∨ (b0 = 0xf4 ∧ 0x90 ≤ b1)) := by
      simp only [← UInt8.toNat_inj,UInt8.lt_iff_toNat_lt,UInt8.le_iff_toNat_le,UInt8.reduceToNat]
      omega
    have hvalue : (b0 &&& 0x07).toNat*262144+continuationBits b1*4096 +
        continuationBits b2*64+continuationBits b3 = scalar := by
      rw [toNat_and_7,continuationBits_eq,continuationBits_eq,continuationBits_eq]
      omega
    simp only [cons_append,nil_append,getD_cons_zero,getD_cons_succ]
    rw [if_neg hlead.1,if_neg hlead.2.1,if_neg hlead.2.2.1,if_pos hlead.2.2.2,
      failIf_bind_neg (by simp [hb1',hb2',hb3']),failIf_bind_neg hfirst,
      pure_bind,hvalue,failIf_bind_neg (not_not_intro hscalar)]
    rfl

variable {result : ZiUtf8DecodeResult}

theorem form_of_ziUtf8Decode (h : ziUtf8Decode text = .ok result) :
    ziUnicodeIsScalar result.scalar ∧
      ∃ bytes rest, text = bytes ++ rest ∧ bytes.length = result.consumed ∧
        Utf8Form result.scalar bytes := by
  rw [ziUtf8Decode,failIf_bind_ok_iff] at h
  obtain ⟨hlen,h⟩ := h
  dsimp only at h
  split_ifs at h with h1 h2 h3 h4
  · simp only [pure_bind,failIf_bind_ok_iff,pure_ok_iff,not_not] at h
    obtain ⟨hscalar,rfl⟩ := h
    obtain ⟨b0,rest,rfl⟩ := exists_cons_of_length_pos (Nat.pos_of_ne_zero hlen)
    simp only [getD_cons_zero,UInt8.le_iff_toNat_le,UInt8.reduceToNat] at *
    exact ⟨hscalar,[b0],rest,rfl,rfl,.one (by omega) rfl⟩
  · simp only [pure_bind,failIf_bind_ok_iff,pure_ok_iff,not_or,not_not] at h
    obtain ⟨⟨hsize,hc1⟩,hscalar,rfl⟩ := h
    rcases text with _ | ⟨b0,_ | ⟨b1,rest⟩⟩ <;>
      simp only [length_cons,length_nil] at hsize <;> try omega
    simp only [getD_cons_zero,getD_cons_succ,UInt8.le_iff_toNat_le,
      UInt8.reduceToNat,isContinuation_iff,toNat_and_31,continuationBits_eq] at *
    exact ⟨hscalar,[b0,b1],rest,rfl,rfl,.two (by omega) (by omega) (by omega) (by omega)⟩
  · simp only [pure_bind,failIf_bind_ok_iff,pure_ok_iff,not_or,not_not] at h
    obtain ⟨⟨hsize,hc1,hc2⟩,hfirst,hscalar,rfl⟩ := h
    rcases text with _ | ⟨b0,_ | ⟨b1,_ | ⟨b2,rest⟩⟩⟩ <;>
      simp only [length_cons,length_nil] at hsize <;> try omega
    simp only [getD_cons_zero,getD_cons_succ,UInt8.le_iff_toNat_le,
      UInt8.lt_iff_toNat_lt,← UInt8.toNat_inj,UInt8.reduceToNat,isContinuation_iff,
      toNat_and_15,continuationBits_eq] at *
    exact ⟨hscalar,[b0,b1,b2],rest,rfl,rfl,
      .three (by omega) (by omega) (by omega) (by omega) (by omega)⟩
  · simp only [pure_bind,failIf_bind_ok_iff,pure_ok_iff,not_or,not_not] at h
    obtain ⟨⟨hsize,hc1,hc2,hc3⟩,hfirst,hscalar,rfl⟩ := h
    rcases text with _ | ⟨b0,_ | ⟨b1,_ | ⟨b2,_ | ⟨b3,rest⟩⟩⟩⟩ <;>
      simp only [length_cons,length_nil] at hsize <;> try omega
    simp only [getD_cons_zero,getD_cons_succ,UInt8.le_iff_toNat_le,
      UInt8.lt_iff_toNat_lt,← UInt8.toNat_inj,UInt8.reduceToNat,isContinuation_iff,
      toNat_and_7,continuationBits_eq] at *
    exact ⟨hscalar,[b0,b1,b2,b3],rest,rfl,rfl,
      .four (by omega) (by omega) (by omega) (by omega) (by omega) (by omega)⟩
  · exact absurd h (by simp [bind,Except.bind,throw,throwThe,MonadExceptOf.throw])

theorem ziUtf8Decode_utf8Bytes (hscalar : ziUnicodeIsScalar scalar) (rest : List UInt8) :
    ziUtf8Decode (utf8Bytes scalar ++ rest) = .ok ⟨scalar,(utf8Bytes scalar).length⟩ :=
  ziUtf8Decode_of_form (utf8Form_utf8Bytes (ziUnicodeIsScalar_iff.mp hscalar).1) hscalar rest

theorem utf8Bytes_of_ziUtf8Decode (h : ziUtf8Decode text = .ok result) :
    ziUnicodeIsScalar result.scalar ∧ utf8Bytes result.scalar = text.take result.consumed ∧
      result.consumed ≤ text.length := by
  obtain ⟨hscalar,bytes,rest,rfl,hlen,hform⟩ := form_of_ziUtf8Decode h
  have hbytes : utf8Bytes result.scalar = bytes :=
    (utf8Form_utf8Bytes (ziUnicodeIsScalar_iff.mp hscalar).1).unique hform
  rw [← hlen,take_left,length_append]
  exact ⟨hscalar,hbytes,Nat.le_add_right _ _⟩

/-! ### UTF-8 as a prefix code -/

def utf8Code : PrefixCode ℕ UInt8 where
  valid scalar := ziUnicodeIsScalar scalar
  encode := utf8Bytes
  encode_ne_nil := by
    intro scalar _ hnil
    have hlen := length_utf8Bytes scalar
    rw [hnil,utf8RequiredSize] at hlen
    split_ifs at hlen
  eq_of_append := by
    intro a b left right ha hb h
    have hdecode := ziUtf8Decode_utf8Bytes ha left
    rw [h,ziUtf8Decode_utf8Bytes hb right] at hdecode
    injection hdecode with hresult
    exact (congrArg ZiUtf8DecodeResult.scalar hresult).symm

def utf8Front (text : List UInt8) : Option (ℕ × ℕ) :=
  (ziUtf8Decode text).toOption.map fun result => (result.scalar, result.consumed)

theorem utf8Front_of_ok (h : ziUtf8Decode text = .ok result) :
    utf8Front text = some (result.scalar, result.consumed) := by
  rw [utf8Front,h]
  rfl

theorem utf8Front_of_error {status : ZiStatus} (h : ziUtf8Decode text = .error status) :
    utf8Front text = none := by
  rw [utf8Front,h]
  rfl

theorem utf8Code_decodedBy : utf8Code.DecodedBy utf8Front where
  decode_encode hscalar rest := utf8Front_of_ok (ziUtf8Decode_utf8Bytes hscalar rest)
  sound := by
    intro text scalar consumed h
    cases hdec : ziUtf8Decode text with
    | error status => rw [utf8Front_of_error hdec] at h; cases h
    | ok result =>
      rw [utf8Front_of_ok hdec] at h
      cases h
      exact utf8Bytes_of_ziUtf8Decode hdec

def utf8ScalarsLoop : ℕ → List UInt8 → Result (List ℕ)
  | 0, _ => pure []
  | rounds+1, text =>
    if text.length = 0 then pure []
    else do
      let result ← ziUtf8Decode text
      let scalars ← utf8ScalarsLoop rounds (text.drop result.consumed)
      pure (result.scalar :: scalars)

/-- The scalars that repeated decoding finds in a text. -/
def utf8Scalars (text : List UInt8) : Result (List ℕ) := utf8ScalarsLoop text.length text

theorem utf8ScalarsLoop_ok_iff (hrounds : text.length ≤ rounds) :
    utf8ScalarsLoop rounds text = .ok scalars ↔ utf8Code.Spells scalars text := by
  induction rounds generalizing text scalars with
  | zero =>
    obtain rfl : text = [] := eq_nil_of_length_eq_zero (by omega)
    rw [utf8ScalarsLoop,pure_ok_iff,PrefixCode.spells_empty_iff]
  | succ rounds ih =>
    rw [utf8ScalarsLoop]
    split_ifs with hempty
    · obtain rfl : text = [] := eq_nil_of_length_eq_zero hempty
      rw [pure_ok_iff,PrefixCode.spells_empty_iff]
    rw [bind_ok_iff]
    cases hdec : ziUtf8Decode text with
    | error status =>
      have hfront := utf8Front_of_error hdec
      refine ⟨?_,fun hspells => ?_⟩
      · rintro ⟨_,h,-⟩
        cases h
      cases scalars with
      | nil => exact absurd (by rw [PrefixCode.spells_nil_iff.mp hspells]; rfl) hempty
      | cons scalar scalars =>
        exact absurd hspells (utf8Code_decodedBy.not_spells_cons_of_decode hfront)
    | ok result =>
      have hfront := utf8Front_of_ok hdec
      have hshorter := utf8Code_decodedBy.drop_length_lt hfront
      have hrest := fun scalars => @ih (text.drop result.consumed) scalars (by omega)
      constructor
      · rintro ⟨_,hres,h⟩
        cases hres
        obtain ⟨rest,hloop,h⟩ := bind_ok_iff.mp h
        obtain rfl := pure_ok_iff.mp h
        exact (utf8Code_decodedBy.spells_cons_iff_of_decode hfront).mpr
          ⟨rfl,(hrest rest).mp hloop⟩
      · intro hspells
        cases scalars with
        | nil => exact absurd (by rw [PrefixCode.spells_nil_iff.mp hspells]; rfl) hempty
        | cons scalar scalars =>
          obtain ⟨rfl,htail⟩ :=
            (utf8Code_decodedBy.spells_cons_iff_of_decode hfront).mp hspells
          refine ⟨result,rfl,?_⟩
          rw [(hrest scalars).mpr htail]
          rfl

theorem utf8ValidateLoop_eq (rounds : ℕ) (text : List UInt8) :
    utf8ValidateLoop rounds text = (do let _ ← utf8ScalarsLoop rounds text; pure ()) := by
  induction rounds generalizing text with
  | zero => rfl
  | succ rounds ih =>
    rw [utf8ValidateLoop,utf8ScalarsLoop]
    split_ifs
    · rfl
    · cases ziUtf8Decode text with
      | error status => rfl
      | ok result => simp [ok_bind,ih]

theorem utf8Scalars_ok_iff : utf8Scalars text = .ok scalars ↔ utf8Code.Spells scalars text :=
  utf8ScalarsLoop_ok_iff le_rfl

theorem ziUtf8Validate_ok_iff :
    ziUtf8Validate text = .ok () ↔ ∃ scalars, utf8Code.Spells scalars text := by
  rw [ziUtf8Validate,utf8ValidateLoop_eq,bind_ok_iff]
  exact exists_congr fun scalars => (and_iff_left (pure_ok_iff.mpr rfl)).trans utf8Scalars_ok_iff

/-! ### UTF-16 -/

def utf16Units (scalar : ℕ) : List UInt16 :=
  if scalar < 0x10000 then [UInt16.ofNat scalar]
  else [UInt16.ofNat (0xd800+(scalar-0x10000)/0x400),UInt16.ofNat (0xdc00+(scalar-0x10000)%0x400)]

theorem utf16StoredUnits_eq (hscalar : ziUnicodeIsScalar scalar) :
    utf16StoredUnits scalar = utf16Units scalar := by
  have hrange := ziUnicodeIsScalar_iff.mp hscalar
  rw [utf16StoredUnits,utf16Units]
  by_cases hbmp : scalar ≤ 0xffff
  · rw [if_pos hbmp,if_pos (by omega)]
  rw [if_neg hbmp,if_neg (by omega)]
  have hmask : (scalar-0x10000) &&& 0x3ff = (scalar-0x10000)%0x400 :=
    Nat.and_two_pow_sub_one_eq_mod _ 10
  have hhigh : 0xd800 ||| (scalar-0x10000) >>> 10 = 0xd800+(scalar-0x10000)/0x400 := by
    rw [Nat.shiftRight_eq_div_pow]
    exact (Nat.two_pow_add_eq_or_of_lt (i := 10) (by omega) 54).symm
  have hlow : 0xdc00 ||| (scalar-0x10000)%0x400 = 0xdc00+(scalar-0x10000)%0x400 :=
    (Nat.two_pow_add_eq_or_of_lt (i := 10) (Nat.mod_lt _ (by decide)) 55).symm
  rw [hmask,hhigh,hlow]

def utf16Code : PrefixCode ℕ UInt16 where
  valid scalar := ziUnicodeIsScalar scalar
  encode := utf16Units
  encode_ne_nil := by
    intro scalar _ hnil
    rw [utf16Units] at hnil
    split_ifs at hnil
  eq_of_append := by
    intro a b left right ha hb h
    have hrange := ziUnicodeIsScalar_iff.mp ha
    have hrange' := ziUnicodeIsScalar_iff.mp hb
    rw [utf16Units,utf16Units] at h
    split_ifs at h <;>
      simp only [cons_append,nil_append,cons.injEq,← UInt16.toNat_inj,
        UInt16.toNat_ofNat'] at h <;> omega

/-! ### The conversion -/

variable {α : Type}

theorem length_storeUnits {buffer units : List α} (h : off+units.length ≤ buffer.length) :
    (storeUnits buffer off units).length = buffer.length := by
  simp only [storeUnits,length_append,length_take,length_drop]
  omega

theorem storeUnits_storeUnits {buffer units units' : List α}
    (h : off+units.length ≤ buffer.length) :
    storeUnits (storeUnits buffer off units) (off+units.length) units' =
      storeUnits buffer off (units ++ units') := by
  have hlen : (buffer.take off ++ units).length = off+units.length := by
    rw [length_append,length_take_of_le (by omega)]
  have hdrop : (storeUnits buffer off units).drop (off+units.length+units'.length) =
      buffer.drop (off+(units ++ units').length) := by
    rw [storeUnits,← hlen,← drop_drop,drop_left,drop_drop,hlen,length_append,Nat.add_assoc]
  rw [storeUnits,hdrop,storeUnits,← hlen,take_left,storeUnits,append_assoc _ units]

theorem length_utf16Store (buffer : List UInt16) (off scalar : ℕ) :
    ∃ buffer', utf16Store (some buffer) off scalar = some buffer' ∧ buffer'.length = buffer.length ∧
      (off+(utf16StoredUnits scalar).length ≤ buffer.length →
        buffer' = storeUnits buffer off (utf16StoredUnits scalar)) := by
  rw [utf16Store,map_some]
  split_ifs with hfits
  · exact ⟨_,rfl,length_storeUnits hfits,fun _ => rfl⟩
  · exact ⟨_,rfl,rfl,fun h => absurd h hfits⟩

theorem utf8ToUtf16Loop_cons (off : ℕ) (output : Option (List UInt16))
    (hrounds : text.length ≤ rounds) (h : utf8Code.Spells (scalar :: scalars) text) :
    ∃ rest rounds', utf8Code.Spells scalars rest ∧ rest.length ≤ rounds' ∧
      utf8ToUtf16Loop rounds text off output =
        utf8ToUtf16Loop rounds' rest (off+(utf16StoredUnits scalar).length)
          (utf16Store output off scalar) := by
  obtain ⟨hscalar,rest,rfl,hrest⟩ := PrefixCode.spells_cons_iff.mp h
  have hpos : 0 < (utf8Code.encode scalar).length :=
    length_pos_of_ne_nil (utf8Code.encode_ne_nil hscalar)
  have hdec := ziUtf8Decode_utf8Bytes hscalar rest
  rw [length_append] at hrounds
  obtain ⟨rounds,rfl⟩ : ∃ n, rounds = n+1 := ⟨rounds - 1,by omega⟩
  refine ⟨rest,rounds,hrest,by omega,?_⟩
  rw [utf8ToUtf16Loop,if_neg (by rw [length_append]; omega)]
  simp only [show utf8Code.encode = utf8Bytes from rfl,hdec,drop_left]

theorem utf8ToUtf16Loop_spec (off : ℕ) (output : Option (List UInt16))
    (hrounds : text.length ≤ rounds) (h : utf8Code.Spells scalars text) :
    ∃ output', utf8ToUtf16Loop rounds text off output =
        ⟨.ok (),some (off+(scalars.flatMap utf16Units).length),output'⟩ ∧
      ∀ buffer, output = some buffer →
        off+(scalars.flatMap utf16Units).length ≤ buffer.length →
        output' = some (storeUnits buffer off (scalars.flatMap utf16Units)) := by
  induction scalars generalizing rounds off text output with
  | nil =>
    obtain rfl := PrefixCode.spells_nil_iff.mp h
    refine ⟨output,?_,?_⟩
    · cases rounds <;> rfl
    · rintro buffer rfl -
      simp [storeUnits]
  | cons scalar scalars ih =>
    obtain ⟨rest,rounds',hrest,hrounds',hstep⟩ :=
      utf8ToUtf16Loop_cons off output hrounds h
    have hunits : utf16StoredUnits scalar = utf16Units scalar :=
      utf16StoredUnits_eq (h.1 scalar mem_cons_self)
    obtain ⟨output',hloop,hstored⟩ :=
      ih (off+(utf16StoredUnits scalar).length) (utf16Store output off scalar)
        hrounds' hrest
    rw [hstep,hloop,flatMap_cons,length_append,← hunits,← Nat.add_assoc]
    refine ⟨output',rfl,?_⟩
    rintro buffer rfl hfits
    obtain ⟨buffer',hbuffer',hlen,hfirst⟩ := length_utf16Store buffer off scalar
    rw [hstored buffer' hbuffer' (by omega),hfirst (by omega),storeUnits_storeUnits (by omega)]

theorem outputTooSmall_some_iff {buffer : List α} {required : ℕ} :
    outputTooSmall (some buffer) required ↔ buffer.length < required := by
  simp [outputTooSmall]

theorem ziUtf8ToUtf16_spec (output : Option (List UInt16)) (h : utf8Code.Spells scalars text) :
    (ziUtf8ToUtf16 text output).size = some (scalars.flatMap utf16Units).length ∧
      (ziUtf8ToUtf16 text output).status =
        (if outputTooSmall output (scalars.flatMap utf16Units).length then
          .error .bufferTooSmall else .ok ()) ∧
      (¬outputTooSmall output (scalars.flatMap utf16Units).length →
        (ziUtf8ToUtf16 text output).contents = scalars.flatMap utf16Units) := by
  obtain ⟨output',hloop,hstored⟩ := utf8ToUtf16Loop_spec 0 output le_rfl h
  simp only [Nat.zero_add] at hloop hstored
  simp only [ziUtf8ToUtf16,hloop,getD_some]
  split_ifs with hsmall
  · exact ⟨rfl,rfl,fun h => absurd hsmall h⟩
  · refine ⟨rfl,rfl,fun _ => ?_⟩
    cases output with
    | none => exact absurd rfl hsmall
    | some buffer =>
      rw [outputTooSmall_some_iff] at hsmall
      rw [hstored buffer rfl (by omega),Written.contents,storeUnits]
      simp

def Utf8Encodes (scalar : ℕ) (bytes : List UInt8) : Prop :=
  ∀ buffer : List UInt8, bytes.length ≤ buffer.length →
    ziUtf8Encode scalar (some buffer) =
      ⟨.ok (),some bytes.length,some (bytes ++ buffer.drop bytes.length)⟩

theorem utf8Encodes_iff :
    Utf8Encodes scalar bytes ↔ ziUnicodeIsScalar scalar ∧ bytes = utf8Bytes scalar := by
  have hlen := length_utf8Bytes scalar
  constructor
  · intro h
    have hsame := h bytes le_rfl
    by_cases hscalar : ziUnicodeIsScalar scalar
    · refine ⟨hscalar,?_⟩
      rw [ziUtf8Encode,if_neg (not_not_intro hscalar)] at hsame
      split_ifs at hsame with hshort
      · simp at hsame
      · simp only [Written.mk.injEq,some.injEq,map_some,true_and,storeUnits,← hlen] at hsame
        simpa [hsame.1] using hsame.2.symm
    · rw [ziUtf8Encode,if_pos hscalar] at hsame
      simp at hsame
  · rintro ⟨hscalar,rfl⟩ buffer hroom
    have hfits : ¬outputTooSmall (some buffer) (utf8RequiredSize scalar) := by
      rw [outputTooSmall_some_iff]
      omega
    rw [ziUtf8Encode,if_neg (not_not_intro hscalar),if_neg hfits,← hlen]
    simp [storeUnits]

def Utf8Concatenation (scalars : List ℕ) (text : List UInt8) : Prop :=
  ∃ pieces : List (List UInt8), List.Forall₂ Utf8Encodes scalars pieces ∧ text = pieces.flatten

theorem utf8Concatenation_iff : Utf8Concatenation scalars text ↔ utf8Code.Spells scalars text := by
  constructor
  · rintro ⟨pieces,hpieces,rfl⟩
    induction hpieces with
    | nil => simp
    | @cons scalar piece scalars pieces hpiece _ ih =>
      obtain ⟨hscalar,rfl⟩ := utf8Encodes_iff.mp hpiece
      exact PrefixCode.spells_cons_iff.mpr ⟨hscalar,pieces.flatten,rfl,ih⟩
  · rintro ⟨hscalars,rfl⟩
    refine ⟨scalars.map utf8Bytes,?_,flatMap_def⟩
    rw [forall₂_map_right_iff,forall₂_same]
    exact fun scalar hmem => utf8Encodes_iff.mpr ⟨hscalars scalar hmem,rfl⟩

theorem text_eq_of_contents_eq {scalars' : List ℕ} {text' : List UInt8}
    (h : utf8Code.Spells scalars text) (h' : utf8Code.Spells scalars' text')
    (hunits : scalars.flatMap utf16Units = scalars'.flatMap utf16Units) : text = text' := by
  have hsame : scalars = scalars' := utf16Code.eq_of_flatMap_eq h.1 h'.1 hunits
  rw [h.2,h'.2,hsame]

theorem utf8_exact (text : List UInt8) : (ziUtf8Validate text = .ok () ↔
      ∃! scalars, (∀ scalar ∈ scalars, ziUnicodeIsScalar scalar) ∧ Utf8Concatenation scalars text) ∧
    (∀ scalars, Utf8Concatenation scalars text ↔ utf8Scalars text = .ok scalars) ∧
    (∀ scalar, ziUnicodeIsScalar scalar → ∃ bytes, Utf8Encodes scalar bytes ∧
      ∀ rest, ziUtf8Decode (bytes ++ rest) = .ok ⟨scalar,bytes.length⟩) ∧
    (∀ result, ziUtf8Decode text = .ok result → result.consumed ≤ text.length ∧
        Utf8Encodes result.scalar (text.take result.consumed)) ∧
    (∀ scalars, utf8Scalars text = .ok scalars → (∀ output, (ziUtf8ToUtf16 text output).size =
        some (scalars.flatMap utf16Units).length) ∧
      ∀ buffer, ((ziUtf8ToUtf16 text (some buffer)).status = .error .bufferTooSmall ↔
          buffer.length < (scalars.flatMap utf16Units).length) ∧
        ((scalars.flatMap utf16Units).length ≤ buffer.length →
          (ziUtf8ToUtf16 text (some buffer)).status = .ok () ∧
          (ziUtf8ToUtf16 text (some buffer)).contents = scalars.flatMap utf16Units)) ∧
    ∀ text', ziUtf8Validate text = .ok () → ziUtf8Validate text' = .ok () → text ≠ text' →
      ∀ output output', (ziUtf8ToUtf16 text output).status = .ok () →
        (ziUtf8ToUtf16 text' output').status = .ok () →
        (ziUtf8ToUtf16 text output).contents ≠ (ziUtf8ToUtf16 text' output').contents := by
  refine ⟨?_,?_,?_,?_,?_,?_⟩
  · rw [ziUtf8Validate_ok_iff]
    constructor
    · rintro ⟨scalars,hspells⟩
      refine ⟨scalars,⟨hspells.1,utf8Concatenation_iff.mpr hspells⟩,?_⟩
      rintro scalars' ⟨-,hscalars'⟩
      exact (utf8Concatenation_iff.mp hscalars').unique hspells
    · rintro ⟨scalars,⟨-,hscalars⟩,-⟩
      exact ⟨scalars,utf8Concatenation_iff.mp hscalars⟩
  · intro scalars
    rw [utf8Concatenation_iff,utf8Scalars_ok_iff]
  · intro scalar hscalar
    exact ⟨utf8Bytes scalar,utf8Encodes_iff.mpr ⟨hscalar,rfl⟩,ziUtf8Decode_utf8Bytes hscalar⟩
  · intro result hdecode
    obtain ⟨hscalar,hbytes,hle⟩ := utf8Bytes_of_ziUtf8Decode hdecode
    exact ⟨hle,utf8Encodes_iff.mpr ⟨hscalar,hbytes.symm⟩⟩
  · intro scalars hscalars
    have hspec := fun output => ziUtf8ToUtf16_spec output (utf8Scalars_ok_iff.mp hscalars)
    refine ⟨fun output => (hspec output).1,fun buffer => ?_⟩
    obtain ⟨-,hstatus,hcontents⟩ := hspec (some buffer)
    simp only [outputTooSmall_some_iff] at hstatus hcontents
    refine ⟨?_,fun hroom => ⟨?_,hcontents (by omega)⟩⟩
    · rw [hstatus]
      split_ifs with hsmall
      · exact iff_of_true rfl hsmall
      · exact iff_of_false (by simp) hsmall
    · rw [hstatus,if_neg (by omega)]
  · intro text' hvalid hvalid' hne output output' hok hok' hcontents
    obtain ⟨scalars,hspells⟩ := ziUtf8Validate_ok_iff.mp hvalid
    obtain ⟨scalars',hspells'⟩ := ziUtf8Validate_ok_iff.mp hvalid'
    obtain ⟨-,hstatus,hunits⟩ := ziUtf8ToUtf16_spec output hspells
    obtain ⟨-,hstatus',hunits'⟩ := ziUtf8ToUtf16_spec output' hspells'
    have hroom : ¬outputTooSmall output (scalars.flatMap utf16Units).length := fun h => by
      rw [hstatus,if_pos h] at hok
      cases hok
    have hroom' : ¬outputTooSmall output' (scalars'.flatMap utf16Units).length := fun h => by
      rw [hstatus',if_pos h] at hok'
      cases hok'
    rw [hunits hroom,hunits' hroom'] at hcontents
    exact hne (text_eq_of_contents_eq hspells hspells' hcontents)

end Zizium
