import Mathlib.Data.List.Basic
import Mathlib.Tactic.Ring

/-!
# Byte-addressed memory

Fields at fixed offsets of byte buffers: little-endian integers, byte strings and fixed-size
buffers.
-/

namespace Bytes

variable {n off i size : ℕ}

/-- The bytes seen from a base address. -/
abbrev Mem := ℕ → UInt8

/-- The `n` low bytes of a value, least significant first. -/
def leBytes : (n value : ℕ) → List UInt8
  | 0, _ => []
  | n+1, value => UInt8.ofNat value :: leBytes n (value/256)

@[simp] theorem length_leBytes (n value : ℕ) : (leBytes n value).length = n := by
  induction n generalizing value with
  | zero => rfl
  | succ n ih => simp [leBytes,ih]

namespace Mem

/-- The all-zero memory. -/
def zero : Mem := fun _ => 0

def shift (m : Mem) (offset : ℕ) : Mem := fun i => m (offset+i)

/-- The little-endian value of `n` bytes at `offset`. -/
def readLe (m : Mem) : (n offset : ℕ) → ℕ
  | 0, _ => 0
  | n+1, offset => (m offset).toNat+256*readLe m n (offset+1)

def put (m : Mem) (offset : ℕ) (bytes : List UInt8) : Mem := fun i =>
  if offset ≤ i ∧ i < offset+bytes.length then bytes.getD (i-offset) 0 else m i

/-- The byte string of length `n` at `offset`. -/
def slice (m : Mem) (offset n : ℕ) : List UInt8 := (List.range n).map fun i => m (offset+i)

variable {m m' : Mem} {k pos value : ℕ} {bytes : List UInt8}

@[simp] theorem shift_apply (i : ℕ) : m.shift off i = m (off+i) := rfl

@[simp] theorem length_slice : (m.slice off n).length = n := by simp [slice]

theorem put_of_lt (h : i < off) : m.put off bytes i = m i :=
  if_neg fun hi => by omega

theorem put_of_ge (h : off+bytes.length ≤ i) : m.put off bytes i = m i :=
  if_neg fun hi => by omega

theorem put_of_outside (h : i < off ∨ off+bytes.length ≤ i) : m.put off bytes i = m i :=
  if_neg fun hi => by omega

theorem put_of_mem (h1 : off ≤ i) (h2 : i < off+bytes.length) :
    m.put off bytes i = bytes.getD (i-off) 0 := if_pos ⟨h1,h2⟩

theorem readLe_lt (m : Mem) (n off : ℕ) : m.readLe n off < 256^n := by
  induction n generalizing off with
  | zero => simp [readLe]
  | succ n ih =>
    have hbyte : (m off).toNat < 256 := (m off).toNat_lt
    have := ih (off+1)
    rw [readLe,Nat.pow_succ]
    omega

theorem readLe_congr (h : ∀ i, i < n → m (off+i) = m' (pos+i)) :
    m.readLe n off = m'.readLe n pos := by
  induction n generalizing off pos with
  | zero => rfl
  | succ n ih =>
    have hhead : m off = m' pos := h 0 (by omega)
    have htail : m.readLe n (off+1) = m'.readLe n (pos+1) := ih fun i hi => by
      rw [Nat.add_assoc,Nat.add_assoc,Nat.add_comm 1 i]
      exact h (i+1) (by omega)
    rw [readLe,readLe,hhead,htail]

theorem eq_of_readLe_eq (h : m.readLe n off = m'.readLe n pos) (hi : i < n) :
    m (off+i) = m' (pos+i) := by
  induction n generalizing off pos i with
  | zero => omega
  | succ n ih =>
    have hbyte : (m off).toNat < 256 := (m off).toNat_lt
    have hbyte' : (m' pos).toNat < 256 := (m' pos).toNat_lt
    rw [readLe,readLe] at h
    cases i with
    | zero =>
      have hhead : (m off).toNat = (m' pos).toNat := by omega
      exact UInt8.toNat_inj.mp hhead
    | succ i =>
      have hrest : m.readLe n (off+1) = m'.readLe n (pos+1) := by omega
      have htail := ih hrest (show i < n by omega)
      rwa [Nat.add_assoc,Nat.add_assoc,Nat.add_comm 1 i] at htail

theorem slice_congr (h : ∀ i, i < n → m (off+i) = m' (pos+i)) : m.slice off n = m'.slice pos n :=
  List.map_congr_left fun i hi => h i (List.mem_range.mp hi)

theorem readLe_agree (h : ∀ i, i < size → m i = m' i) (hle : off+n ≤ size) :
    m.readLe n off = m'.readLe n off := readLe_congr fun i hi => h _ (by omega)

theorem readLe_window (h : ∀ i, i < size → m (off+i) = m' (off+i)) (hlow : off ≤ pos)
    (hle : pos+n ≤ off+size) : m.readLe n pos = m'.readLe n pos := by
  refine readLe_congr fun i hi => ?_
  have := h (pos-off+i) (by omega)
  rwa [show off+(pos-off+i) = pos+i by omega] at this

theorem slice_agree (h : ∀ i, i < size → m i = m' i) (hle : off+n ≤ size) :
    m.slice off n = m'.slice off n := slice_congr fun i hi => h _ (by omega)

theorem readLe_shift : (m.shift off).readLe n pos = m.readLe n (off+pos) :=
  readLe_congr fun i _ => by rw [shift_apply,Nat.add_assoc]

theorem slice_shift : (m.shift off).slice pos n = m.slice (off+pos) n :=
  slice_congr fun i _ => by rw [shift_apply,Nat.add_assoc]

theorem readLe_put_of_disjoint (h : pos+n ≤ off ∨ off+bytes.length ≤ pos) :
    (m.put off bytes).readLe n pos = m.readLe n pos := by
  refine readLe_congr fun i hi => ?_
  rcases h with h | h
  · exact put_of_lt (by omega)
  · exact put_of_ge (by omega)

theorem readLe_put_leBytes (h : pos+n ≤ off ∨ off+k ≤ pos) :
    (m.put off (leBytes k value)).readLe n pos = m.readLe n pos :=
  readLe_put_of_disjoint (by rwa [length_leBytes])

theorem slice_put_of_disjoint (h : pos+n ≤ off ∨ off+bytes.length ≤ pos) :
    (m.put off bytes).slice pos n = m.slice pos n := by
  refine slice_congr fun i hi => ?_
  rcases h with h | h
  · exact put_of_lt (by omega)
  · exact put_of_ge (by omega)

theorem slice_put_self (hn : bytes.length = n) : (m.put off bytes).slice off n = bytes := by
  subst hn
  refine List.ext_getElem (by simp) fun i h1 h2 => ?_
  simp only [slice,List.getElem_map,List.getElem_range]
  rw [put_of_mem (by omega) (by omega),Nat.add_sub_cancel_left]
  simp [h2]

theorem getD_slice (h : i < n) : (m.slice off n).getD i 0 = m (off+i) := by simp [slice,h]

theorem slice_eq_iff : m.slice off n = m'.slice pos n ↔ ∀ i, i < n → m (off+i) = m' (pos+i) := by
  simp only [slice,List.map_inj_left,List.mem_range]

theorem readLe_put_self : (m.put off (leBytes n value)).readLe n off = value%256^n := by
  suffices h : ∀ (m : Mem) (value off : ℕ), (∀ i, i < n → m (off+i) = (leBytes n value).getD i 0) →
        m.readLe n off = value%256^n by
    refine h _ _ _ fun i hi => ?_
    rw [put_of_mem (by omega) (by simpa using hi),Nat.add_sub_cancel_left]
  intro m value off
  induction n generalizing value off with
  | zero => intro _; simp [readLe,Nat.mod_one]
  | succ n ih =>
    intro hm
    have hhead := hm 0 (by omega)
    rw [readLe,ih (value/256) (off+1) fun i hi => by
      have := hm (i+1) (by omega)
      rw [Nat.add_assoc,Nat.add_comm 1 i,this]
      rfl]
    simp only [Nat.add_zero,leBytes,List.getD_cons_zero] at hhead
    rw [hhead,Nat.pow_succ,Nat.mul_comm (256^n) 256,Nat.mod_mul]
    simp

theorem readLe_put_self_of_lt (h : value < 256^n) :
    (m.put off (leBytes n value)).readLe n off = value := by
  rw [readLe_put_self,Nat.mod_eq_of_lt h]

@[simp] theorem readLe_zero : zero.readLe n off = 0 := by
  induction n generalizing off with
  | zero => rfl
  | succ n ih => simp [readLe,ih,zero]

theorem slice_add : m.slice off (n+k) = m.slice off n ++ m.slice (off+n) k := by
  simp only [slice,List.range_add,List.map_append,List.map_map]
  congr 1
  refine List.map_congr_left fun i _ => ?_
  simp [Nat.add_assoc]

end Mem

def Buffer (size : ℕ) : Type := Fin size → UInt8

namespace Buffer

/-- The bytes of a buffer; zero past its end. -/
def mem (b : Buffer size) : Mem := fun i => if h : i < size then b ⟨i,h⟩ else 0

/-- The buffer that holds the first bytes of a view. -/
def ofMem (size : ℕ) (m : Mem) : Buffer size := fun i => m i

@[simp] theorem mem_ofMem_of_lt {m : Mem} (h : i < size) : (ofMem size m).mem i = m i :=
  dif_pos h

@[simp] theorem ofMem_mem (b : Buffer size) : ofMem size b.mem = b := by
  funext i
  exact dif_pos i.isLt

theorem ofMem_congr {m m' : Mem} (h : ∀ i, i < size → m i = m' i) :
    ofMem size m = ofMem size m' := by
  funext i
  exact h i i.isLt

theorem ext_mem {b c : Buffer size} (h : ∀ i, i < size → b.mem i = c.mem i) : b = c := by
  rw [← ofMem_mem b,← ofMem_mem c,ofMem_congr h]

theorem readLe_ofMem {m : Mem} (h : off+n ≤ size) :
    (ofMem size m).mem.readLe n off = m.readLe n off :=
  Mem.readLe_congr fun _ _ => mem_ofMem_of_lt (by omega)

theorem slice_ofMem {m : Mem} (h : off+n ≤ size) : (ofMem size m).mem.slice off n = m.slice off n :=
  Mem.slice_congr fun _ _ => mem_ofMem_of_lt (by omega)

/-- Overwrite part of a buffer. -/
def put (b : Buffer size) (offset : ℕ) (bytes : List UInt8) : Buffer size :=
  ofMem size (b.mem.put offset bytes)

def zero : Buffer size := fun _ => 0

end Buffer

end Bytes
