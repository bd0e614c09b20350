import Zizium.Bytes

/-!
# Terminated strings in memory

Byte strings that end in a zero byte, and tables of pointers to such strings.
-/

namespace Bytes.Mem

open List

variable {m m' : Mem} {p : UInt8 → Bool} {limit address base table first : ℕ} {text : List UInt8}
  {texts : List (List UInt8)}

/-- The number of bytes before the first one that `p` picks, at most `limit`. -/
def scan (m : Mem) (p : UInt8 → Bool) : (limit address : ℕ) → ℕ
  | 0, _ => 0
  | limit+1, address => if p (m address) then 0 else scan m p limit (address+1)+1

theorem slice_succ (n : ℕ) : m.slice address (n+1) = m address :: m.slice (address+1) n := by
  rw [Nat.add_comm n 1,slice_add]
  rfl

theorem scan_eq_findIdx (limit address : ℕ) :
    m.scan p limit address = (m.slice address limit).findIdx p := by
  induction limit generalizing address with
  | zero => rfl
  | succ limit ih =>
    rw [scan,slice_succ,findIdx_cons,ih]
    cases p (m address) <;> rfl

theorem readLe_eq_zero {n : ℕ} (h : ∀ i < n, m (address+i) = 0) : m.readLe n address = 0 := by
  have hsame : m.readLe n address = zero.readLe n address := readLe_congr fun i hi => h i hi
  rw [hsame,readLe_zero]

/-- The string stands at the address, followed by its terminator. -/
def HoldsString (m : Mem) (address : ℕ) (text : List UInt8) : Prop :=
  m.slice address (text.length+1) = text ++ [0]

namespace HoldsString

section

variable (h : m.HoldsString address text)

include h

theorem slice_eq : m.slice address text.length = text := by
  rw [HoldsString,slice_add] at h
  exact (append_inj h (by simp)).1

theorem slice_take {n : ℕ} (hn : n ≤ text.length) : m.slice address n = text.take n := by
  have hall := h.slice_eq
  rw [show text.length = n+(text.length-n) by omega,slice_add] at hall
  rw [← hall,take_left' (by simp)]

theorem congr (hsame : ∀ i, address ≤ i → i < address+text.length+1 → m' i = m i) :
    m'.HoldsString address text := by
  rw [HoldsString,← h]
  exact slice_congr fun i hi => hsame _ (by omega) (by omega)

theorem drop {n : ℕ} (hn : n ≤ text.length) : m.HoldsString (address+n) (text.drop n) := by
  rw [HoldsString] at h ⊢
  rw [show text.length+1 = n+((text.drop n).length+1) by simp; omega,slice_add] at h
  have hsplit : text ++ [0] = text.take n ++ (text.drop n ++ [0]) := by
    rw [← append_assoc,take_append_drop]
  rw [hsplit] at h
  exact (append_inj h (by simp [hn])).2

omit h in
theorem put (m : Mem) (address : ℕ) (text : List UInt8) :
    ((m.put address text).put (address+text.length) [0]).HoldsString address text := by
  rw [HoldsString,slice_add,slice_put_of_disjoint (by omega),slice_put_self rfl,
    slice_put_self (n := 1) rfl]

theorem scan_zero (hzero : 0 ∉ text) : m.scan (· == 0) limit address = min text.length limit := by
  have hnone : ∀ b ∈ text, (b == 0) = false := by
    intro b hb
    rw [beq_eq_false_iff_ne]
    exact fun heq => hzero (heq ▸ hb)
  rw [scan_eq_findIdx]
  by_cases hlimit : limit ≤ text.length
  · rw [Nat.min_eq_right hlimit]
    rw [h.slice_take hlimit,findIdx_eq_length_of_false fun b hb => hnone b (mem_of_mem_take hb),
      length_take,Nat.min_eq_left hlimit]
  · rw [Nat.min_eq_left (by omega)]
    rw [show limit = text.length+1+(limit-text.length-1) by omega,slice_add,h,
      append_assoc,findIdx_append,findIdx_eq_length_of_false hnone,
      if_neg (by omega)]
    simp [findIdx_cons]

theorem scan_within : m.scan p text.length address = text.findIdx p := by
  rw [scan_eq_findIdx,h.slice_eq]

end

end HoldsString

/-- The bytes of strings that stand one behind the other, with their terminators. -/
def stringsSize (texts : List (List UInt8)) : ℕ := (texts.map fun text => text.length+1).sum

@[simp] theorem stringsSize_nil : stringsSize [] = 0 := rfl

@[simp] theorem stringsSize_cons (text : List UInt8) (texts : List (List UInt8)) :
    stringsSize (text :: texts) = text.length+1+stringsSize texts := by
  simp [stringsSize]

@[simp] theorem stringsSize_append (texts texts' : List (List UInt8)) :
    stringsSize (texts ++ texts') = stringsSize texts+stringsSize texts' := by
  simp [stringsSize]

/-- The pointers of a table lead, in order, to strings that stand one behind the other.  A pointer
is an offset of the memory counted from `base`. -/
def HoldsStrings (m : Mem) (base : ℕ) : (table first : ℕ) → List (List UInt8) → Prop
  | _, _, [] => True
  | table, first, text :: texts =>
    m.readLe 8 table = base+first ∧ m.HoldsString first text ∧
      HoldsStrings m base (table+8) (first+text.length+1) texts

namespace HoldsStrings

theorem congr (h : m.HoldsStrings base table first texts)
    (htable : ∀ i, table ≤ i → i < table+texts.length*8 → m' i = m i)
    (hstrings : ∀ i, first ≤ i → i < first+stringsSize texts → m' i = m i) :
    m'.HoldsStrings base table first texts := by
  induction texts generalizing table first with
  | nil => trivial
  | cons text texts ih =>
    obtain ⟨hpointer,hstring,hrest⟩ := h
    rw [length_cons] at htable
    rw [stringsSize_cons] at hstrings
    refine ⟨?_,hstring.congr fun i h1 h2 => hstrings i h1 (by omega),
      ih hrest (fun i h1 h2 => htable i (by omega) (by omega))
        fun i h1 h2 => hstrings i (by omega) (by omega)⟩
    rw [← hpointer]
    exact readLe_congr fun i hi => htable _ (by omega) (by omega)

theorem of_shift (h : (m.shift base).HoldsStrings base table first texts) :
    m.HoldsStrings 0 (base+table) (base+first) texts := by
  induction texts generalizing table first with
  | nil => trivial
  | cons text texts ih =>
    obtain ⟨hpointer,hstring,hrest⟩ := h
    rw [readLe_shift] at hpointer
    rw [HoldsString,slice_shift] at hstring
    refine ⟨by omega,hstring,?_⟩
    have htail := ih hrest
    rwa [← Nat.add_assoc,← Nat.add_assoc,← Nat.add_assoc] at htail

end HoldsStrings

end Bytes.Mem
