import Mathlib.Data.List.Basic

/-!
# Prefix codes

When no code word is a proper beginning of another, the spelling of a sequence of values is
unique, and a decoder finds it by taking off one code word after another.
-/

/-- Code words for the values of `α` that satisfy `valid`. -/
structure PrefixCode (α β : Type*) where
  valid : α → Prop
  encode : α → List β
  encode_ne_nil : ∀ {a}, valid a → encode a ≠ []
  eq_of_append : ∀ {a b left right}, valid a → valid b →
    encode a ++ left = encode b ++ right → a = b

namespace PrefixCode

open List

variable {α β : Type*} (code : PrefixCode α β) {a : α} {as bs : List α} {word rest : List β} {n : ℕ}

def Spells (as : List α) (word : List β) : Prop :=
  (∀ a ∈ as, code.valid a) ∧ word = as.flatMap code.encode

variable {code}

@[simp] theorem spells_nil_iff : code.Spells [] word ↔ word = [] := by simp [Spells]

theorem spells_cons_iff : code.Spells (a :: as) word ↔
      code.valid a ∧ ∃ rest, word = code.encode a ++ rest ∧ code.Spells as rest := by
  constructor
  · rintro ⟨hvalid,rfl⟩
    rw [forall_mem_cons] at hvalid
    exact ⟨hvalid.1,_,flatMap_cons,hvalid.2,rfl⟩
  · rintro ⟨ha,rest,rfl,has,rfl⟩
    exact ⟨forall_mem_cons.mpr ⟨ha,has⟩,flatMap_cons.symm⟩

theorem Spells.append {word' : List β} (h : code.Spells as word) (h' : code.Spells bs word') :
    code.Spells (as ++ bs) (word ++ word') :=
  ⟨forall_mem_append.mpr ⟨h.1,h'.1⟩,by rw [h.2,h'.2,flatMap_append]⟩

@[simp] theorem spells_empty_iff : code.Spells as [] ↔ as = [] := by
  cases as with
  | nil => simp
  | cons a as =>
    simp only [spells_cons_iff,reduceCtorEq,iff_false]
    rintro ⟨ha,rest,hword,-⟩
    exact code.encode_ne_nil ha (append_eq_nil_iff.mp hword.symm).1

theorem Spells.unique (h : code.Spells as word) (h' : code.Spells bs word) : as = bs := by
  induction as generalizing bs word with
  | nil =>
    rw [spells_nil_iff] at h
    subst h
    exact (spells_empty_iff.mp h').symm
  | cons a as ih =>
    obtain ⟨ha,rest,rfl,hrest⟩ := spells_cons_iff.mp h
    cases bs with
    | nil =>
      rw [spells_nil_iff] at h'
      exact absurd (append_eq_nil_iff.mp h').1 (code.encode_ne_nil ha)
    | cons b bs =>
      obtain ⟨hb,rest',hword,hrest'⟩ := spells_cons_iff.mp h'
      have hab : a = b := code.eq_of_append ha hb hword
      subst hab
      have hsame : rest = rest' := append_cancel_left hword
      subst hsame
      rw [ih hrest hrest']

theorem eq_of_flatMap_eq (has : ∀ a ∈ as, code.valid a) (hbs : ∀ b ∈ bs, code.valid b)
    (h : as.flatMap code.encode = bs.flatMap code.encode) : as = bs :=
  Spells.unique (⟨has,rfl⟩ : code.Spells as _) ⟨hbs,h⟩

variable (code) in
/-- `decode` takes exactly the code words off the front of a word, with their lengths. -/
structure DecodedBy (decode : List β → Option (α × ℕ)) : Prop where
  decode_encode : ∀ {a}, code.valid a → ∀ rest,
    decode (code.encode a ++ rest) = some (a, (code.encode a).length)
  sound : ∀ {word a n}, decode word = some (a, n) →
    code.valid a ∧ code.encode a = word.take n ∧ n ≤ word.length

namespace DecodedBy

variable {decode : List β → Option (α × ℕ)} (d : code.DecodedBy decode)

include d

theorem pos (h : decode word = some (a, n)) : 0 < n := by
  obtain ⟨ha,hencode,-⟩ := d.sound h
  refine Nat.pos_of_ne_zero fun hn => code.encode_ne_nil ha ?_
  rw [hencode,hn,take_zero]

theorem drop_length_lt (h : decode word = some (a, n)) : (word.drop n).length < word.length := by
  have hpos := d.pos h
  obtain ⟨-,-,hle⟩ := d.sound h
  rw [length_drop]
  omega

theorem spells_cons_iff_of_decode {b : α} (h : decode word = some (a, n)) :
    code.Spells (b :: as) word ↔ b = a ∧ code.Spells as (word.drop n) := by
  obtain ⟨ha,hencode,hle⟩ := d.sound h
  have hsplit : word = code.encode a ++ word.drop n := by rw [hencode,take_append_drop]
  rw [spells_cons_iff]
  constructor
  · rintro ⟨hb,rest,hword,hrest⟩
    have hba : b = a := code.eq_of_append hb ha (hword.symm.trans hsplit)
    subst hba
    have hsame : rest = word.drop n := append_cancel_left (hword.symm.trans hsplit)
    exact ⟨rfl,hsame ▸ hrest⟩
  · rintro ⟨rfl,hrest⟩
    exact ⟨ha,_,hsplit,hrest⟩

theorem not_spells_cons_of_decode (h : decode word = none) : ¬code.Spells (a :: as) word := by
  rw [spells_cons_iff]
  rintro ⟨ha,rest,rfl,-⟩
  rw [d.decode_encode ha] at h
  cases h

end DecodedBy

end PrefixCode
