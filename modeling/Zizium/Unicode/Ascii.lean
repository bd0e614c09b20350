import Zizium.Unicode.Codec

/-!
# ASCII bytes in UTF-8 texts

A byte below `0x80` is never part of a longer encoding, so a valid text can be cut at such a byte.
-/

namespace Zizium

open BlockIO List

variable {byte : UInt8} {scalar : ℕ} {left right text kept : List UInt8}

theorem utf8Bytes_ascii (h : byte.toNat < 0x80) :
    ziUnicodeIsScalar byte.toNat ∧ utf8Bytes byte.toNat = [byte] :=
  ⟨ziUnicodeIsScalar_iff.mpr (by omega),
    (utf8Form_utf8Bytes (by omega)).unique (.one h rfl)⟩

theorem utf8Bytes_eq_of_mem (hscalar : ziUnicodeIsScalar scalar) (hmem : byte ∈ utf8Bytes scalar)
    (h : byte.toNat < 0x80) : utf8Bytes scalar = [byte] := by
  have hform := utf8Form_utf8Bytes (ziUnicodeIsScalar_iff.mp hscalar).1
  generalize utf8Bytes scalar = bytes at hmem hform
  cases hform with
  | one h0 hb0 => rw [mem_singleton.mp hmem]
  | two h0 h1 hb0 hb1 =>
    simp only [mem_cons,not_mem_nil,or_false,← UInt8.toNat_inj] at hmem
    omega
  | three h0 h1 hb0 hb1 hb2 =>
    simp only [mem_cons,not_mem_nil,or_false,← UInt8.toNat_inj] at hmem
    omega
  | four h0 h1 hb0 hb1 hb2 hb3 =>
    simp only [mem_cons,not_mem_nil,or_false,← UInt8.toNat_inj] at hmem
    omega

theorem spells_cut {scalars : List ℕ} (h : byte.toNat < 0x80)
    (hspells : utf8Code.Spells scalars (left ++ byte :: right)) :
    (∃ before, utf8Code.Spells before left) ∧ ∃ after, utf8Code.Spells after right := by
  -- along the scalars: the first one ends within `left`, or it is the byte itself
  induction scalars generalizing left with
  | nil => simp at hspells
  | cons scalar scalars ih =>
    obtain ⟨hscalar,rest,hword,hrest⟩ := PrefixCode.spells_cons_iff.mp hspells
    rcases append_eq_append_iff.mp hword with ⟨inner,hencode,hinner⟩ | ⟨inner,rfl,rfl⟩
    · cases inner with
      | nil =>
        rw [append_nil] at hencode
        subst hinner
        obtain ⟨⟨before,hbefore⟩,hafter⟩ := @ih [] hrest
        refine ⟨⟨[scalar],PrefixCode.spells_cons_iff.mpr ⟨hscalar,[],?_,?_⟩⟩,hafter⟩
        · rw [append_nil,hencode]
        · simp
      | cons first inner =>
        obtain ⟨rfl,rfl⟩ := hinner
        have hsingle : left ++ byte :: inner = [byte] :=
          hencode.symm.trans (utf8Bytes_eq_of_mem hscalar (by
            change byte ∈ utf8Code.encode scalar
            rw [hencode]
            simp) h)
        cases left with
        | nil =>
          obtain ⟨-,rfl⟩ := hsingle
          exact ⟨⟨[],by simp⟩,scalars,hrest⟩
        | cons first left => simp at hsingle
    · obtain ⟨⟨before,hbefore⟩,hafter⟩ := ih hrest
      exact ⟨⟨scalar :: before,PrefixCode.spells_cons_iff.mpr ⟨hscalar,_,rfl,hbefore⟩⟩,hafter⟩

@[simp] theorem ziUtf8Validate_nil : ziUtf8Validate [] = .ok () := rfl

theorem ziUtf8Validate_append (hleft : ziUtf8Validate left = .ok ())
    (hright : ziUtf8Validate right = .ok ()) : ziUtf8Validate (left ++ right) = .ok () := by
  obtain ⟨before,hbefore⟩ := ziUtf8Validate_ok_iff.mp hleft
  obtain ⟨after,hafter⟩ := ziUtf8Validate_ok_iff.mp hright
  exact ziUtf8Validate_ok_iff.mpr ⟨before ++ after,hbefore.append hafter⟩

theorem ziUtf8Validate_ascii (h : byte.toNat < 0x80) : ziUtf8Validate [byte] = .ok () := by
  obtain ⟨hscalar,hbytes⟩ := utf8Bytes_ascii h
  exact ziUtf8Validate_ok_iff.mpr
    ⟨[byte.toNat],PrefixCode.spells_cons_iff.mpr ⟨hscalar,[],by simp [utf8Code,hbytes],by simp⟩⟩

theorem ziUtf8Validate_cut_iff (h : byte.toNat < 0x80) :
    ziUtf8Validate (left ++ byte :: right) = .ok () ↔
      ziUtf8Validate left = .ok () ∧ ziUtf8Validate right = .ok () := by
  constructor
  · intro hvalid
    obtain ⟨scalars,hspells⟩ := ziUtf8Validate_ok_iff.mp hvalid
    obtain ⟨hleft,hright⟩ := spells_cut h hspells
    exact ⟨ziUtf8Validate_ok_iff.mpr hleft,ziUtf8Validate_ok_iff.mpr hright⟩
  · rintro ⟨hleft,hright⟩
    exact ziUtf8Validate_append hleft (ziUtf8Validate_append (ziUtf8Validate_ascii h) hright)

theorem ziUtf8Validate_cons_iff (h : byte.toNat < 0x80) :
    ziUtf8Validate (byte :: text) = .ok () ↔ ziUtf8Validate text = .ok () := by
  have hcut : ziUtf8Validate ([] ++ byte :: text) = .ok () ↔ _ := ziUtf8Validate_cut_iff h
  simpa using hcut

inductive DeletesAscii : List UInt8 → List UInt8 → Prop
  | nil : DeletesAscii [] []
  | keep {byte : UInt8} {text kept : List UInt8} : DeletesAscii text kept →
      DeletesAscii (byte :: text) (byte :: kept)
  | delete {byte : UInt8} {text kept : List UInt8} : byte.toNat < 0x80 →
      DeletesAscii text kept → DeletesAscii (byte :: text) kept

namespace DeletesAscii

theorem of_append (h : DeletesAscii (left ++ right) kept) :
    ∃ left' right', kept = left' ++ right' ∧ DeletesAscii left left' ∧
      DeletesAscii right right' := by
  induction left generalizing kept with
  | nil => exact ⟨[],kept,rfl,.nil,h⟩
  | cons byte left ih =>
    cases h with
    | keep h =>
      obtain ⟨left',right',rfl,hleft,hright⟩ := ih h
      exact ⟨byte :: left',right',rfl,.keep hleft,hright⟩
    | delete hascii h =>
      obtain ⟨left',right',rfl,hleft,hright⟩ := ih h
      exact ⟨left',right',rfl,.delete hascii hleft,hright⟩

theorem eq_of_forall (h : DeletesAscii text kept) (hall : ∀ byte ∈ text, ¬byte.toNat < 0x80) :
    kept = text := by
  induction h with
  | nil => rfl
  | keep _ ih => rw [ih fun byte hbyte => hall byte (mem_cons_of_mem _ hbyte)]
  | delete hascii _ _ => exact absurd hascii (hall _ mem_cons_self)

theorem of_utf8Bytes (hscalar : ziUnicodeIsScalar scalar)
    (h : DeletesAscii (utf8Bytes scalar) kept) : kept = utf8Bytes scalar ∨ kept = [] := by
  by_cases hascii : ∃ byte ∈ utf8Bytes scalar, byte.toNat < 0x80
  · obtain ⟨byte,hmem,hbyte⟩ := hascii
    rw [utf8Bytes_eq_of_mem hscalar hmem hbyte] at h ⊢
    cases h with
    | keep h => cases h; exact .inl rfl
    | delete _ h => cases h; exact .inr rfl
  · exact .inl (h.eq_of_forall fun byte hmem hbyte => hascii ⟨byte,hmem,hbyte⟩)

theorem valid (h : DeletesAscii text kept) (hvalid : ziUtf8Validate text = .ok ()) :
    ziUtf8Validate kept = .ok () := by
  obtain ⟨scalars,hspells⟩ := ziUtf8Validate_ok_iff.mp hvalid
  clear hvalid
  induction scalars generalizing text kept with
  | nil =>
    rw [PrefixCode.spells_nil_iff.mp hspells] at h
    cases h
    rfl
  | cons scalar scalars ih =>
    obtain ⟨hscalar,rest,rfl,hrest⟩ := PrefixCode.spells_cons_iff.mp hspells
    obtain ⟨first,kept,rfl,hfirst,hkept⟩ := h.of_append
    refine ziUtf8Validate_append ?_ (ih hkept hrest)
    rcases of_utf8Bytes hscalar hfirst with rfl | rfl
    · exact ziUtf8Validate_ok_iff.mpr
        ⟨[scalar],PrefixCode.spells_cons_iff.mpr ⟨hscalar,[],by simp [utf8Code],by simp⟩⟩
    · rfl

end DeletesAscii

end Zizium
