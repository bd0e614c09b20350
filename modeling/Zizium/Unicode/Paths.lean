import Zizium.Unicode.Ascii

/-!
# The grammar of absolute paths

`zi_path_parse_absolute` accepts exactly the strings that are a drive prefix followed by
components joined by separators.
-/

namespace Zizium

open BlockIO List Except

/-- A name between separators. -/
structure IsPathComponent (component : List UInt8) : Prop where
  ne_nil : component ≠ []
  ne_dot : component ≠ [dotByte]
  ne_dotDot : component ≠ [dotByte,dotByte]
  valid : ziUtf8Validate component = .ok ()
  ne_zero : 0 ∉ component
  ne_slash : slashByte ∉ component
  ne_separator : backslashByte ∉ component

def joinComponents (components : List (List UInt8)) : List UInt8 :=
  [backslashByte].intercalate components

def joinPath (drive : UInt8) (components : List (List UInt8)) : List UInt8 :=
  drive :: colonByte :: backslashByte :: joinComponents components

structure IsAbsolutePath (path : List UInt8) (drive : UInt8) (components : List (List UInt8)) :
    Prop where
  letter : isAsciiLetter drive
  each : ∀ component ∈ components, IsPathComponent component
  joined : path = joinPath drive components

variable {cap count : ℕ} {comps : List (List UInt8)} {comp rest : List UInt8}

@[simp] theorem joinComponents_nil : joinComponents [] = [] := intercalate_nil

@[simp] theorem joinComponents_singleton : joinComponents [comp] = comp :=
  intercalate_singleton

theorem joinComponents_cons (h : comps ≠ []) : joinComponents (comp :: comps) =
      comp ++ backslashByte :: joinComponents comps := by
  rw [joinComponents,intercalate_cons_of_ne_nil h,append_assoc]
  rfl

theorem eq_of_joinComponents_eq {components' : List (List UInt8)} (hne : comps ≠ [])
    (hne' : components' ≠ []) (h : ∀ c ∈ comps, backslashByte ∉ c)
    (h' : ∀ c ∈ components', backslashByte ∉ c)
    (heq : joinComponents comps = joinComponents components') : comps = components' := by
  rw [← splitOn_intercalate backslashByte h hne,← splitOn_intercalate backslashByte h' hne']
  exact congrArg (splitOn backslashByte) heq

theorem mem_joinComponents_iff {byte : UInt8} (hbyte : byte ≠ backslashByte) :
    byte ∈ joinComponents comps ↔ ∃ comp ∈ comps, byte ∈ comp := by
  induction comps with
  | nil => simp
  | cons comp comps ih =>
    by_cases hnil : comps = []
    · simp [hnil]
    · rw [joinComponents_cons hnil]
      simp [ih,hbyte]

theorem ziUtf8Validate_joinComponents_iff : ziUtf8Validate (joinComponents comps) = .ok () ↔
      ∀ comp ∈ comps, ziUtf8Validate comp = .ok () := by
  induction comps with
  | nil => simp
  | cons comp comps ih =>
    by_cases hnil : comps = []
    · simp [hnil]
    · rw [joinComponents_cons hnil,ziUtf8Validate_cut_iff (by decide),ih, forall_mem_cons]

theorem append_separator_inj {left left' right right' : List UInt8} (hleft : backslashByte ∉ left)
    (hleft' : backslashByte ∉ left') :
    left ++ backslashByte :: right = left' ++ backslashByte :: right' ↔
      left = left' ∧ right = right' := by
  constructor
  · intro h
    rcases append_eq_append_iff.mp h with ⟨inner,rfl,h⟩ | ⟨inner,rfl,h⟩ <;>
      cases inner <;> simp_all
  · rintro ⟨rfl,rfl⟩
    rfl

theorem joinComponents_ne_nil (hne : comps ≠ []) (h : ∀ c ∈ comps, c ≠ []) :
    joinComponents comps ≠ [] := by
  obtain ⟨comp,rest,rfl⟩ := exists_cons_of_ne_nil hne
  by_cases hrest : rest = []
  · simpa [hrest] using h
  · rw [joinComponents_cons hrest]
    simp

/-! ### The component scan -/

def IsScanned (component : List UInt8) : Prop :=
  component ≠ [] ∧ isDotComponent component = false ∧ backslashByte ∉ component

theorem pathComponentLoop_ok_iff {start : List UInt8} {first : Bool}
    (hstart : backslashByte ∉ start) : pathComponentLoop cap rest start first count = .ok comps ↔
      (first = true ∧ start = [] ∧ rest = [] ∧ comps = []) ∨
      (comps ≠ [] ∧ (∀ comp ∈ comps, IsScanned comp) ∧
        start ++ rest = joinComponents comps ∧ count+comps.length ≤ cap) := by
  -- `start ++ rest` is the text from the beginning of the current comp on
  induction rest generalizing start first count comps with
  | nil =>
    rw [pathComponentLoop,append_nil]
    by_cases hempty : start = []
    · have hnever : ¬(comps ≠ [] ∧ (∀ comp ∈ comps, IsScanned comp) ∧
          start = joinComponents comps ∧ count+comps.length ≤ cap) := by
        rintro ⟨hne,hscanned,hjoin,-⟩
        exact joinComponents_ne_nil hne (fun c hc => (hscanned c hc).1) (hjoin ▸ hempty)
      rw [or_iff_left hnever]
      cases first <;> simp [hempty,pure_ok_iff]
    · rw [if_neg (by simpa using hempty),failIf_bind_ok_iff,failIf_bind_ok_iff, pure_ok_iff]
      constructor
      · rintro ⟨hdot,hcap,rfl⟩
        refine .inr ⟨by simp,?_,by simp,by simp; omega⟩
        simpa using ⟨hempty,by simpa using hdot,hstart⟩
      · rintro (⟨-,hnil,-⟩ | ⟨hne,hscanned,hjoin,hcount⟩)
        · exact absurd hnil hempty
        · have hsingle : comps = [start] :=
            eq_of_joinComponents_eq hne (by simp) (fun c hc => (hscanned c hc).2.2)
              (by simpa using hstart) (by simpa using hjoin.symm)
          subst hsingle
          have hdot := (hscanned start (by simp)).2.1
          exact ⟨by simp [hdot],by simp at hcount; omega,rfl⟩
  | cons byte rest ih =>
    rw [pathComponentLoop]
    by_cases hbyte : byte ≠ backslashByte
    · have hstart' : backslashByte ∉ start ++ [byte] := by simpa using ⟨hstart,hbyte.symm⟩
      rw [if_pos hbyte,ih hstart']
      simp
    · obtain rfl : byte = backslashByte := not_not.mp hbyte
      rw [if_neg hbyte,failIf_bind_ok_iff,failIf_bind_ok_iff,failIf_bind_ok_iff,bind_ok_iff]
      simp only [pure_ok_iff,ih (not_mem_nil),Bool.false_eq_true,false_and,
        false_or,nil_append,reduceCtorEq,and_false]
      constructor
      · rintro ⟨hempty,hdot,hcap,comps,⟨hne,hscanned,rfl,hcount⟩,rfl⟩
        refine ⟨by simp,?_,(joinComponents_cons hne).symm,by simp; omega⟩
        rw [forall_mem_cons]
        exact ⟨⟨by simpa using hempty,by simpa using hdot,hstart⟩,hscanned⟩
      · rintro ⟨hne,hscanned,hjoin,hcount⟩
        obtain ⟨comp,comps,rfl⟩ := exists_cons_of_ne_nil hne
        rw [forall_mem_cons] at hscanned
        obtain ⟨⟨hcomp,hdot,hseparator⟩,hscanned⟩ := hscanned
        by_cases hlast : comps = []
        · subst hlast
          rw [joinComponents_singleton] at hjoin
          exact absurd (by simp [← hjoin]) hseparator
        · rw [joinComponents_cons hlast,append_separator_inj hstart hseparator] at hjoin
          obtain ⟨rfl,rfl⟩ := hjoin
          rw [length_cons] at hcount
          exact ⟨by simpa using hcomp,by simp [hdot],by omega,comps,
            ⟨hlast,hscanned,rfl,by omega⟩,rfl⟩

theorem isDotComponent_eq_false_iff :
    isDotComponent comp = false ↔ comp ≠ [dotByte] ∧ comp ≠ [dotByte,dotByte] := by
  simp [isDotComponent]

theorem toNat_of_isAsciiLetter {character : UInt8} (h : isAsciiLetter character) :
    character.toNat < 0x80 := by
  simp only [isAsciiLetter,Bool.or_eq_true,Bool.and_eq_true,decide_eq_true_eq,
    UInt8.le_iff_toNat_le,UInt8.reduceToNat] at h
  omega

theorem isPathComponent_iff : IsPathComponent comp ↔ IsScanned comp ∧ ziUtf8Validate comp = .ok () ∧
        ∀ byte ∈ comp, ¬(byte = 0 ∨ byte = slashByte) := by
  constructor
  · intro h
    refine ⟨⟨h.ne_nil,isDotComponent_eq_false_iff.mpr ⟨h.ne_dot,h.ne_dotDot⟩,h.ne_separator⟩,
      h.valid,?_⟩
    rintro byte hbyte (rfl | rfl)
    · exact h.ne_zero hbyte
    · exact h.ne_slash hbyte
  · rintro ⟨⟨hnil,hdot,hseparator⟩,hvalid,hbytes⟩
    obtain ⟨hdot,hdotDot⟩ := isDotComponent_eq_false_iff.mp hdot
    exact ⟨hnil,hdot,hdotDot,hvalid,fun h => hbytes 0 h (.inl rfl),
      fun h => hbytes _ h (.inr rfl),hseparator⟩

theorem pathComponentLoop_start_iff : pathComponentLoop cap rest [] true 0 = .ok comps ↔
      (∀ comp ∈ comps, IsScanned comp) ∧ rest = joinComponents comps ∧ comps.length ≤ cap := by
  rw [pathComponentLoop_ok_iff not_mem_nil,nil_append,Nat.zero_add]
  by_cases hnil : comps = []
  · simp [hnil]
  · simp [hnil]

theorem checks_joinPath_iff {drive : UInt8} (hletter : isAsciiLetter drive) :
    (ziUtf8Validate (joinPath drive comps) = .ok () ∧
        ¬∃ byte ∈ joinPath drive comps, byte = 0 ∨ byte = slashByte) ↔
      ∀ comp ∈ comps, ziUtf8Validate comp = .ok () ∧
        ∀ byte ∈ comp, ¬(byte = 0 ∨ byte = slashByte) := by
  have hdrive := toNat_of_isAsciiLetter hletter
  have hplain : ¬(drive = 0 ∨ drive = slashByte) := by
    rintro (rfl | rfl) <;> exact absurd hletter (by decide)
  rw [joinPath,ziUtf8Validate_cons_iff hdrive,ziUtf8Validate_cons_iff (by decide),
    ziUtf8Validate_cons_iff (by decide),ziUtf8Validate_joinComponents_iff]
  have hbytes : (¬∃ byte ∈ drive :: colonByte :: backslashByte :: joinComponents comps,
      byte = 0 ∨ byte = slashByte) ↔
      ∀ comp ∈ comps, ∀ byte ∈ comp, ¬(byte = 0 ∨ byte = slashByte) := by
    constructor
    · intro h comp hmem byte hbyte hbad
      have hne : byte ≠ backslashByte := by
        rintro rfl
        exact absurd hbad (by decide)
      have hjoin := (mem_joinComponents_iff hne).mpr ⟨comp,hmem,hbyte⟩
      exact h ⟨byte,by simp [hjoin],hbad⟩
    · rintro h ⟨byte,hbyte,hbad⟩
      simp only [mem_cons] at hbyte
      rcases hbyte with rfl | rfl | rfl | hjoin
      · exact hplain hbad
      · exact absurd hbad (by decide)
      · exact absurd hbad (by decide)
      · have hne : byte ≠ backslashByte := by
          rintro rfl
          exact absurd hbad (by decide)
        obtain ⟨comp,hmem,hbyte⟩ := (mem_joinComponents_iff hne).mp hjoin
        exact h comp hmem byte hbyte hbad
  rw [hbytes,← forall₂_and]

theorem ziPathParseAbsolute_ok_iff {path : List UInt8} {parsed : ZiParsedPath} :
    ziPathParseAbsolute path cap = .ok parsed ↔
      IsAbsolutePath path parsed.driveLetter parsed.components ∧
        parsed.components.length ≤ cap := by
  rw [ziPathParseAbsolute,failIf_bind_ok_iff,failIf_bind_ok_iff,
    unit_bind_ok_iff,failIf_bind_ok_iff,bind_ok_iff]
  simp only [pure_ok_iff,pathComponentLoop_start_iff]
  constructor
  · rintro ⟨hsize,hroot,hvalid,hbytes,comps,⟨hscanned,hrest,hcap⟩,rfl⟩
    rcases path with _ | ⟨drive,_ | ⟨colon,_ | ⟨separator,rest⟩⟩⟩ <;>
      simp only [length_cons,length_nil] at hsize <;> try omega
    simp only [getD_cons_zero,getD_cons_succ,not_or,not_not] at hroot
    obtain ⟨hletter,rfl,rfl⟩ := hroot
    obtain rfl : rest = joinComponents comps := hrest
    have hchecks := (checks_joinPath_iff hletter).mp ⟨hvalid,hbytes⟩
    exact ⟨⟨hletter,fun c hc => isPathComponent_iff.mpr ⟨hscanned c hc,hchecks c hc⟩,rfl⟩,hcap⟩
  · rintro ⟨⟨hletter,heach,rfl⟩,hcap⟩
    have heach' := fun c hc => isPathComponent_iff.mp (heach c hc)
    obtain ⟨hvalid,hbytes⟩ :=
      (checks_joinPath_iff hletter).mpr fun c hc => (heach' c hc).2
    exact ⟨by simp [joinPath],by simp [joinPath,hletter],hvalid,hbytes,parsed.components,
      ⟨fun c hc => (heach' c hc).1,rfl,hcap⟩,rfl⟩

theorem path_parse_exact (path : List UInt8) (cap : ℕ) :
    ((∃ parsed, ziPathParseAbsolute path cap = .ok parsed) ↔
      ∃ drive comps, IsAbsolutePath path drive comps ∧ comps.length ≤ cap) ∧
    ∀ parsed, ziPathParseAbsolute path cap = .ok parsed →
      joinPath parsed.driveLetter parsed.components = path ∧
      ziPathParseAbsolute (joinPath parsed.driveLetter parsed.components) cap = .ok parsed := by
  constructor
  · constructor
    · rintro ⟨parsed,hparsed⟩
      exact ⟨_,_,ziPathParseAbsolute_ok_iff.mp hparsed⟩
    · rintro ⟨drive,comps,h⟩
      exact ⟨⟨drive,comps⟩,ziPathParseAbsolute_ok_iff.mpr h⟩
  · intro parsed hparsed
    have hjoin := (ziPathParseAbsolute_ok_iff.mp hparsed).1.joined
    rw [← hjoin]
    exact ⟨rfl,hparsed⟩

end Zizium
