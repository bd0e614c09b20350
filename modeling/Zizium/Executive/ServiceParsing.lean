import Zizium.Executive.ServiceManifest
import Zizium.Unicode.Ascii
import Mathlib.Data.List.Nodup
import Mathlib.Data.List.Perm.Basic

/-!
# What a service manifest says

What the parser of `kernel/executive/service/manifest.c` accepts, and the manifest it returns,
depend only on the assignments among the lines.
-/

namespace Zizium

open BlockIO List Except

variable {cap rounds maximum : ℕ}

/-! ### Texts as lists of lines -/

/-- A line that ends in a line feed, with or without a carriage return before it. -/
structure ManifestLine where
  content : List UInt8
  carriageReturn : Bool

def ManifestLine.ending (line : ManifestLine) : List UInt8 :=
  if line.carriageReturn then [carriageReturnByte,lineFeedByte] else [lineFeedByte]

/-- Terminated lines and what follows the last of them. -/
structure ManifestText where
  lines : List ManifestLine
  last : List UInt8
  plain : ∀ content ∈ lines.map (·.content) ++ [last], content.all isLineByte = true

namespace ManifestText

variable (text : ManifestText)

def contents : List (List UInt8) := text.lines.map (·.content) ++ [text.last]

def bytes : List UInt8 := text.lines.flatMap (fun line => line.content ++ line.ending) ++ text.last

/-- Neither empty nor a comment. -/
def isAssignment (line : List UInt8) : Bool := !decide (line.length = 0 ∨ line.getD 0 0 = hashByte)

def assignments : List (List UInt8) := text.contents.filter isAssignment

end ManifestText

/-- What the parser asks of every line: strict UTF-8 without NUL. -/
def IsText (line : List UInt8) : Prop := ziUtf8Validate line = .ok () ∧ 0 ∉ line

theorem isText_append_ending_iff {line : ManifestLine} {rest : List UInt8} :
    IsText (line.content ++ line.ending ++ rest) ↔ IsText line.content ∧ IsText rest := by
  unfold IsText ManifestLine.ending
  cases line.carriageReturn with
  | false =>
    rw [if_neg Bool.false_ne_true,append_assoc,singleton_append,ziUtf8Validate_cut_iff (by decide)]
    simp [lineFeedByte,and_and_and_comm]
  | true =>
    rw [if_pos rfl,append_assoc,cons_append,singleton_append,
      ziUtf8Validate_cut_iff (by decide),ziUtf8Validate_cons_iff (by decide)]
    simp [lineFeedByte,carriageReturnByte,and_and_and_comm]

theorem ManifestText.isText_bytes_iff (text : ManifestText) :
    IsText text.bytes ↔ ∀ content ∈ text.contents, IsText content := by
  obtain ⟨lines,last,hplain⟩ := text
  simp only [bytes,contents]
  clear hplain
  induction lines with
  | nil => simp
  | cons line lines ih =>
    rw [flatMap_cons,append_assoc,isText_append_ending_iff,ih]
    simp

/-! ### The lines of a text -/

theorem ManifestLine.ending_ne_nil (line : ManifestLine) : line.ending ≠ [] := by
  unfold ending
  cases line.carriageReturn <;> exact cons_ne_nil _ _

theorem ManifestText.assignments_of_bytes_nil (text : ManifestText) (h : text.bytes = []) :
    text.assignments = [] := by
  obtain ⟨lines,last,hplain⟩ := text
  rw [bytes,append_eq_nil_iff] at h
  obtain ⟨hlines,rfl⟩ := h
  cases lines with
  | nil => rfl
  | cons line lines =>
    rw [flatMap_cons,append_eq_nil_iff,append_eq_nil_iff] at hlines
    exact absurd hlines.1.2 line.ending_ne_nil

theorem skipLineEnding_ending (line : ManifestLine) (rest : List UInt8) :
    skipLineEnding (line.ending ++ rest) = .ok rest := by
  unfold ManifestLine.ending
  cases line.carriageReturn <;> rfl

theorem parseManifestLines_nil (cap rounds : ℕ) (progress : ManifestProgress) :
    parseManifestLines cap rounds [] progress = .ok progress := by
  cases rounds <;> rfl

/-- Assign lines that are neither empty nor comments, one after another. -/
def assignLines (capacity : ℕ) (lines : List (List UInt8)) (progress : ManifestProgress) :
    Result ManifestProgress :=
  lines.foldlM (fun progress line => parseAssignment capacity line progress) progress

theorem parseManifestLines_cons {content ending rest : List UInt8} {progress : ManifestProgress}
    (hplain : content.all isLineByte = true) (hne : content ++ ending ≠ [])
    (hending : ending.takeWhile isLineByte = []) (hskip : skipLineEnding ending = .ok rest) :
    parseManifestLines cap (rounds+1) (content ++ ending) progress =
      assignLines cap ([content].filter ManifestText.isAssignment) progress >>=
        parseManifestLines cap rounds rest := by
  have hall : ∀ byte ∈ content, isLineByte byte = true := all_eq_true.mp hplain
  have hdrop : ending.dropWhile isLineByte = ending := by
    have hsplit : ending.takeWhile isLineByte ++ ending.dropWhile isLineByte = ending :=
      takeWhile_append_dropWhile
    rwa [hending,nil_append] at hsplit
  rw [parseManifestLines,if_neg (by simpa using hne),takeWhile_append_of_pos hall,
    dropWhile_append_of_pos hall,hending,hdrop,append_nil,hskip,ok_bind]
  by_cases hskipped : content.length = 0 ∨ content.getD 0 0 = hashByte
  · have hfilter : [content].filter ManifestText.isAssignment = [] := by
      simp only [filter_cons,ManifestText.isAssignment,hskipped,decide_true,Bool.not_true,
        Bool.false_eq_true,if_false,filter_nil]
    rw [if_pos hskipped,hfilter]
    rfl
  · have hfilter : [content].filter ManifestText.isAssignment = [content] := by
      simp only [filter_cons,ManifestText.isAssignment,hskipped,decide_false,
        Bool.not_false,if_true,filter_nil]
    rw [if_neg hskipped,hfilter,assignLines,foldlM_cons]
    simp

theorem parseManifestLines_bytes (text : ManifestText) (hrounds : text.bytes.length ≤ rounds)
    (progress : ManifestProgress) :
    parseManifestLines cap rounds text.bytes progress =
      assignLines cap text.assignments progress := by
  obtain ⟨lines,last,hplain⟩ := text
  simp only [ManifestText.bytes,ManifestText.assignments,ManifestText.contents] at hrounds ⊢
  induction lines generalizing rounds progress with
  | nil =>
    rw [flatMap_nil,nil_append] at hrounds ⊢
    rw [map_nil,nil_append]
    by_cases hlast : last = []
    · subst hlast
      rw [parseManifestLines_nil]
      rfl
    · obtain ⟨rounds,rfl⟩ := Nat.exists_eq_add_one_of_ne_zero
        (by have := length_pos_iff.mpr hlast; omega : rounds ≠ 0)
      have hround := @parseManifestLines_cons cap rounds last [] [] progress
        (hplain last (by simp)) (by simpa using hlast) rfl rfl
      rw [append_nil] at hround
      have hend : parseManifestLines cap rounds [] = pure :=
        funext fun progress => parseManifestLines_nil cap rounds progress
      rw [hround,hend,bind_pure]
  | cons line lines ih =>
    have hending : ∀ rest, (line.ending ++ rest).takeWhile isLineByte = [] := by
      unfold ManifestLine.ending
      cases line.carriageReturn <;> exact fun _ => rfl
    rw [flatMap_cons,append_assoc,append_assoc] at hrounds ⊢
    have hlen := length_pos_iff.mpr line.ending_ne_nil
    simp only [length_append] at hrounds ih
    obtain ⟨rounds,rfl⟩ := Nat.exists_eq_add_one_of_ne_zero (by omega : rounds ≠ 0)
    rw [parseManifestLines_cons (hplain _ (by simp)) (by simp [line.ending_ne_nil]) (hending _)
      (skipLineEnding_ending line _)]
    have hsplit : (line.content :: (lines.map (·.content) ++ [last])).filter
        ManifestText.isAssignment = [line.content].filter ManifestText.isAssignment ++
          (lines.map (·.content) ++ [last]).filter ManifestText.isAssignment := by
      rw [← filter_append,singleton_append]
    rw [map_cons,cons_append,hsplit,assignLines,assignLines,foldlM_append]
    refine congrArg _ (funext fun progress' => ?_)
    refine ih progress' (fun content hcontent => hplain content ?_) (by omega)
    exact mem_cons_of_mem _ hcontent

theorem eq_false_of_dropWhile_eq_cons {p : UInt8 → Bool} {data behind : List UInt8} {byte : UInt8}
    (h : data.dropWhile p = byte :: behind) : p byte = false := by
  have hne : data.dropWhile p ≠ [] := by rw [h]; exact cons_ne_nil _ _
  have hhead := head_dropWhile_not p hne
  simpa only [h,head_cons] using hhead

theorem exists_text_nil : ∃ text : ManifestText, text.bytes = [] := ⟨⟨[],[],by simp⟩,rfl⟩

theorem exists_text_cons {content : List UInt8} (line : ManifestLine) (text : ManifestText)
    (hcontent : line.content = content) (hplain : content.all isLineByte = true) :
    ∃ text' : ManifestText, text'.bytes = content ++ (line.ending ++ text.bytes) := by
  refine ⟨⟨line :: text.lines,text.last,forall_mem_cons.mpr ⟨?_,text.plain⟩⟩,?_⟩
  · rwa [← hcontent] at hplain
  · simp only [ManifestText.bytes,flatMap_cons,hcontent,append_assoc]

theorem exists_text_of_parse {data : List UInt8} {progress result : ManifestProgress}
    (hrounds : data.length ≤ rounds)
    (h : parseManifestLines cap rounds data progress = .ok result) :
    ∃ text : ManifestText, text.bytes = data := by
  induction rounds generalizing data progress with
  | zero =>
    obtain rfl : data = [] := eq_nil_of_length_eq_zero (by omega)
    exact exists_text_nil
  | succ rounds ih =>
    rw [parseManifestLines] at h
    split at h
    · next hempty =>
      obtain rfl : data = [] := eq_nil_of_length_eq_zero hempty
      exact exists_text_nil
    · obtain ⟨rest,hskip,h⟩ := bind_ok_iff.mp h
      have hnext : ∃ progress', parseManifestLines cap rounds rest progress' = .ok result := by
        split at h
        · exact ⟨progress,h⟩
        · obtain ⟨progress',-,h⟩ := bind_ok_iff.mp h
          exact ⟨progress',h⟩
      obtain ⟨progress',hnext⟩ := hnext
      have hsplit : data.takeWhile isLineByte ++ data.dropWhile isLineByte = data :=
        takeWhile_append_dropWhile
      have hplain : (data.takeWhile isLineByte).all isLineByte = true := all_takeWhile
      have hlen := congrArg length hsplit
      rw [length_append] at hlen
      generalize data.takeWhile isLineByte = line at hsplit hplain hlen
      cases hbehind : data.dropWhile isLineByte with
      | nil =>
        rw [hbehind,append_nil] at hsplit
        subst hsplit
        exact ⟨⟨[],line,by simpa using hplain⟩,rfl⟩
      | cons byte behind =>
        have hbyte := eq_false_of_dropWhile_eq_cons hbehind
        rw [hbehind,length_cons] at hlen
        rw [hbehind,skipLineEnding] at hskip
        rw [← hsplit,hbehind]
        split at hskip
        · next hreturn =>
          obtain ⟨hfeed,hskip⟩ := failIf_bind_ok_iff.mp hskip
          cases behind with
          | nil => exact absurd hfeed (by decide)
          | cons feed behind =>
            obtain rfl : feed = lineFeedByte := not_not.mp hfeed
            cases hskip
            obtain ⟨text,htext⟩ := ih (by simp at hlen ⊢; omega) hnext
            rw [drop_one,tail_cons] at htext
            rw [hreturn,← htext]
            exact exists_text_cons ⟨line,true⟩ text rfl hplain
        · next hreturn =>
          cases hskip
          obtain rfl : byte = lineFeedByte := by
            simp only [isLineByte,Bool.and_eq_false_iff,bne_eq_false_iff_eq] at hbyte
            exact hbyte.resolve_right hreturn
          obtain ⟨text,htext⟩ := ih (by omega) hnext
          rw [← htext]
          exact exists_text_cons ⟨line,false⟩ text rfl hplain

/-! ### Assignments -/

def Assigns (capacity : ℕ) (line : List UInt8) (assignment : ManifestField × ManifestValue) :
    Prop :=
  ∃ key value, line = key ++ equalsSign :: value ∧ equalsSign ∉ key ∧
    manifestFieldOf key = some assignment.1 ∧
    parseManifestValue capacity value assignment.1 = .ok assignment.2

theorem parseAssignment_ok_iff {line : List UInt8} {progress result : ManifestProgress} :
    parseAssignment cap line progress = .ok result ↔
      ∃ assignment, Assigns cap line assignment ∧ assignment.1 ∉ progress.fields ∧
        result = ⟨assignment.1 :: progress.fields,
          progress.manifest.store assignment.1 assignment.2⟩ := by
  have hassign : ∀ key value, assignManifestField cap key value progress = .ok result ↔
      ∃ assignment : ManifestField × ManifestValue, manifestFieldOf key = some assignment.1 ∧
        parseManifestValue cap value assignment.1 = .ok assignment.2 ∧
        assignment.1 ∉ progress.fields ∧ result = ⟨assignment.1 :: progress.fields,
          progress.manifest.store assignment.1 assignment.2⟩ := by
    intro key value
    rw [assignManifestField]
    cases hfield : manifestFieldOf key with
    | none => simp [throw,throwThe,MonadExceptOf.throw]
    | some field =>
      simp only [bind_ok_iff,failIf_ok_iff,pure_ok_iff,exists_const]
      constructor
      · rintro ⟨parsed,hparsed,hnew,rfl⟩
        exact ⟨(field, parsed),rfl,hparsed,hnew,rfl⟩
      · rintro ⟨⟨_,parsed⟩,hsome,hparsed,hnew,rfl⟩
        cases hsome
        exact ⟨parsed,hparsed,hnew,rfl⟩
  have hsplit : line.takeWhile (· ≠ equalsSign) ++ line.dropWhile (· ≠ equalsSign) = line :=
    takeWhile_append_dropWhile
  rw [parseAssignment,failIf_bind_ok_iff,hassign]
  constructor
  · rintro ⟨hparts,assignment,hfield,hvalue,hnew,rfl⟩
    refine ⟨assignment,⟨_,_,?_,?_,hfield,hvalue⟩,hnew,rfl⟩
    · cases hbehind : line.dropWhile (· ≠ equalsSign) with
      | nil => exact absurd (.inr (congrArg length hbehind)) hparts
      | cons byte behind =>
        obtain rfl : byte = equalsSign := by simpa using eq_false_of_dropWhile_eq_cons hbehind
        rw [hbehind] at hsplit
        exact hsplit.symm
    · intro hmem
      have hall : (line.takeWhile (· ≠ equalsSign)).all (· ≠ equalsSign) = true := all_takeWhile
      exact absurd rfl (of_decide_eq_true (all_eq_true.mp hall _ hmem))
  · rintro ⟨assignment,⟨key,value,rfl,hkey,hfield,hvalue⟩,hnew,rfl⟩
    have hall : ∀ byte ∈ key, decide (byte ≠ equalsSign) = true := by
      intro byte hbyte
      exact decide_eq_true (ne_of_mem_of_not_mem hbyte hkey)
    rw [takeWhile_append_of_pos hall,dropWhile_append_of_pos hall]
    have hne : key ≠ [] := by
      rintro rfl
      cases hfield
    refine ⟨?_,assignment,?_,?_,hnew,rfl⟩
    · simp [hne]
    · simpa using hfield
    · simpa using hvalue

def ZiServiceManifest.storeAll (manifest : ZiServiceManifest)
    (assignments : List (ManifestField × ManifestValue)) : ZiServiceManifest :=
  assignments.foldl (fun manifest assignment => manifest.store assignment.1 assignment.2) manifest

variable {manifest : ZiServiceManifest}

theorem assignLines_ok_iff {lines : List (List UInt8)} {progress result : ManifestProgress} :
    assignLines cap lines progress = .ok result ↔
      ∃ assignments, List.Forall₂ (Assigns cap) lines assignments ∧
        (assignments.map Prod.fst).Nodup ∧ (∀ a ∈ assignments, a.1 ∉ progress.fields) ∧
        result = ⟨(assignments.map Prod.fst).reverse ++ progress.fields,
          progress.manifest.storeAll assignments⟩ := by
  induction lines generalizing progress with
  | nil => simp [assignLines,ZiServiceManifest.storeAll,pure,Except.pure,eq_comm]
  | cons line lines ih =>
    rw [assignLines,foldlM_cons,bind_ok_iff]
    constructor
    · rintro ⟨next,hline,hrest⟩
      obtain ⟨assignment,hassigns,hnew,rfl⟩ := parseAssignment_ok_iff.mp hline
      obtain ⟨assignments,hall,hnodup,hdisjoint,rfl⟩ := ih.mp hrest
      refine ⟨assignment :: assignments,.cons hassigns hall,?_,?_,?_⟩
      · refine nodup_cons.mpr ⟨fun hmem => ?_,hnodup⟩
        obtain ⟨other,hother,heq⟩ := mem_map.mp hmem
        exact hdisjoint other hother (heq ▸ mem_cons_self)
      · exact forall_mem_cons.mpr ⟨hnew,fun other hother hmem =>
          hdisjoint other hother (mem_cons_of_mem _ hmem)⟩
      · simp [ZiServiceManifest.storeAll]
    · rintro ⟨assignments,hall,hnodup,hdisjoint,rfl⟩
      cases hall with
      | cons hassigns hall =>
        rw [map_cons,nodup_cons] at hnodup
        refine ⟨_,parseAssignment_ok_iff.mpr ⟨_,hassigns,hdisjoint _ mem_cons_self,rfl⟩,
          ih.mpr ⟨_,hall,hnodup.2,?_,?_⟩⟩
        · intro other hother hmem
          rcases mem_cons.mp hmem with heq | hmem
          · exact hnodup.1 (heq ▸ mem_map_of_mem hother)
          · exact hdisjoint other (mem_cons_of_mem _ hother) hmem
        · simp [ZiServiceManifest.storeAll]

theorem ZiServiceManifest.store_comm (manifest : ZiServiceManifest) {f g : ManifestField}
    (hne : f ≠ g) (v w : ManifestValue) :
    (manifest.store f v).store g w = (manifest.store g w).store f v := by
  cases f <;> cases v <;> first
    | rfl
    | (cases g <;> first
        | exact absurd rfl hne
        | (cases w <;> rfl))

theorem ZiServiceManifest.storeAll_perm (manifest : ZiServiceManifest)
    {assignments assignments' : List (ManifestField × ManifestValue)}
    (hperm : assignments.Perm assignments') (hnodup : (assignments.map Prod.fst).Nodup) :
    manifest.storeAll assignments = manifest.storeAll assignments' := by
  refine hperm.foldl_eq' (fun a ha b hb manifest => ?_) manifest
  by_cases hab : a = b
  · rw [hab]
  · exact manifest.store_comm (fun heq => hab (inj_on_of_nodup_map hnodup ha hb heq)) _ _

def Describes (capacity : ℕ) (lines : List (List UInt8)) (manifest : ZiServiceManifest) : Prop :=
  ∃ assignments, List.Forall₂ (Assigns capacity) lines assignments ∧
    (assignments.map Prod.fst).Nodup ∧
    (∀ field ∈ manifestRequiredFields, field ∈ assignments.map Prod.fst) ∧
    manifest = emptyManifest.storeAll assignments ∧ ziServiceManifestValidate manifest = .ok ()

theorem Describes.perm {lines lines' : List (List UInt8)} (h : Describes cap lines manifest)
    (hperm : lines'.Perm lines) : Describes cap lines' manifest := by
  obtain ⟨assignments,hall,hnodup,hrequired,hstore,hvalid⟩ := h
  obtain ⟨assignments',hall',hperm'⟩ := perm_comp_forall₂ hperm hall
  have hfields := hperm'.map Prod.fst
  refine ⟨assignments',hall',hfields.nodup_iff.mpr hnodup,
    fun field hfield => hfields.mem_iff.mpr (hrequired field hfield),?_,hvalid⟩
  rw [hstore,emptyManifest.storeAll_perm hperm' (hfields.nodup_iff.mpr hnodup)]

theorem Describes.ne_nil {lines : List (List UInt8)} (h : Describes cap lines manifest) :
    lines ≠ [] := by
  rintro rfl
  obtain ⟨assignments,hall,-,hrequired,-⟩ := h
  cases hall
  exact absurd (hrequired .name (by decide)) not_mem_nil

/-! ### The parser -/

theorem ziServiceManifestParse_bytes_iff (text : ManifestText) :
    ziServiceManifestParse text.bytes cap = .ok manifest ↔
      text.bytes.length ≤ ziServiceMaxManifestBytes ∧ cap ≤ ziServiceMaxDependencies ∧
      (∀ content ∈ text.contents, IsText content) ∧ Describes cap text.assignments manifest := by
  have hbytes : (ziUtf8Validate text.bytes = .ok () ∧ ¬∃ byte ∈ text.bytes, byte = 0) ↔
      ∀ content ∈ text.contents, IsText content := by
    rw [← text.isText_bytes_iff,IsText]
    simp
  rw [← hbytes,ziServiceManifestParse]
  simp only [bind_ok_iff,failIf_ok_iff,exists_const,not_or,not_lt,not_not,
    gt_iff_lt,ne_eq,parseManifestLines_bytes text (Nat.le_refl _),assignLines_ok_iff,
    pure_ok_iff]
  constructor
  · rintro ⟨⟨-,hsize,hcap⟩,hutf8,hnul,_,⟨assignments,hall,hnodup,-,rfl⟩,hrequired,u,hvalid,rfl⟩
    refine ⟨hsize,hcap,⟨hutf8,hnul⟩,assignments,hall,hnodup,?_,rfl,hvalid⟩
    intro field hfield
    by_contra hmissing
    exact hrequired ⟨field,hfield,by simpa using hmissing⟩
  · rintro ⟨hsize,hcap,⟨hutf8,hnul⟩,hdescribes⟩
    have hne : text.bytes.length ≠ 0 := fun hempty =>
      hdescribes.ne_nil (text.assignments_of_bytes_nil (eq_nil_of_length_eq_zero hempty))
    obtain ⟨assignments,hall,hnodup,hrequired,rfl,hvalid⟩ := hdescribes
    refine ⟨⟨hne,hsize,hcap⟩,hutf8,hnul,_,⟨assignments,hall,hnodup,by simp,rfl⟩,?_,
      (),hvalid,rfl⟩
    rintro ⟨field,hfield,hmissing⟩
    exact hmissing (by simpa using hrequired field hfield)

theorem ziServiceManifestParse_ok_iff {data : List UInt8} :
    ziServiceManifestParse data cap = .ok manifest ↔
      data.length ≤ ziServiceMaxManifestBytes ∧ cap ≤ ziServiceMaxDependencies ∧
      ∃ text : ManifestText, text.bytes = data ∧ (∀ content ∈ text.contents, IsText content) ∧
        Describes cap text.assignments manifest := by
  constructor
  · intro h
    have hparse := h
    rw [ziServiceManifestParse] at hparse
    simp only [failIf_bind_ok_iff] at hparse
    obtain ⟨-,-,-,hparse⟩ := hparse
    obtain ⟨progress,hlines,-⟩ := bind_ok_iff.mp hparse
    obtain ⟨text,rfl⟩ := exists_text_of_parse (Nat.le_refl _) hlines
    obtain ⟨hsize,hcap,htext,hdescribes⟩ := (ziServiceManifestParse_bytes_iff text).mp h
    exact ⟨hsize,hcap,text,rfl,htext,hdescribes⟩
  · rintro ⟨hsize,hcap,text,rfl,htext,hdescribes⟩
    exact (ziServiceManifestParse_bytes_iff text).mpr ⟨hsize,hcap,htext,hdescribes⟩

/-! ### Numbers -/

def decimalFrom (number : ℕ) (digits : List UInt8) : ℕ :=
  digits.foldl (fun number digit => number*10+(digit.toNat-0x30)) number

theorem le_decimalFrom (number : ℕ) (digits : List UInt8) : number ≤ decimalFrom number digits := by
  induction digits generalizing number with
  | nil => exact Nat.le_refl number
  | cons digit digits ih =>
    have hle : number ≤ number*10+(digit.toNat-0x30) := by omega
    exact Nat.le_trans hle (ih _)

theorem parseDigits_ok_iff {number result : ℕ} {digits : List UInt8} (hnumber : number ≤ maximum) :
    parseDigits maximum number digits = .ok result ↔
      (∀ digit ∈ digits, isDigit digit = true) ∧ result = decimalFrom number digits ∧
        result ≤ maximum := by
  induction digits generalizing number with
  | nil =>
    rw [parseDigits,pure_ok_iff,decimalFrom,foldl_nil]
    constructor
    · rintro rfl
      exact ⟨by simp,rfl,hnumber⟩
    · exact fun h => h.2.1
  | cons digit digits ih =>
    have hstep : ¬(digit.toNat-0x30 > maximum ∨ number > (maximum-(digit.toNat-0x30))/10) ↔
          number*10+(digit.toNat-0x30) ≤ maximum := by omega
    rw [parseDigits,failIf_bind_ok_iff,failIf_bind_ok_iff,hstep]
    constructor
    · rintro ⟨hdigit,hle,h⟩
      obtain ⟨hdigits,rfl,hres⟩ := (ih hle).mp h
      exact ⟨forall_mem_cons.mpr ⟨not_not.mp hdigit,hdigits⟩,rfl,hres⟩
    · rintro ⟨hdigits,rfl,hres⟩
      obtain ⟨hdigit,hdigits⟩ := forall_mem_cons.mp hdigits
      have hle := Nat.le_trans (le_decimalFrom _ digits) hres
      exact ⟨not_not.mpr hdigit,hle,(ih hle).mpr ⟨hdigits,rfl,hres⟩⟩

theorem parseUint32_ok_iff {value : List UInt8} {result : ℕ} :
    parseUint32 value maximum = .ok result ↔
      value ≠ [] ∧ (∀ digit ∈ value, isDigit digit = true) ∧ result = decimalFrom 0 value ∧
        result ≤ maximum := by
  rw [parseUint32,failIf_bind_ok_iff,parseDigits_ok_iff (Nat.zero_le _)]
  simp

def IsNumeral (value : List UInt8) (number : ℕ) : Prop :=
  value ≠ [] ∧ (∀ digit ∈ value, isDigit digit = true) ∧ number = decimalFrom 0 value

theorem service_manifest_parse_exact :
    -- what is accepted, and with which values
    (∀ (data : List UInt8) (capacity : ℕ) (manifest : ZiServiceManifest),
      ziServiceManifestParse data capacity = .ok manifest ↔
        data.length ≤ ziServiceMaxManifestBytes ∧ capacity ≤ ziServiceMaxDependencies ∧
        ∃ text : ManifestText, text.bytes = data ∧ (∀ content ∈ text.contents, IsText content) ∧
          Describes capacity text.assignments manifest) ∧
    -- lines in another order and with other endings
    (∀ (text text' : ManifestText) (capacity : ℕ) (manifest : ZiServiceManifest),
      text.bytes.length ≤ ziServiceMaxManifestBytes →
      text'.bytes.length ≤ ziServiceMaxManifestBytes → text.contents.Perm text'.contents →
      (ziServiceManifestParse text.bytes capacity = .ok manifest ↔
        ziServiceManifestParse text'.bytes capacity = .ok manifest)) ∧
    -- other empty lines and comments
    (∀ (text text' : ManifestText) (capacity : ℕ) (manifest : ZiServiceManifest),
      text.bytes.length ≤ ziServiceMaxManifestBytes →
      text'.bytes.length ≤ ziServiceMaxManifestBytes → text.assignments.Perm text'.assignments →
      (∀ content ∈ text.contents ++ text'.contents,
        ManifestText.isAssignment content = false → IsText content) →
      (ziServiceManifestParse text.bytes capacity = .ok manifest ↔
        ziServiceManifestParse text'.bytes capacity = .ok manifest)) ∧
    -- numbers
    (∀ (capacity : ℕ) (value : List UInt8) (number : ℕ),
      (parseManifestValue capacity value .startOrder = .ok (.number number) ↔
        IsNumeral value number ∧ number ≤ uint16Max) ∧
      (parseManifestValue capacity value .maximumRestarts = .ok (.number number) ↔
        IsNumeral value number ∧ number ≤ ziServiceMaxRestarts) ∧
      (parseManifestValue capacity value .formatVersion = .ok (.number number) ↔
        IsNumeral value number ∧ number = ziServiceManifestFormatVersion)) := by
  refine ⟨fun _ _ _ => ziServiceManifestParse_ok_iff,?_,?_,?_⟩
  · intro text text' capacity manifest hsize hsize' hperm
    have hassignments : text.assignments.Perm text'.assignments := hperm.filter _
    have htexts : (∀ content ∈ text.contents, IsText content) ↔
        ∀ content ∈ text'.contents, IsText content :=
      forall_congr' fun content => by rw [hperm.mem_iff]
    rw [ziServiceManifestParse_bytes_iff,ziServiceManifestParse_bytes_iff,htexts]
    simp only [hsize,hsize',true_and]
    exact and_congr_right fun _ => and_congr_right fun _ =>
      ⟨fun h => h.perm hassignments.symm,fun h => h.perm hassignments⟩
  · intro text text' capacity manifest hsize hsize' hperm hcomments
    have htexts : ∀ t : ManifestText, (∀ content ∈ t.contents, ManifestText.isAssignment content =
        false → IsText content) → ((∀ content ∈ t.contents, IsText content) ↔
          ∀ content ∈ t.assignments, IsText content) := by
      intro t ht
      refine ⟨fun h content hcontent => h content (mem_of_mem_filter hcontent),?_⟩
      intro h content hcontent
      by_cases hassignment : ManifestText.isAssignment content = true
      · exact h content (mem_filter.mpr ⟨hcontent,hassignment⟩)
      · exact ht content hcontent (Bool.eq_false_of_not_eq_true hassignment)
    have hsame : (∀ content ∈ text.assignments, IsText content) ↔
        ∀ content ∈ text'.assignments, IsText content :=
      forall_congr' fun content => by rw [hperm.mem_iff]
    rw [ziServiceManifestParse_bytes_iff,ziServiceManifestParse_bytes_iff,
      htexts text fun content h => hcomments content (mem_append_left _ h),
      htexts text' fun content h => hcomments content (mem_append_right _ h),hsame]
    simp only [hsize,hsize',true_and]
    exact and_congr_right fun _ => and_congr_right fun _ =>
      ⟨fun h => h.perm hperm.symm,fun h => h.perm hperm⟩
  · intro capacity value number
    simp only [parseManifestValue,bind_ok_iff,failIf_ok_iff,exists_const,
      pure_ok_iff,parseUint32_ok_iff,ManifestValue.number.injEq,IsNumeral]
    refine ⟨?_,?_,?_⟩
    · constructor
      · rintro ⟨_,⟨hne,hdigits,hvalue,hle⟩,rfl⟩
        exact ⟨⟨hne,hdigits,hvalue⟩,hle⟩
      · rintro ⟨⟨hne,hdigits,hvalue⟩,hle⟩
        exact ⟨number,⟨hne,hdigits,hvalue,hle⟩,rfl⟩
    · constructor
      · rintro ⟨_,⟨hne,hdigits,hvalue,hle⟩,rfl⟩
        exact ⟨⟨hne,hdigits,hvalue⟩,hle⟩
      · rintro ⟨⟨hne,hdigits,hvalue⟩,hle⟩
        exact ⟨number,⟨hne,hdigits,hvalue,hle⟩,rfl⟩
    · constructor
      · rintro ⟨_,⟨hne,hdigits,hvalue,-⟩,hversion,rfl⟩
        exact ⟨⟨hne,hdigits,hvalue⟩,not_not.mp hversion⟩
      · rintro ⟨⟨hne,hdigits,hvalue⟩,hversion⟩
        exact ⟨number,⟨hne,hdigits,hvalue,Nat.le_of_eq hversion⟩,not_not.mpr hversion,rfl⟩

/-- A complete manifest of eleven lines. -/
def sampleText : List UInt8 :=
  ["FormatVersion=1","Name=A","Executable=C:\\A","ServiceKind=System","Identity=NID:SYSTEM",
    "StartMode=Boot","StartOrder=0","Dependencies=","RestartPolicy=Never","TokenPolicy=System",
    "MaximumRestarts=0"].flatMap fun line => asciiText line ++ [lineFeedByte]

/-- The number zero is no format version, and a comment that is not UTF-8 is refused. -/
theorem service_manifest_parse_counterexample :
    (IsNumeral [0x30] 0 ∧ 0 ≤ ziServiceManifestFormatVersion ∧
      parseManifestValue 16 [0x30] .formatVersion = .error .invalidServiceManifest) ∧
    (ziServiceManifestParse sampleText 16).isOk = true ∧
      ziServiceManifestParse (sampleText ++ [hashByte,0xff]) 16 =
        .error .invalidServiceManifest := by
  refine ⟨⟨⟨by decide,forall_mem_singleton.mpr rfl,rfl⟩,by decide,rfl⟩,by decide +kernel,?_⟩
  have hutf8 : ziUtf8Validate (sampleText ++ hashByte :: [0xff]) ≠ .ok () := by
    rw [Ne,ziUtf8Validate_cut_iff (by decide),not_and]
    exact fun _ => by decide
  rw [ziServiceManifestParse,failIf_bind_neg (by decide +kernel),failIf_pos hutf8]
  rfl

end Zizium
