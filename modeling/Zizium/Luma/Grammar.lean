import Zizium.Unicode.Ascii

/-!
# Lines of the Luma shell

What a line of arguments is: words between blanks, bare or quoted, with backslash escapes
inside quotes.
-/

namespace Zizium

open List

variable {gap line : List UInt8} {args : List (List UInt8)}

def spaceByte : UInt8 := 0x20
def tabByte : UInt8 := 0x09
def quoteByte : UInt8 := 0x22

def isSpace (character : UInt8) : Bool := character == spaceByte || character == tabByte

/-- The inside of a quoted word: a backslash goes away before a quote or a backslash.  A
backslash at the end would escape the closing quote. -/
inductive Unescapes : List UInt8 → List UInt8 → Prop
  | nil : Unescapes [] []
  | escaped {c : UInt8} {body token : List UInt8} : c = quoteByte ∨ c = backslashByte →
      Unescapes body token → Unescapes (backslashByte :: c :: body) (c :: token)
  | plain {c : UInt8} {body token : List UInt8} : c ≠ quoteByte →
      (c = backslashByte → ∃ d rest, body = d :: rest ∧ d ≠ quoteByte ∧ d ≠ backslashByte) →
      Unescapes body token → Unescapes (c :: body) (c :: token)

/-- A word as it stands in the line, and its text. -/
inductive LumaWord : List UInt8 → List UInt8 → Prop
  | bare {raw : List UInt8} : raw ≠ [] → (∀ c ∈ raw.head?, c ≠ quoteByte) →
      (∀ c ∈ raw, isSpace c = false) → LumaWord raw raw
  | quoted {body token : List UInt8} : Unescapes body token →
      LumaWord (quoteByte :: (body ++ [quoteByte])) token

/-- A word ends at a blank or at the end of the line. -/
def Delimited (rest : List UInt8) : Prop := ∀ c ∈ rest.head?, isSpace c = true

/-- A line and its arguments. -/
inductive LumaLine : List UInt8 → List (List UInt8) → Prop
  | nil : LumaLine [] []
  | space {c : UInt8} {rest : List UInt8} {tokens : List (List UInt8)} : isSpace c = true →
      LumaLine rest tokens → LumaLine (c :: rest) tokens
  | word {raw token rest : List UInt8} {tokens : List (List UInt8)} : LumaWord raw token →
      Delimited rest → LumaLine rest tokens → LumaLine (raw ++ rest) (token :: tokens)

variable {c : UInt8} {raw body token rest rest' : List UInt8} {tokens : List (List UInt8)}

theorem LumaWord.exists_cons (h : LumaWord raw token) :
    ∃ c tail, raw = c :: tail ∧ isSpace c = false := by
  cases h with
  | bare hne _ hspace =>
    obtain ⟨c,tail,rfl⟩ := exists_cons_of_ne_nil hne
    exact ⟨c,tail,rfl,hspace c mem_cons_self⟩
  | quoted hbody => exact ⟨quoteByte,_,rfl,by decide⟩

theorem lumaLine_nil_iff : LumaLine [] tokens ↔ tokens = [] := by
  constructor
  · intro h
    generalize hline : ([] : List UInt8) = line at h
    cases h with
    | nil => rfl
    | space _ _ => cases hline
    | word hword _ _ =>
      obtain ⟨c,tail,rfl,-⟩ := hword.exists_cons
      cases hline
  · rintro rfl
    exact .nil

theorem lumaLine_space_iff (hspace : isSpace c = true) :
    LumaLine (c :: rest) tokens ↔ LumaLine rest tokens := by
  constructor
  · intro h
    generalize hline : c :: rest = line at h
    cases h with
    | nil => cases hline
    | space _ hrest =>
      cases hline
      exact hrest
    | word hword _ _ =>
      obtain ⟨c',tail,rfl,hc'⟩ := hword.exists_cons
      rw [cons_append,cons.injEq] at hline
      rw [hline.1,hc'] at hspace
      cases hspace
  · exact .space hspace

theorem lumaLine_append_iff (hgap : ∀ c ∈ gap, isSpace c = true) :
    LumaLine (gap ++ rest) tokens ↔ LumaLine rest tokens := by
  induction gap with
  | nil => rfl
  | cons c gap ih =>
    rw [forall_mem_cons] at hgap
    rw [cons_append,lumaLine_space_iff hgap.1,ih hgap.2]

theorem lumaLine_word_iff (hspace : isSpace c = false) : LumaLine (c :: rest) tokens ↔
      ∃ raw token rest' tokens', c :: rest = raw ++ rest' ∧ LumaWord raw token ∧
        Delimited rest' ∧ LumaLine rest' tokens' ∧ tokens = token :: tokens' := by
  constructor
  · intro h
    generalize hline : c :: rest = line at h
    cases h with
    | nil => cases hline
    | space hspace' _ =>
      cases hline
      rw [hspace] at hspace'
      cases hspace'
    | word hword hend hrest => exact ⟨_,_,_,_,rfl,hword,hend,hrest,rfl⟩
  · rintro ⟨raw,token,rest',tokens',hline,hword,hend,hrest,rfl⟩
    rw [hline]
    exact .word hword hend hrest

/-! ### Reading a word -/

theorem bare_unique {raw' : List UInt8} (hraw : ∀ c ∈ raw, isSpace c = false)
    (hraw' : ∀ c ∈ raw', isSpace c = false) (hrest : Delimited rest) (hrest' : Delimited rest')
    (h : raw ++ rest = raw' ++ rest') : raw = raw' ∧ rest = rest' := by
  rcases append_eq_append_iff.mp h with ⟨inner,rfl,rfl⟩ | ⟨inner,rfl,rfl⟩
  · cases inner with
    | nil => simp
    | cons c inner =>
      have hc := hrest c (by simp)
      rw [hraw' c (by simp)] at hc
      cases hc
  · cases inner with
    | nil => simp
    | cons c inner =>
      have hc := hrest' c (by simp)
      rw [hraw c (by simp)] at hc
      cases hc

theorem lumaLine_bare_iff (hspace : isSpace c = false) (hquote : c ≠ quoteByte)
    (hraw : ∀ d ∈ raw, isSpace d = false) (hend : Delimited rest) :
    LumaLine (c :: raw ++ rest) tokens ↔
      ∃ tokens', tokens = (c :: raw) :: tokens' ∧ LumaLine rest tokens' := by
  have hraw' : ∀ d ∈ c :: raw, isSpace d = false := forall_mem_cons.mpr ⟨hspace,hraw⟩
  rw [cons_append,lumaLine_word_iff hspace]
  constructor
  · rintro ⟨raw',token,rest',tokens',hline,hword,hend',hrest,rfl⟩
    cases hword with
    | bare _ _ hraw2 =>
      obtain ⟨rfl,rfl⟩ := bare_unique hraw' hraw2 hend hend' hline
      exact ⟨tokens',rfl,hrest⟩
    | quoted _ =>
      rw [cons_append,cons.injEq] at hline
      exact absurd hline.1 hquote
  · rintro ⟨tokens',rfl,hrest⟩
    exact ⟨c :: raw,c :: raw,rest,tokens',rfl,
      .bare (by simp) (by simpa using hquote) hraw',hend,hrest,rfl⟩

def readQuoted : List UInt8 → Option (List UInt8 × List UInt8)
  | [] => none
  | [c] => if c = quoteByte then some ([], []) else none
  | c :: d :: rest =>
    if c = quoteByte then some ([], d :: rest)
    else if c = backslashByte ∧ (d = quoteByte ∨ d = backslashByte) then
      (readQuoted rest).map fun word => (d :: word.1, word.2)
    else (readQuoted (d :: rest)).map fun word => (c :: word.1, word.2)

theorem readQuoted_of_unescapes (h : Unescapes body token) (rest : List UInt8) :
    readQuoted (body ++ quoteByte :: rest) = some (token, rest) := by
  induction h with
  | nil => cases rest <;> simp [readQuoted]
  | @escaped c body token hc _ ih =>
    have hne : backslashByte ≠ quoteByte := by decide
    rw [cons_append,cons_append,readQuoted,if_neg hne,if_pos ⟨rfl,hc⟩,ih]
    rfl
  | @plain c body token hquote hbackslash _ ih =>
    obtain ⟨d,tail,htail⟩ : ∃ d tail, body ++ quoteByte :: rest = d :: tail :=
      exists_cons_of_ne_nil (by simp)
    have hplain : ¬(c = backslashByte ∧ (d = quoteByte ∨ d = backslashByte)) := by
      rintro ⟨hc,hd⟩
      obtain ⟨d',rest',rfl,hd'⟩ := hbackslash hc
      rw [cons_append,cons.injEq] at htail
      rw [← htail.1] at hd
      exact hd.elim hd'.1 hd'.2
    rw [htail] at ih
    rw [cons_append,htail,readQuoted,if_neg hquote,if_neg hplain,ih]
    rfl

theorem unescapes_of_readQuoted (h : readQuoted rest = some (token, rest')) :
    ∃ body, rest = body ++ quoteByte :: rest' ∧ Unescapes body token := by
  induction rest using readQuoted.induct generalizing token with
  | case1 => cases h
  | case2 =>
    cases h
    exact ⟨[],rfl,.nil⟩
  | case3 c hquote =>
    rw [readQuoted,if_neg hquote] at h
    cases h
  | case4 d rest =>
    cases h
    exact ⟨[],rfl,.nil⟩
  | case5 c d rest hquote hescape ih =>
    rw [readQuoted,if_neg hquote,if_pos hescape,Option.map_eq_some_iff] at h
    obtain ⟨⟨token,rest'⟩,hread,heq⟩ := h
    cases heq
    obtain ⟨body,rfl,hbody⟩ := ih hread
    obtain ⟨rfl,hd⟩ := hescape
    exact ⟨backslashByte :: d :: body,rfl,.escaped hd hbody⟩
  | case6 c d rest hquote hescape ih =>
    rw [readQuoted,if_neg hquote,if_neg hescape,Option.map_eq_some_iff] at h
    obtain ⟨⟨token,rest'⟩,hread,heq⟩ := h
    cases heq
    obtain ⟨body,hline,hbody⟩ := ih hread
    refine ⟨c :: body,by rw [hline]; rfl,.plain hquote (fun hc => ?_) hbody⟩
    -- the next character is neither quote nor backslash, so it is in the body
    have hd : d ≠ quoteByte ∧ d ≠ backslashByte :=
      not_or.mp fun hd => hescape ⟨hc,hd⟩
    cases body with
    | nil =>
      rw [nil_append,cons.injEq] at hline
      exact absurd hline.1 hd.1
    | cons d' body =>
      rw [cons_append,cons.injEq] at hline
      exact ⟨d',body,rfl,hline.1 ▸ hd⟩

theorem lumaLine_quote_iff : LumaLine (quoteByte :: rest) tokens ↔
      ∃ token rest' tokens', readQuoted rest = some (token, rest') ∧ Delimited rest' ∧
        LumaLine rest' tokens' ∧ tokens = token :: tokens' := by
  rw [lumaLine_word_iff (by decide)]
  constructor
  · rintro ⟨raw,token,rest',tokens',hline,hword,hend,hrest,rfl⟩
    cases hword with
    | bare hne hquote _ =>
      obtain ⟨c,raw,rfl⟩ := exists_cons_of_ne_nil hne
      rw [cons_append,cons.injEq] at hline
      exact absurd hline.1.symm (hquote c rfl)
    | @quoted body _ hbody =>
      rw [cons_append,append_assoc,cons.injEq] at hline
      refine ⟨token,rest',tokens',?_,hend,hrest,rfl⟩
      rw [hline.2]
      exact readQuoted_of_unescapes hbody rest'
  · rintro ⟨token,rest',tokens',hread,hend,hrest,rfl⟩
    obtain ⟨body,rfl,hbody⟩ := unescapes_of_readQuoted hread
    exact ⟨_,token,rest',tokens',by simp,.quoted hbody,hend,hrest,rfl⟩

/-! ### Encoding -/

theorem isSpace_iff : isSpace c = true ↔ c = spaceByte ∨ c = tabByte := by simp [isSpace]

theorem toNat_of_isSpace (h : isSpace c = true) : c.toNat < 0x80 := by
  rcases isSpace_iff.mp h with rfl | rfl <;> decide

theorem Unescapes.deletes (h : Unescapes body token) : DeletesAscii body token := by
  induction h with
  | nil => exact .nil
  | escaped _ _ ih => exact .delete (by decide) (.keep ih)
  | plain _ _ _ ih => exact .keep ih

theorem LumaLine.valid (h : LumaLine line tokens) (hvalid : ziUtf8Validate line = .ok ()) :
    ∀ token ∈ tokens, ziUtf8Validate token = .ok () := by
  induction h with
  | nil => simp
  | space hspace _ ih => exact ih ((ziUtf8Validate_cons_iff (toNat_of_isSpace hspace)).mp hvalid)
  | @word raw token rest tokens hword hend _ ih =>
    have hparts : ziUtf8Validate raw = .ok () ∧ ziUtf8Validate rest = .ok () := by
      cases rest with
      | nil => simpa using hvalid
      | cons c rest =>
        have hc := toNat_of_isSpace (hend c rfl)
        rw [ziUtf8Validate_cut_iff hc] at hvalid
        exact ⟨hvalid.1,(ziUtf8Validate_cons_iff hc).mpr hvalid.2⟩
    rw [forall_mem_cons]
    refine ⟨?_,ih hparts.2⟩
    cases hword with
    | bare _ _ _ => exact hparts.1
    | quoted hbody =>
      have hinner := (ziUtf8Validate_cons_iff (by decide)).mp hparts.1
      exact hbody.deletes.valid ((ziUtf8Validate_cut_iff (by decide)).mp hinner).1

/-! ### Quoting -/

def escapeArgument (argument : List UInt8) : List UInt8 :=
  argument.flatMap fun c => if c = quoteByte ∨ c = backslashByte then [backslashByte,c] else [c]

def quoteArgument (argument : List UInt8) : List UInt8 :=
  quoteByte :: (escapeArgument argument ++ [quoteByte])

/-- Quoted arguments joined by non-empty runs of blanks. -/
inductive QuotedLine : List (List UInt8) → List UInt8 → Prop
  | nil : QuotedLine [] []
  | single (argument : List UInt8) : QuotedLine [argument] (quoteArgument argument)
  | cons (argument : List UInt8) {next : List UInt8} {arguments : List (List UInt8)}
      {gap line : List UInt8} : gap ≠ [] → (∀ c ∈ gap, isSpace c = true) →
      QuotedLine (next :: arguments) line →
      QuotedLine (argument :: next :: arguments) (quoteArgument argument ++ gap ++ line)

theorem unescapes_escapeArgument (arg : List UInt8) : Unescapes (escapeArgument arg) arg := by
  induction arg with
  | nil => exact .nil
  | cons c arg ih =>
    rw [escapeArgument,flatMap_cons]
    split_ifs with hc
    · exact .escaped hc ih
    · rw [not_or] at hc
      exact .plain hc.1 (fun h => absurd h hc.2) ih

theorem QuotedLine.lumaLine (h : QuotedLine args line) : LumaLine line args := by
  induction h with
  | nil => exact .nil
  | single arg =>
    have hword := LumaLine.word (.quoted (unescapes_escapeArgument arg))
      (show Delimited [] by simp [Delimited]) .nil
    simpa [quoteArgument] using hword
  | @cons arg next args gap line hne hgap _ ih =>
    obtain ⟨c,gap,rfl⟩ := exists_cons_of_ne_nil hne
    have hend : Delimited (c :: gap ++ line) := by simpa [Delimited] using hgap c mem_cons_self
    have hword := LumaLine.word (.quoted (unescapes_escapeArgument arg)) hend
      ((lumaLine_append_iff hgap).mpr ih)
    simpa [quoteArgument] using hword

theorem valid_escapeArgument {front arg : List UInt8} (h : ziUtf8Validate (front ++ arg) = .ok ()) :
    ziUtf8Validate (front ++ escapeArgument arg) = .ok () := by
  induction arg generalizing front with
  | nil => exact h
  | cons c arg ih =>
    rw [escapeArgument,flatMap_cons]
    split_ifs with hc
    · have hascii : c.toNat < 0x80 := by rcases hc with rfl | rfl <;> decide
      obtain ⟨hfront,hargument⟩ := (ziUtf8Validate_cut_iff hascii).mp h
      have hmore : ziUtf8Validate ((front ++ [backslashByte,c]) ++ arg) = .ok () := by
        rw [append_assoc]
        refine (ziUtf8Validate_cut_iff (by decide)).mpr ⟨hfront,?_⟩
        exact (ziUtf8Validate_cons_iff hascii).mpr hargument
      simpa [escapeArgument] using ih hmore
    · have hmore : ziUtf8Validate ((front ++ [c]) ++ arg) = .ok () := by simpa using h
      simpa [escapeArgument] using ih hmore

theorem valid_quoteArgument {arg : List UInt8} (h : ziUtf8Validate arg = .ok ()) :
    ziUtf8Validate (quoteArgument arg) = .ok () := by
  refine (ziUtf8Validate_cons_iff (by decide)).mpr ((ziUtf8Validate_cut_iff (by decide)).mpr ?_)
  exact ⟨@valid_escapeArgument [] arg h,rfl⟩

theorem valid_of_isSpace (hgap : ∀ c ∈ gap, isSpace c = true) : ziUtf8Validate gap = .ok () := by
  induction gap with
  | nil => rfl
  | cons c gap ih =>
    rw [forall_mem_cons] at hgap
    exact (ziUtf8Validate_cons_iff (toNat_of_isSpace hgap.1)).mpr (ih hgap.2)

theorem QuotedLine.valid (h : QuotedLine args line)
    (hvalid : ∀ arg ∈ args, ziUtf8Validate arg = .ok ()) : ziUtf8Validate line = .ok () := by
  induction h with
  | nil => rfl
  | single arg => exact valid_quoteArgument (hvalid arg (by simp))
  | cons arg _ hgap _ ih =>
    rw [forall_mem_cons] at hvalid
    exact ziUtf8Validate_append
      (ziUtf8Validate_append (valid_quoteArgument hvalid.1) (valid_of_isSpace hgap)) (ih hvalid.2)

end Zizium
