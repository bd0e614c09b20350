import Zizium.Luma.Grammar

/-!
# The Luma tokeniser

`userland/luma/luma_parser.c` as a machine: one step is one round of one of its loops.
-/

namespace Zizium

open List Option

/-- An argument: its place in the line. -/
structure ZiStringView where
  start : ℕ
  size : ℕ
  deriving DecidableEq, Repr

/-- Where the tokeniser stands: in the loop over blanks, in the loop over the characters of an
argument, or returned. -/
inductive LumaPhase where
  | between
  | inArgument (argumentStart : ℕ) (isQuoted : Bool)
  | returned (status : Result Unit)
  deriving DecidableEq

structure LumaState where
  line : List UInt8
  readOffset : ℕ
  writeOffset : ℕ
  arguments : List ZiStringView
  phase : LumaPhase
  deriving DecidableEq

/-- The checks behind the loop over the characters of an argument. -/
def LumaState.finishArgument (s : LumaState) (argumentStart : ℕ) (closedQuote : Bool) : LumaState :=
  if closedQuote = false then { s with phase := .returned (.error .invalidArgument) }
  else if s.readOffset < s.line.length ∧ isSpace (s.line.getD s.readOffset 0) = false then
    { s with phase := .returned (.error .invalidArgument) }
  else
    { s with
      arguments := s.arguments ++ [⟨argumentStart,s.writeOffset-argumentStart⟩]
      phase := .between }

def LumaState.isEscape (s : LumaState) (isQuoted : Bool) : Bool :=
  isQuoted && s.line.getD s.readOffset 0 == backslashByte &&
    decide (s.readOffset+1 < s.line.length) &&
    (s.line.getD (s.readOffset+1) 0 == quoteByte ||
      s.line.getD (s.readOffset+1) 0 == backslashByte)

def lumaStep (argumentCapacity : ℕ) (s : LumaState) : LumaState :=
  match s.phase with
  | .returned _ => s
  | .between =>
    if s.readOffset < s.line.length then
      if isSpace (s.line.getD s.readOffset 0) then { s with readOffset := s.readOffset+1 }
      else if argumentCapacity ≤ s.arguments.length then
        { s with phase := .returned (.error .bufferTooSmall) }
      else if s.line.getD s.readOffset 0 = quoteByte then
        { s with readOffset := s.readOffset+1, phase := .inArgument s.writeOffset true }
      else { s with phase := .inArgument s.writeOffset false }
    else { s with phase := .returned (.ok ()) }
  | .inArgument argumentStart isQuoted =>
    if s.readOffset < s.line.length then
      if isQuoted = true ∧ s.line.getD s.readOffset 0 = quoteByte then
        LumaState.finishArgument { s with readOffset := s.readOffset+1 } argumentStart true
      else if isQuoted = false ∧ isSpace (s.line.getD s.readOffset 0) then
        s.finishArgument argumentStart true
      else
        let readOffset := if s.isEscape isQuoted then s.readOffset+1 else s.readOffset
        { s with
          line := s.line.set s.writeOffset (s.line.getD readOffset 0)
          readOffset := readOffset+1
          writeOffset := s.writeOffset+1 }
    else s.finishArgument argumentStart (!isQuoted)

def lumaStart (line : List UInt8) : LumaState := ⟨line,0,0,[],.between⟩

def lumaRun (argumentCapacity rounds : ℕ) (s : LumaState) : LumaState :=
  (lumaStep argumentCapacity)^[rounds] s

/-- What the tokeniser leaves behind: its status (`none` while it runs), the line and the
arguments in it. -/
structure LumaOutcome where
  status : Option (Result Unit)
  line : List UInt8
  arguments : List ZiStringView

def LumaOutcome.tokens (outcome : LumaOutcome) : List (List UInt8) :=
  outcome.arguments.map fun view => (outcome.line.drop view.start).take view.size

def LumaPhase.status : LumaPhase → Option (Result Unit)
  | .returned status => some status
  | _ => none

/-- Three rounds a character are enough. -/
def ziLumaTokenise (line : List UInt8) (argumentCapacity : ℕ) : LumaOutcome :=
  match ziUtf8Validate line with
  | .error status => ⟨some (.error status),line,[]⟩
  | .ok _ =>
    let s := lumaRun argumentCapacity (3*line.length+1) (lumaStart line)
    ⟨s.phase.status,s.line,s.arguments⟩

/-! ### What the buffer holds -/

def viewsFrom : (start : ℕ) → List (List UInt8) → List ZiStringView
  | _, [] => []
  | start, token :: tokens => ⟨start,token.length⟩ :: viewsFrom (start+token.length) tokens

/-- The buffer begins with the tokens and the part of the next one written so far, the rest of
the original line is still to be read, and what lies between is free. -/
structure LumaState.Holds (s : LumaState) (origin : List UInt8) (tokens : List (List UInt8))
    (part rest : List UInt8) : Prop where
  line_eq : ∃ free, s.line = tokens.flatten ++ part ++ free ++ rest ∧
    s.readOffset = s.writeOffset+free.length
  write_eq : s.writeOffset = (tokens.flatten ++ part).length
  arguments_eq : s.arguments = viewsFrom 0 tokens
  origin_eq : ∃ consumed, origin = consumed ++ rest ∧ consumed.length = s.readOffset

def Escapes (c : UInt8) (rest : List UInt8) : Prop :=
  c = backslashByte ∧ ∃ d ∈ rest.head?, d = quoteByte ∨ d = backslashByte

/-- What a round between arguments leaves, by what is still to be read. -/
inductive BetweenStep (cap : ℕ) (s : LumaState) (origin : List UInt8) (tokens : List (List UInt8)) :
    List UInt8 → LumaState → Prop
  | ended : BetweenStep cap s origin tokens [] { s with phase := .returned (.ok ()) }
  | blank {c rest} {s' : LumaState} (hspace : isSpace c = true) (hphase : s'.phase = .between)
      (h : s'.Holds origin tokens [] rest) : BetweenStep cap s origin tokens (c :: rest) s'
  | full {c rest} (hspace : isSpace c = false) (hcap : cap ≤ tokens.length) :
      BetweenStep cap s origin tokens (c :: rest)
        { s with phase := .returned (.error .bufferTooSmall) }
  | quote {rest} {s' : LumaState} (hcap : tokens.length < cap)
      (hphase : s'.phase = .inArgument tokens.flatten.length true)
      (h : s'.Holds origin tokens [] rest) : BetweenStep cap s origin tokens (quoteByte :: rest) s'
  | word {c rest} {s' : LumaState} (hspace : isSpace c = false) (hquote : c ≠ quoteByte)
      (hcap : tokens.length < cap) (hphase : s'.phase = .inArgument tokens.flatten.length false)
      (h : s'.Holds origin tokens [] (c :: rest)) : BetweenStep cap s origin tokens (c :: rest) s'

/-- What a round inside an argument leaves, by what is still to be read. -/
inductive ArgumentStep (s : LumaState) (origin : List UInt8) (tokens : List (List UInt8))
    (part : List UInt8) : Bool → List UInt8 → LumaState → Prop
  | ended {isQuoted} : ArgumentStep s origin tokens part isQuoted []
      (s.finishArgument tokens.flatten.length (!isQuoted))
  | closed {rest} {s' : LumaState} (h : s'.Holds origin tokens part rest) :
      ArgumentStep s origin tokens part true (quoteByte :: rest)
        (s'.finishArgument tokens.flatten.length true)
  | blank {c rest} (hspace : isSpace c = true) : ArgumentStep s origin tokens part false (c :: rest)
      (s.finishArgument tokens.flatten.length true)
  | escaped {d rest} {s' : LumaState} (hspecial : d = quoteByte ∨ d = backslashByte)
      (hphase : s'.phase = s.phase) (h : s'.Holds origin tokens (part ++ [d]) rest) :
      ArgumentStep s origin tokens part true (backslashByte :: d :: rest) s'
  | plain {isQuoted c rest} {s' : LumaState}
      (hplain : isQuoted = true → c ≠ quoteByte ∧ ¬Escapes c rest)
      (hspace : isQuoted = false → isSpace c = false) (hphase : s'.phase = s.phase)
      (h : s'.Holds origin tokens (part ++ [c]) rest) :
      ArgumentStep s origin tokens part isQuoted (c :: rest) s'

variable {s s' : LumaState} {origin part rest line : List UInt8} {tokens : List (List UInt8)}
  {cap n m : ℕ} {c : UInt8}

theorem viewsFrom_append (start : ℕ) (tokens tokens' : List (List UInt8)) :
    viewsFrom start (tokens ++ tokens') =
      viewsFrom start tokens ++ viewsFrom (start+tokens.flatten.length) tokens' := by
  induction tokens generalizing start with
  | nil => rfl
  | cons token tokens ih =>
    simp only [cons_append,viewsFrom,ih,flatten_cons,length_append,Nat.add_assoc]

@[simp] theorem length_viewsFrom (start : ℕ) (tokens : List (List UInt8)) :
    (viewsFrom start tokens).length = tokens.length := by
  induction tokens generalizing start with
  | nil => rfl
  | cons token tokens ih => simp [viewsFrom,ih]

theorem map_viewsFrom (front : List UInt8) (tokens : List (List UInt8)) (behind : List UInt8) :
    (viewsFrom front.length tokens).map (fun view =>
      ((front ++ tokens.flatten ++ behind).drop view.start).take view.size) = tokens := by
  induction tokens generalizing front with
  | nil => rfl
  | cons token tokens ih =>
    have hrest := ih (front ++ token)
    rw [length_append] at hrest
    simp only [viewsFrom,map_cons,flatten_cons,append_assoc,drop_left,take_left] at hrest ⊢
    rw [hrest]

theorem pairwise_viewsFrom (start : ℕ) (tokens : List (List UInt8)) :
    (viewsFrom start tokens).Pairwise (fun view view' => view.start+view.size ≤ view'.start) ∧
      ∀ view ∈ viewsFrom start tokens, start ≤ view.start ∧
        view.start+view.size ≤ start+tokens.flatten.length := by
  induction tokens generalizing start with
  | nil => simp [viewsFrom]
  | cons token tokens ih =>
    obtain ⟨hpairs,hbounds⟩ := ih (start+token.length)
    rw [viewsFrom,pairwise_cons,forall_mem_cons,flatten_cons,length_append]
    refine ⟨⟨fun view hview => (hbounds view hview).1,hpairs⟩,⟨le_rfl,by dsimp only; omega⟩,?_⟩
    intro view hview
    have := hbounds view hview
    omega

namespace LumaState.Holds

theorem start (line : List UInt8) : (lumaStart line).Holds line [] [] line where
  line_eq := ⟨[],by simp [lumaStart],rfl⟩
  write_eq := rfl
  arguments_eq := rfl
  origin_eq := ⟨[],rfl,rfl⟩

section

variable (h : s.Holds origin tokens part rest)

include h

theorem write_le_read : s.writeOffset ≤ s.readOffset := by
  obtain ⟨free,-,hread⟩ := h.line_eq
  omega

theorem drop_read : s.line.drop s.readOffset = rest := by
  obtain ⟨free,hline,hread⟩ := h.line_eq
  have hlen : s.readOffset = (tokens.flatten ++ part ++ free).length := by
    rw [hread,h.write_eq]
    exact length_append.symm
  rw [hline,hlen,drop_left]

theorem drop_origin : origin.drop s.readOffset = rest := by
  obtain ⟨consumed,rfl,hlen⟩ := h.origin_eq
  rw [← hlen,drop_left]

theorem length_line : s.line.length = s.readOffset+rest.length := by
  obtain ⟨free,hline,hread⟩ := h.line_eq
  have hwrite := h.write_eq
  rw [hline,length_append,length_append]
  omega

theorem getD_read (i : ℕ) : s.line.getD (s.readOffset+i) 0 = rest.getD i 0 := by
  rw [← h.drop_read]
  simp [getD_eq_getElem?_getD,getElem?_drop]

theorem tokens_eq :
    s.arguments.map (fun view => (s.line.drop view.start).take view.size) = tokens := by
  obtain ⟨free,hline,-⟩ := h.line_eq
  have hviews := map_viewsFrom [] tokens (part ++ free ++ rest)
  rw [h.arguments_eq,hline]
  simpa using hviews

omit h in
theorem skip (skipped : List UInt8) (h : s.Holds origin tokens part (skipped ++ rest))
    (phase : LumaPhase) :
    LumaState.Holds { s with readOffset := s.readOffset+skipped.length, phase := phase }
      origin tokens part rest where
  line_eq := by
    obtain ⟨free,hline,hread⟩ := h.line_eq
    refine ⟨free ++ skipped,by simp [hline],?_⟩
    simp only [length_append]
    omega
  write_eq := h.write_eq
  arguments_eq := h.arguments_eq
  origin_eq := by
    obtain ⟨consumed,rfl,hlen⟩ := h.origin_eq
    exact ⟨consumed ++ skipped,by simp,by simp [hlen]⟩

theorem withPhase (phase : LumaPhase) :
    LumaState.Holds { s with phase := phase } origin tokens part rest :=
  ⟨h.line_eq,h.write_eq,h.arguments_eq,h.origin_eq⟩

end

theorem store (c first : UInt8) (skipped : List UInt8)
    (h : s.Holds origin tokens part (first :: (skipped ++ rest))) : LumaState.Holds { s with
        line := s.line.set s.writeOffset c
        readOffset := s.readOffset+skipped.length+1
        writeOffset := s.writeOffset+1 }
      origin tokens (part ++ [c]) rest where
  line_eq := by
    obtain ⟨free,hline,hread⟩ := h.line_eq
    obtain ⟨old,free',hfree⟩ : ∃ old free', free ++ first :: skipped = old :: free' :=
      exists_cons_of_ne_nil (by simp)
    have hlen := congrArg length hfree
    simp only [length_append,length_cons] at hlen
    refine ⟨free',?_,by simp only; omega⟩
    have hline' : s.line = (tokens.flatten ++ part) ++ old :: (free' ++ rest) := by
      have hold : old :: (free' ++ rest) = free ++ first :: skipped ++ rest := by rw [hfree]; rfl
      rw [hline,hold]
      simp
    simp only [hline',h.write_eq,set_append_right _ _ le_rfl,Nat.sub_self,set_cons_zero]
    simp
  write_eq := by simp [h.write_eq,Nat.add_assoc]
  arguments_eq := h.arguments_eq
  origin_eq := by
    obtain ⟨consumed,rfl,hlen⟩ := h.origin_eq
    exact ⟨consumed ++ first :: skipped,by simp,by simp [hlen]; omega⟩

end LumaState.Holds

/-! ### Steps -/

theorem lumaRun_succ : lumaRun cap (n+1) s = lumaRun cap n (lumaStep cap s) :=
  Function.iterate_succ_apply _ _ _

theorem lumaRun_add : lumaRun cap (n+m) s = lumaRun cap n (lumaRun cap m s) :=
  Function.iterate_add_apply _ _ _ _

theorem lumaRun_returned {status : Result Unit} (h : s.phase = .returned status) :
    lumaRun cap n s = s := by
  induction n with
  | zero => rfl
  | succ n ih =>
    have hstep : lumaStep cap s = s := by rw [lumaStep,h]
    rw [lumaRun_succ,hstep,ih]

section Step

variable (h : s.Holds origin tokens part rest)

include h

theorem read_lt_iff : s.readOffset < s.line.length ↔ rest ≠ [] := by
  rw [h.length_line,← length_pos_iff]
  omega

theorem getD_readOffset : s.line.getD s.readOffset 0 = rest.getD 0 0 := h.getD_read 0

theorem finishArgument_spec {argumentStart : ℕ} (hstart : argumentStart = tokens.flatten.length) :
    (Delimited rest ∧ ((s.finishArgument argumentStart true).phase = .between ∧
        (s.finishArgument argumentStart true).Holds origin (tokens ++ [part]) [] rest)) ∨
      (¬Delimited rest ∧ s.finishArgument argumentStart true =
        { s with phase := .returned (.error .invalidArgument) }) := by
  have hcondition : (s.readOffset < s.line.length ∧ isSpace (s.line.getD s.readOffset 0) = false) ↔
      ¬Delimited rest := by
    rw [read_lt_iff h,getD_readOffset h]
    cases rest with
    | nil => simp [Delimited]
    | cons c rest => simp [Delimited]
  rw [LumaState.finishArgument,if_neg (by simp)]
  by_cases hend : Delimited rest
  · rw [if_neg (by rw [hcondition]; exact not_not_intro hend)]
    refine .inl ⟨hend,rfl,?_⟩
    obtain ⟨free,hline,hread⟩ := h.line_eq
    have hwrite := h.write_eq
    refine ⟨⟨free,by simp [hline],hread⟩,by simp [hwrite],?_,h.origin_eq⟩
    simp [viewsFrom_append,viewsFrom,h.arguments_eq,hstart,hwrite]
  · rw [if_pos (hcondition.mpr hend)]
    exact .inr ⟨hend,rfl⟩

end Step

theorem lumaStep_between (cap : ℕ) (hphase : s.phase = .between)
    (h : s.Holds origin tokens [] rest) :
    BetweenStep cap s origin tokens rest (lumaStep cap s) := by
  have hcount : s.arguments.length = tokens.length := by rw [h.arguments_eq,length_viewsFrom]
  have hwrite : s.writeOffset = tokens.flatten.length := by rw [h.write_eq,append_nil]
  simp only [lumaStep,hphase]
  cases rest with
  | nil =>
    rw [if_neg (by rw [read_lt_iff h]; simp)]
    exact .ended
  | cons c rest =>
    have hc : s.line.getD s.readOffset 0 = c := getD_readOffset h
    rw [if_pos (by rw [read_lt_iff h]; simp),hc,hcount]
    split
    next hspace => exact .blank hspace rfl (h.skip [c] _)
    next hspace =>
      rw [Bool.not_eq_true] at hspace
      split
      next hcap => exact .full hspace hcap
      next hcap =>
        split
        next hquote =>
          subst hquote
          exact .quote (by omega) (congrArg (LumaPhase.inArgument · true) hwrite) (h.skip [_] _)
        next hquote =>
          exact .word hspace hquote (by omega) (congrArg (LumaPhase.inArgument · false) hwrite)
            (h.withPhase _)

theorem isEscape_iff {isQuoted : Bool} (h : s.Holds origin tokens part (c :: rest)) :
    s.isEscape isQuoted = true ↔ isQuoted = true ∧ Escapes c rest := by
  have hc : s.line.getD s.readOffset 0 = c := getD_readOffset h
  have hnext : s.line.getD (s.readOffset+1) 0 = rest.getD 0 0 := by
    rw [h.getD_read 1]
    rfl
  have hlen : s.readOffset+1 < s.line.length ↔ rest ≠ [] := by
    rw [h.length_line,length_cons,← length_pos_iff]
    omega
  cases rest with
  | nil => simp [LumaState.isEscape,hlen,Escapes]
  | cons d rest =>
    rw [LumaState.isEscape,hc,hnext]
    simp [hlen,Escapes,and_assoc]

theorem lumaStep_inArgument {isQuoted : Bool} (cap : ℕ)
    (hphase : s.phase = .inArgument tokens.flatten.length isQuoted)
    (h : s.Holds origin tokens part rest) :
    ArgumentStep s origin tokens part isQuoted rest (lumaStep cap s) := by
  simp only [lumaStep,hphase]
  cases rest with
  | nil =>
    rw [if_neg (by rw [read_lt_iff h]; simp)]
    exact .ended
  | cons c rest =>
    have hc : s.line.getD s.readOffset 0 = c := getD_readOffset h
    rw [if_pos (by rw [read_lt_iff h]; simp),hc]
    split
    next hclose =>
      obtain ⟨rfl,rfl⟩ := hclose
      exact .closed (h.skip [quoteByte] _)
    next hclose =>
      split
      next hblank =>
        obtain ⟨rfl,hspace⟩ := hblank
        exact .blank hspace
      next hblank =>
        by_cases hescape : s.isEscape isQuoted = true
        · obtain ⟨rfl,rfl,d,hd,hspecial⟩ := (isEscape_iff h).mp hescape
          cases rest with
          | nil => cases hd
          | cons d' rest =>
            obtain rfl : d' = d := by simpa using hd
            have hnext : s.line.getD (s.readOffset+1) 0 = d' := h.getD_read 1
            rw [if_pos hescape,hnext]
            exact .escaped hspecial hphase.symm ((h.store d' backslashByte [d']).withPhase _)
        · rw [if_neg hescape,hc]
          refine .plain ?_ ?_ hphase.symm ((h.store c c []).withPhase _)
          · rintro rfl
            exact ⟨fun hquote => hclose ⟨rfl,hquote⟩,
              fun h' => hescape ((isEscape_iff h).mpr ⟨rfl,h'⟩)⟩
          · rintro rfl
            simpa using hblank

/-! ### Every state of a run -/

/-- What every reached state satisfies. -/
def LumaState.Sound (s : LumaState) (origin : List UInt8) : Prop :=
  ∃ tokens part rest, s.Holds origin tokens part rest ∧
    (s.phase = .between → part = []) ∧
    ∀ argumentStart isQuoted, s.phase = .inArgument argumentStart isQuoted →
      argumentStart = tokens.flatten.length

theorem LumaState.Holds.sound_returned {status : Result Unit} (h : s.Holds origin tokens part rest)
    (hphase : s.phase = .returned status) : s.Sound origin :=
  ⟨tokens,part,rest,h,by simp [hphase],by simp [hphase]⟩

theorem LumaState.Holds.sound_between (h : s.Holds origin tokens [] rest)
    (hphase : s.phase = .between) : s.Sound origin :=
  ⟨tokens,[],rest,h,fun _ => rfl,by simp [hphase]⟩

theorem LumaState.Holds.sound_inArgument {isQuoted : Bool} (h : s.Holds origin tokens part rest)
    (hphase : s.phase = .inArgument tokens.flatten.length isQuoted) : s.Sound origin :=
  ⟨tokens,part,rest,h,by simp [hphase],fun _ _ heq => by
    rw [hphase] at heq
    cases heq
    rfl⟩

theorem LumaState.Holds.finishArgument_sound {closedQuote : Bool}
    (h : s.Holds origin tokens part rest) :
    (s.finishArgument tokens.flatten.length closedQuote).Sound origin := by
  cases closedQuote with
  | false => exact (h.withPhase (.returned (.error .invalidArgument))).sound_returned rfl
  | true =>
    rcases finishArgument_spec h rfl with ⟨-,hphase,hholds⟩ | ⟨-,hfinish⟩
    · exact hholds.sound_between hphase
    · rw [hfinish]
      exact (h.withPhase _).sound_returned rfl

theorem lumaStep_sound (h : s.Sound origin) : (lumaStep cap s).Sound origin := by
  obtain ⟨tokens,part,rest,hholds,hbetween,hinArgument⟩ := h
  cases hphase : s.phase with
  | returned status =>
    rw [show lumaStep cap s = s by rw [lumaStep,hphase]]
    exact hholds.sound_returned hphase
  | between =>
    obtain rfl := hbetween hphase
    have hstep := lumaStep_between cap hphase hholds
    generalize lumaStep cap s = s' at hstep ⊢
    cases hstep with
    | ended => exact (hholds.withPhase _).sound_returned rfl
    | blank _ hphase' hholds' => exact hholds'.sound_between hphase'
    | full => exact (hholds.withPhase _).sound_returned rfl
    | quote _ hphase' hholds' => exact hholds'.sound_inArgument hphase'
    | word _ _ _ hphase' hholds' => exact hholds'.sound_inArgument hphase'
  | inArgument argumentStart isQuoted =>
    obtain rfl := hinArgument _ _ hphase
    have hstep := lumaStep_inArgument cap hphase hholds
    generalize lumaStep cap s = s' at hstep ⊢
    cases hstep with
    | ended => exact hholds.finishArgument_sound
    | closed hholds' => exact hholds'.finishArgument_sound
    | blank => exact hholds.finishArgument_sound
    | escaped _ hphase' hholds' => exact hholds'.sound_inArgument (hphase'.trans hphase)
    | plain _ _ hphase' hholds' => exact hholds'.sound_inArgument (hphase'.trans hphase)

theorem lumaRun_sound (cap n : ℕ) (h : s.Sound origin) : (lumaRun cap n s).Sound origin := by
  induction n generalizing s with
  | zero => exact h
  | succ n ih => exact ih (lumaStep_sound h)

/-! ### Whole runs -/

/-- After `n` rounds the tokeniser has returned: with success and the tokens if some list of
tokens is accepted, and with a failure otherwise. -/
def Concludes (capacity : ℕ) (origin : List UInt8) (accepted : List (List UInt8) → Prop) (n : ℕ)
    (s : LumaState) : Prop :=
  ∃ status, (lumaRun capacity n s).phase = .returned status ∧
    (∀ all, accepted all → status = .ok () ∧ (lumaRun capacity n s).Holds origin all [] []) ∧
    (status = .ok () → ∃ all, accepted all)

def Continued (capacity : ℕ) (tokens : List (List UInt8)) (rest : List UInt8)
    (all : List (List UInt8)) : Prop :=
  ∃ more, all = tokens ++ more ∧ LumaLine rest more ∧ all.length ≤ capacity

namespace Concludes

variable {accepted accepted' : List (List UInt8) → Prop}

theorem of_step (h : Concludes cap origin accepted n (lumaStep cap s)) :
    Concludes cap origin accepted (n+1) s := by
  rwa [Concludes,lumaRun_succ]

theorem of_run (h : Concludes cap origin accepted n (lumaRun cap m s)) :
    Concludes cap origin accepted (n+m) s := by
  rwa [Concludes,lumaRun_add]

theorem mono (h : Concludes cap origin accepted n s) (hle : n ≤ m) :
    Concludes cap origin accepted m s := by
  obtain ⟨k,rfl⟩ := Nat.exists_eq_add_of_le hle
  obtain ⟨status,hphase,hrest⟩ := h
  have hrun : lumaRun cap (n+k) s = lumaRun cap n s := by
    rw [Nat.add_comm,lumaRun_add,lumaRun_returned hphase]
  exact ⟨status,by rw [hrun,hphase],by rwa [hrun]⟩

theorem congr (h : Concludes cap origin accepted n s)
    (hiff : ∀ all, accepted all ↔ accepted' all) : Concludes cap origin accepted' n s := by
  rwa [show accepted' = accepted from funext fun all => propext (hiff all).symm]

theorem of_error {status : ZiStatus} (hphase : s.phase = .returned (.error status))
    (hnone : ∀ all, ¬accepted all) : Concludes cap origin accepted 0 s :=
  ⟨.error status,hphase,fun all hall => absurd hall (hnone all),fun h => by cases h⟩

end Concludes

theorem lumaRun_bare (cap : ℕ) {raw : List UInt8}
    (hphase : s.phase = .inArgument tokens.flatten.length false)
    (h : s.Holds origin tokens part (raw ++ rest)) (hraw : ∀ c ∈ raw, isSpace c = false) :
    (lumaRun cap raw.length s).phase = .inArgument tokens.flatten.length false ∧
      (lumaRun cap raw.length s).Holds origin tokens (part ++ raw) rest := by
  induction raw generalizing s part with
  | nil =>
    rw [append_nil]
    exact ⟨hphase,h⟩
  | cons c raw ih =>
    rw [forall_mem_cons] at hraw
    rw [length_cons,lumaRun_succ]
    have hstep := lumaStep_inArgument cap hphase h
    generalize lumaStep cap s = s' at hstep ⊢
    cases hstep with
    | blank hspace =>
      rw [hraw.1] at hspace
      cases hspace
    | plain _ _ hphase' hholds' =>
      have hrest := ih (hphase'.trans hphase) hholds' hraw.2
      simpa using hrest

section

variable (cap) (hphase : s.phase = .inArgument tokens.flatten.length true)

include hphase

theorem lumaStep_plain (h : s.Holds origin tokens part (c :: rest)) (hquote : c ≠ quoteByte)
    (hescape : ¬Escapes c rest) :
    (lumaStep cap s).phase = .inArgument tokens.flatten.length true ∧
      (lumaStep cap s).Holds origin tokens (part ++ [c]) rest := by
  have hstep := lumaStep_inArgument cap hphase h
  generalize lumaStep cap s = s' at hstep ⊢
  cases hstep with
  | closed => exact absurd rfl hquote
  | escaped hspecial => exact absurd ⟨rfl,_,rfl,hspecial⟩ hescape
  | plain _ _ hphase' hholds' => exact ⟨hphase'.trans hphase,hholds'⟩

theorem lumaStep_escaped (h : s.Holds origin tokens part (backslashByte :: c :: rest))
    (hspecial : c = quoteByte ∨ c = backslashByte) :
    (lumaStep cap s).phase = .inArgument tokens.flatten.length true ∧
      (lumaStep cap s).Holds origin tokens (part ++ [c]) rest := by
  have hstep := lumaStep_inArgument cap hphase h
  generalize lumaStep cap s = s' at hstep ⊢
  cases hstep with
  | escaped _ hphase' hholds' => exact ⟨hphase'.trans hphase,hholds'⟩
  | plain hplain => exact absurd ⟨rfl,c,rfl,hspecial⟩ (hplain rfl).2

theorem lumaStep_close (h : s.Holds origin tokens part (quoteByte :: rest)) :
    ∃ s' : LumaState, s'.Holds origin tokens part rest ∧
      lumaStep cap s = s'.finishArgument tokens.flatten.length true := by
  have hstep := lumaStep_inArgument cap hphase h
  generalize lumaStep cap s = s' at hstep ⊢
  cases hstep with
  | closed hholds => exact ⟨_,hholds,rfl⟩
  | plain hplain => exact absurd rfl (hplain rfl).1

theorem lumaStep_unclosed (h : s.Holds origin tokens part []) :
    (lumaStep cap s).phase = .returned (.error .invalidArgument) := by
  have hstep := lumaStep_inArgument cap hphase h
  generalize lumaStep cap s = s' at hstep ⊢
  cases hstep
  rfl

end

def QuotedRun (capacity : ℕ) (origin : List UInt8) (tokens : List (List UInt8))
    (part rest : List UInt8) (s : LumaState) : Prop :=
  (∀ token rest', readQuoted rest = some (token, rest') → ∃ n, n+rest'.length < rest.length ∧
      (lumaRun capacity n s).phase = .inArgument tokens.flatten.length true ∧
      (lumaRun capacity n s).Holds origin tokens (part ++ token) (quoteByte :: rest')) ∧
  (readQuoted rest = none → ∃ n part', n ≤ rest.length ∧
    (lumaRun capacity n s).phase = .inArgument tokens.flatten.length true ∧
    (lumaRun capacity n s).Holds origin tokens part' [])

theorem QuotedRun.of_step (taken : List UInt8) (kept : UInt8) (htaken : taken ≠ [])
    (hread : readQuoted (taken ++ rest) =
      (readQuoted rest).map fun word => (kept :: word.1, word.2))
    (h : QuotedRun cap origin tokens (part ++ [kept]) rest (lumaStep cap s)) :
    QuotedRun cap origin tokens part (taken ++ rest) s := by
  have hlen : 1 ≤ taken.length := length_pos_of_ne_nil htaken
  constructor
  · intro token rest' hsome
    rw [hread,map_eq_some_iff] at hsome
    obtain ⟨⟨token',rest''⟩,hword,heq⟩ := hsome
    simp only [Prod.mk.injEq] at heq
    obtain ⟨rfl,rfl⟩ := heq
    obtain ⟨n,hn,hphase,hholds⟩ := h.1 token' rest'' hword
    refine ⟨n+1,by rw [length_append]; omega,?_⟩
    rw [lumaRun_succ]
    exact ⟨hphase,by simpa using hholds⟩
  · intro hnone
    rw [hread,map_eq_none_iff] at hnone
    obtain ⟨n,part',hn,hphase,hholds⟩ := h.2 hnone
    refine ⟨n+1,part',by rw [length_append]; omega,?_⟩
    exact ⟨hphase,hholds⟩

theorem lumaRun_quoted (cap : ℕ) (hphase : s.phase = .inArgument tokens.flatten.length true)
    (h : s.Holds origin tokens part rest) : QuotedRun cap origin tokens part rest s := by
  induction rest using readQuoted.induct generalizing s part with
  | case1 =>
    refine ⟨fun _ _ hsome => ?_,fun _ => ⟨0,part,le_rfl,hphase,h⟩⟩
    cases hsome
  | case2 =>
    refine ⟨fun token rest' hsome => ?_,fun hnone => by cases hnone⟩
    cases hsome
    exact ⟨0,by simp,hphase,by rw [append_nil]; exact h⟩
  | case3 c hquote =>
    have hstep := lumaStep_plain cap hphase h hquote (by simp [Escapes])
    rw [QuotedRun,readQuoted,if_neg hquote]
    refine ⟨fun _ _ hsome => ?_,fun _ => ⟨1,_,le_rfl,hstep⟩⟩
    cases hsome
  | case4 d rest =>
    refine ⟨fun token rest' hsome => ?_,fun hnone => by cases hnone⟩
    cases hsome
    exact ⟨0,by simp,hphase,by rw [append_nil]; exact h⟩
  | case5 c d rest hquote hescape ih =>
    obtain ⟨rfl,hd⟩ := hescape
    have hstep := lumaStep_escaped cap hphase h hd
    refine QuotedRun.of_step [backslashByte,d] d (by simp) ?_ (ih hstep.1 hstep.2)
    rw [cons_append,cons_append,readQuoted,if_neg hquote,if_pos ⟨rfl,hd⟩]
    rfl
  | case6 c d rest hquote hescape ih =>
    have hplain : ¬Escapes c (d :: rest) := by
      rintro ⟨hc,d',hd,hspecial⟩
      obtain rfl : d = d' := by simpa using hd
      exact hescape ⟨hc,hspecial⟩
    have hstep := lumaStep_plain cap hphase h hquote hplain
    refine QuotedRun.of_step [c] c (by simp) ?_ (ih hstep.1 hstep.2)
    rw [cons_append,nil_append,readQuoted,if_neg hquote,if_neg hescape]

theorem exists_bare (text : List UInt8) :
    ∃ raw rest, text = raw ++ rest ∧ (∀ c ∈ raw, isSpace c = false) ∧ Delimited rest := by
  induction text with
  | nil => exact ⟨[],[],rfl,by simp,by simp [Delimited]⟩
  | cons c text ih =>
    by_cases hspace : isSpace c = true
    · exact ⟨[],c :: text,rfl,by simp,by simpa [Delimited] using hspace⟩
    · obtain ⟨raw,rest,rfl,hraw,hrest⟩ := ih
      rw [Bool.not_eq_true] at hspace
      exact ⟨c :: raw,rest,rfl,forall_mem_cons.mpr ⟨hspace,hraw⟩,hrest⟩

theorem continued_append_iff {token : List UInt8} {all : List (List UInt8)} :
    Continued cap (tokens ++ [token]) rest all ↔
      ∃ more, all = tokens ++ token :: more ∧ LumaLine rest more ∧ all.length ≤ cap := by
  simp [Continued]

theorem Concludes.of_finish (h : s.Holds origin tokens part rest)
    (hrest : ∀ s' : LumaState, s'.phase = .between → s'.Holds origin (tokens ++ [part]) [] rest →
      Concludes cap origin (Continued cap (tokens ++ [part]) rest) n s') : Concludes cap origin
      (fun all => Delimited rest ∧ Continued cap (tokens ++ [part]) rest all) n
      (s.finishArgument tokens.flatten.length true) := by
  rcases finishArgument_spec h rfl with ⟨hend,hphase,hholds⟩ | ⟨hend,hfinish⟩
  · exact (hrest _ hphase hholds).congr fun all => (and_iff_right hend).symm
  · rw [hfinish]
    exact (Concludes.of_error rfl fun all hall => hend hall.1).mono (Nat.zero_le n)

theorem lumaStep_delimited (hphase : s.phase = .inArgument tokens.flatten.length false)
    (h : s.Holds origin tokens part rest) (hend : Delimited rest) :
    lumaStep cap s = s.finishArgument tokens.flatten.length true := by
  have hstep := lumaStep_inArgument cap hphase h
  generalize lumaStep cap s = s' at hstep ⊢
  cases hstep with
  | ended => rfl
  | blank => rfl
  | plain _ hspace =>
    have hc := hend _ rfl
    rw [hspace rfl] at hc
    cases hc

section Conclusion

variable (hrest : ∀ {rest' : List UInt8} {tokens' : List (List UInt8)} {s' : LumaState},
  rest'.length < rest.length → tokens'.length ≤ cap → s'.phase = .between →
    s'.Holds origin tokens' [] rest' →
    Concludes cap origin (Continued cap tokens' rest') (3*rest'.length+1) s')

include hrest

theorem concludes_bare (hcons : ∃ rest', rest = c :: rest') (hspace : isSpace c = false)
    (hquote : c ≠ quoteByte) (hcap : tokens.length < cap)
    (hphase : s.phase = .inArgument tokens.flatten.length false)
    (h : s.Holds origin tokens [] rest) :
    Concludes cap origin (Continued cap tokens rest) (3*rest.length) s := by
  obtain ⟨text,rfl⟩ := hcons
  obtain ⟨raw,rest',rfl,hraw,hend⟩ := exists_bare text
  have hword : ∀ d ∈ c :: raw, isSpace d = false := forall_mem_cons.mpr ⟨hspace,hraw⟩
  obtain ⟨hphase',hholds'⟩ := lumaRun_bare cap hphase h hword
  have hfinish := Concludes.of_finish (n := 3*rest'.length+1) hholds' fun s' hs' hs'holds =>
    hrest (by grind) (by grind) hs' hs'holds
  rw [← lumaStep_delimited hphase' hholds' hend] at hfinish
  refine ((Concludes.of_run (Concludes.of_step hfinish)).mono (by grind)).congr ?_
  intro all
  rw [nil_append,continued_append_iff,and_iff_right hend]
  simp only [Continued,← cons_append,lumaLine_bare_iff hspace hquote hraw hend]
  constructor
  · rintro ⟨more,rfl,hline,hle⟩
    exact ⟨_,rfl,⟨more,rfl,hline⟩,hle⟩
  · rintro ⟨_,rfl,⟨more,rfl,hline⟩,hle⟩
    exact ⟨more,rfl,hline,hle⟩

theorem concludes_quoted {rest' : List UInt8} (hcons : rest = quoteByte :: rest')
    (hcap : tokens.length < cap) (hphase : s.phase = .inArgument tokens.flatten.length true)
    (h : s.Holds origin tokens [] rest') :
    Concludes cap origin (Continued cap tokens rest) (3*rest.length) s := by
  subst hcons
  have hquoted := lumaRun_quoted cap hphase h
  cases hread : readQuoted rest' with
  | none =>
    obtain ⟨n,part,hn,hphase',hholds'⟩ := hquoted.2 hread
    have hunclosed := lumaStep_unclosed cap hphase' hholds'
    refine (Concludes.of_run (Concludes.of_step (Concludes.of_error hunclosed ?_))).mono
      (by grind)
    rintro all ⟨more,-,hline,-⟩
    obtain ⟨_,_,_,hsome,-⟩ := lumaLine_quote_iff.mp hline
    rw [hread] at hsome
    cases hsome
  | some word =>
    obtain ⟨token,rest''⟩ := word
    obtain ⟨n,hn,hphase',hholds'⟩ := hquoted.1 token rest'' hread
    obtain ⟨s',hs',hstep⟩ := lumaStep_close cap hphase' hholds'
    have hfinish := Concludes.of_finish (n := 3*rest''.length+1) hs' fun s' hs' hs'holds =>
      hrest (by grind) (by grind) hs' hs'holds
    rw [← hstep] at hfinish
    refine ((Concludes.of_run (Concludes.of_step hfinish)).mono (by grind)).congr ?_
    intro all
    rw [nil_append,continued_append_iff]
    simp only [Continued,lumaLine_quote_iff,hread,some.injEq,Prod.mk.injEq]
    constructor
    · rintro ⟨hend,more,rfl,hline,hle⟩
      exact ⟨_,rfl,⟨token,rest'',more,⟨rfl,rfl⟩,hend,hline,rfl⟩,hle⟩
    · rintro ⟨_,rfl,⟨_,_,more,⟨rfl,rfl⟩,hend,hline,rfl⟩,hle⟩
      exact ⟨hend,more,rfl,hline,hle⟩

end Conclusion

theorem lumaRun_concludes (hcap : tokens.length ≤ cap) (hphase : s.phase = .between)
    (h : s.Holds origin tokens [] rest) :
    Concludes cap origin (Continued cap tokens rest) (3*rest.length+1) s := by
  -- on the length of the rest: a blank or a word is taken off in each case
  induction hlen : rest.length using Nat.strong_induction_on generalizing s tokens rest with
  | _ k ih =>
  subst hlen
  have hrest : ∀ {rest' : List UInt8} {tokens' : List (List UInt8)} {s' : LumaState},
      rest'.length < rest.length → tokens'.length ≤ cap → s'.phase = .between →
      s'.Holds origin tokens' [] rest' →
      Concludes cap origin (Continued cap tokens' rest') (3*rest'.length+1) s' :=
    fun hlt hcapacity' hphase' hholds' => ih _ hlt hcapacity' hphase' hholds' rfl
  clear ih
  apply Concludes.of_step
  have hstep := lumaStep_between cap hphase h
  generalize lumaStep cap s = s' at hstep ⊢
  cases hstep with
  | ended =>
    refine ⟨.ok (),rfl,?_,fun _ => ⟨tokens,[],by simp,.nil,hcap⟩⟩
    rintro all ⟨more,rfl,hline,-⟩
    rw [lumaLine_nil_iff] at hline
    rw [hline,append_nil]
    exact ⟨rfl,h.withPhase _⟩
  | blank hspace hphase' hholds' =>
    refine ((hrest (by simp) hcap hphase' hholds').mono (by grind)).congr fun all => ?_
    simp only [Continued,lumaLine_space_iff hspace]
  | full hspace hfull =>
    refine (Concludes.of_error rfl ?_).mono (Nat.zero_le _)
    rintro all ⟨more,rfl,hline,hle⟩
    obtain ⟨_,token,_,more',-,-,-,-,rfl⟩ := (lumaLine_word_iff hspace).mp hline
    simp at hle
    omega
  | quote hroom hphase' hholds' => exact concludes_quoted hrest rfl hroom hphase' hholds'
  | word hspace hquote hroom hphase' hholds' =>
    exact concludes_bare hrest ⟨_,rfl⟩ hspace hquote hroom hphase' hholds'

/-! ### The tokeniser -/

theorem ziLumaTokenise_of_invalid {status : ZiStatus} (h : ziUtf8Validate line = .error status) :
    (ziLumaTokenise line cap).status = some (.error status) := by
  simp only [ziLumaTokenise,h]

theorem ziLumaTokenise_spec (cap : ℕ) (hvalid : ziUtf8Validate line = .ok ()) :
    ∃ status, (ziLumaTokenise line cap).status = some status ∧
      (∀ tokens, LumaLine line tokens → tokens.length ≤ cap →
        status = .ok () ∧ (ziLumaTokenise line cap).tokens = tokens ∧
          (ziLumaTokenise line cap).arguments = viewsFrom 0 tokens ∧
          tokens.flatten.length ≤ line.length) ∧
      (status = .ok () → ∃ tokens, LumaLine line tokens ∧ tokens.length ≤ cap) := by
  obtain ⟨status,hphase,haccept,hreturn⟩ :=
    lumaRun_concludes (Nat.zero_le cap) rfl (LumaState.Holds.start line)
  have houtcome : ziLumaTokenise line cap =
      ⟨some status,(lumaRun cap (3*line.length+1) (lumaStart line)).line,
        (lumaRun cap (3*line.length+1) (lumaStart line)).arguments⟩ := by
    simp only [ziLumaTokenise,hvalid,hphase,LumaPhase.status]
  rw [houtcome]
  refine ⟨status,rfl,?_,?_⟩
  · intro tokens hline hle
    obtain ⟨hstatus,hholds⟩ := haccept tokens ⟨tokens,rfl,hline,hle⟩
    refine ⟨hstatus,hholds.tokens_eq,hholds.arguments_eq,?_⟩
    obtain ⟨consumed,horigin,hconsumed⟩ := hholds.origin_eq
    have hwrite := hholds.write_eq
    have hread := hholds.write_le_read
    rw [append_nil] at hwrite horigin
    rw [horigin]
    omega
  · intro hstatus
    obtain ⟨all,more,hall,hline,hle⟩ := hreturn hstatus
    rw [hall] at hle
    exact ⟨more,hline,hle⟩

theorem luma_tokenise_exact (cap : ℕ) :
    (∀ arguments line, (∀ argument ∈ arguments, ziUtf8Validate argument = .ok ()) →
      QuotedLine arguments line → arguments.length ≤ cap →
      (ziLumaTokenise line cap).status = some (.ok ()) ∧
        (ziLumaTokenise line cap).tokens = arguments) ∧ ∀ line,
      (∀ rounds, (lumaRun cap rounds (lumaStart line)).writeOffset ≤
          (lumaRun cap rounds (lumaStart line)).readOffset ∧
        (lumaRun cap rounds (lumaStart line)).line.drop
            (lumaRun cap rounds (lumaStart line)).readOffset =
          line.drop (lumaRun cap rounds (lumaStart line)).readOffset) ∧
      (ziLumaTokenise line cap).status ≠ none ∧ ((ziLumaTokenise line cap).status = some (.ok ()) →
        LumaLine line (ziLumaTokenise line cap).tokens ∧
        (ziLumaTokenise line cap).arguments.Pairwise
          (fun view view' => view.start+view.size ≤ view'.start) ∧
        (∀ view ∈ (ziLumaTokenise line cap).arguments, view.start+view.size ≤ line.length) ∧
        ∀ token ∈ (ziLumaTokenise line cap).tokens, ziUtf8Validate token = .ok ()) := by
  constructor
  · intro arguments line harguments hquoted hcapacity
    obtain ⟨status,hstatus,haccept,-⟩ :=
      ziLumaTokenise_spec cap (hquoted.valid harguments)
    obtain ⟨rfl,htokens,-⟩ := haccept arguments hquoted.lumaLine hcapacity
    exact ⟨hstatus,htokens⟩
  · intro line
    refine ⟨fun rounds => ?_,?_,fun hok => ?_⟩
    · obtain ⟨tokens,part,rest,hholds,-⟩ := lumaRun_sound cap rounds
        ((LumaState.Holds.start line).sound_between rfl)
      exact ⟨hholds.write_le_read,hholds.drop_read.trans hholds.drop_origin.symm⟩
    · cases hvalid : ziUtf8Validate line with
      | error status =>
        rw [ziLumaTokenise_of_invalid hvalid]
        simp
      | ok _ =>
        obtain ⟨status,hstatus,-⟩ := ziLumaTokenise_spec cap hvalid
        rw [hstatus]
        simp
    · cases hvalid : ziUtf8Validate line with
      | error status =>
        rw [ziLumaTokenise_of_invalid hvalid] at hok
        cases hok
      | ok _ =>
        obtain ⟨status,hstatus,haccept,hreturn⟩ :=
          ziLumaTokenise_spec cap hvalid
        rw [hstatus,some.injEq] at hok
        obtain ⟨tokens,hline,hle⟩ := hreturn hok
        obtain ⟨-,htokens,hviews,hlen⟩ := haccept tokens hline hle
        obtain ⟨hpairs,hbounds⟩ := pairwise_viewsFrom 0 tokens
        rw [htokens,hviews]
        refine ⟨hline,hpairs,fun view hview => ?_,hline.valid hvalid⟩
        have := (hbounds view hview).2
        omega

end Zizium
