import FtIrc.State.Handlers

/-!
# The flags of a mode string

The first pass of MODE gives each flag its parameter without looking at the server. `readFlags` is
that assignment. The first pass acts on the `o` flags of the assignment, and writes the others as a
mode string and parameter list from which the second pass reads the same assignment.
-/

namespace FtIrc

/-- What a character of the mode string asks for. -/
inductive FlagItem
  | unknown (flag : Byte)
  | missing
  | act (enable : Bool) (flag : Byte) (param : Option Bytes)
  deriving DecidableEq

open Server.FilterLoop (isModeFlag takesParam requiresParam isParamMode)

/-- A flag of the assignment is a mode flag, and has its parameter when it needs one. -/
def FlagItem.WellFormed : FlagItem → Prop
  | .act enable c param => isModeFlag c = true ∧ (requiresParam c enable = true → param.isSome)
  | _ => True

/-- The flags that the first pass hands on. -/
def FlagItem.isCollected : FlagItem → Bool
  | .act _ c _ => c ≠ byte 'o'
  | _ => false

/-- The variables of the first pass that decide the assignment. -/
structure FlagReader where
  paramIndex : Nat
  paramModeCount : Nat
  enable : Bool

namespace Server

/-- The limit of three. -/
def limitFlag (r : FlagReader) (c : Byte) (param : Option Bytes) : FlagReader × Option FlagItem :=
  if isParamMode c && 3 ≤ r.paramModeCount then (r, none)
  else
    (if isParamMode c then { r with paramModeCount := r.paramModeCount + 1 } else r,
      some (.act r.enable c param))

def readFlag (modeParams : List Bytes) (r : FlagReader) (c : Byte) :
    FlagReader × Option FlagItem :=
  if c = byte '+' then ({ r with enable := true }, none)
  else if c = byte '-' then ({ r with enable := false }, none)
  else if !isModeFlag c then (r, some (.unknown c))
  else if takesParam c r.enable then
    match modeParams[r.paramIndex]? with
    | some param => limitFlag { r with paramIndex := r.paramIndex + 1 } c (some param)
    | none => if requiresParam c r.enable then (r, some .missing) else limitFlag r c none
  else limitFlag r c none

/-- The assignment: the flags that are acted on, each with its sign and parameter, and the flags
that are answered with an error. -/
def readFlags (modeParams : List Bytes) : FlagReader → Bytes → List FlagItem
  | _, [] => []
  | r, c :: cs =>
    (readFlag modeParams r c).2.toList ++ readFlags modeParams (readFlag modeParams r c).1 cs

def signByte (enable : Bool) : Byte := if enable then byte '+' else byte '-'

/-- The collected flags, with a sign where it differs from the one in force. -/
def encodeModes : Byte → List FlagItem → Bytes
  | _, [] => []
  | sign, .act enable c _ :: items =>
    if c = byte 'o' then encodeModes sign items
    else (if signByte enable ≠ sign then [signByte enable] else []) ++
      c :: encodeModes (signByte enable) items
  | sign, _ :: items => encodeModes sign items

/-- The parameters handed on with the collected flags. -/
def encodeParams : List FlagItem → List Bytes
  | [] => []
  | .act enable c (some param) :: items =>
    if enable && (c == byte 'k' || c == byte 'l') then param :: encodeParams items
    else encodeParams items
  | _ :: items => encodeParams items

/-! ## The first pass reads the assignment -/

section firstPass

variable (p : ChannelPtr) (user : ClientPtr)

/-- What the first pass does at once: the `o` flags and the error replies. -/
def immediate (s : Server) : FlagItem → Server
  | .unknown c => s.replyTo user Numeric.errUnknownMode
      ([c] ++ ascii " :is unknown mode char to me for " ++ (s.channel p).name)
  | .missing => s.replyTo user Numeric.errNeedMoreParams (ascii "MODE :Not enough parameters")
  | .act enable c param =>
    if c = byte 'o' then
      match s.findClientByNickname (param.getD []) with
      | some target => s.handleModeOperator p enable target user
      | none => s.replyTo user Numeric.errUserNotInChannel
          (param.getD [] ++ ascii " " ++ (s.channel p).name ++ ascii " :They aren't on that channel")
    else s

namespace FilterLoop

def reader (l : FilterLoop) : FlagReader := ⟨l.paramIndex, l.paramModeCount, l.enable⟩

def setReader (l : FilterLoop) (r : FlagReader) : FilterLoop :=
  { l with paramIndex := r.paramIndex, paramModeCount := r.paramModeCount, enable := r.enable }

/-- A round without its assignment. -/
def perform (l : FilterLoop) : Option FlagItem → FilterLoop
  | none => l
  | some (.act _ c param) =>
    if c = byte 'o' then l.operatorRound p user (param.getD []) else l.collect c param
  | some item => { l with server := immediate p user l.server item }

theorem perform_reader (l : FilterLoop) (item : Option FlagItem) :
    (l.perform p user item).reader = l.reader := by
  rcases item with _ | _ | _ | ⟨e, c, param⟩
  · rfl
  · rfl
  · rfl
  · change (if c = byte 'o' then l.operatorRound p user (param.getD [])
      else l.collect c param).reader = l.reader
    split_ifs
    · unfold operatorRound
      split <;> rfl
    · rfl

private theorem actOn_eq (l : FilterLoop) (c : Byte) (param : Option Bytes) :
    l.actOn p user c param =
      (l.setReader (limitFlag l.reader c param).1).perform p user (limitFlag l.reader c param).2 := by
  unfold actOn
  by_cases hlim : (isParamMode c && decide (3 ≤ l.paramModeCount)) = true
  · have hl : limitFlag l.reader c param = (l.reader, none) := if_pos hlim
    rw [if_pos hlim, hl]
    rfl
  · have hl : limitFlag l.reader c param =
        (if isParamMode c then { l.reader with paramModeCount := l.paramModeCount + 1 } else l.reader,
          some (.act l.enable c param)) := if_neg hlim
    rw [if_neg hlim, hl]
    cases isParamMode c <;> rfl

theorem round_eq (modeParams : List Bytes) (l : FilterLoop) (c : Byte) :
    l.round p user modeParams c =
      (l.setReader (readFlag modeParams l.reader c).1).perform p user
        (readFlag modeParams l.reader c).2 := by
  have henable : l.reader.enable = l.enable := rfl
  have hindex : l.reader.paramIndex = l.paramIndex := rfl
  unfold round readFlag
  simp only [henable, hindex]
  split_ifs with h1 h2 h3 h4 h5
  · rfl
  · rfl
  · rfl
  · cases modeParams[l.paramIndex]? with
    | some param => exact actOn_eq p user { l with paramIndex := l.paramIndex + 1 } c (some param)
    | none => rfl
  · cases modeParams[l.paramIndex]? with
    | some param => exact actOn_eq p user { l with paramIndex := l.paramIndex + 1 } c (some param)
    | none => exact actOn_eq p user l c none
  · exact actOn_eq p user l c none

end FilterLoop

theorem readFlag_act {modeParams : List Bytes} {r : FlagReader} {c : Byte} {item : FlagItem}
    (h : (readFlag modeParams r c).2 = some item) :
    item.WellFormed ∧ ∀ enable c' param, item = .act enable c' param →
      c' = c ∧ enable = r.enable ∧ (readFlag modeParams r c).1.enable = r.enable := by
  have hlimit : ∀ (r' : FlagReader) (param : Option Bytes), r'.enable = r.enable →
      isModeFlag c = true → (requiresParam c r.enable = true → param.isSome) →
      (limitFlag r' c param).2 = some item → item.WellFormed ∧
        ∀ enable c' param', item = .act enable c' param' →
          c' = c ∧ enable = r.enable ∧ (limitFlag r' c param).1.enable = r.enable := by
    intro r' param hr hmode hreq hitem
    unfold limitFlag at hitem ⊢
    split_ifs at hitem ⊢ <;> cases hitem <;>
      · refine ⟨⟨hmode, by rwa [hr]⟩, ?_⟩
        rintro enable c' param' he
        cases he
        exact ⟨rfl, hr, hr⟩
  unfold readFlag at h ⊢
  split_ifs at h ⊢ with h1 h2 h3 h4 h5
  · cases h
    exact ⟨trivial, by simp⟩
  · cases hp : modeParams[r.paramIndex]? with
    | some param =>
      rw [hp] at h
      exact hlimit { r with paramIndex := r.paramIndex + 1 } (some param) rfl (by simpa using h3) (fun _ => rfl) h
    | none =>
      rw [hp] at h
      cases h
      exact ⟨trivial, by simp⟩
  · cases hp : modeParams[r.paramIndex]? with
    | some param =>
      rw [hp] at h
      exact hlimit { r with paramIndex := r.paramIndex + 1 } (some param) rfl (by simpa using h3) (fun _ => rfl) h
    | none =>
      rw [hp] at h
      exact hlimit _ _ rfl (by simpa using h3) (fun hr => absurd hr h5) h
  · refine hlimit _ _ rfl (by simpa using h3) (fun hr => ?_) h
    -- a flag that requires a parameter takes one
    exfalso
    revert hr h4
    unfold requiresParam takesParam
    cases r.enable <;> cases c == byte 'o' <;> cases c == byte 'k' <;> simp

theorem readFlags_wellFormed (modeParams : List Bytes) (r : FlagReader) (modes : Bytes) :
    ∀ item ∈ readFlags modeParams r modes, item.WellFormed := by
  induction modes generalizing r with
  | nil => simp [readFlags]
  | cons c cs ih =>
    intro item hitem
    rcases List.mem_append.mp hitem with h | h
    · exact (readFlag_act (Option.mem_toList.mp h)).1
    · exact ih _ item h

/-- The first pass: it acts on its assignment in order, and hands the rest on. -/
theorem firstPass_eq (modeParams : List Bytes) (l : FilterLoop) (modes : Bytes) :
    (modes.foldl (FilterLoop.round p user modeParams) l).server =
        (readFlags modeParams l.reader modes).foldl (immediate p user) l.server ∧
      (modes.foldl (FilterLoop.round p user modeParams) l).filteredModes =
        l.filteredModes ++ encodeModes l.lastAppliedSign (readFlags modeParams l.reader modes) ∧
      (modes.foldl (FilterLoop.round p user modeParams) l).filteredParams =
        l.filteredParams ++ encodeParams (readFlags modeParams l.reader modes) := by
  induction modes generalizing l with
  | nil => simp [readFlags, encodeModes, encodeParams]
  | cons c cs ih =>
    rw [List.foldl_cons, readFlags, FilterLoop.round_eq]
    have hact := @readFlag_act modeParams l.reader c
    generalize readFlag modeParams l.reader c = rd at hact
    obtain ⟨r, item⟩ := rd
    have hreader := (l.setReader r).perform_reader p user item
    change ((l.setReader r).perform p user item).reader = r at hreader
    obtain ⟨h1, h2, h3⟩ := ih ((l.setReader r).perform p user item)
    rw [hreader] at h1 h2 h3
    rw [h1, h2, h3]
    rcases item with _ | _ | _ | ⟨e, c', param⟩
    · exact ⟨rfl, rfl, rfl⟩
    · exact ⟨rfl, rfl, rfl⟩
    · exact ⟨rfl, rfl, rfl⟩
    · obtain ⟨-, hac⟩ := hact rfl
      obtain ⟨rfl, he, hr⟩ := hac e c' param rfl
      have hen : (l.setReader r).enable = e := hr.trans he.symm
      simp only [Option.toList_some, List.singleton_append, List.foldl_cons]
      by_cases ho : c' = byte 'o'
      · subst ho
        have hserver : ((l.setReader r).perform p user
            (some (.act e (byte 'o') param))).server = immediate p user l.server
              (.act e (byte 'o') param) := by
          simp only [FilterLoop.perform, if_true, FilterLoop.operatorRound, immediate]
          change (match l.server.findClientByNickname (param.getD []) with
            | some target => _
            | none => _ : FilterLoop).server = _
          cases l.server.findClientByNickname (param.getD []) with
          | none => rfl
          | some target => simp only [hen]; rfl
        have hmodes : ((l.setReader r).perform p user
            (some (.act e (byte 'o') param))).filteredModes = l.filteredModes ∧
            ((l.setReader r).perform p user
              (some (.act e (byte 'o') param))).lastAppliedSign = l.lastAppliedSign ∧
            ((l.setReader r).perform p user
              (some (.act e (byte 'o') param))).filteredParams = l.filteredParams := by
          simp only [FilterLoop.perform, if_true, FilterLoop.operatorRound]
          cases (l.setReader r).server.findClientByNickname (param.getD []) <;>
            exact ⟨rfl, rfl, rfl⟩
        obtain ⟨hm, hs, hp⟩ := hmodes
        rw [hserver, hm, hs, hp]
        refine ⟨rfl, by simp [encodeModes], ?_⟩
        cases param with
        | none => rfl
        | some param =>
          have hno : (e && (byte 'o' == byte 'k' || byte 'o' == byte 'l')) = false := by
            cases e <;> decide
          simp [encodeParams, hno]
      · have hperform : (l.setReader r).perform p user (some (.act e c' param)) =
            (l.setReader r).collect c' param := if_neg ho
        have himm : immediate p user l.server (.act e c' param) = l.server := if_neg ho
        rw [hperform, himm]
        refine ⟨rfl, ?_, ?_⟩
        · simp only [FilterLoop.collect, hen, encodeModes, if_neg ho, signByte]
          by_cases hsign : (if e = true then byte '+' else byte '-') = l.lastAppliedSign
          · simp [FilterLoop.setReader, hsign]
          · simp [FilterLoop.setReader, hsign]
        · cases param with
          | none => rfl
          | some param =>
            simp only [FilterLoop.collect, hen, encodeParams]
            split_ifs <;> simp [FilterLoop.setReader]

end firstPass

end Server
end FtIrc
