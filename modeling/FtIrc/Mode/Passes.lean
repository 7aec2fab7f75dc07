import FtIrc.Mode.Flags

/-!
# The two passes of MODE over one assignment

The second pass reads back the assignment that the first pass wrote, so a MODE line is two folds
over one list of flags: `immediate` over all of it, then `deferred`.
-/

namespace FtIrc
namespace Server

open FilterLoop (isModeFlag takesParam requiresParam isParamMode)

theorem isModeFlag_iff (c : Byte) : isModeFlag c = true ↔
    c = byte 'o' ∨ c = byte 'i' ∨ c = byte 't' ∨ c = byte 'k' ∨ c = byte 'l' := by
  simp [isModeFlag, or_assoc]

section secondPass

variable (p : ChannelPtr) (user : ClientPtr)

/-- What the second pass does with a flag of the assignment. -/
def deferred (l : ModeLoop) : FlagItem → ModeLoop
  | .act enable c param =>
    if c = byte 'o' then l
    else ({ l with enable, paramIndex := 0 } : ModeLoop).round p user param.toList c
  | _ => l

namespace ModeLoop

section flags

variable (l : ModeLoop) (ps : List Bytes)

theorem round_sign (enable : Bool) : l.round p user ps (signByte enable) = { l with enable } := by
  cases enable <;> rfl

theorem round_i : l.round p user ps (byte 'i') =
    if (l.server.channel p).inviteOnly ≠ l.enable then
      l.apply p (·.setModeInviteOnly l.enable) l.enable (byte 'i')
    else l := rfl

theorem round_t : l.round p user ps (byte 't') =
    if (l.server.channel p).topicByOpOnly ≠ l.enable then
      l.apply p (·.setModeTopicRestriction l.enable) l.enable (byte 't')
    else l := rfl

theorem round_k : l.round p user ps (byte 'k') = l.keyRound p user ps := rfl

theorem round_l : l.round p user ps (byte 'l') = l.limitRound p user ps := rfl

end flags

/-- The loop without its reading position. -/
def core (l : ModeLoop) : ModeLoop := { l with enable := true, paramIndex := 0 }

/-- A round depends on the position only through the parameter found there. -/
theorem round_core {l l' : ModeLoop} (hcore : l.core = l'.core) (he : l.enable = l'.enable)
    {ps ps' : List Bytes} {c : Byte} (hc : isModeFlag c = true) (ho : c ≠ byte 'o')
    (hp : l.enable = true → c = byte 'k' ∨ c = byte 'l' → ps[l.paramIndex]? = ps'[l'.paramIndex]?) :
    (l.round p user ps c).core = (l'.round p user ps' c).core := by
  obtain ⟨s, e, i, a, aa, sg⟩ := l
  obtain ⟨s', e', i', a', aa', sg'⟩ := l'
  simp only [core, ModeLoop.mk.injEq, true_and] at hcore he hp
  obtain ⟨rfl, rfl, rfl, rfl⟩ := hcore
  subst he
  rcases (isModeFlag_iff c).mp hc with rfl | rfl | rfl | rfl | rfl
  · exact absurd rfl ho
  · rw [round_i, round_i]
    dsimp only
    split_ifs <;> rfl
  · rw [round_t, round_t]
    dsimp only
    split_ifs <;> rfl
  · rw [round_k, round_k]
    unfold keyRound
    cases e with
    | true =>
      simp only [if_true, hp rfl (.inl rfl)]
      cases ps'[i']? with
      | none => rfl
      | some newKey => dsimp only; split_ifs <;> rfl
    | false =>
      simp only [Bool.false_eq_true, if_false]
      split_ifs <;> rfl
  · rw [round_l, round_l]
    unfold limitRound
    cases e with
    | true =>
      simp only [if_true, hp rfl (.inr rfl)]
      cases ps'[i']? with
      | none => rfl
      | some raw => dsimp only; cases parseLimit raw <;> rfl
    | false =>
      simp only [Bool.false_eq_true, if_false]
      split_ifs <;> rfl

/-- A flag keeps the sign, and moves on by the parameter it uses. -/
theorem round_position (l : ModeLoop) (ps : List Bytes) {c : Byte} (hc : isModeFlag c = true)
    (ho : c ≠ byte 'o') :
    (l.round p user ps c).enable = l.enable ∧ (l.round p user ps c).paramIndex =
      if (l.enable && (c == byte 'k' || c == byte 'l')) && ps[l.paramIndex]?.isSome then
        l.paramIndex + 1
      else l.paramIndex := by
  obtain ⟨s, e, i, a, aa, sg⟩ := l
  rcases (isModeFlag_iff c).mp hc with rfl | rfl | rfl | rfl | rfl
  · exact absurd rfl ho
  · rw [round_i, show (byte 'i' == byte 'k' || byte 'i' == byte 'l') = false by decide]
    simp only [Bool.and_false, Bool.false_and, Bool.false_eq_true, if_false]
    split_ifs <;> exact ⟨rfl, rfl⟩
  · rw [round_t, show (byte 't' == byte 'k' || byte 't' == byte 'l') = false by decide]
    simp only [Bool.and_false, Bool.false_and, Bool.false_eq_true, if_false]
    split_ifs <;> exact ⟨rfl, rfl⟩
  · rw [round_k, show (byte 'k' == byte 'k' || byte 'k' == byte 'l') = true by decide]
    unfold keyRound
    cases e with
    | true =>
      simp only [if_true, Bool.true_and]
      cases ps[i]? with
      | none => exact ⟨rfl, rfl⟩
      | some newKey => dsimp only; split_ifs <;> simp_all [refuse, apply]
    | false =>
      simp only [Bool.false_eq_true, if_false, Bool.false_and]
      split_ifs <;> exact ⟨rfl, rfl⟩
  · rw [round_l, show (byte 'l' == byte 'k' || byte 'l' == byte 'l') = true by decide]
    unfold limitRound
    cases e with
    | true =>
      simp only [if_true, Bool.true_and]
      cases ps[i]? with
      | none => exact ⟨rfl, rfl⟩
      | some raw => dsimp only; cases parseLimit raw <;> exact ⟨rfl, rfl⟩
    | false =>
      simp only [Bool.false_eq_true, if_false, Bool.false_and]
      split_ifs <;> exact ⟨rfl, rfl⟩

end ModeLoop

theorem signByte_ne_zero (enable : Bool) : signByte enable ≠ 0 := by
  cases enable <;> decide

theorem signByte_injective {e e' : Bool} (h : signByte e = signByte e') : e = e' := by
  revert h
  cases e <;> cases e' <;> decide

theorem encodeParams_skip {enable : Bool} {c : Byte} (param : Option Bytes)
    (items : List FlagItem) (h : (enable && (c == byte 'k' || c == byte 'l')) = false) :
    encodeParams (.act enable c param :: items) = encodeParams items := by
  cases param with
  | none => rfl
  | some x => rw [encodeParams, if_neg (by simp [h])]

/-- The sign is written exactly when it is not in force. -/
theorem foldl_lead (l : ModeLoop) (ps : List Bytes) {sign : Byte}
    (hsign : sign = 0 ∨ sign = signByte l.enable) (enable : Bool) :
    ((if signByte enable ≠ sign then [signByte enable] else []) : Bytes).foldl
      (ModeLoop.round p user ps) l = { l with enable } := by
  split_ifs with hne
  · simp [ModeLoop.round_sign]
  · have hsame : signByte enable = sign := not_not.mp hne
    rcases hsign with h0 | h1
    · exact absurd (hsame.trans h0) (signByte_ne_zero enable)
    · rw [signByte_injective (hsame.trans h1)]
      rfl

/-- The parameter of the first flag is found at the index, and those of the others behind it. -/
theorem round_encodeParams (l : ModeLoop) {ps : List Bytes} {c : Byte} {param : Option Bytes}
    {items : List FlagItem} (hwf : (FlagItem.act l.enable c param).WellFormed) (ho : c ≠ byte 'o')
    (hps : ps.drop l.paramIndex = encodeParams (.act l.enable c param :: items)) :
    ((l.enable && (c == byte 'k' || c == byte 'l')) = true →
        ∃ x, param = some x ∧ ps[l.paramIndex]? = some x) ∧
      ps.drop (l.round p user ps c).paramIndex = encodeParams items := by
  obtain ⟨hmode, hreq⟩ := hwf
  rw [(l.round_position p user ps hmode ho).2]
  by_cases hkl : (l.enable && (c == byte 'k' || c == byte 'l')) = true
  · obtain ⟨x, rfl⟩ := Option.isSome_iff_exists.mp
      (hreq (by rw [requiresParam, hkl, Bool.or_true]))
    rw [encodeParams, if_pos hkl] at hps
    have hget : ps[l.paramIndex]? = some x := by
      rw [← List.head?_drop, hps]
      rfl
    refine ⟨fun _ => ⟨x, rfl, hget⟩, ?_⟩
    simp only [hkl, hget, Option.isSome_some, Bool.and_self, if_true]
    rw [← List.tail_drop, hps]
    rfl
  · rw [encodeParams_skip param items (Bool.eq_false_iff.mpr hkl)] at hps
    refine ⟨fun h => absurd h hkl, ?_⟩
    simp only [hkl, Bool.false_and, Bool.false_eq_true, if_false]
    exact hps

/-- The second pass reads the assignment back. -/
theorem secondPass_eq (items : List FlagItem) (hwf : ∀ item ∈ items, item.WellFormed)
    {ps : List Bytes} {sign : Byte} {l l' : ModeLoop} (hcore : l.core = l'.core)
    (hsign : sign = 0 ∨ sign = signByte l.enable)
    (hps : ps.drop l.paramIndex = encodeParams items) :
    ((encodeModes sign items).foldl (ModeLoop.round p user ps) l).core =
      (items.foldl (deferred p user) l').core := by
  induction items generalizing sign l l' with
  | nil => exact hcore
  | cons item items ih =>
    have htail : ∀ item ∈ items, item.WellFormed := fun i hi => hwf i (List.mem_cons_of_mem _ hi)
    rcases item with _ | _ | ⟨e, c, param⟩
    · exact ih htail hcore hsign hps
    · exact ih htail hcore hsign hps
    · have hact := hwf _ List.mem_cons_self
      by_cases ho : c = byte 'o'
      · subst ho
        rw [encodeParams_skip param items (by cases e <;> decide)] at hps
        simpa [encodeModes, deferred] using ih htail hcore hsign hps
      · obtain ⟨hparam, hrest⟩ :=
          round_encodeParams p user { l with enable := e } hact ho hps
        have hstep : (({ l with enable := e } : ModeLoop).round p user ps c).core =
            (deferred p user l' (.act e c param)).core := by
          rw [deferred, if_neg ho]
          have hpos : ({ l with enable := e } : ModeLoop).core =
              ({ l' with enable := e, paramIndex := 0 } : ModeLoop).core := by
            simpa [ModeLoop.core] using hcore
          refine ModeLoop.round_core p user hpos rfl hact.1 ho fun he hkl => ?_
          obtain ⟨x, rfl, hget⟩ := hparam (by simpa using ⟨he, hkl⟩)
          simpa using hget
        have henable :=
          (ModeLoop.round_position p user { l with enable := e } ps hact.1 ho).1
        rw [encodeModes, if_neg ho, List.foldl_append, foldl_lead p user l ps hsign,
          List.foldl_cons, List.foldl_cons]
        exact ih htail hstep (.inr (by rw [henable])) hrest

end secondPass

/-! ## A MODE line -/

theorem encodeModes_eq_nil (sign : Byte) (items : List FlagItem) :
    encodeModes sign items = [] ↔ ∀ item ∈ items, FlagItem.isCollected item = false := by
  induction items with
  | nil => simp [encodeModes]
  | cons item items ih =>
    rcases item with _ | _ | ⟨e, c, param⟩
    · simpa [encodeModes, FlagItem.isCollected] using ih
    · simpa [encodeModes, FlagItem.isCollected] using ih
    · by_cases ho : c = byte 'o'
      · simpa [encodeModes, FlagItem.isCollected, ho] using ih
      · simp [encodeModes, FlagItem.isCollected, ho]

def flagsOf (modes : Bytes) (modeParams : List Bytes) : List FlagItem :=
  readFlags modeParams ⟨0, 0, true⟩ modes

/-- The first pass acts on all flags of the line; the second on those collected, if the issuer is
still an operator. -/
theorem applyModes_eq (s : Server) (p : ChannelPtr) (user : ClientPtr) (modes : Bytes)
    (modeParams : List Bytes) :
    let items := flagsOf modes modeParams
    let t := items.foldl (immediate p user) s
    s.applyModes p user modes modeParams =
      if ∀ item ∈ items, FlagItem.isCollected item = false then t
      else if !(t.channel p).isOperator user then t.chanOPrivsNeeded p user
      else
        let l := items.foldl (deferred p user) ⟨t, true, 0, [], [], 0⟩
        if !l.applied.isEmpty then
          l.server.sendToAll p (makeCommand (l.server.client user) (ascii "MODE")
            ((t.channel p).name ++ ascii " " ++ l.applied ++ l.appliedArgs))
        else l.server := by
  intro items t
  obtain ⟨h1, h2, h3⟩ := firstPass_eq p user modeParams ⟨s, 0, 0, true, [], [], 0⟩ modes
  change _ = items.foldl (immediate p user) s at h1
  change _ = [] ++ encodeModes 0 items at h2
  change _ = [] ++ encodeParams items at h3
  rw [List.nil_append] at h2 h3
  unfold applyModes
  simp only [h1, h2, h3]
  by_cases hnone : ∀ item ∈ items, FlagItem.isCollected item = false
  · rw [if_pos hnone, (encodeModes_eq_nil 0 items).mpr hnone]
    rfl
  · have hne : (encodeModes 0 items).isEmpty = false := by
      rw [List.isEmpty_eq_false_iff]
      exact fun h => hnone ((encodeModes_eq_nil 0 items).mp h)
    rw [if_neg hnone, hne]
    have hpass : ((encodeModes 0 items).foldl (ModeLoop.round p user (encodeParams items))
        ⟨t, true, 0, [], [], 0⟩).core =
          (items.foldl (deferred p user) ⟨t, true, 0, [], [], 0⟩).core :=
      secondPass_eq p user items (readFlags_wellFormed modeParams _ modes) rfl (.inl rfl) rfl
    simp only [ModeLoop.core, ModeLoop.mk.injEq] at hpass
    obtain ⟨hs, -, -, ha, haa, -⟩ := hpass
    simp only [Bool.not_false, if_true, handleMode, hne, Bool.false_eq_true, if_false]
    rw [hs, ha, haa]

end Server
end FtIrc
