import FtIrc.Effects.Lines

/-!
# MODE lines as effects

Both folds of a MODE line run over one assignment. Each flag is one effect at most; the notice at
the end is another. The bounds on the notice come from the assignment: at most three flags carry a
parameter, and a second key needs a flag in between that removes the first.
-/

namespace FtIrc

open Server.FilterLoop (isModeFlag isParamMode)

/-- The texts of a flag: its parameter, and the byte that an error would quote. -/
def FlagItem.Texts (P : Bytes → Prop) : FlagItem → Prop
  | .unknown c => P [c]
  | .missing => True
  | .act _ _ param => ∀ x, param = some x → P x

/-- The flags that count towards the limit of three. -/
def FlagItem.isParam : FlagItem → Bool
  | .act _ c _ => isParamMode c
  | _ => false

namespace Server

/-! ## Bounds of the assignment -/

theorem limitFlag_cases (r : FlagReader) (c : Byte) (param : Option Bytes) :
    (limitFlag r c param = (r, none) ∧ 3 ≤ r.paramModeCount) ∨
      (limitFlag r c param = (r, some (.act r.enable c param)) ∧ isParamMode c = false) ∨
      (limitFlag r c param = ({ r with paramModeCount := r.paramModeCount + 1 },
        some (.act r.enable c param)) ∧ isParamMode c = true ∧ r.paramModeCount < 3) := by
  unfold limitFlag
  by_cases hp : isParamMode c = true
  · by_cases h3 : 3 ≤ r.paramModeCount
    · exact .inl ⟨by simp [hp, h3], h3⟩
    · exact .inr (.inr ⟨by simp [hp, h3], hp, by omega⟩)
  · rw [Bool.not_eq_true] at hp
    exact .inr (.inl ⟨by simp [hp], hp⟩)

theorem readFlag_cases (modeParams : List Bytes) (r : FlagReader) (c : Byte) :
    ((readFlag modeParams r c).2 = none ∧
      ∃ enable, (readFlag modeParams r c).1 = { r with enable } ∧ (c = signByte enable)) ∨
    (readFlag modeParams r c = (r, some (.unknown c)) ∧ c ≠ byte '+' ∧ c ≠ byte '-' ∧
      isModeFlag c = false) ∨
    readFlag modeParams r c = (r, some .missing) ∨
    ∃ r' param, r'.paramModeCount = r.paramModeCount ∧ r'.enable = r.enable ∧
      (∀ x, param = some x → x ∈ modeParams) ∧ readFlag modeParams r c = limitFlag r' c param := by
  unfold readFlag
  split_ifs with h1 h2 h3 h4 h5
  · exact .inl ⟨rfl, true, rfl, h1⟩
  · exact .inl ⟨rfl, false, rfl, h2⟩
  · exact .inr (.inl ⟨rfl, h1, h2, by simpa using h3⟩)
  · cases hp : modeParams[r.paramIndex]? with
    | some param =>
      refine .inr (.inr (.inr ⟨{ r with paramIndex := r.paramIndex + 1 }, some param, rfl, rfl,
        ?_, rfl⟩))
      rintro x ⟨⟩
      exact List.mem_of_getElem? hp
    | none => exact .inr (.inr (.inl rfl))
  · cases hp : modeParams[r.paramIndex]? with
    | some param =>
      refine .inr (.inr (.inr ⟨{ r with paramIndex := r.paramIndex + 1 }, some param, rfl, rfl,
        ?_, rfl⟩))
      rintro x ⟨⟩
      exact List.mem_of_getElem? hp
    | none => exact .inr (.inr (.inr ⟨_, _, rfl, rfl, by simp, rfl⟩))
  · exact .inr (.inr (.inr ⟨_, _, rfl, rfl, by simp, rfl⟩))

theorem countP_readFlags (modeParams : List Bytes) (r : FlagReader) (modes : Bytes)
    (hr : r.paramModeCount ≤ 3) :
    (readFlags modeParams r modes).countP FlagItem.isParam + r.paramModeCount ≤ 3 := by
  induction modes generalizing r with
  | nil => simpa [readFlags] using hr
  | cons c cs ih =>
    rw [readFlags, List.countP_append]
    rcases readFlag_cases modeParams r c with ⟨h2, e, h1, -⟩ | ⟨h, -⟩ | h | ⟨r', param, hc, -, -, h⟩
    · rw [h2, h1]
      simpa using ih { r with enable := e } hr
    · rw [h]
      simpa [FlagItem.isParam] using ih r hr
    · rw [h]
      simpa [FlagItem.isParam] using ih r hr
    · rw [h]
      rcases limitFlag_cases r' c param with ⟨hl, -⟩ | ⟨hl, hp⟩ | ⟨hl, hp, h3⟩ <;> rw [hl]
      · simpa [hc] using ih r' (by omega)
      · simpa [hc, FlagItem.isParam, hp] using ih r' (by omega)
      · have hrest := ih { r' with paramModeCount := r'.paramModeCount + 1 } h3
        simp only [Option.toList_some, List.countP_singleton, FlagItem.isParam, hp, if_true] at hrest ⊢
        omega

theorem encodeModes_length_le (sign sign' : Byte) (items : List FlagItem) :
    (encodeModes sign items).length ≤ (encodeModes sign' items).length + 1 := by
  induction items generalizing sign sign' with
  | nil => simp [encodeModes]
  | cons item items ih =>
    rcases item with _ | _ | ⟨e, c, param⟩
    · exact ih sign sign'
    · exact ih sign sign'
    · simp only [encodeModes]
      split_ifs
      · exact ih sign sign'
      all_goals simp

/-- Each sign written by the first pass answers a sign of the mode string. -/
theorem encodeModes_readFlags_length (modeParams : List Bytes) (r : FlagReader) (sign : Byte)
    (modes : Bytes) :
    (encodeModes sign (readFlags modeParams r modes)).length ≤
      modes.length + if signByte r.enable = sign then 0 else 1 := by
  induction modes generalizing r sign with
  | nil => simp [readFlags, encodeModes]
  | cons c cs ih =>
    have hnone : ∀ r' : FlagReader, r'.enable = r.enable →
        (encodeModes sign (readFlags modeParams r' cs)).length ≤
          cs.length + 1 + if signByte r.enable = sign then 0 else 1 := by
      intro r' he
      have hrest := ih r' sign
      rw [he] at hrest
      omega
    have hact : ∀ (r' : FlagReader) (param : Option Bytes), r'.enable = r.enable →
        (encodeModes sign (.act r.enable c param :: readFlags modeParams r' cs)).length ≤
          cs.length + 1 + if signByte r.enable = sign then 0 else 1 := by
      intro r' param he
      by_cases ho : c = byte 'o'
      · rw [encodeModes, if_pos ho]
        exact hnone r' he
      · have hrest := ih r' (signByte r.enable)
        rw [he, if_pos rfl] at hrest
        rw [encodeModes, if_neg ho]
        by_cases hs : signByte r.enable = sign
        · simp [hs] at hrest ⊢
          exact hrest
        · simp [hs] at hrest ⊢
          omega
    rw [readFlags]
    rcases readFlag_cases modeParams r c with ⟨h2, e, h1, -⟩ | ⟨h, -⟩ | h | ⟨r', param, -, he, -, h⟩
    · have hrest := ih { r with enable := e } sign
      rw [h2, h1]
      simp only [Option.toList_none, List.nil_append, List.length_cons]
      split_ifs at hrest ⊢ <;> omega
    · rw [h]
      exact hnone r rfl
    · rw [h]
      exact hnone r rfl
    · rw [h, ← he]
      rw [← he] at hact hnone
      rcases limitFlag_cases r' c param with ⟨hl, -⟩ | ⟨hl, -⟩ | ⟨hl, -⟩ <;> rw [hl]
      · exact hnone r' rfl
      · exact hact r' param rfl
      · exact hact _ param rfl

/-- The texts of an assignment are parameters of the line and unknown flags of its mode string. -/
theorem texts_readFlags {P : Bytes → Prop} {modeParams : List Bytes}
    (hparams : ∀ x ∈ modeParams, P x) (r : FlagReader) {modes : Bytes}
    (hecho : ∀ b ∈ modes, b ≠ byte '+' → b ≠ byte '-' → isModeFlag b = false → P [b]) :
    ∀ item ∈ readFlags modeParams r modes, item.Texts P := by
  induction modes generalizing r with
  | nil => simp [readFlags]
  | cons c cs ih =>
    have ih := fun r' => ih r' fun b hb => hecho b (List.mem_cons_of_mem _ hb)
    intro item hitem
    rcases List.mem_append.mp hitem with hi | hi
    · rcases readFlag_cases modeParams r c with ⟨h2, -⟩ | ⟨h, hunknown⟩ | h | ⟨r', param, -, -, hp, h⟩
      · rw [h2] at hi
        cases hi
      · rw [h] at hi
        obtain rfl : item = .unknown c := by simpa using hi
        exact hecho c List.mem_cons_self hunknown.1 hunknown.2.1 hunknown.2.2
      · rw [h] at hi
        obtain rfl : item = .missing := by simpa using hi
        trivial
      · rw [h] at hi
        rcases limitFlag_cases r' c param with ⟨hl, -⟩ | ⟨hl, -⟩ | ⟨hl, -⟩ <;> rw [hl] at hi
        · cases hi
        all_goals
          obtain rfl : item = .act r'.enable c param := by simpa using hi
          exact fun x hx => hparams x (hp x hx)
    · exact ih _ item hi

/-! ## The first pass -/

theorem handleModeOperator_channels (s : Server) (p : ChannelPtr) (enable : Bool)
    (t user : ClientPtr) : (s.handleModeOperator p enable t user).channels = s.channels := by
  unfold handleModeOperator chanOPrivsNeeded
  dsimp only
  split_ifs <;> simp [sendOne_eq_emit, sendToAll_eq_emit]

theorem immediate_channels (p : ChannelPtr) (user : ClientPtr) (s : Server) (item : FlagItem) :
    (immediate p user s item).channels = s.channels := by
  rcases item with _ | _ | ⟨e, c, param⟩
  · rfl
  · rfl
  · simp only [immediate]
    split_ifs
    · split
      · exact handleModeOperator_channels ..
      · rfl
    · rfl

section modeLines

variable {P : Bytes → Prop} (hP : TextPred P) {msg : Message} {u : ClientPtr} {s : Server}

include hP

theorem effects_handleModeOperator {p : ChannelPtr} (hp : s.LiveChannel p) (enable : Bool)
    (t : ClientPtr) : Effects P msg u s (s.handleModeOperator p enable t u) := by
  unfold handleModeOperator
  dsimp only
  by_cases hm : (s.channel p).isMember t = true
  · by_cases hop : (s.channel p).isOperator u = true
    · by_cases he : (s.channel p).isOperator t = enable
      · simp only [hm, hop, he, Bool.not_true, Bool.false_eq_true, if_false, beq_self_eq_true, if_true]
        exact .refl
      · have hmembers : ((s.updChannel p (·.setModeOperator enable t)).channel p).members =
            (s.channel p).members := by
          rw [updChannel_channel_self]
          unfold Channel.setModeOperator
          split_ifs <;> rfl
        simp only [hm, hop, Bool.not_true, Bool.false_eq_true, if_false, beq_eq_false_iff_ne.mpr he]
        rw [sendToAll_eq_emit, hmembers]
        exact .single (.operator hp (by simpa [Channel.isOperator] using hop)
          (by simpa [Channel.isMember] using hm) he)
    · simp only [hm, hop, Bool.not_true, Bool.false_eq_true, if_false, Bool.not_false, if_true]
      exact effects_chanOPrivsNeeded hP p
  · simp only [hm, Bool.not_false, if_true]
    exact effects_sendOne hP (by decide) fun h => hP.append (hP.append (hP.append (h.nickname t)
      (hP.lit " " rfl)) (h.name p)) (hP.lit " :They aren't on that channel" rfl)

theorem effects_immediate {p : ChannelPtr} (hp : s.LiveChannel p) {item : FlagItem}
    (hitem : item.Texts P) : Effects P msg u s (immediate p u s item) := by
  rcases item with c | _ | ⟨e, c, param⟩
  · exact effects_replyTo hP (by decide) fun h =>
      hP.append (hP.append hitem (hP.lit " :is unknown mode char to me for " rfl)) (h.name p)
  · exact effects_replyTo hP (by decide) fun _ => hP.lit "MODE :Not enough parameters" rfl
  · simp only [immediate]
    split_ifs
    · split
      · exact effects_handleModeOperator hP hp e _
      · have hparam : P (param.getD []) := by
          cases param with
          | none => exact hP.nil
          | some x => exact hitem x rfl
        exact effects_replyTo hP (by decide) fun h => hP.append (hP.append (hP.append hparam
          (hP.lit " " rfl)) (h.name p)) (hP.lit " :They aren't on that channel" rfl)
    · exact .refl

theorem effects_firstPass {p : ChannelPtr} (hp : s.LiveChannel p) {items : List FlagItem}
    (hitems : ∀ item ∈ items, item.Texts P) :
    Effects P msg u s (items.foldl (immediate p u) s) ∧
      (items.foldl (immediate p u) s).channels = s.channels := by
  induction items generalizing s with
  | nil => exact ⟨.refl, rfl⟩
  | cons item items ih =>
    have hch := immediate_channels p u s item
    have hp' : (immediate p u s item).LiveChannel p := by
      rw [LiveChannel, hch]
      exact hp
    obtain ⟨hrest, hrch⟩ := ih hp' fun i hi => hitems i (List.mem_cons_of_mem _ hi)
    exact ⟨(effects_immediate hP hp (hitems item List.mem_cons_self)).trans hrest, hrch.trans hch⟩

/-! ## The second pass -/

/-- How many bytes of arguments `n` further flags with parameters can add to the notice; `set` says
whether the channel has a key. -/
def argBudget : Nat → Bool → Nat
  | 0, _ => 0
  | 1, false => 43
  | 1, true => 10
  | 2, false => 53
  | 2, true => 43
  | _ + 3, false => 86
  | _ + 3, true => 53

/-- The second pass, started in `t`, in front of the flags `items`. -/
structure SecondPass (P : Bytes → Prop) (msg : Message) (u : ClientPtr) (p : ChannelPtr) (t : Server)
    (items : List FlagItem) (l : ModeLoop) : Prop where
  effects : Effects P msg u t l.server
  channels : l.server.channels = t.channels
  name : (l.server.channel p).name = (t.channel p).name
  operators : (l.server.channel p).operators = (t.channel p).operators
  applied : ∀ b ∈ l.applied, b ∈ modeBytes
  length : l.applied.length + (encodeModes l.lastSign items).length ≤
    (msg.parameter.getD 1 []).length
  args : P l.appliedArgs
  shape : l.appliedArgs = [] ∨ ∃ rest, l.appliedArgs = byte ' ' :: rest
  count : items.countP FlagItem.isParam ≤ 3
  budget : l.appliedArgs.length +
    argBudget (items.countP FlagItem.isParam) (!(l.server.channel p).key.isEmpty) ≤ 86

omit hP in
theorem argBudget_mono (n : Nat) (set : Bool) : argBudget n set ≤ argBudget (n + 1) set := by
  match n, set with
  | 0, false | 0, true | 1, false | 1, true | 2, false | 2, true => decide
  | _ + 3, false | _ + 3, true => exact le_rfl

omit hP in
theorem encodeModes_cons_length (sign : Byte) (item : FlagItem) (items : List FlagItem) :
    (encodeModes sign items).length ≤ (encodeModes sign (item :: items)).length := by
  rcases item with _ | _ | ⟨e, c, param⟩
  · exact le_rfl
  · exact le_rfl
  · rw [encodeModes]
    split_ifs with ho hs
    · exact le_rfl
    · have hle := encodeModes_length_le sign (signByte e) items
      simpa using Nat.le_succ_of_le hle
    · rw [not_not.mp hs]
      simp

omit hP in
theorem appendApplied_eq (applied : Bytes) (sign : Byte) (e : Bool) (c : Byte) :
    appendApplied applied sign e c =
      (applied ++ (if signByte e ≠ sign then [signByte e] else []) ++ [c], signByte e) := by
  unfold appendApplied signByte
  dsimp only
  split_ifs <;> simp_all

section secondPass

variable {p : ChannelPtr} {t : Server} {items : List FlagItem} {l : ModeLoop}

omit hP

theorem SecondPass.skip {item : FlagItem} (h : SecondPass P msg u p t (item :: items) l) :
    SecondPass P msg u p t items l := by
  have hcount : items.countP FlagItem.isParam ≤ (item :: items).countP FlagItem.isParam := by
    rw [List.countP_cons]
    omega
  refine { h with
    length := (Nat.add_le_add_left (encodeModes_cons_length _ item items) _).trans h.length
    count := hcount.trans h.count
    budget := ?_ }
  refine le_trans (Nat.add_le_add_left ?_ _) h.budget
  rw [List.countP_cons]
  split_ifs
  · exact argBudget_mono _ _
  · exact le_rfl

theorem SecondPass.refuse {m : Bytes} (h : SecondPass P msg u p t items l) (hm : ServerReply m)
    (hPm : l.server.Texts P → P m) : SecondPass P msg u p t items (l.refuse u m) := by
  have hserver : (l.refuse u m).server = l.server.emit (Output.one u m) := sendOne_eq_emit _ _ _
  refine { h with effects := ?_, channels := ?_, name := ?_, operators := ?_, budget := ?_ }
  · rw [hserver]
    exact h.effects.tail (.reply hm hPm)
  all_goals rw [hserver]
  · exact h.channels
  · exact h.name
  · exact h.operators
  · exact h.budget

/-- A flag that is applied: `args` are the arguments it adds to the notice. -/
theorem SecondPass.apply (hP : TextPred P) (f : Channel → Channel) (args : Bytes) {e : Bool}
    {c : Byte} {param : Option Bytes}
    (h : SecondPass P msg u p t (.act e c param :: items) l) (hp : t.LiveChannel p)
    (hop : u ∈ (t.channel p).operators) (hc : c ∈ modeBytes)
    (hf : ModeChange P (l.server.channel p) (f (l.server.channel p))) (hPa : P args)
    (hshape : args = [] ∨ ∃ rest, args = byte ' ' :: rest)
    (hbudget : args.length +
        argBudget (items.countP FlagItem.isParam) (!(f (l.server.channel p)).key.isEmpty) ≤
      argBudget ((FlagItem.act e c param :: items).countP FlagItem.isParam)
        (!(l.server.channel p).key.isEmpty)) :
    SecondPass P msg u p t items
      { l.apply p f e c with appliedArgs := l.appliedArgs ++ args } := by
  have hlive : l.server.LiveChannel p := by
    rw [LiveChannel, h.channels]
    exact hp
  have hchan := hf.rest
  have hc_ne : c ≠ byte 'o' := by
    rintro rfl
    revert hc
    decide
  have hlen := h.length
  rw [encodeModes, if_neg hc_ne] at hlen
  constructor
  case effects => exact h.effects.tail (.mode hlive (h.operators ▸ hop) hf)
  case channels => exact h.channels
  case name =>
    simp only [ModeLoop.apply, updChannel_channel_self]
    rw [hchan]
    exact h.name
  case operators =>
    simp only [ModeLoop.apply, updChannel_channel_self]
    rw [hchan]
    exact h.operators
  case applied =>
    simp only [ModeLoop.apply, appendApplied_eq]
    intro b hb
    rcases List.mem_append.mp hb with hb | hb
    · rcases List.mem_append.mp hb with hb | hb
      · exact h.applied b hb
      · split_ifs at hb
        · obtain rfl := List.mem_singleton.mp hb
          cases e <;> decide
        · cases hb
    · obtain rfl := List.mem_singleton.mp hb
      exact hc
  case length =>
    simp only [ModeLoop.apply, appendApplied_eq, List.length_append, List.length_cons,
      List.length_nil] at hlen ⊢
    omega
  case args => exact hP.append h.args hPa
  case shape =>
    rcases h.shape with h0 | ⟨rest, h1⟩
    · simpa [h0] using hshape
    · exact .inr ⟨rest ++ args, by simp [h1]⟩
  case count => exact h.skip.count
  case budget =>
    have hb := h.budget
    simp only [ModeLoop.apply, updChannel_channel_self, List.length_append]
    omega

end secondPass

omit hP in
theorem parseLimit_some {raw : Bytes} {n : Nat} (h : parseLimit raw = some n) :
    raw.length ≤ 9 ∧ 0 < n ∧ n < 10 ^ 9 := by
  have hatoi : ∀ (s : Bytes) (acc : Nat), s.all isDigit = true →
      s.foldl (fun n b => 10 * n + (b.toNat - 48)) acc < (acc + 1) * 10 ^ s.length := by
    intro s
    induction s with
    | nil => intro acc _; simp
    | cons b s ih =>
      intro acc hs
      simp only [List.all_cons, Bool.and_eq_true] at hs
      have hb : b.toNat ≤ 57 := by
        have hd := hs.1
        simp only [isDigit, Bool.and_eq_true, decide_eq_true_eq, UInt8.le_iff_toNat_le] at hd
        exact hd.2
      have hstep : 10 * acc + (b.toNat - 48) + 1 ≤ (acc + 1) * 10 := by omega
      refine lt_of_lt_of_le (ih _ hs.2) ?_
      rw [List.length_cons, pow_succ', ← mul_assoc]
      exact Nat.mul_le_mul_right _ hstep
  unfold parseLimit at h
  split_ifs at h with h1 h2 h3
  obtain rfl := Option.some.inj h
  simp only [Bool.or_eq_true, decide_eq_true_eq, not_or, not_lt] at h1
  have hlt := hatoi raw 0 (by simpa using h2)
  rw [zero_add, one_mul] at hlt
  exact ⟨h1.2, h3, lt_of_lt_of_le hlt (Nat.pow_le_pow_right (by decide) h1.2)⟩

omit hP in
theorem isValidKey_length {key : Bytes} (h : isValidKey key = true) :
    key ≠ [] ∧ key.length ≤ 42 := by
  simp only [isValidKey, Bool.and_eq_true, Bool.not_eq_true', List.isEmpty_eq_false_iff,
    decide_eq_true_eq] at h
  exact h.1

omit hP in
theorem argBudget_key {n : Nat} (hn : n ≤ 2) :
    43 + argBudget n true ≤ argBudget (n + 1) false ∧
      argBudget n false ≤ argBudget (n + 1) true := by
  interval_cases n <;> decide

omit hP in
theorem argBudget_limit {n : Nat} (hn : n ≤ 2) (set : Bool) :
    10 + argBudget n set ≤ argBudget (n + 1) set := by
  interval_cases n <;> cases set <;> decide

/-- One flag of the second pass. -/
theorem secondPass_step {p : ChannelPtr} {t : Server} {items : List FlagItem} {l : ModeLoop}
    {item : FlagItem} (h : SecondPass P msg u p t (item :: items) l) (hwf : item.WellFormed)
    (htext : item.Texts P) (hp : t.LiveChannel p) (hop : u ∈ (t.channel p).operators) :
    SecondPass P msg u p t items (deferred p u l item) := by
  rcases item with _ | _ | ⟨e, c, param⟩
  · exact h.skip
  · exact h.skip
  · obtain ⟨hmode, hreq⟩ := hwf
    simp only [deferred]
    have hstart : SecondPass P msg u p t (.act e c param :: items)
        { l with enable := e, paramIndex := 0 } := { h with }
    have hcount : isParamMode c = true →
        (FlagItem.act e c param :: items).countP FlagItem.isParam =
            items.countP FlagItem.isParam + 1 ∧ items.countP FlagItem.isParam ≤ 2 := by
      intro hc
      have hadd : (FlagItem.act e c param :: items).countP FlagItem.isParam =
          items.countP FlagItem.isParam + 1 := List.countP_cons_of_pos hc
      have hle := h.count
      omega
    have hplain : ∀ (f : Channel → Channel), c ∈ modeBytes →
        ModeChange P (l.server.channel p) (f (l.server.channel p)) →
        argBudget (items.countP FlagItem.isParam) (!(f (l.server.channel p)).key.isEmpty) ≤
          argBudget ((FlagItem.act e c param :: items).countP FlagItem.isParam)
            (!(l.server.channel p).key.isEmpty) →
        SecondPass P msg u p t items
          (({ l with enable := e, paramIndex := 0 } : ModeLoop).apply p f e c) := by
      intro f hc hf hb
      have happly := SecondPass.apply hP f [] hstart hp hop hc hf hP.nil (.inl rfl)
        (by simpa using hb)
      rwa [List.append_nil] at happly
    have hkeep : argBudget (items.countP FlagItem.isParam) (!(l.server.channel p).key.isEmpty) ≤
        argBudget ((FlagItem.act e c param :: items).countP FlagItem.isParam)
          (!(l.server.channel p).key.isEmpty) := by
      rw [List.countP_cons]
      split_ifs
      · exact argBudget_mono _ _
      · exact le_rfl
    rcases (isModeFlag_iff c).mp hmode with rfl | rfl | rfl | rfl | rfl
    · exact h.skip
    · rw [if_neg (by decide), ModeLoop.round_i]
      split_ifs
      · exact hplain _ (by decide) ⟨rfl, .inl rfl, .inl rfl⟩ hkeep
      · exact hstart.skip
    · rw [if_neg (by decide), ModeLoop.round_t]
      split_ifs
      · exact hplain _ (by decide) ⟨rfl, .inl rfl, .inl rfl⟩ hkeep
      · exact hstart.skip
    · obtain ⟨hc1, hc2⟩ := hcount (by decide)
      rw [if_neg (by decide), ModeLoop.round_k]
      unfold ModeLoop.keyRound
      cases e with
      | false =>
        simp only [Bool.false_eq_true, if_false]
        split_ifs with hset
        · refine hplain _ (by decide) ⟨rfl, .inr (.inl rfl), .inl rfl⟩ ?_
          rw [hc1, hset]
          exact (argBudget_key hc2).2
        · exact hstart.skip
      | true =>
        obtain ⟨x, rfl⟩ := Option.isSome_iff_exists.mp (hreq (by decide))
        have hx : P x := htext x rfl
        simp only [if_true, Option.toList_some, List.getElem?_cons_zero]
        have hnext : SecondPass P msg u p t (.act true (byte 'k') (some x) :: items)
            { l with enable := true, paramIndex := 0 + 1 } := { h with }
        split_ifs with hvalid hset
        · exact hnext.skip.refuse (serverReply_makeReply (by decide) ..) fun hT =>
            hP.makeReply _ (hT.nickname u)
              (hP.append (hT.name p) (hP.lit " :Key is not well-formed" rfl))
        · exact hnext.skip.refuse (serverReply_makeReply (by decide) ..) fun hT =>
            hP.makeReply _ (hT.nickname u)
              (hP.append (hT.name p) (hP.lit " :Channel key already set" rfl))
        · have hv : isValidKey x = true := by simpa using hvalid
          obtain ⟨hxne, hxlen⟩ := isValidKey_length hv
          have happly := SecondPass.apply hP (·.setModeKey true x) (ascii " " ++ x) hnext hp hop
            (by decide) ⟨rfl, .inr (.inr ⟨hv, hx⟩), .inl rfl⟩ (hP.append (hP.lit " " rfl) hx)
            (.inr ⟨x, rfl⟩)
          rw [← List.append_assoc] at happly
          refine happly ?_
          have hempty : (!(l.server.channel p).key.isEmpty) = false := by simpa using hset
          have hxset : (!x.isEmpty) = true := by simpa using hxne
          simp only [Channel.setModeKey, if_true, hempty, hxset]
          rw [hc1, List.length_append]
          have hb := (argBudget_key hc2).1
          have h1 : (ascii " ").length = 1 := rfl
          omega
    · obtain ⟨hc1, hc2⟩ := hcount (by decide)
      rw [if_neg (by decide), ModeLoop.round_l]
      unfold ModeLoop.limitRound
      cases e with
      | false =>
        simp only [Bool.false_eq_true, if_false]
        split_ifs
        · exact hplain _ (by decide) ⟨rfl, .inl rfl, .inr (Nat.pow_pos (by decide))⟩ hkeep
        · exact hstart.skip
      | true =>
        obtain ⟨x, rfl⟩ := Option.isSome_iff_exists.mp (hreq (by decide))
        have hx : P x := htext x rfl
        simp only [if_true, Option.toList_some, List.getElem?_cons_zero]
        have hnext : SecondPass P msg u p t (.act true (byte 'l') (some x) :: items)
            { l with enable := true, paramIndex := 0 + 1 } := { h with }
        cases hlim : parseLimit x with
        | none =>
          exact hnext.skip.refuse (serverReply_makeReply (by decide) ..) fun hT =>
            hP.makeReply _ (hT.nickname u) (hP.append (hP.append (hP.append (hT.name p)
              (hP.lit " l " rfl)) hx) (hP.lit " :Invalid limit value" rfl))
        | some n =>
          obtain ⟨hlen, -, hlt⟩ := parseLimit_some hlim
          have happly := SecondPass.apply hP (·.setModeUserLimit true n) (ascii " " ++ x) hnext
            hp hop (by decide) ⟨rfl, .inl rfl, .inr hlt⟩ (hP.append (hP.lit " " rfl) hx)
            (.inr ⟨x, rfl⟩)
          rw [← List.append_assoc] at happly
          refine happly ?_
          simp only [Channel.setModeUserLimit]
          rw [hc1, List.length_append]
          have hb := argBudget_limit hc2 (!(l.server.channel p).key.isEmpty)
          have h1 : (ascii " ").length = 1 := rfl
          omega

theorem secondPass_fold {p : ChannelPtr} {t : Server} {items : List FlagItem} {l : ModeLoop}
    (h : SecondPass P msg u p t items l) (hwf : ∀ item ∈ items, item.WellFormed)
    (htext : ∀ item ∈ items, item.Texts P) (hp : t.LiveChannel p)
    (hop : u ∈ (t.channel p).operators) :
    SecondPass P msg u p t [] (items.foldl (deferred p u) l) := by
  induction items generalizing l with
  | nil => exact h
  | cons item items ih =>
    exact ih (secondPass_step hP h (hwf item List.mem_cons_self) (htext item List.mem_cons_self)
      hp hop) (fun i hi => hwf i (List.mem_cons_of_mem _ hi))
      fun i hi => htext i (List.mem_cons_of_mem _ hi)

/-! ## The line -/

/-- A mode string that starts with a sign, for a channel of which the issuer is an operator. -/
theorem effects_applyModes {p : ChannelPtr} (hp : s.LiveChannel p) {sign : Byte} {flags : Bytes}
    (hsign : sign = byte '+' ∨ sign = byte '-')
    (hlim : (sign :: flags).length ≤ (msg.parameter.getD 1 []).length) {modeParams : List Bytes}
    (hparams : ∀ x ∈ modeParams, P x)
    (hecho : ∀ b ∈ sign :: flags, b ≠ byte '+' → b ≠ byte '-' → isModeFlag b = false → P [b]) :
    Effects P msg u s (s.applyModes p u (sign :: flags) modeParams) := by
  have hitems : ∀ item ∈ flagsOf (sign :: flags) modeParams, item.Texts P :=
    texts_readFlags hparams ⟨0, 0, true⟩ hecho
  have hwf : ∀ item ∈ flagsOf (sign :: flags) modeParams, item.WellFormed :=
    readFlags_wellFormed modeParams ⟨0, 0, true⟩ (sign :: flags)
  have hcount : (flagsOf (sign :: flags) modeParams).countP FlagItem.isParam ≤ 3 :=
    countP_readFlags modeParams ⟨0, 0, true⟩ (sign :: flags) (by decide)
  have hlen : (encodeModes 0 (flagsOf (sign :: flags) modeParams)).length ≤
      (msg.parameter.getD 1 []).length := by
    have hflags : ∀ e, (encodeModes 0 (readFlags modeParams ⟨0, 0, e⟩ flags)).length ≤
        flags.length + 1 := by
      intro e
      have hrest := encodeModes_readFlags_length modeParams ⟨0, 0, e⟩ 0 flags
      rwa [if_neg (signByte_ne_zero e)] at hrest
    refine le_trans ?_ hlim
    rcases hsign with rfl | rfl
    · exact hflags true
    · exact hflags false
  have hfirst : Effects P msg u s ((flagsOf (sign :: flags) modeParams).foldl (immediate p u) s) ∧
      ((flagsOf (sign :: flags) modeParams).foldl (immediate p u) s).channels = s.channels :=
    effects_firstPass hP hp hitems
  obtain ⟨hfirst, hch⟩ := hfirst
  rw [applyModes_eq]
  generalize flagsOf (sign :: flags) modeParams = items at *
  generalize items.foldl (immediate p u) s = t at *
  have hpt : t.LiveChannel p := by
    rw [LiveChannel, hch]
    exact hp
  dsimp only
  split_ifs with hnone hop happlied
  · exact hfirst
  · exact hfirst.trans (effects_chanOPrivsNeeded hP p)
  all_goals
    have hop' : u ∈ (t.channel p).operators := by simpa [Channel.isOperator] using hop
    have hstart : SecondPass P msg u p t items ⟨t, true, 0, [], [], 0⟩ := by
      refine ⟨.refl, rfl, rfl, rfl, by simp, by simpa using hlen, hP.nil, .inl rfl, hcount, ?_⟩
      have hbudget : ∀ n, n ≤ 3 → ∀ set, argBudget n set ≤ 86 := by
        intro n hn set
        interval_cases n <;> cases set <;> decide
      simpa using hbudget _ hcount _
    have hend := secondPass_fold hP hstart hwf hitems hpt hop'
    generalize items.foldl (deferred p u) ⟨t, true, 0, [], [], 0⟩ = l at *
  · rw [sendToAll_eq_emit, ← hend.name]
    refine hfirst.trans (hend.effects.tail (.announce ?_ ?_ ?_ hend.applied ?_ hend.shape ?_ hend.args))
    · rw [LiveChannel, hend.channels]
      exact hpt
    · rw [hend.operators]
      exact hop'
    · simpa using happlied
    · exact le_trans (Nat.le_add_right _ _) hend.length
    · exact le_trans (Nat.le_add_right _ _) hend.budget
  · exact hfirst.trans hend.effects

end modeLines

end Server
end FtIrc
