import FtIrc.Effects.ModeLines
import FtIrc.Effects.Sessions
import FtIrc.Library.Replay
import FtIrc.Library.Words

/-!
# The MODE notice

The notice is a record of what `handleMode` changed: whoever replays its flags and arguments on the
old settings of the channel gets the new ones.
-/

namespace FtIrc

/-- What i, t, k and l set. -/
structure Settings where
  inviteOnly : Bool
  topicByOpOnly : Bool
  key : Bytes
  userLimit : Nat

namespace Channel

def settings (ch : Channel) : Settings where
  inviteOnly := ch.inviteOnly
  topicByOpOnly := ch.topicByOpOnly
  key := ch.key
  userLimit := ch.userLimit

def withSettings (ch : Channel) (st : Settings) : Channel :=
  { ch with
    inviteOnly := st.inviteOnly
    topicByOpOnly := st.topicByOpOnly
    key := st.key
    userLimit := st.userLimit }

end Channel

/-! ## Replay -/

/-- A sign sets the direction. `+k` and `+l` take an argument. -/
def readMode : Reader (Bool × Settings) Byte Bytes
  | c, ((enable, st), args) =>
    if c = byte '+' then some ((true, st), args)
    else if c = byte '-' then some ((false, st), args)
    else if c = byte 'i' then some ((enable, { st with inviteOnly := enable }), args)
    else if c = byte 't' then some ((enable, { st with topicByOpOnly := enable }), args)
    else if c = byte 'k' then
      if enable then
        match args with
        | [] => none
        | key :: rest => some ((enable, { st with key }), rest)
      else some ((enable, { st with key := [] }), args)
    else if c = byte 'l' then
      if enable then
        match args with
        | [] => none
        | raw :: rest => some ((enable, { st with userLimit := atoi raw }), rest)
      else some ((enable, { st with userLimit := 0 }), args)
    else none

/-- The settings after a notice whose flags use up its arguments. -/
def replayNotice (old : Settings) (flags : Bytes) (args : List Bytes) : Option Settings :=
  match readMode.replay flags ((true, old), args) with
  | some ((_, new), []) => some new
  | _ => none

theorem readMode_local : readMode.Local := by
  intro c st args st' rest h more
  obtain ⟨enable, st⟩ := st
  unfold readMode at h ⊢
  dsimp only at h ⊢
  split_ifs at h ⊢
  all_goals first
    | (obtain ⟨rfl, rfl⟩ := Prod.mk.inj (Option.some.inj h); rfl)
    | (cases args <;> cases h; rfl)

/-! ## Signs -/

open Server (signByte)

def isSign (c : Byte) : Bool := c == byte '+' || c == byte '-'

/-- No sign follows a sign, and the last byte is no sign. -/
structure WellSigned (flags : Bytes) : Prop where
  chain : flags.IsChain fun a b => ¬ (isSign a = true ∧ isSign b = true)
  last : ∀ c ∈ flags.getLast?, isSign c = false

theorem WellSigned.append_flag {flags : Bytes} (h : WellSigned flags) {c : Byte}
    (hc : isSign c = false) : WellSigned (flags ++ [c]) := by
  constructor
  · refine List.isChain_append.mpr ⟨h.chain, List.isChain_singleton c, fun a _ b hb hsigns => ?_⟩
    obtain rfl : c = b := by simpa using hb
    exact absurd hsigns.2 (by simp [hc])
  · intro a ha
    obtain rfl : c = a := by simpa using ha
    exact hc

theorem WellSigned.append_signed {flags : Bytes} (h : WellSigned flags) (enable : Bool) {c : Byte}
    (hc : isSign c = false) : WellSigned (flags ++ [signByte enable] ++ [c]) := by
  constructor
  · refine List.isChain_append.mpr ⟨?_, List.isChain_singleton c, fun a _ b hb hsigns => ?_⟩
    · refine List.isChain_append.mpr ⟨h.chain, List.isChain_singleton _, fun a ha b _ hsigns => ?_⟩
      exact absurd hsigns.1 (by simp [h.last a ha])
    · obtain rfl : c = b := by simpa using hb
      exact absurd hsigns.2 (by simp [hc])
  · intro a ha
    obtain rfl : c = a := by simpa using ha
    exact hc

namespace Server

/-! ## The loop of `handleMode` -/

theorem withSettings_settings (s : Server) (p : ChannelPtr) :
    s.updChannel p (·.withSettings (s.channel p).settings) = s := by
  have hsame : (s.channel p).withSettings (s.channel p).settings = s.channel p := rfl
  rw [updChannel, hsame, Function.update_eq_self]

theorem updChannel_updChannel (s : Server) (p : ChannelPtr) (f g : Channel → Channel) :
    (s.updChannel p f).updChannel p g = s.updChannel p fun ch => g (f ch) := by
  simp [updChannel]

/-- What the loop did so far: errors to the issuer, and new settings of which it has a record. -/
structure Recorded (s : Server) (p : ChannelPtr) (user : ClientPtr) (l : ModeLoop)
    (errors args : List Bytes) (st : Settings) : Prop where
  server : l.server = (s.updChannel p (·.withSettings st)).emit (Output.list user errors)
  errors : ∀ m ∈ errors, ServerReply m
  replay : ∃ enable, readMode.replay l.applied ((true, (s.channel p).settings), args) =
    some ((enable, st), []) ∧ (l.lastSign = 0 ∨ l.lastSign = signByte enable)
  appliedArgs : l.appliedArgs = (args.map (byte ' ' :: ·)).flatten
  words : ∀ a ∈ args, byte ' ' ∉ a
  signs : WellSigned l.applied
  flags : byte ' ' ∉ l.applied

def Records (s : Server) (p : ChannelPtr) (user : ClientPtr) (l : ModeLoop) : Prop :=
  ∃ errors args st, Recorded s p user l errors args st

section recorded

variable {s : Server} {p : ChannelPtr} {user : ClientPtr} {l : ModeLoop}
  {errors args : List Bytes} {st : Settings}

theorem Recorded.channel (h : Recorded s p user l errors args st) :
    l.server.channel p = (s.channel p).withSettings st := by
  rw [h.server, emit_channel, updChannel_channel_self]

theorem Recorded.refuse (h : Recorded s p user l errors args st) {m : Bytes}
    (hm : ServerReply m) : Records s p user (l.refuse user m) := by
  refine ⟨errors ++ [m], args, st, { h with server := ?_, errors := ?_ }⟩
  · show l.server.sendToOne user m = _
    rw [h.server, sendOne_eq_emit, emit_emit, Output.list_append_one]
  · intro m' hm'
    rcases List.mem_append.mp hm' with hm' | hm'
    · exact h.errors m' hm'
    · rw [List.mem_singleton.mp hm']
      exact hm

/-- A flag that is applied, with the arguments that it takes. -/
theorem Recorded.apply (h : Recorded s p user l errors args st) (f : Channel → Channel)
    (enable : Bool) (flag : Byte) (more : List Bytes) (st' : Settings)
    (hf : ∀ ch : Channel, f (ch.withSettings st) = ch.withSettings st')
    (hread : readMode flag ((enable, st), more) = some ((enable, st'), []))
    (hsign : isSign flag = false) (hspace : flag ≠ byte ' ')
    (hmore : ∀ a ∈ more, byte ' ' ∉ a) :
    Records s p user { l.apply p f enable flag with
      appliedArgs := l.appliedArgs ++ (more.map (byte ' ' :: ·)).flatten } := by
  obtain ⟨e, hreplay, hlast⟩ := h.replay
  have happend := appendApplied_eq l.applied l.lastSign enable flag
  refine ⟨errors, args ++ more, st', ⟨?_, h.errors, ⟨enable, ?_, .inr ?_⟩, ?_, ?_, ?_, ?_⟩⟩
  · show l.server.updChannel p f = _
    rw [h.server, emit_updChannel, updChannel_updChannel]
    congr 2
    exact funext hf
  · show readMode.replay (appendApplied l.applied l.lastSign enable flag).1 _ = _
    rw [happend]
    dsimp only
    split_ifs with hne
    · have hturn : readMode (signByte enable) ((e, st), []) = some ((enable, st), []) := by
        cases enable <;> rfl
      have hsigned := Reader.replay_snoc readMode_local hreplay hturn
      rw [List.append_nil] at hsigned
      exact Reader.replay_snoc readMode_local hsigned hread
    · -- the sign in force is that of the flag
      have hsame : e = enable := by
        rcases hlast with h0 | hlast
        · exact absurd ((not_not.mp hne).trans h0) (signByte_ne_zero enable)
        · exact signByte_injective (hlast.symm.trans (not_not.mp hne).symm)
      rw [hsame] at hreplay
      rw [List.append_nil]
      exact Reader.replay_snoc readMode_local hreplay hread
  · show (appendApplied l.applied l.lastSign enable flag).2 = _
    rw [happend]
  · show l.appliedArgs ++ _ = _
    rw [h.appliedArgs, List.map_append, List.flatten_append]
  · intro a ha
    rcases List.mem_append.mp ha with ha | ha
    · exact h.words a ha
    · exact hmore a ha
  · show WellSigned (appendApplied l.applied l.lastSign enable flag).1
    rw [happend]
    dsimp only
    split_ifs
    · exact h.signs.append_signed enable hsign
    · rw [List.append_nil]
      exact h.signs.append_flag hsign
  · show byte ' ' ∉ (appendApplied l.applied l.lastSign enable flag).1
    rw [happend]
    have hs : signByte enable ≠ byte ' ' := by cases enable <;> decide
    have hf := h.flags
    dsimp only
    split_ifs <;> simp [hf, hs.symm, hspace.symm]

theorem Recorded.applyPlain (h : Recorded s p user l errors args st) (f : Channel → Channel)
    (enable : Bool) (flag : Byte) (st' : Settings)
    (hf : ∀ ch : Channel, f (ch.withSettings st) = ch.withSettings st')
    (hread : readMode flag ((enable, st), []) = some ((enable, st'), []))
    (hsign : isSign flag = false) (hspace : flag ≠ byte ' ') :
    Records s p user (l.apply p f enable flag) := by
  have happly := h.apply f enable flag [] st' hf hread hsign hspace (List.forall_mem_nil _)
  rw [List.map_nil, List.flatten_nil, List.append_nil] at happly
  exact happly

theorem isValidKey_no_space {key : Bytes} (h : isValidKey key = true) : byte ' ' ∉ key := by
  intro hin
  simp only [isValidKey, Bool.and_eq_true, List.all_eq_true] at h
  have hspace := h.2 _ hin
  revert hspace
  decide

theorem parseLimit_no_space {raw : Bytes} {n : Nat} (h : parseLimit raw = some n) :
    byte ' ' ∉ raw ∧ atoi raw = n := by
  unfold parseLimit at h
  split_ifs at h with h1 h2 h3
  refine ⟨fun hin => ?_, Option.some.inj h⟩
  have hdigits : raw.all isDigit = true := by simpa using h2
  have hspace := List.all_eq_true.mp hdigits _ hin
  revert hspace
  decide

theorem argument_eq (x : Bytes) : ([x].map (byte ' ' :: ·)).flatten = ascii " " ++ x := by
  simp
  rfl

theorem recorded_keyRound (h : Recorded s p user l errors args st) (modeParams : List Bytes) :
    Records s p user (l.keyRound p user modeParams) := by
  unfold ModeLoop.keyRound
  dsimp only
  cases henable : l.enable with
  | false =>
    simp only [Bool.false_eq_true, if_false]
    split_ifs
    · exact h.applyPlain (·.setModeKey false []) false (byte 'k') { st with key := [] }
        (fun _ => rfl) rfl (by decide) (by decide)
    · exact ⟨errors, args, st, h⟩
  | true =>
    simp only [if_true]
    cases modeParams[l.paramIndex]? with
    | none => exact ⟨errors, args, st, h⟩
    | some newKey =>
      have hnext : Recorded s p user { l with paramIndex := l.paramIndex + 1, enable := true }
          errors args st := { h with }
      dsimp only
      split_ifs with hvalid hold
      · exact hnext.refuse (serverReply_makeReply (by decide) ..)
      · exact hnext.refuse (serverReply_makeReply (by decide) ..)
      · have hkey : isValidKey newKey = true := by simpa using hvalid
        have happly := hnext.apply (·.setModeKey true newKey) true (byte 'k') [newKey]
          { st with key := newKey } (fun _ => rfl) rfl (by decide) (by decide)
          (by simpa using isValidKey_no_space hkey)
        rw [argument_eq, ← List.append_assoc] at happly
        exact happly

theorem recorded_limitRound (h : Recorded s p user l errors args st) (modeParams : List Bytes) :
    Records s p user (l.limitRound p user modeParams) := by
  unfold ModeLoop.limitRound
  dsimp only
  cases henable : l.enable with
  | false =>
    simp only [Bool.false_eq_true, if_false]
    split_ifs
    · exact h.applyPlain (·.setModeUserLimit false 0) false (byte 'l') { st with userLimit := 0 }
        (fun _ => rfl) rfl (by decide) (by decide)
    · exact ⟨errors, args, st, h⟩
  | true =>
    simp only [if_true]
    cases modeParams[l.paramIndex]? with
    | none => exact ⟨errors, args, st, h⟩
    | some raw =>
      have hnext : Recorded s p user { l with paramIndex := l.paramIndex + 1, enable := true }
          errors args st := { h with }
      dsimp only
      cases hlimit : parseLimit raw with
      | none => exact hnext.refuse (serverReply_makeReply (by decide) ..)
      | some limit =>
        obtain ⟨hspace, hvalue⟩ := parseLimit_no_space hlimit
        have hread : readMode (byte 'l') ((true, st), [raw]) =
            some ((true, { st with userLimit := limit }), []) := by
          rw [← hvalue]
          rfl
        have happly := hnext.apply (·.setModeUserLimit true limit) true (byte 'l') [raw]
          { st with userLimit := limit } (fun _ => rfl) hread (by decide) (by decide)
          (by simpa using hspace)
        rw [argument_eq, ← List.append_assoc] at happly
        exact happly

/-- One character of the mode string. -/
theorem recorded_round (h : Recorded s p user l errors args st) (modeParams : List Bytes)
    (mode : Byte) : Records s p user (l.round p user modeParams mode) := by
  unfold ModeLoop.round
  dsimp only
  have hturn : ∀ enable, Records s p user { l with enable } := fun enable =>
    ⟨errors, args, st, { h with }⟩
  split_ifs
  · exact hturn true
  · exact hturn false
  · exact h.applyPlain (·.setModeInviteOnly l.enable) l.enable (byte 'i')
      { st with inviteOnly := l.enable } (fun _ => rfl) rfl (by decide) (by decide)
  · exact ⟨errors, args, st, h⟩
  · exact h.applyPlain (·.setModeTopicRestriction l.enable) l.enable (byte 't')
      { st with topicByOpOnly := l.enable } (fun _ => rfl) rfl (by decide) (by decide)
  · exact ⟨errors, args, st, h⟩
  · exact recorded_keyRound h modeParams
  · exact recorded_limitRound h modeParams
  · exact h.refuse (serverReply_makeReply (by decide) ..)

theorem records_loop (s : Server) (p : ChannelPtr) (user : ClientPtr) (modes : Bytes)
    (modeParams : List Bytes) :
    Records s p user (modes.foldl (ModeLoop.round p user modeParams) ⟨s, true, 0, [], [], 0⟩) := by
  have hstart : Records s p user ⟨s, true, 0, [], [], 0⟩ := by
    refine ⟨[], [], (s.channel p).settings, ⟨?_, List.forall_mem_nil _, ⟨true, rfl, .inl rfl⟩, rfl,
      List.forall_mem_nil _, ⟨List.isChain_nil, by simp⟩, List.not_mem_nil⟩⟩
    rw [Output.list_nil, emit_none, withSettings_settings]
  generalize (⟨s, true, 0, [], [], 0⟩ : ModeLoop) = l at hstart
  induction modes generalizing l with
  | nil => exact hstart
  | cons mode modes ih =>
    obtain ⟨errors, args, st, h⟩ := hstart
    exact ih _ (recorded_round h modeParams mode)

end recorded

/-! ## The notice -/

/-- The body of a MODE notice, from its flags on, records the change. -/
def Describes (old new : Settings) (body : Bytes) : Prop :=
  ∃ flags args, body.splitOn (byte ' ') = flags :: args ∧ replayNotice old flags args = some new ∧
    WellSigned flags

/-- `s'` is `s` with other settings of the channel and with errors to the issuer. Either the channel is
told exactly this change, or nothing has changed. -/
def ToldExactly (s : Server) (p : ChannelPtr) (user : ClientPtr) (s' : Server) : Prop :=
  ∃ errors new, (∀ m ∈ errors, ServerReply m) ∧
    let t := (s.updChannel p (·.withSettings new)).emit (Output.list user errors)
    (s' = t ∧ new = (s.channel p).settings) ∨
      ∃ body, s' = t.emit (Output.all (s.channel p).members
          (makeCommand (s.client user) (ascii "MODE") ((s.channel p).name ++ ascii " " ++ body))) ∧
        Describes (s.channel p).settings new body

theorem handleMode_notice {s : Server} {p : ChannelPtr} {user : ClientPtr}
    (hop : (s.channel p).isOperator user = true) (modes : Bytes) (modeParams : List Bytes) :
    s.ToldExactly p user (s.handleMode p user modes modeParams) := by
  have hquiet : ∀ m, ServerReply m → ∃ errors new, (∀ m ∈ errors, ServerReply m) ∧
      s.sendToOne user m = (s.updChannel p (·.withSettings new)).emit (Output.list user errors) ∧
      new = (s.channel p).settings := by
    intro m hm
    refine ⟨[m], (s.channel p).settings, by simpa using hm, ?_, rfl⟩
    rw [withSettings_settings, sendOne_eq_emit]
    rfl
  by_cases hmodes : modes.isEmpty = true
  · obtain ⟨m, hm, hsend⟩ : ∃ m, ServerReply m ∧
        s.handleMode p user modes modeParams = s.sendToOne user m := by
      simp only [handleMode, hmodes, if_true]
      split_ifs
      · exact ⟨_, serverReply_makeReply (by decide) .., rfl⟩
      · exact ⟨_, serverReply_makeReply (by decide) .., rfl⟩
    obtain ⟨errors, new, herrors, heq, hnew⟩ := hquiet m hm
    exact ⟨errors, new, herrors, .inl ⟨hsend.trans heq, hnew⟩⟩
  obtain ⟨errors, args, new, h⟩ := records_loop s p user modes modeParams
  simp only [handleMode, hmodes, hop, Bool.not_true, Bool.false_eq_true, if_false]
  generalize modes.foldl (ModeLoop.round p user modeParams) ⟨s, true, 0, [], [], 0⟩ = l at h
  obtain ⟨enable, hreplay, -⟩ := h.replay
  refine ⟨errors, new, h.errors, ?_⟩
  split_ifs with happlied
  · right
    refine ⟨l.applied ++ l.appliedArgs, ?_, l.applied, args, ?_, ?_, h.signs⟩
    · have hmembers : ((s.updChannel p (·.withSettings new)).channel p).members =
          (s.channel p).members := by
        rw [updChannel_channel_self]
        rfl
      rw [sendToAll_eq_emit, h.server, emit_channel, emit_client, Client.makeCommand_sendAll, hmembers,
        updChannel_client, List.append_assoc _ l.applied]
    · rw [h.appliedArgs]
      exact @splitOn_joinWords _ _ _ (_ :: _) (by simp)
        (List.forall_mem_cons.mpr ⟨h.flags, h.words⟩)
    · rw [replayNotice, hreplay]
  · left
    refine ⟨h.server, ?_⟩
    have hnil : l.applied = [] := by simpa using happlied
    rw [hnil, Reader.replay_nil] at hreplay
    have hst := congrArg (fun x => x.1.2) (Option.some.inj hreplay)
    exact hst.symm

/-- Two keys and two limits in one line; the second key fails, and the notice shows what was done. -/
theorem handleMode_notice_keys : ∃ s, session (registers 4 (ascii "ann") ++
      typed 4 (ascii "JOIN #a")) = some s ∧
    ((s.handleMode 1 1 (ascii "+kk-k+l-l+l") [ascii "one", ascii "two", ascii "5", ascii "7"]).client
      1).replies.getLast? = some (ascii ":ann!ann@127.0.0.1 MODE #a +k-k+l-l+l one 5 7") ∧
    s.ToldExactly 1 1
      (s.handleMode 1 1 (ascii "+kk-k+l-l+l") [ascii "one", ascii "two", ascii "5", ascii "7"]) := by
  obtain ⟨s, hs, hview⟩ := Option.map_eq_some_iff.mp (by decide +kernel :
    (session (registers 4 (ascii "ann") ++ typed 4 (ascii "JOIN #a"))).map (fun s =>
      ((s.channel 1).isOperator 1, ((s.handleMode 1 1 (ascii "+kk-k+l-l+l")
        [ascii "one", ascii "two", ascii "5", ascii "7"]).client 1).replies.getLast?)) =
      some (true, some (ascii ":ann!ann@127.0.0.1 MODE #a +k-k+l-l+l one 5 7")))
  obtain ⟨hop, hlast⟩ := Prod.mk.injEq .. ▸ hview
  exact ⟨s, hs, hlast, handleMode_notice hop _ _⟩

end Server
end FtIrc
