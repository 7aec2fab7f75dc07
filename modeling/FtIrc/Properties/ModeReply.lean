import FtIrc.Properties.ModeNotice
import FtIrc.Properties.Names
import FtIrc.Properties.Rosters

/-!
# The reply to a MODE without flags

The modes that the reply lists can be read with the grammar of the server. Given to a channel
without modes they set what the channel asked about has, unless its key begins with a colon.
-/

namespace FtIrc

namespace Channel

/-- What MODE can have set. -/
structure WellSet (ch : Channel) : Prop where
  key : ch.key = [] ∨ isValidKey ch.key = true
  userLimit : ch.userLimit < 10 ^ 9

theorem WellSet.congr {ch ch' : Channel} (h : ch.WellSet) (hkey : ch'.key = ch.key)
    (hlimit : ch'.userLimit = ch.userLimit) : ch'.WellSet := by
  constructor
  · rw [hkey]
    exact h.key
  · rw [hlimit]
    exact h.userLimit

theorem wellSet_new (name : Bytes) : (Channel.new name).WellSet :=
  ⟨.inl rfl, Nat.pow_pos (by decide)⟩

/-- The flags of the reply. -/
def modeFlags (ch : Channel) : Bytes :=
  ascii "+" ++ (if ch.inviteOnly then ascii "i" else []) ++
    (if ch.topicByOpOnly then ascii "t" else []) ++
    (if !ch.key.isEmpty then ascii "k" else []) ++
    (if 0 < ch.userLimit then ascii "l" else [])

/-- The arguments of the flags. -/
def modeArgs (ch : Channel) : List Bytes :=
  (if !ch.key.isEmpty then [ch.key] else []) ++
    (if 0 < ch.userLimit then [decimal ch.userLimit] else [])

theorem buildModeString_eq (ch : Channel) :
    ch.buildModeString = joinWords (byte ' ') (ch.modeFlags :: ch.modeArgs) := by
  show ch.modeFlags ++ _ = ch.modeFlags ++ (ch.modeArgs.map (byte ' ' :: ·)).flatten
  rw [modeArgs, List.map_append, List.flatten_append]
  congr 2
  · split_ifs
    · exact (Server.argument_eq _).symm
    · rfl
  · split_ifs
    · exact (Server.argument_eq _).symm
    · rfl

end Channel

namespace Server

section wellSet

variable {msg : Message} {u : ClientPtr} {s s' : Server}

/-- The modes of all channels are as MODE sets them. -/
def WellSet (s : Server) : Prop := ∀ p, (s.channel p).WellSet

theorem effect_wellSet {P : Bytes → Prop} (hw : s.WellSet) (h : Effect P msg u s s') :
    s'.WellSet := by
  cases h with
  | reply | talk | announce | rename | nickname | user | pass | register | pong => exact hw
  | @mode q f hq hop hf =>
    intro p
    rw [updChannel_channel]
    split_ifs
    · constructor
      · rcases hf.key with h | h | h
        · rw [h]
          exact (hw q).key
        · exact .inl h
        · exact .inr h.1
      · rcases hf.userLimit with h | h
        · rw [h]
          exact (hw q).userLimit
        · exact h
    · exact hw p
  | @operator q enable =>
    intro p
    rw [emit_channel, updChannel_channel]
    split_ifs
    · unfold Channel.setModeOperator
      split_ifs <;> exact (hw q).congr rfl rfl
    · exact hw p
  | @topic q =>
    intro p
    rw [emit_channel, updChannel_channel]
    split_ifs
    · exact (hw q).congr rfl rfl
    · exact hw p
  | @invite q =>
    intro p
    rw [emit_channel, invite_channel]
    split_ifs
    · exact (hw q).congr rfl rfl
    · exact hw p
  | @part q | @kick q =>
    intro p
    rw [emit_channel, leave_channel]
    split_ifs
    · exact (hw q).congr rfl rfl
    · exact hw p

theorem letIn_wellSet (hw : s.WellSet) {q : ChannelPtr} (hm : u ∉ (s.channel q).members) :
    (s.letIn q u).WellSet := by
  intro p
  rw [letIn_eq, emit_channel, enter_channel s hm]
  by_cases hpq : p = q
  · rw [if_pos hpq]
    exact (hw q).congr rfl rfl
  · rw [if_neg hpq]
    exact hw p

theorem kept_wellSet : Kept Clean WellSet where
  accept _ hw _ := hw
  background {s s'} hb hw h := by
    cases h with
    | frame | buffers => exact hw
    | ping =>
      rw [sendReply_eq_emit]
      exact hw
    | close =>
      rw [disconnectAfterFlush_eq]
      exact hw
    | @depart fd c reason hfd =>
      have hdep := (disconnect_departure hb.links hb.noGhost hfd reason).1
      intro p
      rw [hdep.settings p]
      exact (hw p).congr rfl rfl
  pop _ _ hw := hw
  effect _ _ hw h := effect_wellSet hw h
  entry {msg u s s'} _ _ hw h := by
    cases h with
    | join _ _ _ _ _ hm => exact letIn_wellSet hw hm
    | @create name =>
      apply letIn_wellSet
      · intro p
        rw [newChannel_channel]
        split_ifs
        · exact Channel.wellSet_new name
        · exact hw p
      · simp [newChannel_channel, Channel.new]

theorem reachable_wellSet (h : ircserv.Reachable s) : s.WellSet := by
  refine (kept_wellSet.reachable textPred_clean serves_clean ?_ h).1
  intro s hs p
  obtain ⟨fd, password, heap, now, -, -, rfl⟩ := hs
  exact Channel.wellSet_new _

end wellSet

/-! ## Setting the modes -/

/-- The loop of `handleMode` sets modes, has used `i` arguments and has made `ch` of the channel. -/
structure Setting (l : ModeLoop) (p : ChannelPtr) (ch : Channel) (i : Nat) : Prop where
  enable : l.enable = true
  channel : l.server.channel p = ch
  paramIndex : l.paramIndex = i

section setting

variable {l : ModeLoop} {p : ChannelPtr} {ch : Channel} {i : Nat} (u : ClientPtr)
  (args : List Bytes)

theorem Setting.apply (h : Setting l p ch i) (f : Channel → Channel) (flag : Byte) :
    Setting (l.apply p f true flag) p (f ch) i where
  enable := h.enable
  channel := by
    show (l.server.updChannel p f).channel p = f ch
    rw [updChannel_channel_self, h.channel]
  paramIndex := h.paramIndex

theorem Setting.next (h : Setting l p ch i) :
    Setting { l with paramIndex := l.paramIndex + 1 } p ch (i + 1) :=
  ⟨h.enable, h.channel, congrArg (· + 1) h.paramIndex⟩

/-- A flag without a parameter that is not set yet. -/
theorem Setting.plain (h : Setting l p ch i) (set : Bool → Channel → Channel) (flag : Byte)
    (hoff : set false ch = ch)
    (hround : ModeLoop.round p u args l flag = l.apply p (set l.enable) l.enable flag) (b : Bool) :
    Setting ((if b then [flag] else []).foldl (ModeLoop.round p u args) l) p (set b ch) i := by
  cases b with
  | false =>
    rw [hoff]
    exact h
  | true =>
    show Setting (ModeLoop.round p u args l flag) p (set true ch) i
    rw [hround, h.enable]
    exact h.apply _ _

theorem Setting.invite (h : Setting l p ch i) (hoff : ch.inviteOnly = false) (b : Bool) :
    Setting ((if b then ascii "i" else []).foldl (ModeLoop.round p u args) l) p
      { ch with inviteOnly := b } i := by
  have hne : (l.server.channel p).inviteOnly ≠ l.enable := by
    rw [h.channel, hoff, h.enable]
    decide
  have hround : ModeLoop.round p u args l (byte 'i') =
      l.apply p (·.setModeInviteOnly l.enable) l.enable (byte 'i') := by
    rw [ModeLoop.round_i, if_pos hne]
  have hsame : { ch with inviteOnly := false } = ch := by rw [← hoff]
  exact h.plain u args (fun b ch => { ch with inviteOnly := b }) (byte 'i') hsame hround b

theorem Setting.topic (h : Setting l p ch i) (hoff : ch.topicByOpOnly = false) (b : Bool) :
    Setting ((if b then ascii "t" else []).foldl (ModeLoop.round p u args) l) p
      { ch with topicByOpOnly := b } i := by
  have hne : (l.server.channel p).topicByOpOnly ≠ l.enable := by
    rw [h.channel, hoff, h.enable]
    decide
  have hround : ModeLoop.round p u args l (byte 't') =
      l.apply p (·.setModeTopicRestriction l.enable) l.enable (byte 't') := by
    rw [ModeLoop.round_t, if_pos hne]
  have hsame : { ch with topicByOpOnly := false } = ch := by rw [← hoff]
  exact h.plain u args (fun b ch => { ch with topicByOpOnly := b }) (byte 't') hsame hround b

theorem Setting.keyRound (h : Setting l p ch i) (hoff : ch.key = []) {key : Bytes}
    (hvalid : isValidKey key = true) (harg : args[i]? = some key) :
    Setting (l.keyRound p u args) p { ch with key } (i + 1) := by
  have hkey : (l.server.channel p).key = [] := by rw [h.channel, hoff]
  have hset := h.next.apply (·.setModeKey true key) (byte 'k')
  rw [ModeLoop.keyRound, h.enable, h.paramIndex, harg]
  simp only [if_true, hvalid, hkey, List.isEmpty_nil, Bool.not_true, Bool.false_eq_true, if_false]
  exact ⟨rfl, hset.channel, rfl⟩

theorem Setting.key (h : Setting l p ch i) (hoff : ch.key = []) {key : Bytes}
    (hvalid : key = [] ∨ isValidKey key = true) (harg : key ≠ [] → args[i]? = some key) :
    Setting ((if !key.isEmpty then ascii "k" else []).foldl (ModeLoop.round p u args) l) p
      { ch with key } (if key = [] then i else i + 1) := by
  by_cases hnil : key = []
  · have hsame : { ch with key := [] } = ch := by rw [← hoff]
    subst hnil
    rw [hsame]
    exact h
  · rw [if_pos (by simpa using hnil), if_neg hnil]
    show Setting (ModeLoop.round p u args l (byte 'k')) p _ (i + 1)
    rw [ModeLoop.round_k]
    exact h.keyRound u args hoff (hvalid.resolve_left hnil) (harg hnil)

/-- A parameter that is no key is used up. -/
theorem Setting.keyRefused (h : Setting l p ch i) {key : Bytes} (hinvalid : isValidKey key = false)
    (harg : args[i]? = some key) : Setting (l.keyRound p u args) p ch (i + 1) := by
  rw [ModeLoop.keyRound, h.enable, h.paramIndex, harg]
  simp only [if_true, hinvalid, Bool.not_false]
  refine ⟨rfl, ?_, rfl⟩
  show (l.server.sendToOne u _).channel p = ch
  rw [sendOne_eq_emit, emit_channel, h.channel]

theorem parseLimit_decimal {n : Nat} (hpos : 0 < n) (hlt : n < 10 ^ 9) :
    parseLimit (decimal n) = some n := by
  have hlen := decimal_length_le (by decide) hlt
  have hdigits : (decimal n).all isDigit = true := List.all_eq_true.mpr (decimal_digits n)
  have hne : (decimal n).isEmpty = false := by simpa using decimal_ne_nil n
  have hshort : ¬ ((decimal n).isEmpty || 9 < (decimal n).length) = true := by
    simp [hne]
    omega
  rw [parseLimit, if_neg hshort, if_neg (by simp [hdigits]), atoi_decimal, if_pos hpos]

theorem Setting.limitRound (h : Setting l p ch i) {n : Nat} (hpos : 0 < n) (hlt : n < 10 ^ 9)
    (harg : args[i]? = some (decimal n)) :
    Setting (l.limitRound p u args) p { ch with userLimit := n } (i + 1) := by
  have hset := h.next.apply (·.setModeUserLimit true n) (byte 'l')
  rw [ModeLoop.limitRound, h.enable, h.paramIndex, harg]
  simp only [if_true, parseLimit_decimal hpos hlt]
  exact ⟨rfl, hset.channel, rfl⟩

theorem Setting.limit (h : Setting l p ch i) (hoff : ch.userLimit = 0) {n : Nat}
    (hlt : n < 10 ^ 9) (harg : 0 < n → args[i]? = some (decimal n)) :
    Setting ((if 0 < n then ascii "l" else []).foldl (ModeLoop.round p u args) l) p
      { ch with userLimit := n } (if 0 < n then i + 1 else i) := by
  by_cases hpos : 0 < n
  · rw [if_pos hpos, if_pos hpos]
    show Setting (ModeLoop.round p u args l (byte 'l')) p _ (i + 1)
    rw [ModeLoop.round_l]
    exact h.limitRound u args hpos hlt (harg hpos)
  · obtain rfl : n = 0 := by omega
    have hsame : { ch with userLimit := 0 } = ch := by rw [← hoff]
    rw [hsame]
    exact h

/-- A limit without a parameter is skipped. -/
theorem Setting.limitMissing (h : Setting l p ch i) (harg : args[i]? = none) (b : Prop)
    [Decidable b] :
    Setting ((if b then ascii "l" else []).foldl (ModeLoop.round p u args) l) p ch i := by
  split_ifs
  · have hskip : l.limitRound p u args = l := by
      rw [ModeLoop.limitRound, h.enable, h.paramIndex, harg]
      rfl
    show Setting (ModeLoop.round p u args l (byte 'l')) p ch i
    rw [ModeLoop.round_l, hskip]
    exact h
  · exact h

/-- After the sign and the two plain flags. -/
theorem setting_plain {t : Server} (hinvite : (t.channel p).inviteOnly = false)
    (htopic : (t.channel p).topicByOpOnly = false) (b b' : Bool) :
    Setting ((if b' then ascii "t" else []).foldl (ModeLoop.round p u args)
      ((if b then ascii "i" else []).foldl (ModeLoop.round p u args)
        (ModeLoop.round p u args ⟨t, true, 0, [], [], 0⟩ (byte '+')))) p
      { t.channel p with inviteOnly := b, topicByOpOnly := b' } 0 := by
  have hstart : Setting (ModeLoop.round p u args ⟨t, true, 0, [], [], 0⟩ (byte '+')) p
      (t.channel p) 0 := by
    rw [ModeLoop.round, if_pos rfl]
    exact ⟨rfl, rfl, rfl⟩
  exact (hstart.invite u args hinvite b).topic u args htopic b'

theorem handleMode_setting {t : Server} {ch' : Channel} (hop : (t.channel p).isOperator u = true)
    (h : Setting ((if 0 < ch.userLimit then ascii "l" else []).foldl (ModeLoop.round p u args)
      ((if !ch.key.isEmpty then ascii "k" else []).foldl (ModeLoop.round p u args)
        ((if ch.topicByOpOnly then ascii "t" else []).foldl (ModeLoop.round p u args)
          ((if ch.inviteOnly then ascii "i" else []).foldl (ModeLoop.round p u args)
            (ModeLoop.round p u args ⟨t, true, 0, [], [], 0⟩ (byte '+')))))) p ch' i) :
    (t.handleMode p u ch.modeFlags args).channel p = ch' := by
  have hflags : ch.modeFlags.isEmpty = false := rfl
  have hloop : Setting (ch.modeFlags.foldl (ModeLoop.round p u args) ⟨t, true, 0, [], [], 0⟩) p
      ch' i := by
    rw [Channel.modeFlags, List.foldl_append, List.foldl_append, List.foldl_append,
      List.foldl_append]
    exact h
  simp only [handleMode, hflags, hop, Bool.not_true, Bool.false_eq_true, if_false]
  split_ifs
  · rw [sendToAll_eq_emit, emit_channel, hloop.channel]
  · exact hloop.channel

end setting

/-- The flags and arguments of the reply set the modes that they were made from. -/
theorem handleMode_settings {ch : Channel} (hset : ch.WellSet) {t : Server} {q : ChannelPtr}
    {v : ClientPtr} (hop : (t.channel q).isOperator v = true)
    (hoff : (t.channel q).settings = ⟨false, false, [], 0⟩) :
    ((t.handleMode q v ch.modeFlags ch.modeArgs).channel q).settings = ch.settings := by
  simp only [Channel.settings, Settings.mk.injEq] at hoff
  obtain ⟨hinvite, htopic, hkey, hlimit⟩ := hoff
  have hflags : ch.modeFlags.isEmpty = false := rfl
  have hkeyArg : ch.key ≠ [] → ch.modeArgs[0]? = some ch.key := by
    intro hne
    simp [Channel.modeArgs, hne]
  have hlimitArg : 0 < ch.userLimit →
      ch.modeArgs[if ch.key = [] then 0 else 0 + 1]? = some (decimal ch.userLimit) := by
    intro hpos
    by_cases hnil : ch.key = []
    · simp [Channel.modeArgs, hnil, hpos]
    · simp [Channel.modeArgs, hnil, hpos]
  have hplain := setting_plain v ch.modeArgs hinvite htopic ch.inviteOnly ch.topicByOpOnly
  have hloop := (hplain.key v ch.modeArgs hkey hset.key hkeyArg).limit v ch.modeArgs hlimit
    hset.userLimit hlimitArg
  rw [handleMode_setting v ch.modeArgs hop hloop]
  rfl

/-- Where the arguments have been read as one text, the key is this text or is not set. -/
theorem handleMode_text {ch : Channel} (hne : ch.key ≠ []) {t : Server} {q : ChannelPtr}
    {v : ClientPtr} (hop : (t.channel q).isOperator v = true)
    (hoff : (t.channel q).settings = ⟨false, false, [], 0⟩) (text : Bytes) :
    ((t.handleMode q v ch.modeFlags [text]).channel q).key = [] ∨
      (((t.handleMode q v ch.modeFlags [text]).channel q).key = text ∧
        isValidKey text = true) := by
  simp only [Channel.settings, Settings.mk.injEq] at hoff
  obtain ⟨hinvite, htopic, hkey, -⟩ := hoff
  have hplain := setting_plain v [text] hinvite htopic ch.inviteOnly ch.topicByOpOnly
  have hone : ∀ l, (if !ch.key.isEmpty then ascii "k" else []).foldl
      (ModeLoop.round q v [text]) l = l.keyRound q v [text] := by
    intro l
    rw [if_pos (by simpa using hne)]
    exact ModeLoop.round_k q v l [text]
  cases hvalid : isValidKey text with
  | true =>
    have hloop := hplain.keyRound v [text] hkey hvalid rfl
    rw [← hone] at hloop
    rw [handleMode_setting v [text] hop (hloop.limitMissing v [text] rfl _)]
    exact .inr ⟨rfl, rfl⟩
  | false =>
    have hloop := hplain.keyRefused v [text] hvalid rfl
    rw [← hone] at hloop
    rw [handleMode_setting v [text] hop (hloop.limitMissing v [text] rfl _)]
    exact .inl hkey

/-! ## Reading the reply -/

section reading

variable {s : Server} {p : ChannelPtr} {c : ClientPtr}

/-- Words are read as they were written. -/
theorem splitParameters_joinWords {w : Bytes} {ws : List Bytes} (hw : IsItem w)
    (hws : ∀ v ∈ ws, IsItem v) {left : Nat} (hleft : ws.length < left) :
    splitParameters left (skipSpaces (joinWords (byte ' ') (w :: ws))) = w :: ws := by
  induction ws generalizing w left with
  | nil =>
    obtain ⟨left, rfl⟩ := Nat.exists_eq_add_one_of_ne_zero (Nat.ne_of_gt hleft)
    rw [joinWords, List.map_nil, List.flatten_nil, List.append_nil]
    exact parameters_one hw left
  | cons v vs ih =>
    obtain ⟨left, rfl⟩ := Nat.exists_eq_add_one_of_ne_zero (Nat.ne_of_gt (Nat.zero_lt_of_lt hleft))
    have hform : joinWords (byte ' ') (w :: v :: vs) =
        w ++ byte ' ' :: joinWords (byte ' ') (v :: vs) := rfl
    rw [hform, parameters_item hw, ih (hws v List.mem_cons_self)
      fun x hx => hws x (List.mem_cons_of_mem v hx)]
    exact Nat.lt_of_succ_lt_succ hleft

theorem isItem_modeFlags (ch : Channel) : IsItem ch.modeFlags := by
  refine ⟨List.cons_ne_nil _ _, ?_, ?_⟩
  · intro h
    simp only [Channel.modeFlags, List.mem_append] at h
    rcases h with (((h | h) | h) | h) | h
    · exact absurd h (by decide)
    all_goals
      split_ifs at h
      · exact absurd h (by decide)
      · exact List.not_mem_nil h
  · show some (byte '+') ≠ some (byte ':')
    decide

theorem isItem_modeArgs {ch : Channel} (hset : ch.WellSet)
    (hcolon : ch.key.head? ≠ some (byte ':')) : ∀ a ∈ ch.modeArgs, IsItem a := by
  intro a ha
  rcases List.mem_append.mp ha with ha | ha
  · split_ifs at ha with hkey
    · obtain rfl := List.mem_singleton.mp ha
      have hne : ch.key ≠ [] := by simpa using hkey
      exact ⟨hne, isValidKey_no_space (hset.key.resolve_left hne), hcolon⟩
    · cases ha
  · split_ifs at ha
    · obtain rfl := List.mem_singleton.mp ha
      refine ⟨decimal_ne_nil _, fun h => ?_, fun h => ?_⟩
      · exact absurd (decimal_digits _ _ h) (by decide)
      · exact absurd (decimal_digits _ _ (List.mem_of_head? h)) (by decide)
    · cases ha

theorem buildModeString_length {ch : Channel} (hset : ch.WellSet) :
    ch.buildModeString.length ≤ 58 := by
  have hif : ∀ (b : Prop) [Decidable b] (x : Bytes) (n : Nat), x.length ≤ n →
      (if b then x else []).length ≤ n := by
    intro b _ x n hx
    split_ifs
    · exact hx
    · exact Nat.zero_le n
  have hkey : (ascii " " ++ ch.key).length ≤ 43 := by
    rw [List.length_append]
    rcases hset.key with h | h
    · rw [h]
      decide
    · exact Nat.add_le_add (le_refl 1) (isValidKey_length h).2
  have hlimit : (ascii " " ++ decimal ch.userLimit).length ≤ 10 := by
    rw [List.length_append]
    exact Nat.add_le_add (le_refl 1) (decimal_length_le (by decide) hset.userLimit)
  have hi := hif (ch.inviteOnly = true) (ascii "i") 1 (le_refl 1)
  have ht := hif (ch.topicByOpOnly = true) (ascii "t") 1 (le_refl 1)
  have hk := hif ((!ch.key.isEmpty) = true) (ascii "k") 1 (le_refl 1)
  have hl := hif (0 < ch.userLimit) (ascii "l") 1 (le_refl 1)
  have hk' := hif ((!ch.key.isEmpty) = true) (ascii " " ++ ch.key) 43 hkey
  have hl' := hif (0 < ch.userLimit) (ascii " " ++ decimal ch.userLimit) 10 hlimit
  have hplus : (ascii "+").length = 1 := rfl
  simp only [Channel.buildModeString, List.length_append] at hk' hl' ⊢
  omega

/-- The reply in front of its arguments. -/
theorem modeReply_eq (nick name : Bytes) (ch : Channel) :
    makeReply Numeric.rplChannelModeIs nick (name ++ ascii " " ++ ch.buildModeString) =
      ascii ":" ++ ascii "ircserv" ++ ascii " " ++ (ascii "324" ++ byte ' ' :: (nick ++
        byte ' ' :: (name ++ byte ' ' :: (ch.modeFlags ++
          (ch.modeArgs.map (byte ' ' :: ·)).flatten)))) := by
  have hcode : (if Numeric.rplChannelModeIs < 100 then ascii "0" else []) ++
      (if Numeric.rplChannelModeIs < 10 then ascii "0" else []) ++
        decimal Numeric.rplChannelModeIs = ascii "324" := by decide
  unfold makeReply
  rw [hcode, Channel.buildModeString_eq]
  simp only [List.append_assoc]
  rfl

theorem buildModeString_clean (h : s.Texts Clean) (p : ChannelPtr) :
    Clean (s.channel p).buildModeString := by
  have hP := textPred_clean
  have hif : ∀ (b : Prop) [Decidable b] (x : Bytes), Clean x → Clean (if b then x else []) := by
    intro b _ x hx
    split_ifs
    · exact hx
    · exact hP.nil
  have hspace := hP.lit " " rfl
  have hkey := hif ((!(s.channel p).key.isEmpty) = true) _ (hP.append hspace (h.key p))
  have hlimit := hif (0 < (s.channel p).userLimit) _
    (hP.append hspace (hP.decimal (s.channel p).userLimit))
  have hi := hif ((s.channel p).inviteOnly = true) _ (hP.lit "i" rfl)
  have ht := hif ((s.channel p).topicByOpOnly = true) _ (hP.lit "t" rfl)
  have hk := hif ((!(s.channel p).key.isEmpty) = true) _ (hP.lit "k" rfl)
  have hl := hif (0 < (s.channel p).userLimit) _ (hP.lit "l" rfl)
  have hflags := hP.append (hP.append (hP.append (hP.append (hP.lit "+" rfl) hi) ht) hk) hl
  exact hP.append hflags (hP.append hkey hlimit)

theorem readable_modeReply (hs : ircserv.Reachable s) (hin : s.InChannel p c) :
    Readable (makeReply Numeric.rplChannelModeIs (s.client c).nickname
      ((s.channel p).name ++ ascii " " ++ (s.channel p).buildModeString)) := by
  have hsound := reachable_sound hs
  have htexts := (reachable_clean hs).1.texts
  constructor
  · exact textPred_clean.makeReply _ (htexts.nickname c) (textPred_clean.append
      (textPred_clean.append (htexts.name p) (textPred_clean.lit " " rfl))
      (buildModeString_clean htexts p))
  · have hmodes := buildModeString_length (reachable_wellSet hs p)
    have hnick := isValidNickname_length (hsound.member_masked hin).nickname
    have hname := isValidChannelName_length (hsound.base.links.channel_name p hin.1)
    have hcode : ((if Numeric.rplChannelModeIs < 100 then ascii "0" else []) ++
        (if Numeric.rplChannelModeIs < 10 then ascii "0" else []) ++
          decimal Numeric.rplChannelModeIs).length = 3 := by decide
    have hspace : (ascii " ").length = 1 := rfl
    have hcolon : (ascii ":").length = 1 := rfl
    have hserver : (ascii "ircserv").length = 7 := rfl
    simp only [makeReply, List.length_append] at hcode ⊢
    omega

/-- The words of the reply, up to its arguments. -/
theorem spliter_modeReply (hs : ircserv.Reachable s) (hin : s.InChannel p c) :
    spliter (makeReply Numeric.rplChannelModeIs (s.client c).nickname
        ((s.channel p).name ++ ascii " " ++ (s.channel p).buildModeString)) =
      some ⟨true, ascii "ircserv", ascii "324", (s.client c).nickname :: (s.channel p).name ::
        (s.channel p).modeFlags :: splitParameters 11
          (skipSpaces ((s.channel p).modeArgs.map (byte ' ' :: ·)).flatten)⟩ := by
  have hsound := reachable_sound hs
  have hread := readable_modeReply hs hin
  have hnick := isItem_nickname (hsound.member_masked hin).nickname
  have hname := hsound.isItem_name hin.1
  have hflags := isItem_modeFlags (s.channel p)
  have hstops : Stops ((s.channel p).modeArgs.map (byte ' ' :: ·)).flatten := by
    cases (s.channel p).modeArgs with
    | nil => exact stops_nil
    | cons a as => exact stops_cons _
  have hserver : ascii "ircserv" ≠ [] := by decide
  have hcode : IsItem (ascii "324") := ⟨by decide, by decide, by decide⟩
  rw [modeReply_eq] at hread ⊢
  rw [spliter_readable hread (by simp), scan_origin hserver (by decide) hcode (stops_cons _),
    skipSpaces_cons, parameters_item hnick, parameters_item hname, hflags.skipSpaces,
    splitParameters_item hflags hstops]
  rfl

/-- A key that does not begin with a colon is read as it is, and the limit after it. -/
theorem splitParameters_modeArgs {ch : Channel} (hset : ch.WellSet)
    (hcolon : ch.key.head? ≠ some (byte ':')) :
    splitParameters 11 (skipSpaces (ch.modeArgs.map (byte ' ' :: ·)).flatten) = ch.modeArgs := by
  have hitems := isItem_modeArgs hset hcolon
  have hcount : ch.modeArgs.length ≤ 2 := by
    unfold Channel.modeArgs
    split_ifs <;> simp
  generalize ch.modeArgs = args at hitems hcount ⊢
  cases args with
  | nil => rfl
  | cons a as =>
    have hform : ((a :: as).map (byte ' ' :: ·)).flatten =
        byte ' ' :: joinWords (byte ' ') (a :: as) := rfl
    rw [hform, skipSpaces_cons]
    apply splitParameters_joinWords (hitems a List.mem_cons_self)
    · exact fun x hx => hitems x (List.mem_cons_of_mem a hx)
    · rw [List.length_cons] at hcount
      omega

/-- A key that begins with a colon is read without it and together with the limit. -/
theorem splitParameters_colonKey {ch : Channel} {key : Bytes} (hkey : ch.key = byte ':' :: key) :
    ∃ tail, splitParameters 11 (skipSpaces (ch.modeArgs.map (byte ' ' :: ·)).flatten) =
      [key ++ tail] ∧ (tail = [] ∨ byte ' ' ∈ tail) := by
  refine ⟨((if 0 < ch.userLimit then [decimal ch.userLimit] else []).map
    (byte ' ' :: ·)).flatten, ?_, ?_⟩
  · have hform : (ch.modeArgs.map (byte ' ' :: ·)).flatten = ascii " :" ++ (key ++
        ((if 0 < ch.userLimit then [decimal ch.userLimit] else []).map
          (byte ' ' :: ·)).flatten) := by
      rw [Channel.modeArgs, hkey]
      rfl
    rw [hform, skipSpaces_colon, splitParameters_colon]
  · split_ifs
    · exact .inr (by simp)
    · exact .inl rfl

end reading

/-- A member that asks for the modes gets a line that it can read with the grammar of the server.
The words after the name of the channel, given by an operator to a channel without modes, set all
four modes as they are, unless the key begins with a colon. -/
theorem mode_reply_reads {s : Server} (hs : ircserv.Reachable s) {p : ChannelPtr} {c : ClientPtr}
    (hin : s.InChannel p c) :
    ∃ m flags args, s.handleMode p c [] [] = s.emit (Output.one c m) ∧ outputLine m = m ∧
      spliter m = some ⟨true, ascii "ircserv", ascii "324",
        (s.client c).nickname :: (s.channel p).name :: flags :: args⟩ ∧
      ∀ (t : Server) (q : ChannelPtr) (v : ClientPtr), (t.channel q).isOperator v = true →
        (t.channel q).settings = ⟨false, false, [], 0⟩ →
          (((t.handleMode q v flags args).channel q).settings = (s.channel p).settings ↔
            (s.channel p).key.head? ≠ some (byte ':')) := by
  have hmember : (s.channel p).isMember c = true := by simpa [Channel.isMember] using hin.2
  have hset := reachable_wellSet hs p
  refine ⟨_, _, _, ?_, outputLine_readable (readable_modeReply hs hin),
    spliter_modeReply hs hin, ?_⟩
  · simp only [handleMode, List.isEmpty_nil, hmember, if_true, Bool.not_true, Bool.false_eq_true,
      if_false, sendOne_eq_emit]
  intro t q v hop hoff
  constructor
  · intro hsettings hcolon
    obtain ⟨key, hkey⟩ : ∃ key, (s.channel p).key = byte ':' :: key :=
      ⟨_, List.eq_cons_of_mem_head? hcolon⟩
    have hne : (s.channel p).key ≠ [] := by simp [hkey]
    obtain ⟨tail, hargs, htail⟩ := splitParameters_colonKey hkey
    have hkey' := congrArg Settings.key hsettings
    rw [hargs] at hkey'
    rcases handleMode_text hne hop hoff (key ++ tail) with hnone | ⟨hsome, hvalid⟩
    · exact hne (hkey'.symm.trans hnone)
    · -- a key has no space in it, so there was no limit, and the colon is missing
      obtain rfl : tail = [] := by
        apply htail.resolve_right
        intro hspace
        exact isValidKey_no_space hvalid (List.mem_append_right key hspace)
      have hlost : byte ':' :: key = key ++ [] := hkey.symm.trans (hkey'.symm.trans hsome)
      have hlength := congrArg List.length hlost
      simp at hlength
  · intro hcolon
    rw [splitParameters_modeArgs hset hcolon]
    exact handleMode_settings hset hop hoff

/-- `ann` has a channel with a key and a limit. -/
def annLocks : List Event :=
  registers 4 (ascii "ann") ++ typed 4 (ascii "JOIN #a") ++ typed 4 (ascii "MODE #a +tkl do:or 12")

theorem mode_reply_reads_ann : ∃ s, session annLocks = some s ∧
    (s.channel 1).settings = ⟨false, true, ascii "do:or", 12⟩ ∧
    ∃ m flags args, s.handleMode 1 1 [] [] = s.emit (Output.one 1 m) ∧ outputLine m = m ∧
      spliter m = some ⟨true, ascii "ircserv", ascii "324",
        (s.client 1).nickname :: (s.channel 1).name :: flags :: args⟩ ∧
      ∀ (t : Server) (q : ChannelPtr) (v : ClientPtr), (t.channel q).isOperator v = true →
        (t.channel q).settings = ⟨false, false, [], 0⟩ →
          (((t.handleMode q v flags args).channel q).settings = (s.channel 1).settings ↔
            (s.channel 1).key.head? ≠ some (byte ':')) := by
  obtain ⟨s, hs, hview⟩ := Option.map_eq_some_iff.mp (by decide +kernel :
    (session annLocks).map (fun s => (s.channels.find? (ascii "#a"), (s.channel 1).members,
      (s.channel 1).inviteOnly, (s.channel 1).topicByOpOnly,
      decide ((s.channel 1).key = ascii "do:or" ∧ (s.channel 1).userLimit = 12))) =
      some (some 1, [1], false, true, true))
  simp only [Prod.mk.injEq, decide_eq_true_eq] at hview
  obtain ⟨hp, hmembers, hinvite, htopic, hkey, hlimit⟩ := hview
  have hsettings : (s.channel 1).settings = ⟨false, true, ascii "do:or", 12⟩ := by
    rw [Channel.settings, hinvite, htopic, hkey, hlimit]
  have hin : s.InChannel 1 1 := ⟨⟨_, hp⟩, by rw [hmembers]; decide⟩
  exact ⟨s, hs, hsettings, mode_reply_reads (session_reachable hs) hin⟩


end Server
end FtIrc
