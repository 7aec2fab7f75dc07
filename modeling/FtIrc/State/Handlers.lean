import FtIrc.State.Output

/-!
# Handlers as one change and one output

For each handler that succeeds: the change of the links, then the lines it appends.
-/

namespace FtIrc

/-! ## Notices -/

def joinNotice (c : Client) (name : Bytes) : Bytes := makeCommand c (ascii "JOIN") name

def closingLine (ip reason : Bytes) : Bytes :=
  ascii "ERROR :Closing Link: " ++ ip ++ ascii " (" ++ reason ++ ascii ")"

def operatorNotice (issuer target : Client) (name : Bytes) (enable : Bool) : Bytes :=
  makeCommand issuer (ascii "MODE")
    (name ++ ascii " " ++ (if enable then ascii "+o" else ascii "-o") ++ ascii " " ++
      target.nickname)

def modeNotice (issuer : Client) (name applied args : Bytes) : Bytes :=
  makeCommand issuer (ascii "MODE") (name ++ ascii " " ++ applied ++ args)

def topicNotice (issuer : Client) (name topic : Bytes) : Bytes :=
  makeCommand issuer (ascii "TOPIC") (name ++ ascii " :" ++ topic)

def inviteNotice (issuer target : Client) (name : Bytes) : Bytes :=
  makeCommand issuer (ascii "INVITE") (target.nickname ++ ascii " " ++ name)

def partNotice (c : Client) (name reason : Bytes) : Bytes :=
  makeCommand c (ascii "PART") (name ++ ascii " :" ++ reason)

def kickNotice (issuer target : Client) (name reason : Bytes) : Bytes :=
  makeCommand issuer (ascii "KICK") (name ++ ascii " " ++ target.nickname) ++ ascii " :" ++ reason

namespace Server

/-! ## Broadcasts -/

/-- The clients a broadcast of `c` reaches, with repetitions. -/
def neighbours (s : Server) (c : ClientPtr) : List ClientPtr :=
  (s.client c).joinedChannels.values.flatMap fun p => (s.channel p).members

/-- One line to each client of a list except `c`, however often it occurs there. -/
def outputOnce (c : ClientPtr) (cs : List ClientPtr) (m : Bytes) : Output :=
  fun d => if d ≠ c ∧ d ∈ cs then [m] else []

private def fresh (notified : List ClientPtr) (cs : List ClientPtr) (m : Bytes) : Output :=
  fun d => if d ∉ notified ∧ d ∈ cs then [m] else []

private theorem fresh_append (ns cs cs' : List ClientPtr) (ns' : List ClientPtr) (m : Bytes)
    (hns : ∀ d, d ∈ ns' ↔ d ∈ ns ∨ d ∈ cs) :
    (fresh ns cs m).append (fresh ns' cs' m) = fresh ns (cs ++ cs') m := by
  funext d
  simp only [fresh, Output.append, List.mem_append, hns]
  by_cases h1 : d ∈ ns <;> by_cases h2 : d ∈ cs <;> simp [h1, h2]

private theorem notifyMembers_spec (m : Bytes) (cs ns : List ClientPtr) (s : Server) :
    (notifyMembers m cs (ns, s)).2 = s.emit (fresh ns cs m) ∧
      ∀ d, d ∈ (notifyMembers m cs (ns, s)).1 ↔ d ∈ ns ∨ d ∈ cs := by
  induction cs generalizing ns s with
  | nil =>
    refine ⟨?_, by simp [notifyMembers]⟩
    have hnone : fresh ns [] m = Output.none := by funext d; simp [fresh, Output.none]
    rw [hnone, emit_none]
    rfl
  | cons c cs ih =>
    by_cases hc : c ∈ ns
    · have hstep : notifyMembers m (c :: cs) (ns, s) = notifyMembers m cs (ns, s) := by
        simp [notifyMembers, hc]
      rw [hstep]
      obtain ⟨h1, h2⟩ := ih ns s
      refine ⟨?_, fun d => ?_⟩
      · rw [h1]
        congr 1
        funext d
        by_cases hd : d = c <;> simp [fresh, hd, hc]
      · rw [h2 d, List.mem_cons]
        by_cases hd : d = c <;> simp [hd, hc]
    · have hstep : notifyMembers m (c :: cs) (ns, s) =
          notifyMembers m cs (c :: ns, s.sendReply c m) := by
        simp [notifyMembers, hc]
      rw [hstep]
      obtain ⟨h1, h2⟩ := ih (c :: ns) (s.sendReply c m)
      refine ⟨?_, fun d => ?_⟩
      · rw [h1, sendReply_eq_emit, emit_emit]
        congr 1
        have hone : Output.one c m = fresh ns [c] m := by
          funext d
          by_cases hd : d = c <;> simp [Output.one, fresh, hd, hc]
        rw [hone]
        exact fresh_append ns [c] cs (c :: ns) m (by simp [or_comm])
      · rw [h2 d]
        simp [or_assoc, or_left_comm]

private theorem notifyChannels_fold (m : Bytes) (ps : List ChannelPtr) (ns : List ClientPtr)
    (s : Server) :
    (ps.foldl (fun st p => notifyMembers m (st.2.channel p).members st) (ns, s)).2 =
      s.emit (fresh ns (ps.flatMap fun p => (s.channel p).members) m) := by
  induction ps generalizing ns s with
  | nil =>
    have hnone : fresh ns [] m = Output.none := by funext d; simp [fresh, Output.none]
    simp [hnone]
  | cons p ps ih =>
    obtain ⟨h1, h2⟩ := notifyMembers_spec m (s.channel p).members ns s
    rw [List.foldl_cons]
    generalize notifyMembers m (s.channel p).members (ns, s) = st at h1 h2
    obtain ⟨ns', s'⟩ := st
    subst h1
    rw [ih, emit_emit, List.flatMap_cons]
    congr 1
    exact fresh_append _ _ _ _ m h2

theorem notifyChannels_eq (s : Server) (c : ClientPtr) (m : Bytes) :
    s.notifyChannels c m = s.emit (outputOnce c (s.neighbours c) m) := by
  rw [notifyChannels, notifyChannels_fold]
  congr 1
  funext d
  simp [fresh, outputOnce, neighbours]

theorem broadcastQuit_eq (s : Server) (c : ClientPtr) (m : Bytes) :
    s.broadcastQuit c m = s.emit (outputOnce c (s.neighbours c) m) :=
  notifyChannels_eq s c m

theorem broadcastNickChange_eq (s : Server) (c : ClientPtr) (m : Bytes) :
    s.broadcastNickChange c m =
      s.emit ((Output.one c m).append (outputOnce c (s.neighbours c) m)) := by
  have hn : (s.emit (Output.one c m)).neighbours c = s.neighbours c := by
    simp [neighbours]
  rw [broadcastNickChange, sendReply_eq_emit, notifyChannels_eq, hn, emit_emit]

/-! ## Closing -/

theorem silent_markClosing (now : Time) : Client.Silent (·.markClosing now) := fun _ _ => rfl

/-- The ERROR line, with the entry in `closing` and the closing time. -/
theorem disconnectAfterFlush_eq (s : Server) (c : ClientPtr) (reason : Bytes) :
    s.disconnectAfterFlush c reason =
      ({ s with closing := s.closing.insert (s.client c).fd reason }.updClient c
        (·.markClosing s.now)).emit (Output.one c (closingLine (s.client c).ip reason)) := by
  rw [← emit_updClient _ _ c (silent_markClosing s.now)]
  unfold disconnectAfterFlush
  rw [sendReply_eq_emit]
  rfl

theorem disconnectAfterFlush_client (s : Server) (c d : ClientPtr) (reason : Bytes) :
    (s.disconnectAfterFlush c reason).client d =
      if d = c then ((s.client c).sendReply (closingLine (s.client c).ip reason)).markClosing s.now
      else s.client d := by
  rw [disconnectAfterFlush_eq, emit_client]
  by_cases hd : d = c
  · subst hd
    rw [if_pos rfl, updClient_client_self, Client.sendReply_eq_sendAll]
    simp [Output.one]
    rfl
  · rw [if_neg hd, updClient_client_of_ne _ _ _ _ hd]
    simp [Output.one, hd]

/-! ## Joining -/

/-- The line about the topic. -/
def topicLine (s : Server) (p : ChannelPtr) (user : ClientPtr) : Bytes :=
  if (s.channel p).topic.isEmpty then
    makeReply Numeric.rplNoTopic (s.client user).nickname
      ((s.channel p).name ++ ascii " :No topic is set")
  else
    makeReply Numeric.rplTopic (s.client user).nickname
      ((s.channel p).name ++ ascii " :" ++ (s.channel p).topic)

theorem sendTopic_eq (s : Server) (p : ChannelPtr) (user : ClientPtr) :
    s.sendTopic p user = s.emit (Output.one user (s.topicLine p user)) := by
  unfold sendTopic topicLine
  simp only
  split <;> exact sendOne_eq_emit ..

/-- The entry of a member in the names list. -/
def namesEntry (s : Server) (p : ChannelPtr) (d : ClientPtr) : Bytes :=
  (if (s.channel p).isOperator d then ascii "@" else []) ++ (s.client d).nickname

/-- One entry of the names list without the server: the lines so far, and the batch. -/
def packRound (header : Bytes) (limit : Nat) (st : List Bytes × Bytes) (entry : Bytes) :
    List Bytes × Bytes :=
  if !st.2.isEmpty && limit < st.2.length + 1 + entry.length then
    (st.1 ++ [header ++ st.2], entry)
  else (st.1, (if !st.2.isEmpty then st.2 ++ ascii " " else st.2) ++ entry)

/-- The lines a list of entries is packed into. -/
def packNames (header : Bytes) (limit : Nat) (entries : List Bytes) : List Bytes :=
  let st := entries.foldl (packRound header limit) ([], [])
  if !st.2.isEmpty then st.1 ++ [header ++ st.2] else st.1

/-- Each line is the header with some text after it. -/
theorem packNames_forall {Q : Bytes → Prop} {header : Bytes} (h : ∀ t, Q (header ++ t))
    (limit : Nat) (entries : List Bytes) : ∀ m ∈ packNames header limit entries, Q m := by
  have hfold : ∀ (es : List Bytes) (st : List Bytes × Bytes), (∀ m ∈ st.1, Q m) →
      ∀ m ∈ (es.foldl (packRound header limit) st).1, Q m := by
    intro es
    induction es with
    | nil => exact fun _ h => h
    | cons e es ih =>
      intro st hst
      refine ih _ fun m hm => ?_
      unfold packRound at hm
      split_ifs at hm
      · rcases List.mem_append.mp hm with hm | hm
        · exact hst m hm
        · rw [List.mem_singleton.mp hm]
          exact h _
      all_goals exact hst m hm
  intro m hm
  have hlines := hfold entries ([], []) (by simp)
  unfold packNames at hm
  dsimp only at hm
  split_ifs at hm
  · rcases List.mem_append.mp hm with hm | hm
    · exact hlines m hm
    · rw [List.mem_singleton.mp hm]
      exact h _
  · exact hlines m hm

def namesHeader (s : Server) (p : ChannelPtr) (user : ClientPtr) : Bytes :=
  makeReply Numeric.rplNamReply (s.client user).nickname
    (ascii "= " ++ (s.channel p).name ++ ascii " :")

def namesLines (s : Server) (p : ChannelPtr) (user : ClientPtr) : List Bytes :=
  packNames (s.namesHeader p user) (sizeSub 510 (s.namesHeader p user).length)
    ((s.channel p).members.map (s.namesEntry p))

private theorem namesRound_fold (p : ChannelPtr) (user : ClientPtr) (header : Bytes) (limit : Nat)
    (s : Server) (cs : List ClientPtr) (ls : List Bytes) (users : Bytes) :
    cs.foldl (namesRound p user header limit) (s.emit (Output.list user ls), users) =
      (s.emit (Output.list user
          ((cs.map (s.namesEntry p)).foldl (packRound header limit) (ls, users)).1),
        ((cs.map (s.namesEntry p)).foldl (packRound header limit) (ls, users)).2) := by
  induction cs generalizing ls users with
  | nil => rfl
  | cons c cs ih =>
    have hround : namesRound p user header limit (s.emit (Output.list user ls), users) c =
        (s.emit (Output.list user (packRound header limit (ls, users) (s.namesEntry p c)).1),
          (packRound header limit (ls, users) (s.namesEntry p c)).2) := by
      have hentry : (s.emit (Output.list user ls)).namesEntry p c = s.namesEntry p c := rfl
      simp only [namesRound, packRound]
      rw [← namesEntry, hentry]
      cases !users.isEmpty && decide (limit < users.length + 1 + (s.namesEntry p c).length) with
      | true =>
        simp only [if_true, sendOne_eq_emit, emit_emit, Output.list_append_one]
        rfl
      | false => rfl
    rw [List.foldl_cons, hround, ih, List.map_cons, List.foldl_cons]

theorem sendNames_eq (s : Server) (p : ChannelPtr) (user : ClientPtr) :
    s.sendNames p user = s.emit (Output.list user (s.namesLines p user)) := by
  have hfold := namesRound_fold p user (s.namesHeader p user)
    (sizeSub 510 (s.namesHeader p user).length) s (s.channel p).members [] []
  rw [Output.list_nil, emit_none] at hfold
  change (let st := (s.channel p).members.foldl (namesRound p user (s.namesHeader p user)
      (sizeSub 510 (s.namesHeader p user).length)) (s, [])
    if !st.2.isEmpty then st.1.sendToOne user (s.namesHeader p user ++ st.2) else st.1) = _
  rw [hfold]
  unfold namesLines packNames
  generalize ((s.channel p).members.map (s.namesEntry p)).foldl _ _ = st
  cases hst : st.2.isEmpty
  · simp only [hst, Bool.not_false, if_true, sendOne_eq_emit, emit_emit, Output.list_append_one]
  · simp only [hst, Bool.not_true, Bool.false_eq_true, if_false]

/-- The change made by a successful JOIN. -/
def enter (s : Server) (p : ChannelPtr) (user : ClientPtr) : Server :=
  let s := s.updChannel p fun ch => { ch with invitedUsers := ch.invitedUsers.filter (· ≠ user) }
  let s := s.updClient user (·.removeInvitedChannel p)
  let isFirst := (s.channel p).isEmpty
  let s := s.addMember p user
  if isFirst then s.updChannel p (·.addOperator user) else s

/-- What the joining client alone receives after its own JOIN notice. -/
def welcomeLines (s : Server) (p : ChannelPtr) (user : ClientPtr) : List Bytes :=
  [s.topicLine p user] ++ s.namesLines p user ++
    [makeReply Numeric.rplEndOfNames (s.client user).nickname
      ((s.channel p).name ++ ascii " :End of /NAMES list")]

theorem letIn_eq (s : Server) (p : ChannelPtr) (user : ClientPtr) :
    s.letIn p user = (s.enter p user).emit
      ((Output.all ((s.enter p user).channel p).members (joinNotice
        ((s.enter p user).client user) ((s.enter p user).channel p).name)).append
        (Output.list user ((s.enter p user).welcomeLines p user))) := by
  have hletIn : s.letIn p user =
      (((((s.enter p user).sendToAll p (joinNotice ((s.enter p user).client user)
        ((s.enter p user).channel p).name)).sendTopic p user).sendNames p user).sendToOne user (makeReply Numeric.rplEndOfNames
        (s.enter p user |>.client user).nickname
        (((s.enter p user).channel p).name ++ ascii " :End of /NAMES list"))) := by
    simp only [letIn, enter, joinNotice, sendToAll_eq_emit, sendTopic_eq, sendNames_eq,
      emit_emit, emit_client, emit_channel, Client.sendAll_nickname]
  rw [hletIn]
  generalize s.enter p user = t
  rw [sendToAll_eq_emit, sendTopic_eq, sendNames_eq, sendOne_eq_emit, emit_emit, emit_emit,
    emit_emit]
  congr 1
  funext d
  have htopic : ∀ o, (t.emit o).topicLine p user = t.topicLine p user := fun _ => rfl
  have hnames : ∀ o o', ((t.emit o).emit o').namesLines p user = t.namesLines p user :=
    fun _ _ => rfl
  by_cases hd : d = user <;>
    simp [Output.append, Output.list, Output.one, welcomeLines, hd, htopic, hnames]

/-! ## Leaving -/

/-- A member leaves, and the channel is deleted when it is empty. -/
def leave (s : Server) (p : ChannelPtr) (c : ClientPtr) : Server :=
  let t := s.removeMember p c
  if (t.channel p).isEmpty then t.deleteChannel (s.channel p).name else t

theorem removeMember_name (s : Server) (p q : ChannelPtr) (c : ClientPtr) :
    ((s.removeMember p c).channel q).name = (s.channel q).name := by
  by_cases h : q = p
  · subst h
    simp [removeMember, Channel.removeOperator]
  · simp [removeMember, updChannel_channel_of_ne, h]

theorem deleteChannel_congr (s : Server) {n n' : Bytes} (h : toLower n = toLower n') :
    s.deleteChannel n = s.deleteChannel n' := by
  simp [deleteChannel, h]

/-- PART of a member, followed by the emptiness check of its callers. -/
theorem handlePart_leave (s : Server) (p : ChannelPtr) (user : ClientPtr) (message name : Bytes)
    (hm : (s.channel p).isMember user = true) (hname : toLower name = toLower (s.channel p).name) :
    (let t := s.handlePart p user message
      if (t.channel p).isEmpty then t.deleteChannel name else t) =
      (s.leave p user).emit
        (Output.all (s.channel p).members (partNotice (s.client user) (s.channel p).name
          (if 0 < message.length then message else (s.client user).nickname))) := by
  have hpart : s.handlePart p user message = (s.removeMember p user).emit
      (Output.all (s.channel p).members (partNotice (s.client user) (s.channel p).name
        (if 0 < message.length then message else (s.client user).nickname))) := by
    simp only [handlePart, hm, Bool.not_true, Bool.false_eq_true, if_false, sendToAll_eq_emit,
      emit_removeMember]
    rfl
  simp only [hpart, emit_channel, leave]
  split
  · rw [emit_deleteChannel, deleteChannel_congr _ hname]
  · rfl

/-- KICK of a member by an operator, followed by the emptiness check of `Kick::execute`. -/
theorem handleKick_leave (s : Server) (p : ChannelPtr) (user target : ClientPtr)
    (comment name : Bytes) (hu : (s.channel p).isMember user = true)
    (ho : (s.channel p).isOperator user = true) (ht : (s.channel p).isMember target = true)
    (hname : toLower name = toLower (s.channel p).name) :
    (let t := s.handleKick p user target comment
      if (t.channel p).isEmpty then t.deleteChannel name else t) =
      (s.leave p target).emit
        (Output.all (s.channel p).members (kickNotice (s.client user) (s.client target)
          (s.channel p).name (if !comment.isEmpty then comment else (s.client user).nickname))) := by
  have hkick : s.handleKick p user target comment = (s.removeMember p target).emit
      (Output.all (s.channel p).members (kickNotice (s.client user) (s.client target)
        (s.channel p).name (if !comment.isEmpty then comment else (s.client user).nickname))) := by
    simp only [handleKick, hu, ho, ht, Bool.not_true, Bool.false_eq_true, if_false,
      sendToAll_eq_emit, emit_removeMember]
    rfl
  simp only [hkick, emit_channel, leave]
  split
  · rw [emit_deleteChannel, deleteChannel_congr _ hname]
  · rfl

end Server
end FtIrc
