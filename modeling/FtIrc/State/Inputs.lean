import FtIrc.Model.Network

/-!
# The input side of a connection

What has arrived from a client, and when, is not read by any command. So a command does the same
whatever waits in the read buffers.
-/

namespace FtIrc

/-- The input side of a connection. -/
structure Input where
  readBuffer : Bytes
  lines : List Bytes
  lastActivity : Time
  pingSent : Bool

namespace Client

def input (c : Client) : Input := ⟨c.readBuffer, c.lines, c.lastActivity, c.pingSent⟩

def withInput (c : Client) (i : Input) : Client :=
  { c with
    readBuffer := i.readBuffer
    lines := i.lines
    lastActivity := i.lastActivity
    pingSent := i.pingSent }

section fields

variable (c : Client) (i : Input)

@[simp] theorem withInput_fd : (c.withInput i).fd = c.fd := rfl
@[simp] theorem withInput_ip : (c.withInput i).ip = c.ip := rfl
@[simp] theorem withInput_nickname : (c.withInput i).nickname = c.nickname := rfl
@[simp] theorem withInput_username : (c.withInput i).username = c.username := rfl
@[simp] theorem withInput_isRegistered : (c.withInput i).isRegistered = c.isRegistered := rfl
@[simp] theorem withInput_isPasswordVerified :
    (c.withInput i).isPasswordVerified = c.isPasswordVerified := rfl
@[simp] theorem withInput_joinedChannels :
    (c.withInput i).joinedChannels = c.joinedChannels := rfl
@[simp] theorem withInput_readBuffer : (c.withInput i).readBuffer = i.readBuffer := rfl
@[simp] theorem withInput_lines : (c.withInput i).lines = i.lines := rfl
@[simp] theorem withInput_isMissingPassword :
    (c.withInput i).isMissingPassword = c.isMissingPassword := rfl
@[simp] theorem targetname_withInput :
    IrcReply.targetname (c.withInput i) = IrcReply.targetname c := rfl
@[simp] theorem makeCommand_withInput (cmd rest : Bytes) :
    makeCommand (c.withInput i) cmd rest = makeCommand c cmd rest := rfl

end fields

end Client

namespace Server

/-- The server with other input sides. -/
def withInputs (s : Server) (i : ClientPtr → Input) : Server :=
  { s with client := fun c => (s.client c).withInput (i c) }

section reads

variable (s : Server) (i : ClientPtr → Input)

@[simp] theorem withInputs_client (c : ClientPtr) :
    (s.withInputs i).client c = (s.client c).withInput (i c) := rfl
@[simp] theorem withInputs_channel : (s.withInputs i).channel = s.channel := rfl
@[simp] theorem withInputs_channels : (s.withInputs i).channels = s.channels := rfl
@[simp] theorem withInputs_clients : (s.withInputs i).clients = s.clients := rfl
@[simp] theorem withInputs_closing : (s.withInputs i).closing = s.closing := rfl
@[simp] theorem withInputs_toDisconnected :
    (s.withInputs i).toDisconnected = s.toDisconnected := rfl
@[simp] theorem withInputs_now : (s.withInputs i).now = s.now := rfl
@[simp] theorem withInputs_heap : (s.withInputs i).heap = s.heap := rfl
@[simp] theorem withInputs_isMarked (fd : Fd) : (s.withInputs i).isMarked fd = s.isMarked fd := rfl
@[simp] theorem withInputs_findChannel (name : Bytes) :
    (s.withInputs i).findChannel name = s.findChannel name := rfl
@[simp] theorem withInputs_findClientByNickname (nickname : Bytes) :
    (s.withInputs i).findClientByNickname nickname = s.findClientByNickname nickname := rfl
@[simp] theorem withInputs_isNicknameTaken (nickname : Bytes) (c : ClientPtr) :
    (s.withInputs i).isNicknameTaken nickname c = s.isNicknameTaken nickname c := rfl
@[simp] theorem withInputs_checkPassword (password : Bytes) :
    (s.withInputs i).checkPassword password = s.checkPassword password := rfl

theorem withInputs_ite (P : Prop) [Decidable P] (t : Server) :
    (if P then s else t).withInputs i = if P then s.withInputs i else t.withInputs i :=
  apply_ite (fun s : Server => s.withInputs i) P s t

end reads

/-! ## Changes of objects -/

section changes

variable (s : Server) (i : ClientPtr → Input)

/-- A change of a client that neither reads nor changes its input side. -/
theorem updClient_withInputs (c : ClientPtr) {f : Client → Client}
    (hf : ∀ j, f ((s.client c).withInput j) = (f (s.client c)).withInput j) :
    (s.withInputs i).updClient c f = (s.updClient c f).withInputs i := by
  simp only [updClient, withInputs, Server.mk.injEq, true_and, and_true]
  funext d
  by_cases hd : d = c
  · rw [hd, Function.update_self, Function.update_self, hf]
  · rw [Function.update_of_ne hd, Function.update_of_ne hd]

@[simp] theorem updChannel_withInputs (p : ChannelPtr) (f : Channel → Channel) :
    (s.withInputs i).updChannel p f = (s.updChannel p f).withInputs i := rfl

@[simp] theorem sendReply_withInputs (c : ClientPtr) (m : Bytes) :
    (s.withInputs i).sendReply c m = (s.sendReply c m).withInputs i :=
  updClient_withInputs s i c fun _ => rfl

@[simp] theorem sendToOne_withInputs (c : ClientPtr) (m : Bytes) :
    (s.withInputs i).sendToOne c m = (s.sendToOne c m).withInputs i :=
  sendReply_withInputs s i c m

/-- A loop whose rounds do not read the input sides. -/
theorem foldl_withInputs {α : Type*} {f : Server → α → Server}
    (hf : ∀ s x, f (s.withInputs i) x = (f s x).withInputs i) (xs : List α) :
    xs.foldl f (s.withInputs i) = (xs.foldl f s).withInputs i :=
  List.foldl_hom (fun s : Server => s.withInputs i) hf

@[simp] theorem sendToAll_withInputs (p : ChannelPtr) (m : Bytes) :
    (s.withInputs i).sendToAll p m = (s.sendToAll p m).withInputs i :=
  foldl_withInputs s i (fun s d => sendReply_withInputs s i d m) _

@[simp] theorem sendToAllExcept_withInputs (p : ChannelPtr) (except : ClientPtr) (m : Bytes) :
    (s.withInputs i).sendToAllExcept p except m =
      (s.sendToAllExcept p except m).withInputs i := by
  refine foldl_withInputs s i (fun s d => ?_) _
  split_ifs
  · exact sendReply_withInputs s i d m
  · rfl

@[simp] theorem disconnectClient_withInputs (c : ClientPtr) (reason : Bytes) :
    (s.withInputs i).disconnectClient c reason = (s.disconnectClient c reason).withInputs i := by
  simp only [disconnectClient, disconnectAfterFlush, sendReply_withInputs, withInputs_client,
    Client.withInput_ip, Client.withInput_fd, withInputs_closing]
  exact updClient_withInputs { s.sendReply c _ with closing := _ } i c (f := (·.markClosing s.now))
    fun _ => rfl

@[simp] theorem replyTo_withInputs (c : ClientPtr) (code : Nat) (rest : Bytes) :
    (s.withInputs i).replyTo c code rest = (s.replyTo c code rest).withInputs i :=
  sendReply_withInputs s i c _

@[simp] theorem replyWith_withInputs (c : ClientPtr) (code trailing : Bytes) :
    (s.withInputs i).replyWith c code trailing = (s.replyWith c code trailing).withInputs i :=
  sendReply_withInputs s i c _

@[simp] theorem replyWithParameter_withInputs (c : ClientPtr) (code parameter trailing : Bytes) :
    (s.withInputs i).replyWithParameter c code parameter trailing =
      (s.replyWithParameter c code parameter trailing).withInputs i :=
  sendReply_withInputs s i c _

theorem notifyMembers_withInputs (notice : Bytes) (members : List ClientPtr)
    (notified : List ClientPtr) :
    notifyMembers notice members (notified, s.withInputs i) =
      ((notifyMembers notice members (notified, s)).1,
        (notifyMembers notice members (notified, s)).2.withInputs i) := by
  refine @List.foldl_hom _ _ _ (fun st : List ClientPtr × Server => (st.1, st.2.withInputs i))
    _ _ members (notified, s) fun st d => ?_
  dsimp only
  split_ifs
  · rfl
  · rw [sendReply_withInputs]

@[simp] theorem notifyChannels_withInputs (c : ClientPtr) (notice : Bytes) :
    (s.withInputs i).notifyChannels c notice = (s.notifyChannels c notice).withInputs i := by
  have hfold := @List.foldl_hom _ _ _ (fun st : List ClientPtr × Server =>
    (st.1, st.2.withInputs i)) (fun st p => notifyMembers notice (st.2.channel p).members st)
    (fun st p => notifyMembers notice (st.2.channel p).members st)
    (s.client c).joinedChannels.values ([c], s)
    fun st p => notifyMembers_withInputs st.2 i notice _ st.1
  exact congrArg Prod.snd hfold

@[simp] theorem broadcastNickChange_withInputs (c : ClientPtr) (notice : Bytes) :
    (s.withInputs i).broadcastNickChange c notice =
      (s.broadcastNickChange c notice).withInputs i := by
  simp only [broadcastNickChange, sendReply_withInputs, notifyChannels_withInputs]

@[simp] theorem deleteChannel_withInputs (name : Bytes) :
    (s.withInputs i).deleteChannel name = (s.deleteChannel name).withInputs i := by
  simp only [deleteChannel, withInputs_channels]
  split
  · rfl
  · rename_i p hp
    exact foldl_withInputs { s with channels := s.channels.erase (toLower name) } i
      (fun s c => updClient_withInputs s i c (f := (·.removeInvitedChannel p)) fun _ => rfl) _

end changes

/-! ## Commands of channels -/

section channels

variable (s : Server) (i : ClientPtr → Input) (p : ChannelPtr) (c : ClientPtr)

@[simp] theorem addMember_withInputs :
    (s.withInputs i).addMember p c = (s.addMember p c).withInputs i := by
  have hjoin := fun t : Server => updClient_withInputs t i c
    (f := (·.addJoinedChannels (s.channel p).name p)) fun _ => rfl
  unfold addMember
  rw [withInputs_channel, updChannel_withInputs, hjoin, withInputs_ite]

@[simp] theorem removeMember_withInputs :
    (s.withInputs i).removeMember p c = (s.removeMember p c).withInputs i := by
  simp only [removeMember, updChannel_withInputs]
  exact updClient_withInputs _ i c (f := (·.removeJoinedChannels _)) fun _ => rfl

@[simp] theorem sendTopic_withInputs :
    (s.withInputs i).sendTopic p c = (s.sendTopic p c).withInputs i := by
  simp only [sendTopic, withInputs_channel, withInputs_client, Client.withInput_nickname,
    sendToOne_withInputs, withInputs_ite]

theorem namesRound_withInputs (header : Bytes) (limit : Nat) (st : Server × Bytes)
    (d : ClientPtr) : namesRound p c header limit (st.1.withInputs i, st.2) d =
      ((namesRound p c header limit st d).1.withInputs i, (namesRound p c header limit st d).2) := by
  simp only [namesRound, withInputs_channel, withInputs_client, Client.withInput_nickname,
    sendToOne_withInputs, withInputs_ite]
  rfl

@[simp] theorem sendNames_withInputs :
    (s.withInputs i).sendNames p c = (s.sendNames p c).withInputs i := by
  have hfold : ∀ header limit, (s.channel p).members.foldl (namesRound p c header limit)
      (s.withInputs i, []) =
        (((s.channel p).members.foldl (namesRound p c header limit) (s, [])).1.withInputs i,
          ((s.channel p).members.foldl (namesRound p c header limit) (s, [])).2) :=
    fun header limit => @List.foldl_hom _ _ _ (fun st : Server × Bytes => (st.1.withInputs i, st.2))
      (namesRound p c header limit) (namesRound p c header limit) _ (s, [])
      fun st d => namesRound_withInputs i p c header limit st d
  simp only [sendNames, withInputs_channel, withInputs_client, Client.withInput_nickname, hfold,
    sendToOne_withInputs, withInputs_ite]

@[simp] theorem letIn_withInputs :
    (s.withInputs i).letIn p c = (s.letIn p c).withInputs i := by
  have huninvite : ∀ t : Server, (t.withInputs i).updClient c (·.removeInvitedChannel p) =
      (t.updClient c (·.removeInvitedChannel p)).withInputs i :=
    fun t => updClient_withInputs t i c fun _ => rfl
  unfold letIn
  dsimp only
  rw [updChannel_withInputs, huninvite, addMember_withInputs, withInputs_channel,
    updChannel_withInputs, ← withInputs_ite]
  simp only [withInputs_client, withInputs_channel, Client.makeCommand_withInput,
    Client.withInput_nickname, sendToAll_withInputs, sendTopic_withInputs, sendNames_withInputs,
    sendToOne_withInputs]

@[simp] theorem handleJoin_withInputs (key : Bytes) :
    (s.withInputs i).handleJoin p c key = (s.handleJoin p c key).withInputs i := by
  simp only [handleJoin, withInputs_channel, withInputs_client, Client.withInput_nickname,
    sendToOne_withInputs, letIn_withInputs, withInputs_ite]

@[simp] theorem notOnChannel_withInputs :
    (s.withInputs i).notOnChannel p c = (s.notOnChannel p c).withInputs i :=
  sendToOne_withInputs s i c _

@[simp] theorem chanOPrivsNeeded_withInputs :
    (s.withInputs i).chanOPrivsNeeded p c = (s.chanOPrivsNeeded p c).withInputs i :=
  sendToOne_withInputs s i c _

@[simp] theorem handlePart_withInputs (message : Bytes) :
    (s.withInputs i).handlePart p c message = (s.handlePart p c message).withInputs i := by
  simp only [handlePart, withInputs_channel, withInputs_client, Client.withInput_nickname,
    Client.makeCommand_withInput, notOnChannel_withInputs, sendToAll_withInputs,
    removeMember_withInputs, withInputs_ite]

@[simp] theorem handleKick_withInputs (d : ClientPtr) (comment : Bytes) :
    (s.withInputs i).handleKick p c d comment = (s.handleKick p c d comment).withInputs i := by
  simp only [handleKick, withInputs_channel, withInputs_client, Client.withInput_nickname,
    Client.makeCommand_withInput, notOnChannel_withInputs, chanOPrivsNeeded_withInputs,
    sendToOne_withInputs, sendToAll_withInputs, removeMember_withInputs, withInputs_ite]

@[simp] theorem handleTopic_withInputs (topic : Bytes) (hasTopicParam : Bool) :
    (s.withInputs i).handleTopic p c topic hasTopicParam =
      (s.handleTopic p c topic hasTopicParam).withInputs i := by
  simp only [handleTopic, withInputs_channel, withInputs_client, Client.makeCommand_withInput,
    notOnChannel_withInputs, chanOPrivsNeeded_withInputs, sendTopic_withInputs,
    updChannel_withInputs, sendToAll_withInputs, withInputs_ite]

@[simp] theorem handleInvite_withInputs (d : ClientPtr) :
    (s.withInputs i).handleInvite p c d = (s.handleInvite p c d).withInputs i := by
  have hinvite : ∀ t : Server, (t.withInputs i).updClient d (·.addInvitedChannel p) =
      (t.updClient d (·.addInvitedChannel p)).withInputs i :=
    fun t => updClient_withInputs t i d fun _ => rfl
  simp only [handleInvite, withInputs_channel, withInputs_client, Client.withInput_nickname,
    Client.makeCommand_withInput, notOnChannel_withInputs, chanOPrivsNeeded_withInputs,
    sendToOne_withInputs, updChannel_withInputs, hinvite, withInputs_ite]

@[simp] theorem handleModeOperator_withInputs (enable : Bool) (target : ClientPtr) :
    (s.withInputs i).handleModeOperator p enable target c =
      (s.handleModeOperator p enable target c).withInputs i := by
  simp only [handleModeOperator, withInputs_channel, withInputs_client, Client.withInput_nickname,
    Client.makeCommand_withInput, chanOPrivsNeeded_withInputs, sendToOne_withInputs,
    updChannel_withInputs, sendToAll_withInputs, withInputs_ite]

@[simp] theorem handleChannelPrivmsg_withInputs (message : Bytes) :
    (s.withInputs i).handleChannelPrivmsg p c message =
      (s.handleChannelPrivmsg p c message).withInputs i := by
  simp only [handleChannelPrivmsg, withInputs_channel, withInputs_client,
    Client.withInput_nickname, Client.makeCommand_withInput, sendToOne_withInputs,
    sendToAllExcept_withInputs, withInputs_ite]

@[simp] theorem handlePersonalPrivmsg_withInputs (d : ClientPtr) (message : Bytes) :
    (s.withInputs i).handlePersonalPrivmsg c d message =
      (s.handlePersonalPrivmsg c d message).withInputs i :=
  sendReply_withInputs s i d _

end channels

/-! ## MODE -/

section mode

variable (i : ClientPtr → Input) (p : ChannelPtr) (c : ClientPtr) (params : List Bytes)

def ModeLoop.withInputs (l : ModeLoop) : ModeLoop := { l with server := l.server.withInputs i }

def FilterLoop.withInputs (l : FilterLoop) : FilterLoop :=
  { l with server := l.server.withInputs i }

theorem ModeLoop.refuse_withInputs (l : ModeLoop) (m : Bytes) :
    (l.withInputs i).refuse c m = (l.refuse c m).withInputs i :=
  congrArg (fun s => { l with server := s }) (sendToOne_withInputs l.server i c m)

theorem ModeLoop.withInputs_ite (P : Prop) [Decidable P] (l l' : ModeLoop) :
    (if P then l else l').withInputs i = if P then l.withInputs i else l'.withInputs i :=
  apply_ite (fun l => ModeLoop.withInputs i l) P l l'

theorem ModeLoop.keyRound_withInputs (l : ModeLoop) :
    (l.withInputs i).keyRound p c params = (l.keyRound p c params).withInputs i := by
  have hindex : (l.withInputs i).paramIndex = l.paramIndex := rfl
  unfold ModeLoop.keyRound
  dsimp only
  rw [ModeLoop.withInputs_ite, hindex]
  cases params[l.paramIndex]? with
  | none => simp only [ModeLoop.withInputs_ite]; rfl
  | some key =>
    have hskip := ModeLoop.refuse_withInputs i c { l with paramIndex := l.paramIndex + 1 }
    simp only [ModeLoop.withInputs_ite, ← hskip]
    rfl

theorem ModeLoop.limitRound_withInputs (l : ModeLoop) :
    (l.withInputs i).limitRound p c params = (l.limitRound p c params).withInputs i := by
  have hindex : (l.withInputs i).paramIndex = l.paramIndex := rfl
  unfold ModeLoop.limitRound
  dsimp only
  rw [ModeLoop.withInputs_ite, hindex]
  cases params[l.paramIndex]? with
  | none => simp only [ModeLoop.withInputs_ite]; rfl
  | some raw =>
    have hskip := ModeLoop.refuse_withInputs i c { l with paramIndex := l.paramIndex + 1 }
    dsimp only
    cases parseLimit raw with
    | none => simp only [ModeLoop.withInputs_ite, ← hskip]; rfl
    | some limit => simp only [ModeLoop.withInputs_ite]; rfl

theorem ModeLoop.round_withInputs (l : ModeLoop) (b : Byte) :
    (l.withInputs i).round p c params b = (l.round p c params b).withInputs i := by
  unfold ModeLoop.round
  simp only [ModeLoop.withInputs_ite, ← ModeLoop.keyRound_withInputs,
    ← ModeLoop.limitRound_withInputs, ← ModeLoop.refuse_withInputs]
  rfl

@[simp] theorem handleMode_withInputs (s : Server) (modes : Bytes) :
    (s.withInputs i).handleMode p c modes params = (s.handleMode p c modes params).withInputs i := by
  have hfold : modes.foldl (ModeLoop.round p c params) ⟨s.withInputs i, true, 0, [], [], 0⟩ =
      (modes.foldl (ModeLoop.round p c params) ⟨s, true, 0, [], [], 0⟩).withInputs i :=
    @List.foldl_hom _ _ _ (ModeLoop.withInputs i) (ModeLoop.round p c params)
      (ModeLoop.round p c params) modes ⟨s, true, 0, [], [], 0⟩
      fun l b => ModeLoop.round_withInputs i p c params l b
  unfold handleMode
  dsimp only
  rw [hfold]
  simp only [withInputs_channel, withInputs_client, Client.withInput_nickname,
    notOnChannel_withInputs, chanOPrivsNeeded_withInputs, sendToOne_withInputs, Server.withInputs_ite,
    ModeLoop.withInputs, Client.makeCommand_withInput, sendToAll_withInputs]

theorem FilterLoop.withInputs_ite (P : Prop) [Decidable P] (l l' : FilterLoop) :
    (if P then l else l').withInputs i = if P then l.withInputs i else l'.withInputs i :=
  apply_ite (fun l => FilterLoop.withInputs i l) P l l'

theorem FilterLoop.operatorRound_withInputs (l : FilterLoop) (param : Bytes) :
    (l.withInputs i).operatorRound p c param = (l.operatorRound p c param).withInputs i := by
  simp only [FilterLoop.operatorRound, FilterLoop.withInputs, withInputs_findClientByNickname]
  cases l.server.findClientByNickname param with
  | none => simp only [replyTo_withInputs, withInputs_channel]
  | some target => simp only [handleModeOperator_withInputs]

theorem FilterLoop.collect_withInputs (l : FilterLoop) (b : Byte) (param : Option Bytes) :
    (l.withInputs i).collect b param = (l.collect b param).withInputs i := rfl

theorem FilterLoop.actOn_withInputs (l : FilterLoop) (b : Byte) (param : Option Bytes) :
    (l.withInputs i).actOn p c b param = (l.actOn p c b param).withInputs i := by
  have hoperator := FilterLoop.operatorRound_withInputs i p c
  have hcount : ∀ l : FilterLoop, (if FilterLoop.isParamMode b then
      { l.withInputs i with paramModeCount := (l.withInputs i).paramModeCount + 1 }
        else l.withInputs i) = (if FilterLoop.isParamMode b then
          { l with paramModeCount := l.paramModeCount + 1 } else l).withInputs i := by
    intro l
    rw [FilterLoop.withInputs_ite]
    rfl
  unfold FilterLoop.actOn
  dsimp only
  rw [hcount, hoperator, FilterLoop.collect_withInputs]
  simp only [FilterLoop.withInputs_ite]
  rfl

theorem FilterLoop.round_withInputs (l : FilterLoop) (b : Byte) :
    (l.withInputs i).round p c params b = (l.round p c params b).withInputs i := by
  have hact := FilterLoop.actOn_withInputs i p c
  have hserver : (l.withInputs i).server = l.server.withInputs i := rfl
  have hindex : (l.withInputs i).paramIndex = l.paramIndex := rfl
  unfold FilterLoop.round
  rw [hindex, hserver]
  cases params[l.paramIndex]? with
  | none =>
    simp only [FilterLoop.withInputs_ite, replyTo_withInputs, hact]
    rfl
  | some param =>
    have hact' := hact { l with paramIndex := l.paramIndex + 1 } b (some param)
    simp only [FilterLoop.withInputs_ite, replyTo_withInputs, hact l b none, ← hact']
    rfl

@[simp] theorem applyModes_withInputs (s : Server) (modes : Bytes) :
    (s.withInputs i).applyModes p c modes params = (s.applyModes p c modes params).withInputs i := by
  have hfold : modes.foldl (FilterLoop.round p c params) ⟨s.withInputs i, 0, 0, true, [], [], 0⟩ =
      (modes.foldl (FilterLoop.round p c params) ⟨s, 0, 0, true, [], [], 0⟩).withInputs i :=
    @List.foldl_hom _ _ _ (FilterLoop.withInputs i) (FilterLoop.round p c params)
      (FilterLoop.round p c params) modes ⟨s, 0, 0, true, [], [], 0⟩
      fun l b => FilterLoop.round_withInputs i p c params l b
  unfold applyModes
  dsimp only
  rw [hfold]
  simp only [FilterLoop.withInputs, handleMode_withInputs, Server.withInputs_ite]

end mode

/-! ## Commands -/

section commands

variable (s : Server) (i : ClientPtr → Input) (c : ClientPtr) (msg : Message)

@[simp] theorem tryCompleteRegistration_withInputs :
    (s.withInputs i).tryCompleteRegistration c = (s.tryCompleteRegistration c).withInputs i := by
  have hregister : (s.withInputs i).updClient c (fun cl => { cl with isRegistered := true }) =
      (s.updClient c fun cl => { cl with isRegistered := true }).withInputs i :=
    updClient_withInputs s i c fun _ => rfl
  unfold tryCompleteRegistration
  dsimp only
  rw [hregister]
  simp only [sendReply_withInputs, withInputs_client, Client.withInput_nickname,
    Client.withInput_username, Client.withInput_ip, withInputs_ite]
  rfl

@[simp] theorem finishRegistration_withInputs :
    (s.withInputs i).finishRegistration c = (s.finishRegistration c).withInputs i := by
  simp only [finishRegistration, tryCompleteRegistration_withInputs, withInputs_client,
    Client.withInput_isMissingPassword, sendReply_withInputs, disconnectClient_withInputs,
    withInputs_ite]

@[simp] theorem executeNick_withInputs :
    (s.withInputs i).executeNick c msg = (s.executeNick c msg).withInputs i := by
  have hrename : (s.withInputs i).updClient c
      (fun cl => { cl with nickname := msg.parameter.headD [] }) =
        (s.updClient c fun cl => { cl with nickname := msg.parameter.headD [] }).withInputs i :=
    updClient_withInputs s i c fun _ => rfl
  unfold executeNick
  dsimp only
  rw [hrename]
  simp only [withInputs_client, replyWith_withInputs, replyWithParameter_withInputs,
    withInputs_isNicknameTaken, Client.withInput_nickname, Client.withInput_username,
    Client.withInput_ip, broadcastNickChange_withInputs, finishRegistration_withInputs,
    withInputs_ite]
  rfl

@[simp] theorem executePass_withInputs :
    (s.withInputs i).executePass c msg = (s.executePass c msg).withInputs i := by
  have hverify : (s.withInputs i).updClient c (fun cl => { cl with
      isPasswordVerified := (s.withInputs i).checkPassword (msg.parameter.headD []) }) =
        (s.updClient c fun cl => { cl with
          isPasswordVerified := s.checkPassword (msg.parameter.headD []) }).withInputs i :=
    updClient_withInputs s i c fun _ => rfl
  unfold executePass
  dsimp only
  rw [hverify]
  simp only [replyWith_withInputs, replyWithParameter_withInputs,
    tryCompleteRegistration_withInputs, withInputs_ite]
  rfl

@[simp] theorem executePing_withInputs :
    (s.withInputs i).executePing c msg = (s.executePing c msg).withInputs i := by
  simp only [executePing, replyWith_withInputs, sendReply_withInputs, withInputs_ite]

@[simp] theorem executeQuit_withInputs :
    (s.withInputs i).executeQuit c msg = (s.executeQuit c msg).withInputs i :=
  disconnectClient_withInputs s i c _

@[simp] theorem executeUser_withInputs :
    (s.withInputs i).executeUser c msg = (s.executeUser c msg).withInputs i := by
  have hnames : (s.withInputs i).updClient c (fun cl => { cl with
      username := msg.parameter.headD [], realname := msg.parameter.getD 3 [] }) =
        (s.updClient c fun cl => { cl with
          username := msg.parameter.headD [], realname := msg.parameter.getD 3 [] }).withInputs i :=
    updClient_withInputs s i c fun _ => rfl
  unfold executeUser
  dsimp only
  rw [hnames]
  simp only [replyWith_withInputs, replyWithParameter_withInputs, finishRegistration_withInputs,
    withInputs_ite]
  rfl

@[simp] theorem executeInvite_withInputs :
    (s.withInputs i).executeInvite c msg = (s.executeInvite c msg).withInputs i := by
  unfold executeInvite
  split
  · rename_i nick name rest hparam
    rw [withInputs_findClientByNickname, withInputs_findChannel]
    cases s.findClientByNickname nick with
    | none => exact replyTo_withInputs s i c _ _
    | some target =>
      cases s.findChannel name with
      | none => exact replyTo_withInputs s i c _ _
      | some p => exact handleInvite_withInputs s i p c target
  · exact replyTo_withInputs s i c _ _

theorem partRound_withInputs (entry : Bytes × ChannelPtr) :
    partRound c (s.withInputs i) entry = (partRound c s entry).withInputs i := by
  simp only [partRound, handlePart_withInputs, withInputs_channel, deleteChannel_withInputs,
    withInputs_ite]

theorem findOrCreateChannel_withInputs (name : Bytes) :
    (s.withInputs i).findOrCreateChannel name =
      ((s.findOrCreateChannel name).1.withInputs i, (s.findOrCreateChannel name).2) := by
  unfold findOrCreateChannel
  dsimp only
  rw [withInputs_findChannel]
  cases s.findChannel (toLower name) <;> rfl

@[simp] theorem executeJoin_withInputs :
    (s.withInputs i).executeJoin c msg = (s.executeJoin c msg).withInputs i := by
  have hparts := foldl_withInputs s i (fun s entry => partRound_withInputs s i c entry)
    (s.client c).joinedChannels.entries
  unfold executeJoin
  cases msg.parameter with
  | nil => exact replyTo_withInputs s i c _ _
  | cons name rest =>
    dsimp only
    rw [findOrCreateChannel_withInputs]
    simp only [withInputs_client, Client.withInput_joinedChannels, hparts, replyTo_withInputs,
      handleJoin_withInputs, withInputs_ite]

@[simp] theorem executeKick_withInputs :
    (s.withInputs i).executeKick c msg = (s.executeKick c msg).withInputs i := by
  unfold executeKick
  split
  · rename_i name nick rest hparam
    rw [withInputs_findChannel, withInputs_findClientByNickname]
    cases s.findChannel name with
    | none => exact replyTo_withInputs s i c _ _
    | some p =>
      cases s.findClientByNickname nick with
      | none => simp only [withInputs_channel, replyTo_withInputs, withInputs_ite]
      | some target =>
        simp only [handleKick_withInputs, withInputs_channel, deleteChannel_withInputs,
          withInputs_ite]
  · exact replyTo_withInputs s i c _ _

@[simp] theorem executePart_withInputs :
    (s.withInputs i).executePart c msg = (s.executePart c msg).withInputs i := by
  unfold executePart
  cases msg.parameter with
  | nil => exact replyTo_withInputs s i c _ _
  | cons name rest =>
    dsimp only
    rw [withInputs_findChannel]
    cases s.findChannel name with
    | none => exact replyTo_withInputs s i c _ _
    | some p =>
      simp only [handlePart_withInputs, withInputs_channel, deleteChannel_withInputs,
        withInputs_ite]

@[simp] theorem executePrivmsg_withInputs :
    (s.withInputs i).executePrivmsg c msg = (s.executePrivmsg c msg).withInputs i := by
  unfold executePrivmsg
  dsimp only
  rw [withInputs_findChannel, withInputs_findClientByNickname]
  cases s.findChannel (msg.parameter.headD []) with
  | none =>
    cases s.findClientByNickname (msg.parameter.headD []) with
    | none => simp only [replyTo_withInputs, withInputs_ite]
    | some d => simp only [replyTo_withInputs, handlePersonalPrivmsg_withInputs, withInputs_ite]
  | some p => simp only [replyTo_withInputs, handleChannelPrivmsg_withInputs, withInputs_ite]

@[simp] theorem executeTopic_withInputs :
    (s.withInputs i).executeTopic c msg = (s.executeTopic c msg).withInputs i := by
  unfold executeTopic
  cases msg.parameter with
  | nil => exact replyTo_withInputs s i c _ _
  | cons name rest =>
    dsimp only
    rw [withInputs_findChannel]
    cases s.findChannel name with
    | none => exact replyTo_withInputs s i c _ _
    | some p => exact handleTopic_withInputs s i p c _ _

@[simp] theorem executeMode_withInputs :
    (s.withInputs i).executeMode c msg = (s.executeMode c msg).withInputs i := by
  unfold executeMode
  split
  · exact replyTo_withInputs s i c _ _
  · exact replyTo_withInputs s i c _ _
  · rename_i first rest params hparam
    rw [withInputs_findChannel]
    cases s.findChannel (first :: rest) with
    | none => simp only [replyTo_withInputs, withInputs_ite]
    | some p =>
      dsimp only
      cases params.headD [] with
      | nil => simp only [handleMode_withInputs, withInputs_ite]
      | cons sign flags =>
        simp only [withInputs_channel, replyTo_withInputs, applyModes_withInputs, withInputs_ite]

/-- What has arrived and what has been taken of it. -/
def SameBuffers (i j : ClientPtr → Input) : Prop :=
  ∀ d, (j d).readBuffer = (i d).readBuffer ∧ (j d).lines = (i d).lines

theorem executePong_withInputs : (s.withInputs i).executePong c msg =
    (s.executePong c msg).withInputs
      (Function.update i c { i c with lastActivity := s.now, pingSent := false }) := by
  simp only [executePong, updClient, withInputs, Server.mk.injEq, true_and, and_true]
  funext d
  by_cases hd : d = c
  · rw [hd, Function.update_self, Function.update_self, Function.update_self]
    rfl
  · rw [Function.update_of_ne hd, Function.update_of_ne hd, Function.update_of_ne hd]

/-- A command does the same whatever waits in the read buffers. -/
theorem execute_withInputs (cmd : Command) : ∃ j, SameBuffers i j ∧
    execute cmd (s.withInputs i) c msg = (execute cmd s c msg).withInputs j := by
  have hsame : SameBuffers i i := fun _ => ⟨rfl, rfl⟩
  cases cmd with
  | nick => exact ⟨i, hsame, executeNick_withInputs s i c msg⟩
  | pass => exact ⟨i, hsame, executePass_withInputs s i c msg⟩
  | ping => exact ⟨i, hsame, executePing_withInputs s i c msg⟩
  | pong =>
    refine ⟨_, fun d => ?_, executePong_withInputs s i c msg⟩
    by_cases hd : d = c
    · rw [hd, Function.update_self]
      exact ⟨rfl, rfl⟩
    · rw [Function.update_of_ne hd]
      exact ⟨rfl, rfl⟩
  | quit => exact ⟨i, hsame, executeQuit_withInputs s i c msg⟩
  | user => exact ⟨i, hsame, executeUser_withInputs s i c msg⟩
  | invite => exact ⟨i, hsame, executeInvite_withInputs s i c msg⟩
  | join => exact ⟨i, hsame, executeJoin_withInputs s i c msg⟩
  | kick => exact ⟨i, hsame, executeKick_withInputs s i c msg⟩
  | mode => exact ⟨i, hsame, executeMode_withInputs s i c msg⟩
  | part => exact ⟨i, hsame, executePart_withInputs s i c msg⟩
  | privmsg => exact ⟨i, hsame, executePrivmsg_withInputs s i c msg⟩
  | topic => exact ⟨i, hsame, executeTopic_withInputs s i c msg⟩

theorem operate_withInputs (raw : Bytes) : ∃ j, SameBuffers i j ∧
    (s.withInputs i).operate c raw = (s.operate c raw).withInputs j := by
  have hsame : SameBuffers i i := fun _ => ⟨rfl, rfl⟩
  unfold operate
  cases spliter raw with
  | none => exact ⟨i, hsame, rfl⟩
  | some msg =>
    dsimp only
    unfold dispatch
    cases findCommand msg.command with
    | none => exact ⟨i, hsame, replyWithParameter_withInputs s i c _ _ _⟩
    | some cmd =>
      dsimp only
      rw [withInputs_client, Client.withInput_isRegistered]
      split_ifs
      · exact ⟨i, hsame, sendReply_withInputs s i c _⟩
      · exact execute_withInputs s i c msg cmd

/-- The input sides as they are. -/
def inputs (s : Server) (d : ClientPtr) : Input := (s.client d).input

theorem withInputs_inputs : s.withInputs s.inputs = s := rfl

end commands

end Server
end FtIrc
