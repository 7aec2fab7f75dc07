import FtIrc.Model.Network

/-!
# Output of a command

Every handler changes the links between clients and channels and appends lines to write buffers.
`emit out` appends to each client `d` the lines `out d`. All loops of sends are of this form, and
`emit` commutes with the other updates, so a handler is one change followed by one `emit`.
-/

namespace FtIrc

namespace Client

/-- A list of messages given to `sendReply` one after the other. -/
def sendAll (c : Client) (ms : List Bytes) : Client :=
  { c with
    writeBuffer := c.writeBuffer ++ (ms.map frame).flatten
    replies := c.replies ++ ms }

theorem sendReply_eq_sendAll (c : Client) (m : Bytes) : c.sendReply m = c.sendAll [m] := by
  simp [sendReply, sendAll]

@[simp] theorem sendAll_nil (c : Client) : c.sendAll [] = c := by simp [sendAll]

@[simp] theorem sendAll_sendAll (c : Client) (ms ms' : List Bytes) :
    (c.sendAll ms).sendAll ms' = c.sendAll (ms ++ ms') := by
  simp [sendAll]

section fields

variable (c : Client) (ms : List Bytes)

@[simp] theorem sendAll_fd : (c.sendAll ms).fd = c.fd := rfl
@[simp] theorem sendAll_ip : (c.sendAll ms).ip = c.ip := rfl
@[simp] theorem sendAll_nickname : (c.sendAll ms).nickname = c.nickname := rfl
@[simp] theorem sendAll_username : (c.sendAll ms).username = c.username := rfl
@[simp] theorem sendAll_isRegistered : (c.sendAll ms).isRegistered = c.isRegistered := rfl
@[simp] theorem sendAll_isPasswordVerified :
    (c.sendAll ms).isPasswordVerified = c.isPasswordVerified := rfl
@[simp] theorem sendAll_joinedChannels : (c.sendAll ms).joinedChannels = c.joinedChannels := rfl
@[simp] theorem sendAll_invitedChannels : (c.sendAll ms).invitedChannels = c.invitedChannels := rfl
@[simp] theorem sendAll_sent : (c.sendAll ms).sent = c.sent := rfl
@[simp] theorem sendAll_replies : (c.sendAll ms).replies = c.replies ++ ms := rfl
@[simp] theorem sendAll_lines : (c.sendAll ms).lines = c.lines := rfl

end fields

@[simp] theorem makeCommand_sendAll (c : Client) (ms : List Bytes) (cmd rest : Bytes) :
    makeCommand (c.sendAll ms) cmd rest = makeCommand c cmd rest := rfl

@[simp] theorem targetname_sendAll (c : Client) (ms : List Bytes) :
    IrcReply.targetname (c.sendAll ms) = IrcReply.targetname c := rfl

/-- The update does not look at the output, and leaves it alone. -/
def Silent (f : Client → Client) : Prop := ∀ c ms, f (c.sendAll ms) = (f c).sendAll ms

end Client

/-- Lines to append to each write buffer. -/
abbrev Output := ClientPtr → List Bytes

namespace Output

def none : Output := fun _ => []

/-- One line to one client. -/
def one (c : ClientPtr) (m : Bytes) : Output := fun d => if d = c then [m] else []

/-- One line to each client of a list. -/
def all (cs : List ClientPtr) (m : Bytes) : Output := fun d => List.replicate (cs.count d) m

/-- Some lines to one client. -/
def list (c : ClientPtr) (ms : List Bytes) : Output := fun d => if d = c then ms else []

def append (o o' : Output) : Output := fun d => o d ++ o' d

theorem list_nil (c : ClientPtr) : list c [] = none := by
  funext d
  simp [list, none]

theorem list_append_one (c : ClientPtr) (ms : List Bytes) (m : Bytes) :
    (list c ms).append (one c m) = list c (ms ++ [m]) := by
  funext d
  by_cases h : d = c <;> simp [list, append, one, h]

end Output

namespace Server

def emit (s : Server) (out : Output) : Server :=
  { s with client := fun d => (s.client d).sendAll (out d) }

section fields

variable (s : Server) (out : Output) (c d : ClientPtr) (p q : ChannelPtr) (f : Client → Client)
  (g : Channel → Channel)

@[simp] theorem emit_clients : (s.emit out).clients = s.clients := rfl
@[simp] theorem emit_channels : (s.emit out).channels = s.channels := rfl
@[simp] theorem emit_channel : (s.emit out).channel = s.channel := rfl
@[simp] theorem emit_closing : (s.emit out).closing = s.closing := rfl
@[simp] theorem emit_toDisconnected : (s.emit out).toDisconnected = s.toDisconnected := rfl
@[simp] theorem emit_now : (s.emit out).now = s.now := rfl
@[simp] theorem emit_client : (s.emit out).client d = (s.client d).sendAll (out d) := rfl

@[simp] theorem updClient_clients : (s.updClient c f).clients = s.clients := rfl
@[simp] theorem updClient_channels : (s.updClient c f).channels = s.channels := rfl
@[simp] theorem updClient_channel : (s.updClient c f).channel = s.channel := rfl
@[simp] theorem updClient_closing : (s.updClient c f).closing = s.closing := rfl
@[simp] theorem updClient_toDisconnected :
    (s.updClient c f).toDisconnected = s.toDisconnected := rfl
@[simp] theorem updClient_now : (s.updClient c f).now = s.now := rfl

theorem updClient_client :
    (s.updClient c f).client d = if d = c then f (s.client c) else s.client d :=
  Function.update_apply ..

@[simp] theorem updClient_client_self : (s.updClient c f).client c = f (s.client c) := by
  simp [updClient_client]

theorem updClient_client_of_ne (h : d ≠ c) : (s.updClient c f).client d = s.client d := by
  simp [updClient_client, h]

@[simp] theorem updChannel_clients : (s.updChannel p g).clients = s.clients := rfl
@[simp] theorem updChannel_channels : (s.updChannel p g).channels = s.channels := rfl
@[simp] theorem updChannel_client : (s.updChannel p g).client = s.client := rfl
@[simp] theorem updChannel_closing : (s.updChannel p g).closing = s.closing := rfl
@[simp] theorem updChannel_toDisconnected :
    (s.updChannel p g).toDisconnected = s.toDisconnected := rfl
@[simp] theorem updChannel_now : (s.updChannel p g).now = s.now := rfl

theorem updChannel_channel :
    (s.updChannel p g).channel q = if q = p then g (s.channel p) else s.channel q :=
  Function.update_apply ..

@[simp] theorem updChannel_channel_self : (s.updChannel p g).channel p = g (s.channel p) := by
  simp [updChannel_channel]

theorem updChannel_channel_of_ne (h : q ≠ p) : (s.updChannel p g).channel q = s.channel q := by
  simp [updChannel_channel, h]

end fields

/-! ## Loops of sends -/

theorem ext_client {s t : Server} (h : { s with client := t.client } = t)
    (hc : ∀ c, s.client c = t.client c) : s = t := by
  rw [← h, ← funext hc]

@[simp] theorem emit_none (s : Server) : s.emit Output.none = s := by
  simp [emit, Output.none]

theorem emit_emit (s : Server) (o o' : Output) : (s.emit o).emit o' = s.emit (o.append o') := by
  simp [emit, Output.append]

theorem sendReply_eq_emit (s : Server) (c : ClientPtr) (m : Bytes) :
    s.sendReply c m = s.emit (Output.one c m) := by
  refine ext_client rfl fun d => ?_
  by_cases h : d = c
  · subst h
    simp [sendReply, Output.one, Client.sendReply_eq_sendAll]
  · simp [sendReply, Output.one, h, updClient_client_of_ne]

theorem sendOne_eq_emit (s : Server) (c : ClientPtr) (m : Bytes) :
    s.sendToOne c m = s.emit (Output.one c m) :=
  sendReply_eq_emit s c m

theorem foldl_sendReply (s : Server) (cs : List ClientPtr) (m : Bytes) :
    cs.foldl (fun s d => s.sendReply d m) s = s.emit (Output.all cs m) := by
  induction cs generalizing s with
  | nil => simp [emit, Output.all]
  | cons c cs ih =>
    rw [List.foldl_cons, ih, sendReply_eq_emit, emit_emit]
    congr 1
    funext d
    simp only [Output.append, Output.one, Output.all, List.count_cons]
    by_cases h : d = c
    · simp [h, List.replicate_succ]
    · simp [h, Ne.symm h]

theorem sendToAll_eq_emit (s : Server) (p : ChannelPtr) (m : Bytes) :
    s.sendToAll p m = s.emit (Output.all (s.channel p).members m) :=
  foldl_sendReply s _ m

theorem sendToAllExcept_eq_emit (s : Server) (p : ChannelPtr) (c : ClientPtr) (m : Bytes) :
    s.sendToAllExcept p c m = s.emit (Output.all ((s.channel p).members.filter (· ≠ c)) m) := by
  rw [← foldl_sendReply, List.foldl_filter]
  simp [sendToAllExcept]

/-! ## Output commutes with the other updates -/

theorem emit_updChannel (s : Server) (o : Output) (p : ChannelPtr) (f : Channel → Channel) :
    (s.emit o).updChannel p f = (s.updChannel p f).emit o := rfl

theorem emit_updClient (s : Server) (o : Output) (c : ClientPtr) {f : Client → Client}
    (hf : Client.Silent f) : (s.emit o).updClient c f = (s.updClient c f).emit o := by
  refine ext_client rfl fun d => ?_
  by_cases h : d = c
  · subst h
    simp [hf _ _]
  · simp [h, updClient_client_of_ne]

theorem silent_removeInvitedChannel (p : ChannelPtr) :
    Client.Silent (·.removeInvitedChannel p) := fun _ _ => rfl

theorem silent_removeJoinedChannels (n : Bytes) : Client.Silent (·.removeJoinedChannels n) :=
  fun _ _ => rfl

theorem emit_removeMember (s : Server) (o : Output) (p : ChannelPtr) (c : ClientPtr) :
    (s.emit o).removeMember p c = (s.removeMember p c).emit o := by
  simp only [removeMember, emit_updChannel, emit_channel]
  exact emit_updClient _ o c (silent_removeJoinedChannels _)

theorem emit_clearInvitedUsers (s : Server) (o : Output) (p : ChannelPtr) :
    (s.emit o).clearInvitedUsers p = (s.clearInvitedUsers p).emit o := by
  simp only [clearInvitedUsers, emit_clients]
  induction s.clients.values generalizing s with
  | nil => rfl
  | cons c cs ih =>
    simp only [List.foldl_cons]
    rw [emit_updClient s o c (silent_removeInvitedChannel p), ih]

theorem emit_deleteChannel (s : Server) (o : Output) (name : Bytes) :
    (s.emit o).deleteChannel name = (s.deleteChannel name).emit o := by
  simp only [deleteChannel, emit_channels]
  cases s.channels.find? (toLower name) with
  | none => rfl
  | some p => exact emit_clearInvitedUsers { s with channels := s.channels.erase _ } o p

end Server
end FtIrc
