import FtIrc.Effects.Emission
import FtIrc.Effects.Marks

/-!
# The lines of unregistered clients

An unregistered client can answer for itself only: it gives its names and the password, in any
order, or it leaves. Registration completes at the line after which all three are there.
-/

namespace FtIrc

/-- The parameter of a PASS, which is ignored when it is empty. -/
def Message.pass (msg : Message) : Option Bytes :=
  if Server.findCommand msg.command = some .pass ∧ msg.parameter.headD [] ≠ [] then
    some (msg.parameter.headD [])
  else none

/-- The password in a line. -/
def passOf (raw : Bytes) : Option Bytes := (spliter raw).bind Message.pass

/-- The last password in some lines. -/
def lastPass (lines : List Bytes) : Option Bytes := (lines.filterMap passOf).getLast?

theorem lastPass_append (lines : List Bytes) (raw : Bytes) :
    lastPass (lines ++ [raw]) = (passOf raw).or (lastPass lines) := by
  cases h : passOf raw with
  | none => simp [lastPass, List.filterMap_append, h]
  | some p => simp [lastPass, List.filterMap_append, h]

/-- The password is in one of the lines. -/
theorem lastPass_mem {lines : List Bytes} {p : Bytes} (h : lastPass lines = some p) :
    ∃ raw ∈ lines, passOf raw = some p :=
  List.mem_filterMap.mp (List.mem_of_getLast? h)

namespace Server

section registration

variable {msg : Message} {u : ClientPtr} {s : Server}

/-- The state after the last of nickname, user name and password. -/
def register (s : Server) (u : ClientPtr) : Server :=
  (s.updClient u fun cl => { cl with isRegistered := true }).emit
    (Output.list u (registrationLines (s.client u)))

/-- The state after the names were given without the password. -/
def refuse (s : Server) (u : ClientPtr) : Server :=
  (s.sendReply u (IrcReply.formatReply IrcNumeric.errPasswdMismatch (ascii "*")
    (ascii "Password incorrect"))).disconnectAfterFlush u (ascii "Bad Password")

theorem register_client (s : Server) (u : ClientPtr) : (s.register u).client u =
    Client.sendAll { s.client u with isRegistered := true } (registrationLines (s.client u)) := by
  rw [register, emit_client, updClient_client_self]
  simp [Output.list]

theorem tryCompleteRegistration_unregistered (hreg : (s.client u).isRegistered = false) :
    s.tryCompleteRegistration u =
      if (s.client u).isPasswordVerified = true ∧ (s.client u).nickname ≠ [] ∧
        (s.client u).username ≠ [] then s.register u else s := by
  rw [tryCompleteRegistration_eq]
  simp only [hreg, true_and]
  rfl

theorem isMissingPassword_iff (cl : Client) : cl.isMissingPassword = true ↔
    cl.isRegistered = false ∧ cl.isPasswordVerified = false ∧ cl.nickname ≠ [] ∧
      cl.username ≠ [] := by
  simp [Client.isMissingPassword, and_assoc]

theorem finishRegistration_unregistered (hreg : (s.client u).isRegistered = false) :
    s.finishRegistration u =
      if (s.client u).nickname = [] ∨ (s.client u).username = [] then s
      else if (s.client u).isPasswordVerified = true then s.register u
      else s.refuse u := by
  have htry := tryCompleteRegistration_unregistered hreg
  unfold finishRegistration
  by_cases hnames : (s.client u).nickname = [] ∨ (s.client u).username = []
  · have hmiss : ¬ (s.client u).isMissingPassword = true := by
      rw [isMissingPassword_iff]
      tauto
    rw [if_neg (by tauto)] at htry
    rw [htry, if_pos hnames, if_neg hmiss]
  · obtain ⟨hnick, huser⟩ := not_or.mp hnames
    rw [if_neg hnames]
    cases hpass : (s.client u).isPasswordVerified with
    | true =>
      have hmiss : ¬ ((s.register u).client u).isMissingPassword = true := by
        rw [isMissingPassword_iff, register_client]
        intro ⟨h, _⟩
        cases h
      rw [if_pos ⟨hpass, hnick, huser⟩] at htry
      rw [htry, if_neg hmiss, if_pos rfl]
    | false =>
      have hmiss : (s.client u).isMissingPassword = true :=
        (isMissingPassword_iff _).mpr ⟨hreg, hpass, hnick, huser⟩
      rw [if_neg (by simp [hpass])] at htry
      rw [htry, if_pos hmiss, if_neg (by simp)]
      rfl

/-! ## What a line can do -/

/-- What the line `msg` of an unregistered client `u` can do. -/
inductive Attempt (msg : Message) (u : ClientPtr) (s : Server) : Server → Prop
  | reply {m : Bytes} (hp : msg.pass = none) (hm : ServerReply m) :
      Attempt msg u s (s.sendReply u m)
  | pong (hp : msg.pass = none) : Attempt msg u s (s.updClient u (·.updateLastActivity s.now))
  | quit (hp : msg.pass = none) (reason : Bytes) : Attempt msg u s (s.disconnectAfterFlush u reason)
  | nickname {n : Bytes} (hp : msg.pass = none) :
      Attempt msg u s ((s.updClient u fun cl => { cl with nickname := n }).finishRegistration u)
  | user {username realname : Bytes} (hp : msg.pass = none) :
      Attempt msg u s
        ((s.updClient u fun cl => { cl with username, realname }).finishRegistration u)
  | pass {p : Bytes} (hp : msg.pass = some p) :
      Attempt msg u s ((s.updClient u fun cl =>
        { cl with isPasswordVerified := s.checkPassword p }).tryCompleteRegistration u)

theorem pass_of_command {cmd : Command} (h : findCommand msg.command = some cmd)
    (hne : cmd ≠ .pass) : msg.pass = none := by
  rw [Message.pass, if_neg]
  intro ⟨h', _⟩
  rw [h] at h'
  exact hne (Option.some.inj h')

theorem attempt_executeNick (hcmd : findCommand msg.command = some .nick)
    (hreg : (s.client u).isRegistered = false) : Attempt msg u s (s.executeNick u msg) := by
  have hp := pass_of_command hcmd (by decide)
  unfold executeNick
  dsimp only
  split_ifs with hempty hvalid htaken hreg'
  · exact .reply hp (serverReply_formatReply _ _ rfl)
  · exact .reply hp (serverReply_formatReplyWithParameter _ _ _ rfl)
  · exact .reply hp (serverReply_formatReplyWithParameter _ _ _ rfl)
  · rw [hreg] at hreg'
    cases hreg'
  · rw [hreg] at hreg'
    cases hreg'
  · exact .nickname hp

theorem attempt_executePass (hcmd : findCommand msg.command = some .pass)
    (hreg : (s.client u).isRegistered = false) : Attempt msg u s (s.executePass u msg) := by
  unfold executePass
  dsimp only
  rw [hreg]
  cases hempty : (msg.parameter.headD []).isEmpty with
  | true =>
    refine .reply ?_ (serverReply_formatReplyWithParameter _ _ _ rfl)
    rw [Message.pass, if_neg]
    intro ⟨_, hne⟩
    exact hne (List.isEmpty_iff.mp hempty)
  | false => exact .pass (by rw [Message.pass, if_pos ⟨hcmd, List.isEmpty_eq_false_iff.mp hempty⟩])

theorem attempt_executeUser (hcmd : findCommand msg.command = some .user) :
    Attempt msg u s (s.executeUser u msg) := by
  have hp := pass_of_command hcmd (by decide)
  unfold executeUser
  dsimp only
  split_ifs with hshort hreg' hat
  · exact .reply hp (serverReply_formatReplyWithParameter _ _ _ rfl)
  · exact .reply hp (serverReply_formatReply _ _ rfl)
  · exact .reply hp (serverReply_formatReplyWithParameter _ _ _ rfl)
  · exact .user hp

theorem attempt_executePing (hcmd : findCommand msg.command = some .ping) :
    Attempt msg u s (s.executePing u msg) := by
  have hp := pass_of_command hcmd (by decide)
  unfold executePing
  dsimp only
  split_ifs
  · exact .reply hp (serverReply_formatReply _ _ rfl)
  · exact .reply hp (serverReply_pong _)

theorem attempt_dispatch (hreg : (s.client u).isRegistered = false) :
    Attempt msg u s (s.dispatch u msg) := by
  unfold dispatch
  split
  · rename_i hcmd
    refine .reply ?_ (serverReply_formatReplyWithParameter _ _ _ rfl)
    rw [Message.pass, hcmd, if_neg (by simp)]
  · rename_i cmd hcmd
    rw [hreg]
    have hlogin : needLogin cmd = true → Attempt msg u s (s.sendReply u
        (IrcReply.formatReply IrcNumeric.errNotRegistered (ascii "*")
          (ascii "You have not registered"))) := by
      intro h
      refine .reply (pass_of_command hcmd ?_) (serverReply_formatReply _ _ rfl)
      rintro rfl
      cases h
    cases cmd with
    | nick => exact attempt_executeNick hcmd hreg
    | pass => exact attempt_executePass hcmd hreg
    | ping => exact attempt_executePing hcmd
    | pong => exact .pong (pass_of_command hcmd (by decide))
    | quit => exact .quit (pass_of_command hcmd (by decide)) _
    | user => exact attempt_executeUser hcmd
    | invite | join | kick | mode | part | privmsg | topic => exact hlogin rfl

/-! ## What becomes of the registration -/

/-- The flag follows the password of the line, a registration is announced, and a client with both
names but no password is closed. -/
structure Attempted (pass : Option Bytes) (u : ClientPtr) (s s' : Server) : Prop where
  flag : (s'.client u).isPasswordVerified =
    (pass.map s.checkPassword).getD (s.client u).isPasswordVerified
  lines : (s'.client u).lines = (s.client u).lines
  welcome : (s'.client u).isRegistered = true →
    (s'.client u).replies = (s.client u).replies ++ registrationLines (s'.client u)
  half : (s'.client u).isRegistered = false → (s'.client u).nickname ≠ [] →
    (s'.client u).username ≠ [] → ((s.client u).nickname ≠ [] ∧ (s.client u).username ≠ []) ∨
      ((s'.client u).isPasswordVerified = false ∧ (s'.shutdown (s.client u).fd).Begun)

theorem attempted_idle {s' : Server} (hreg : (s.client u).isRegistered = false)
    (hid : (s'.client u).identity = (s.client u).identity)
    (hlines : (s'.client u).lines = (s.client u).lines) : Attempted none u s s' := by
  obtain ⟨-, hnick, huser, -, hreg', hflag⟩ := identity_fields hid
  refine ⟨hflag, hlines, fun h => ?_, fun _ hn hu => .inl ?_⟩
  · rw [hreg', hreg] at h
    cases h
  · rw [hnick] at hn
    rw [huser] at hu
    exact ⟨hn, hu⟩

theorem attempted_register (s : Server) (u : ClientPtr) : Attempted none u s (s.register u) := by
  have hclient := register_client s u
  refine ⟨?_, ?_, fun _ => ?_, fun h => ?_⟩
  · rw [hclient]
    rfl
  · rw [hclient]
    rfl
  · rw [hclient]
    rfl
  · rw [hclient] at h
    cases h

theorem begun_refuse (s : Server) (u : ClientPtr) : ((s.refuse u).shutdown (s.client u).fd).Begun := by
  rw [refuse, shutdown_disconnectAfterFlush, if_pos]
  · exact .inl (by simp)
  · rw [sendReply_eq_emit]
    rfl

theorem refuse_client (s : Server) (u : ClientPtr) : ∃ ms, (s.refuse u).client u =
    ((s.client u).sendAll ms).markClosing s.now := by
  rw [refuse, disconnectAfterFlush_client, if_pos rfl, Client.sendReply_eq_sendAll,
    sendReply_eq_emit, emit_client, Client.sendAll_sendAll]
  exact ⟨_, rfl⟩

/-- The end of NICK and USER. -/
theorem attempted_finish {t : Server} (hreg : (s.client u).isRegistered = false)
    (hreg' : (t.client u).isRegistered = (s.client u).isRegistered)
    (hflag : (t.client u).isPasswordVerified = (s.client u).isPasswordVerified)
    (hlines : (t.client u).lines = (s.client u).lines)
    (hreplies : (t.client u).replies = (s.client u).replies)
    (hfd : (t.client u).fd = (s.client u).fd) : Attempted none u s (t.finishRegistration u) := by
  rw [hreg] at hreg'
  rw [finishRegistration_unregistered hreg']
  split_ifs with hnames hpass
  · refine ⟨hflag, hlines, fun h => ?_, fun _ hn hu => ?_⟩
    · rw [hreg'] at h
      cases h
    · exact absurd hnames (not_or.mpr ⟨hn, hu⟩)
  · have hdone := attempted_register t u
    refine ⟨hdone.flag.trans hflag, hdone.lines.trans hlines, fun h => ?_, fun h => ?_⟩
    · rw [hdone.welcome h, hreplies]
    · rw [register_client] at h
      cases h
  · obtain ⟨ms, hclient⟩ := refuse_client t u
    refine ⟨?_, ?_, fun h => ?_, fun _ _ _ => .inr ⟨?_, hfd ▸ begun_refuse t u⟩⟩
    · rw [hclient]
      exact hflag
    · rw [hclient]
      exact hlines
    · rw [hclient] at h
      exact absurd (hreg'.symm.trans h) (by decide)
    · rw [hclient]
      exact Bool.eq_false_iff.mpr hpass

theorem attempted_pass {p : Bytes} (hreg : (s.client u).isRegistered = false) :
    Attempted (some p) u s ((s.updClient u fun cl =>
      { cl with isPasswordVerified := s.checkPassword p }).tryCompleteRegistration u) := by
  have hreg' : ((s.updClient u fun cl =>
      { cl with isPasswordVerified := s.checkPassword p }).client u).isRegistered = false := by
    rw [updClient_client_self]
    exact hreg
  rw [tryCompleteRegistration_unregistered hreg']
  split_ifs
  · have hdone := attempted_register (s.updClient u fun cl =>
      { cl with isPasswordVerified := s.checkPassword p }) u
    have hset := updClient_client_self s u fun cl =>
      { cl with isPasswordVerified := s.checkPassword p }
    refine ⟨hdone.flag.trans ?_, hdone.lines.trans ?_, fun h => ?_, fun h => ?_⟩
    · rw [hset]
      rfl
    · rw [hset]
    · rw [hdone.welcome h, hset]
    · rw [register_client] at h
      cases h
  · refine ⟨?_, ?_, fun h => ?_, fun _ hn hu => .inl ?_⟩
    · rw [updClient_client_self]
      rfl
    · rw [updClient_client_self]
    · exact absurd (hreg'.symm.trans h) (by decide)
    · rw [updClient_client_self] at hn hu
      exact ⟨hn, hu⟩

theorem Attempt.attempted {s' : Server} (h : Attempt msg u s s')
    (hreg : (s.client u).isRegistered = false) : Attempted msg.pass u s s' := by
  cases h with
  | reply hp =>
    rw [hp, sendReply_eq_emit]
    exact attempted_idle hreg rfl rfl
  | pong hp =>
    rw [hp]
    refine attempted_idle hreg ?_ ?_ <;> rw [updClient_client_self] <;> rfl
  | quit hp =>
    rw [hp]
    refine attempted_idle hreg ?_ ?_ <;> rw [disconnectAfterFlush_client, if_pos rfl] <;> rfl
  | nickname hp | user hp =>
    rw [hp]
    refine attempted_finish hreg ?_ ?_ ?_ ?_ ?_ <;> rw [updClient_client_self]
  | pass hp =>
    rw [hp]
    exact attempted_pass hreg

/-! ## What it cannot touch -/

/-- Only `u` changes, and what is closing is its link. -/
structure Private (u : ClientPtr) (s s' : Server) : Prop where
  rest : s' = { s with client := s'.client, closing := s'.closing }
  client : ∀ d, d ≠ u → s'.client d = s.client d
  closing : ∀ fd, fd ≠ (s.client u).fd → s'.closing.find? fd = s.closing.find? fd
  fd : (s'.client u).fd = (s.client u).fd

theorem Private.refl (s : Server) (u : ClientPtr) : Private u s s :=
  ⟨rfl, fun _ _ => rfl, fun _ _ => rfl, rfl⟩

theorem Private.trans {s' t : Server} (h : Private u s s') (h' : Private u s' t) :
    Private u s t where
  rest := h'.rest.trans (by rw [h.rest])
  client d hd := (h'.client d hd).trans (h.client d hd)
  closing fd hfd := (h'.closing fd (h.fd ▸ hfd)).trans (h.closing fd hfd)
  fd := h'.fd.trans h.fd

theorem private_updClient (s : Server) (u : ClientPtr) {f : Client → Client}
    (hf : (f (s.client u)).fd = (s.client u).fd) : Private u s (s.updClient u f) where
  rest := rfl
  client d hd := updClient_client_of_ne s u d f hd
  closing _ _ := rfl
  fd := by rw [updClient_client_self, hf]

theorem private_sendReply (s : Server) (u : ClientPtr) (m : Bytes) :
    Private u s (s.sendReply u m) :=
  private_updClient s u rfl

theorem private_disconnectAfterFlush (s : Server) (u : ClientPtr) (reason : Bytes) :
    Private u s (s.disconnectAfterFlush u reason) where
  rest := by rw [disconnectAfterFlush_eq]; rfl
  client d hd := by rw [disconnectAfterFlush_client, if_neg hd]
  closing fd hfd := by
    rw [disconnectAfterFlush_eq, emit_closing, updClient_closing, StdMap.find?_insert, if_neg hfd]
  fd := by rw [disconnectAfterFlush_client, if_pos rfl]; rfl

theorem private_refuse (s : Server) (u : ClientPtr) : Private u s (s.refuse u) :=
  (private_sendReply s u _).trans (private_disconnectAfterFlush _ u _)

theorem private_register (s : Server) (u : ClientPtr) : Private u s (s.register u) where
  rest := rfl
  client d hd := by
    rw [register, emit_client, updClient_client_of_ne _ _ _ _ hd]
    simp [Output.list, hd]
  closing _ _ := rfl
  fd := by rw [register_client]; rfl

theorem private_finishRegistration {t : Server} (h : Private u s t)
    (hreg : (t.client u).isRegistered = false) : Private u s (t.finishRegistration u) := by
  rw [finishRegistration_unregistered hreg]
  split_ifs
  · exact h
  · exact h.trans (private_register t u)
  · exact h.trans (private_refuse t u)

theorem private_tryCompleteRegistration {t : Server} (h : Private u s t)
    (hreg : (t.client u).isRegistered = false) : Private u s (t.tryCompleteRegistration u) := by
  rw [tryCompleteRegistration_unregistered hreg]
  split_ifs
  · exact h.trans (private_register t u)
  · exact h

theorem Attempt.isPrivate {s' : Server} (h : Attempt msg u s s')
    (hreg : (s.client u).isRegistered = false) : Private u s s' := by
  cases h with
  | reply => exact private_sendReply s u _
  | pong => exact private_updClient s u rfl
  | quit => exact private_disconnectAfterFlush s u _
  | nickname | user =>
    refine private_finishRegistration (private_updClient s u rfl) ?_
    rw [updClient_client_self]
    exact hreg
  | pass =>
    refine private_tryCompleteRegistration (private_updClient s u rfl) ?_
    rw [updClient_client_self]
    exact hreg

theorem private_dispatch (hreg : (s.client u).isRegistered = false) (msg : Message) :
    Private u s (s.dispatch u msg) :=
  (attempt_dispatch hreg).isPrivate hreg

theorem private_operate (hreg : (s.client u).isRegistered = false) (raw : Bytes) :
    Private u s (s.operate u raw) := by
  unfold operate
  split
  · exact Private.refl s u
  · exact private_dispatch hreg _

end registration

end Server
end FtIrc
