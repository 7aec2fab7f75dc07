import FtIrc.Properties.Registration

/-!
# Errors are atomic

A command other than MODE that answers with an error has done nothing else: the answer is the only
change of the server.
-/

namespace FtIrc

/-- A number from 400 to 499. -/
def isErrorNumeric (code : Bytes) : Bool :=
  match code with
  | [a, b, c] => a == byte '4' && isDigit b && isDigit c
  | _ => false

/-- An error other than 464, which closes the link. -/
def Refusal (m : Bytes) : Prop :=
  ∃ code, numericOf m = some code ∧ isErrorNumeric code = true ∧
    code ≠ IrcNumeric.errPasswdMismatch

/-- The line has no number, or one that is no error. -/
def Mild (m : Bytes) : Prop := ¬ Refusal m

theorem mild_of_none {m : Bytes} (h : numericOf m = none) : Mild m := by
  intro ⟨code, hcode, _⟩
  rw [h] at hcode
  cases hcode

theorem mild_of_some {m code : Bytes} (h : numericOf m = some code)
    (hcode : isErrorNumeric code = false ∨ code = IrcNumeric.errPasswdMismatch) : Mild m := by
  intro ⟨code', h', herr, hne⟩
  rw [h] at h'
  obtain rfl := Option.some.inj h'
  rcases hcode with hcode | hcode
  · exact absurd (hcode.symm.trans herr) (by decide)
  · exact hne hcode

theorem mild_makeReply (code : Nat) (nick rest : Bytes) (h : 100 ≤ code := by decide)
    (hcode : isErrorNumeric (decimal code) = false := by rfl) : Mild (makeReply code nick rest) :=
  mild_of_some (numericOf_makeReply h nick rest) (.inl hcode)

theorem mild_registrationLines (c : Client) : ∀ m ∈ registrationLines c, Mild m := by
  intro m hm ⟨code, hcode, herr, _⟩
  have hin : code ∈ welcomeCodes := by
    rw [← registrationLines_numbers c]
    exact List.mem_filterMap.mpr ⟨m, hm, hcode⟩
  have hnone : ∀ code ∈ welcomeCodes, isErrorNumeric code = false := by decide
  exact absurd ((hnone code hin).symm.trans herr) (by decide)

theorem Sourced.mild {c : Client} {m : Bytes} (h : Sourced c m) (hn : byte ' ' ∉ c.nickname) :
    Mild m :=
  mild_of_none (h.numeric hn)

namespace Server

/-- Lines are appended, and none of them is an error. -/
def Quiet (s s' : Server) : Prop := ∃ o, Emits s s' o ∧ ∀ d, ∀ m ∈ o d, Mild m

/-- Either one reply is the only change, or there is no error. -/
def Atomic (u : ClientPtr) (s s' : Server) : Prop := (∃ m, s' = s.sendReply u m) ∨ Quiet s s'

section quiet

variable {s s' t : Server} {u : ClientPtr}

theorem SameStreams.quiet (h : SameStreams s s') : Quiet s s' :=
  ⟨Output.none, h.emits, fun _ _ hm => by cases hm⟩

theorem Quiet.refl (s : Server) : Quiet s s :=
  SameStreams.quiet fun _ => ⟨rfl, rfl⟩

theorem Quiet.trans (h : Quiet s s') (h' : Quiet s' t) : Quiet s t := by
  obtain ⟨o, ho, hm⟩ := h
  obtain ⟨o', ho', hm'⟩ := h'
  exact ⟨_, ho.trans ho', fun d m h => (List.mem_append.mp h).elim (hm d m) (hm' d m)⟩

theorem quiet_emit (s : Server) {o : Output} (h : o.Satisfies Mild) : Quiet s (s.emit o) :=
  ⟨o, emits_emit s o, h⟩

theorem quiet_register (s : Server) (u : ClientPtr) : Quiet s (s.register u) :=
  (sameStreams_updClient s u rfl rfl).quiet.trans
    (quiet_emit _ (Output.satisfies_list (mild_registrationLines _)))

theorem quiet_refuse (s : Server) (u : ClientPtr) : Quiet s (s.refuse u) := by
  have hreply : Mild (IrcReply.formatReply IrcNumeric.errPasswdMismatch (ascii "*")
      (ascii "Password incorrect")) :=
    mild_of_some (numericOf_formatReply (by decide) _ _) (.inr rfl)
  rw [refuse, sendReply_eq_emit]
  refine (quiet_emit s (Output.satisfies_one hreply)).trans
    ⟨_, disconnectAfterFlush_emits _ u _, Output.satisfies_one ?_⟩
  exact mild_of_none (numericOf_other (by decide))

theorem quiet_finishRegistration (h : Quiet s t) (hreg : (t.client u).isRegistered = false) :
    Quiet s (t.finishRegistration u) := by
  rw [finishRegistration_unregistered hreg]
  split_ifs
  · exact h
  · exact h.trans (quiet_register t u)
  · exact h.trans (quiet_refuse t u)

theorem quiet_leave (s : Server) (p : ChannelPtr) (c : ClientPtr) {o : Output}
    (h : o.Satisfies Mild) : Quiet s ((s.leave p c).emit o) :=
  (sameStreams_leave s p c).quiet.trans (quiet_emit _ h)

theorem welcomeLines_mild (s : Server) (p : ChannelPtr) (u : ClientPtr) :
    ∀ m ∈ s.welcomeLines p u, Mild m := by
  intro m hm
  simp only [welcomeLines, List.mem_append, List.mem_singleton] at hm
  rcases hm with (rfl | hm) | rfl
  · unfold topicLine
    split_ifs <;> exact mild_makeReply _ _ _
  · refine packNames_forall (fun t => ?_) _ _ m hm
    rw [namesHeader, makeReply_append]
    exact mild_makeReply _ _ _
  · exact mild_makeReply _ _ _

theorem quiet_letIn (hn : byte ' ' ∉ (s.client u).nickname) {p : ChannelPtr}
    (hm : u ∉ (s.channel p).members) : Quiet s (s.letIn p u) := by
  have hnotice : Mild (joinNotice ((s.enter p u).client u) ((s.enter p u).channel p).name) := by
    refine Sourced.mild (c := s.client u) ((sourced_makeCommand _ _ _).congr ?_) hn
    rw [enter_client s hm, if_pos rfl]
    rfl
  rw [letIn_eq]
  exact (sameStreams_enter s hm).quiet.trans (quiet_emit _
    ((Output.satisfies_all hnotice).append (Output.satisfies_list (welcomeLines_mild _ _ _))))

end quiet

/-! ## The commands -/

section commands

variable {s : Server} {u : ClientPtr} {msg : Message}

theorem atomic_sendOne (u : ClientPtr) (m : Bytes) : Atomic u s (s.sendToOne u m) := .inl ⟨m, rfl⟩

theorem atomic_reply (u : ClientPtr) (m : Bytes) : Atomic u s (s.sendReply u m) := .inl ⟨m, rfl⟩

theorem atomic_none : Atomic u s s := .inr (Quiet.refl s)

theorem atomic_executePass : Atomic u s (s.executePass u msg) := by
  unfold executePass
  dsimp only
  split_ifs with hempty hreg
  · exact atomic_reply u _
  · exact atomic_reply u _
  · have hset : Quiet s (s.updClient u fun cl =>
        { cl with isPasswordVerified := s.checkPassword (msg.parameter.headD []) }) :=
      (sameStreams_updClient s u rfl rfl).quiet
    have hreg' : ((s.updClient u fun cl =>
        { cl with isPasswordVerified := s.checkPassword (msg.parameter.headD []) }).client
          u).isRegistered = false := by
      rw [updClient_client_self]
      simpa using hreg
    rw [tryCompleteRegistration_unregistered hreg']
    split_ifs
    · exact .inr (hset.trans (quiet_register _ u))
    · exact .inr hset

theorem atomic_executeUser : Atomic u s (s.executeUser u msg) := by
  unfold executeUser
  dsimp only
  split_ifs with hshort hreg
  · exact atomic_reply u _
  · exact atomic_reply u _
  · exact atomic_reply u _
  · refine .inr (quiet_finishRegistration (sameStreams_updClient s u rfl rfl).quiet ?_)
    rw [updClient_client_self]
    simpa using hreg

theorem atomic_executeNick (hn : byte ' ' ∉ (s.client u).nickname) :
    Atomic u s (s.executeNick u msg) := by
  have hset : ∀ n, Quiet s (s.updClient u fun cl => { cl with nickname := n }) :=
    fun n => (sameStreams_updClient s u rfl rfl).quiet
  unfold executeNick
  dsimp only
  split_ifs with hempty hvalid htaken hreg
  · exact atomic_reply u _
  · exact atomic_reply u _
  · exact atomic_reply u _
  · exact .inr (hset _)
  · rw [broadcastNickChange_eq, updClient_client_self]
    have hnotice := (sourced_nickNotice (s.client u) (msg.parameter.headD [])).mild hn
    exact .inr ((hset _).trans (quiet_emit _
      ((Output.satisfies_one hnotice).append (Output.satisfies_once hnotice))))
  · refine .inr (quiet_finishRegistration (hset _) ?_)
    rw [updClient_client_self]
    simpa using hreg

theorem atomic_executeInvite (hn : byte ' ' ∉ (s.client u).nickname) :
    Atomic u s (s.executeInvite u msg) := by
  unfold executeInvite
  split
  · split
    · exact atomic_reply u _
    · rename_i d hd
      split
      · exact atomic_reply u _
      · rename_i p hp
        unfold handleInvite
        dsimp only
        split_ifs
        · exact atomic_sendOne u _
        · exact atomic_sendOne u _
        · exact atomic_none
        · exact atomic_sendOne u _
        · have hsame := (sameIdentities_invite s p d).identity u
          have hnotice : Mild (makeCommand ((s.invite p d).client u) (ascii "INVITE")
              ((s.client d).nickname ++ ascii " " ++ (s.channel p).name)) :=
            Sourced.mild (c := s.client u) ((sourced_makeCommand _ _ _).congr hsame.symm) hn
          change Atomic u s (((s.invite p d).sendToOne u _).sendToOne d
            (makeCommand (((s.invite p d).sendToOne u _).client u) _ _))
          rw [sendOne_eq_emit, sendOne_eq_emit, emit_client, Client.makeCommand_sendAll]
          exact .inr (((sameStreams_invite s p d).quiet.trans
            (quiet_emit _ (Output.satisfies_one (mild_makeReply _ _ _)))).trans
            (quiet_emit _ (Output.satisfies_one hnotice)))
  · exact atomic_reply u _

/-- PART and KICK of a member, whose notice is in the name of the issuer. -/
theorem atomic_leave (hn : byte ' ' ∉ (s.client u).nickname) (p : ChannelPtr) (c : ClientPtr)
    {m : Bytes} (hm : Sourced (s.client u) m) :
    Atomic u s ((s.leave p c).emit (Output.all (s.channel p).members m)) :=
  .inr (quiet_leave s p c (Output.satisfies_all (hm.mild hn)))

/-- After an error the emptiness check finds the members. -/
theorem atomic_refused (hg : s.NoGhost) {p : ChannelPtr} (hp : s.LiveChannel p) {t : Server}
    {m : Bytes} (ht : t = s.sendToOne u m) (name : Bytes) :
    Atomic u s (if (t.channel p).isEmpty then t.deleteChannel name else t) := by
  have hne : (t.channel p).isEmpty = false := by
    have hmembers := hg p hp
    rw [ht]
    simpa [sendOne_eq_emit, Channel.isEmpty] using hmembers
  rw [hne, ht]
  exact atomic_sendOne u m

theorem atomic_executePart (hl : s.Links) (hg : s.NoGhost)
    (hn : byte ' ' ∉ (s.client u).nickname) : Atomic u s (s.executePart u msg) := by
  unfold executePart
  split
  · exact atomic_reply u _
  · rename_i name rest hparam
    split
    · exact atomic_reply u _
    · rename_i p hp
      obtain ⟨hlive, hname⟩ := findChannel_some hl hp
      by_cases hm : (s.channel p).isMember u = true
      · rw [handlePart_leave s p u _ name hm hname]
        exact atomic_leave hn p u (sourced_makeCommand _ _ _)
      · have hpart : s.handlePart p u (rest.headD []) = s.notOnChannel p u := by
          simp [handlePart, hm]
        exact atomic_refused hg hlive hpart name

theorem atomic_executeKick (hl : s.Links) (hg : s.NoGhost)
    (hn : byte ' ' ∉ (s.client u).nickname) : Atomic u s (s.executeKick u msg) := by
  unfold executeKick
  split
  · rename_i name nick rest hparam
    split
    · exact atomic_reply u _
    · rename_i p hp
      obtain ⟨hlive, hname⟩ := findChannel_some hl hp
      split
      · dsimp only
        split_ifs <;> exact atomic_reply u _
      · rename_i target htarget
        by_cases hok : (s.channel p).isMember u = true ∧ (s.channel p).isOperator u = true ∧
            (s.channel p).isMember target = true
        · rw [handleKick_leave s p u target _ name hok.1 hok.2.1 hok.2.2 hname]
          exact atomic_leave hn p target (((sourced_makeCommand _ _ _).append _).append _)
        · have hkick : ∃ m, s.handleKick p u target (rest.headD []) = s.sendToOne u m := by
            unfold handleKick
            dsimp only
            split_ifs with h1 h2 h3
            · exact ⟨_, rfl⟩
            · exact ⟨_, rfl⟩
            · exact ⟨_, rfl⟩
            all_goals exact absurd ⟨by simpa using h1, by simpa using h2, by simpa using h3⟩ hok
          obtain ⟨m, hm⟩ := hkick
          exact atomic_refused hg hlive hm name
  · exact atomic_reply u _

theorem atomic_executePrivmsg (hn : byte ' ' ∉ (s.client u).nickname) :
    Atomic u s (s.executePrivmsg u msg) := by
  unfold executePrivmsg
  dsimp only
  split_ifs
  · exact atomic_reply u _
  · exact atomic_reply u _
  · split
    · split
      · exact atomic_reply u _
      · rw [handlePersonalPrivmsg, sendReply_eq_emit]
        exact .inr (quiet_emit s (Output.satisfies_one ((sourced_makeCommand _ _ _).mild hn)))
    · unfold handleChannelPrivmsg
      dsimp only
      split_ifs
      · exact atomic_sendOne u _
      · rw [sendToAllExcept_eq_emit]
        exact .inr (quiet_emit s (Output.satisfies_all ((sourced_makeCommand _ _ _).mild hn)))

theorem atomic_executeTopic (hn : byte ' ' ∉ (s.client u).nickname) :
    Atomic u s (s.executeTopic u msg) := by
  unfold executeTopic
  split
  · exact atomic_reply u _
  · split
    · exact atomic_reply u _
    · unfold handleTopic
      dsimp only
      split_ifs
      · exact atomic_sendOne u _
      · unfold sendTopic
        dsimp only
        split_ifs <;> exact atomic_sendOne u _
      · exact atomic_sendOne u _
      · rw [sendToAll_eq_emit]
        exact .inr ((sameStreams_updChannel s _ _).quiet.trans (quiet_emit _
          (Output.satisfies_all ((sourced_makeCommand _ _ _).mild hn))))

theorem quiet_parts (hn : byte ' ' ∉ (s.client u).nickname) {t : Server}
    (h : Relation.ReflTransGen (Parts u) s t) :
    Quiet s t ∧ (t.client u).nickname = (s.client u).nickname := by
  induction h with
  | refl => exact ⟨Quiet.refl s, rfl⟩
  | tail _ hstep ih =>
    obtain ⟨p, -, -, rfl⟩ := hstep
    obtain ⟨hquiet, hnick⟩ := ih
    refine ⟨hquiet.trans (quiet_leave _ p u (Output.satisfies_all ?_)), ?_⟩
    · exact (sourced_makeCommand _ _ _).mild (hnick ▸ hn)
    · rw [← hnick]
      exact (identity_fields ((sameIdentities_leave _ p u).identity u)).2.1

theorem atomic_handleJoin (hn : byte ' ' ∉ (s.client u).nickname) (p : ChannelPtr) (key : Bytes) :
    Atomic u s (s.handleJoin p u key) := by
  unfold handleJoin
  dsimp only
  split_ifs with hm
  · exact atomic_none
  · exact atomic_sendOne u _
  · exact atomic_sendOne u _
  · exact atomic_sendOne u _
  · exact .inr (quiet_letIn hn (by simpa [Channel.isMember] using hm))

theorem atomic_executeJoin (hl : s.Links) (hu : s.LiveClient u)
    (hn : byte ' ' ∉ (s.client u).nickname) : Atomic u s (s.executeJoin u msg) := by
  unfold executeJoin
  split
  · exact atomic_reply u _
  · rename_i name rest hparam
    split_ifs
    · exact .inr (quiet_parts hn (partFold_parts _ hl hu
        (fun e he => (s.client u).joinedChannels.find?_eq_some.mpr he) (keys_nodup _))).1
    · exact atomic_reply u _
    · dsimp only
      rw [findOrCreateChannel_eq]
      cases hfind : s.channels.find? (toLower name) with
      | some p => exact atomic_handleJoin hn p _
      | none =>
        -- a new channel refuses nobody, so it is never created in vain
        dsimp only
        rw [handleJoin_newChannel]
        have hnew : Quiet s (s.newChannel name) := SameStreams.quiet fun _ => ⟨rfl, rfl⟩
        have hm : u ∉ ((s.newChannel name).channel (s.heap.addr s.channels.values)).members := by
          simp [newChannel_channel, Channel.new]
        exact .inr (hnew.trans (quiet_letIn (s := s.newChannel name) hn hm))

end commands

/-- The commands that the statement below is about: all but MODE, PING, PONG and QUIT of registered
clients. -/
def AtomicCommand (s : Server) (u : ClientPtr) (msg : Message) : Prop :=
  ∀ cmd, findCommand msg.command = some cmd →
    (needLogin cmd = true ∧ (s.client u).isRegistered = false) ∨
      cmd ∈ [Command.join, .part, .kick, .invite, .topic, .privmsg, .pass, .nick, .user]

theorem atomic_dispatch {s : Server} {u : ClientPtr} {msg : Message} (hl : s.Links)
    (hg : s.NoGhost) (hu : s.LiveClient u) (hn : byte ' ' ∉ (s.client u).nickname)
    (hcmd : s.AtomicCommand u msg) : Atomic u s (s.dispatch u msg) := by
  unfold dispatch
  split
  · exact atomic_reply u _
  · rename_i cmd hfind
    split_ifs with hlogin
    · exact atomic_reply u _
    · rcases hcmd cmd hfind with ⟨hneed, hreg⟩ | hin
      · exact absurd (by rw [hneed, hreg]; rfl) hlogin
      · cases cmd with
        | nick => exact atomic_executeNick hn
        | pass => exact atomic_executePass
        | user => exact atomic_executeUser
        | invite => exact atomic_executeInvite hn
        | join => exact atomic_executeJoin hl hu hn
        | kick => exact atomic_executeKick hl hg hn
        | part => exact atomic_executePart hl hg hn
        | privmsg => exact atomic_executePrivmsg hn
        | topic => exact atomic_executeTopic hn
        | ping | pong | quit | mode => exact absurd hin (by decide)

/-- The line `m` is one of those appended to the stream of `d`. -/
def Enqueued (s s' : Server) (d : ClientPtr) (m : Bytes) : Prop :=
  ∃ new, (s'.client d).replies = (s.client d).replies ++ new ∧ m ∈ new

theorem Atomic.refusal {s s' : Server} {u d : ClientPtr} {m : Bytes} (h : Atomic u s s')
    (hnew : s.Enqueued s' d m) (herr : Refusal m) : d = u ∧ s' = s.sendReply u m := by
  obtain ⟨new, happ, hin⟩ := hnew
  rcases h with ⟨m', rfl⟩ | ⟨o, ho, hmild⟩
  · have hreplies := (emits_emit s (Output.one u m')).replies d
    rw [← sendReply_eq_emit, happ, List.append_cancel_left_eq] at hreplies
    rw [hreplies, Output.one] at hin
    split_ifs at hin with hd
    · exact ⟨hd, by rw [List.mem_singleton.mp hin]⟩
    · cases hin
  · have hreplies := ho.replies d
    rw [happ, List.append_cancel_left_eq] at hreplies
    exact absurd herr (hmild d m (hreplies ▸ hin))

/-- An error of a command is its only effect: the whole server is as before, with this line
appended to the stream of the issuer. The line is run in a reachable state, or in one after it was
taken out of the read buffer. -/
theorem errors_atomic {s t : Server} (h : ircserv.Reachable s) {u : ClientPtr}
    (hu : s.LiveClient u) (ht : t = s ∨ t = s.updClient u fun cl => cl.popLine.2) {msg : Message}
    (hcmd : t.AtomicCommand u msg) {d : ClientPtr} {m : Bytes}
    (hnew : t.Enqueued (t.dispatch u msg) d m) (herr : Refusal m) :
    d = u ∧ t.dispatch u msg = t.sendReply u m := by
  have hb := (reachable_clean h).2
  have hn := (reachable_identities h).no_space hu
  have hatomic : Atomic u t (t.dispatch u msg) := by
    rcases ht with rfl | rfl
    · exact atomic_dispatch hb.links hb.noGhost hu hn hcmd
    · have hpop := pop_base hb u
      refine atomic_dispatch hpop.links hpop.noGhost hu ?_ hcmd
      rw [updClient_client_self]
      exact hn
  exact hatomic.refusal hnew herr

/-- `bob` does not know the key of the channel. -/
theorem errors_atomic_key : ∃ s,
    session (annAndBob ++ typed 4 (ascii "JOIN #a") ++ typed 4 (ascii "MODE #a +k door")) = some s ∧
      s.dispatch 2 ⟨false, [], ascii "JOIN", [ascii "#a"]⟩ =
        s.sendReply 2 (ascii ":ircserv 475 bob #a :Cannot join channel (+k)") := by
  obtain ⟨s, hs, hview⟩ := Option.map_eq_some_iff.mp (by decide +kernel :
    (session (annAndBob ++ typed 4 (ascii "JOIN #a") ++ typed 4 (ascii "MODE #a +k door"))).map
      (fun s => (s.clients.find? 5,
        ((s.dispatch 2 ⟨false, [], ascii "JOIN", [ascii "#a"]⟩).client 2).replies ==
          (s.client 2).replies ++ [ascii ":ircserv 475 bob #a :Cannot join channel (+k)"])) =
        some (some 2, true))
  simp only [Prod.mk.injEq, beq_iff_eq] at hview
  obtain ⟨hfd, hreplies⟩ := hview
  refine ⟨s, hs, (errors_atomic (session_reachable hs) ⟨5, hfd⟩ (.inl rfl) (fun cmd hcmd => ?_)
    ⟨_, hreplies, List.mem_singleton_self _⟩ ⟨ascii "475", rfl, rfl, by decide⟩).2⟩
  have hjoin : findCommand (ascii "JOIN") = some .join := rfl
  rw [hjoin] at hcmd
  rw [← Option.some.inj hcmd]
  exact .inr (by decide)

end Server
end FtIrc
