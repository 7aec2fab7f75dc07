import FtIrc.State.Numerics
import FtIrc.Effects.Identity

/-!
# Who says what

Every step appends some lines to the clients' streams. A line of a command comes from its issuer,
in its own name to anyone or as a reply of the server to itself.
-/

namespace FtIrc

/-- The part of a connection that no command changes. -/
structure Wire where
  fd : Fd
  readBuffer : Bytes
  sent : Bytes
  lines : List Bytes
  connectedAt : Time
  closingSince : Time

def Client.wire (c : Client) : Wire where
  fd := c.fd
  readBuffer := c.readBuffer
  sent := c.sent
  lines := c.lines
  connectedAt := c.connectedAt
  closingSince := c.closingSince

/-- The line passes on what the client does. -/
def Sourced (c : Client) (m : Bytes) : Prop :=
  ∃ rest, m = ascii ":" ++ c.nickname ++ ascii "!" ++ c.username ++ ascii "@" ++ c.ip ++
    ascii " " ++ rest

theorem sourced_makeCommand (c : Client) (cmd rest : Bytes) : Sourced c (makeCommand c cmd rest) := by
  unfold makeCommand
  dsimp only
  split_ifs
  · exact ⟨cmd, by simp only [List.append_assoc]⟩
  · exact ⟨cmd ++ ascii " " ++ rest, by simp only [List.append_assoc]⟩

theorem Sourced.append {c : Client} {m : Bytes} (h : Sourced c m) (t : Bytes) :
    Sourced c (m ++ t) := by
  obtain ⟨rest, rfl⟩ := h
  exact ⟨rest ++ t, by simp only [List.append_assoc]⟩

theorem sourced_nickNotice (c : Client) (newer : Bytes) :
    Sourced c (nickNotice c.nickname newer c.username c.ip) := by
  refine ⟨ascii "NICK :" ++ newer, ?_⟩
  have hlit : ascii " NICK :" = ascii " " ++ ascii "NICK :" := rfl
  rw [nickNotice, hlit]
  simp only [List.append_assoc]

theorem Sourced.congr {c c' : Client} {m : Bytes} (h : Sourced c m)
    (hid : c'.identity = c.identity) : Sourced c' m := by
  obtain ⟨rest, hm⟩ := h
  obtain ⟨hip, hnick, huser, -⟩ := identity_fields hid
  exact ⟨rest, by rw [hip, hnick, huser, hm]⟩

theorem ServerReply.append {m : Bytes} (h : ServerReply m) (t : Bytes) : ServerReply (m ++ t) := by
  obtain ⟨code, rest, hcode, rfl⟩ := h
  exact ⟨code, rest ++ t, hcode, by simp only [List.append_assoc]⟩

theorem isReplyCode_no_space {code : Bytes} (h : IsReplyCode code) : byte ' ' ∉ code := by
  rcases h with h | rfl
  · rw [isReplyNumber, Bool.and_eq_true, isNumeral, Bool.and_eq_true, List.all_eq_true] at h
    intro hin
    exact absurd (h.1.2 _ hin) (by decide)
  · decide

theorem ServerReply.numeric {m : Bytes} (h : ServerReply m) :
    ∃ code, IsReplyCode code ∧ numericOf m = some code := by
  obtain ⟨code, rest, hcode, rfl⟩ := h
  exact ⟨code, hcode, numericOf_server (isReplyCode_no_space hcode)⟩

theorem Sourced.numeric {c : Client} {m : Bytes} (h : Sourced c m) (hn : byte ' ' ∉ c.nickname) :
    numericOf m = none := by
  obtain ⟨rest, rfl⟩ := h
  simp only [List.append_assoc]
  have hsource := @numericOf_sourced c.nickname
    (c.username ++ (ascii "@" ++ (c.ip ++ (ascii " " ++ rest)))) hn
  simpa only [List.append_assoc] using hsource

/-- A valid nickname has no space. -/
theorem isValidNickname_no_space {n : Bytes} (h : isValidNickname n = true) : byte ' ' ∉ n := by
  cases n with
  | nil => simp
  | cons first rest =>
    simp only [isValidNickname, Bool.and_eq_true, List.all_eq_true] at h
    intro hin
    rcases List.mem_cons.mp hin with heq | hin
    · have hfirst := h.1.2
      rw [← heq] at hfirst
      exact absurd hfirst (by decide)
    · exact absurd (h.2 _ hin) (by decide)

namespace Server

theorem Identities.no_space {s : Server} (h : s.Identities) {c : ClientPtr} (hc : s.LiveClient c) :
    byte ' ' ∉ (s.client c).nickname := by
  by_cases hn : (s.client c).nickname = []
  · simp [hn]
  · exact isValidNickname_no_space (h.nickname c hc hn)

/-- The lines of `o` are appended to the streams. -/
structure Emits (s s' : Server) (o : Output) : Prop where
  replies : ∀ d, (s'.client d).replies = (s.client d).replies ++ o d
  writeBuffer : ∀ d, (s'.client d).writeBuffer =
    (s.client d).writeBuffer ++ ((o d).map frame).flatten

/-- What a command changes of a client is its output, its links and its identity. -/
def SameWires (s s' : Server) : Prop := ∀ d, (s'.client d).wire = (s.client d).wire

/-- The lines of one command of `u`. -/
def SpokenBy (s : Server) (u : ClientPtr) (o : Output) : Prop :=
  ∀ d, ∀ m ∈ o d, Sourced (s.client u) m ∨ (d = u ∧ ServerReply m)

section emits

variable {s s' t : Server} {o o' : Output}

theorem emits_emit (s : Server) (o : Output) : Emits s (s.emit o) o :=
  ⟨fun _ => rfl, fun _ => rfl⟩

theorem Emits.trans (h : Emits s s' o) (h' : Emits s' t o') : Emits s t (o.append o') := by
  refine ⟨fun d => ?_, fun d => ?_⟩
  · rw [h'.replies, h.replies, List.append_assoc]
    rfl
  · rw [h'.writeBuffer, h.writeBuffer, List.append_assoc, ← List.flatten_append, ← List.map_append]
    rfl

/-- The streams are kept. -/
def SameStreams (s s' : Server) : Prop :=
  ∀ d, (s'.client d).replies = (s.client d).replies ∧
    (s'.client d).writeBuffer = (s.client d).writeBuffer

theorem SameStreams.emits (h : SameStreams s s') : Emits s s' Output.none :=
  ⟨fun d => by rw [(h d).1]; exact (List.append_nil _).symm,
    fun d => by rw [(h d).2]; exact (List.append_nil _).symm⟩

theorem SameStreams.emit (h : SameStreams s s') (o : Output) : Emits s (s'.emit o) o :=
  ⟨fun d => by rw [emit_client, Client.sendAll_replies, (h d).1], fun d => by
    rw [emit_client]
    exact congrArg (· ++ ((o d).map frame).flatten) (h d).2⟩

theorem sameStreams_updClient (s : Server) (u : ClientPtr) {f : Client → Client}
    (hr : (f (s.client u)).replies = (s.client u).replies)
    (hw : (f (s.client u)).writeBuffer = (s.client u).writeBuffer) :
    SameStreams s (s.updClient u f) := by
  intro d
  rw [updClient_client]
  split_ifs with hd
  · rw [hr, hw, hd]
    exact ⟨rfl, rfl⟩
  · exact ⟨rfl, rfl⟩

theorem sameStreams_updChannel (s : Server) (p : ChannelPtr) (f : Channel → Channel) :
    SameStreams s (s.updChannel p f) := fun _ => ⟨rfl, rfl⟩

theorem sameStreams_leave (s : Server) (p : ChannelPtr) (c : ClientPtr) :
    SameStreams s (s.leave p c) := by
  intro d
  rw [leave_sameClient s p c d]
  exact ⟨rfl, rfl⟩

theorem sameStreams_invite (s : Server) (p : ChannelPtr) (c : ClientPtr) :
    SameStreams s (s.invite p c) := by
  intro d
  rw [invite_client]
  split_ifs with hd
  · rw [hd]
    exact ⟨rfl, rfl⟩
  · exact ⟨rfl, rfl⟩

theorem sameStreams_enter (s : Server) {p : ChannelPtr} {c : ClientPtr}
    (hm : c ∉ (s.channel p).members) : SameStreams s (s.enter p c) := by
  intro d
  rw [enter_client s hm]
  split_ifs with hd
  · rw [hd]
    exact ⟨rfl, rfl⟩
  · exact ⟨rfl, rfl⟩

end emits

/-! ## The lines of an effect -/

section spoken

variable {s : Server} {u : ClientPtr} {o o' : Output}

theorem spokenBy_none : SpokenBy s u Output.none := fun _ _ hm => by cases hm

theorem SpokenBy.append (h : SpokenBy s u o) (h' : SpokenBy s u o') : SpokenBy s u (o.append o') :=
  fun d m hm => (List.mem_append.mp hm).elim (h d m) (h' d m)

theorem spokenBy_one {d : ClientPtr} {m : Bytes} (h : Sourced (s.client u) m) :
    SpokenBy s u (Output.one d m) :=
  fun e => Output.satisfies_one (P := fun x => Sourced (s.client u) x ∨ (e = u ∧ ServerReply x))
    (.inl h) e

theorem spokenBy_all {cs : List ClientPtr} {m : Bytes} (h : Sourced (s.client u) m) :
    SpokenBy s u (Output.all cs m) :=
  fun _ _ hx => .inl ((List.eq_of_mem_replicate hx).symm ▸ h)

theorem spokenBy_once {c : ClientPtr} {cs : List ClientPtr} {m : Bytes}
    (h : Sourced (s.client u) m) : SpokenBy s u (outputOnce c cs m) :=
  fun e => Output.satisfies_once (P := fun x => Sourced (s.client u) x ∨ (e = u ∧ ServerReply x))
    (.inl h) e

theorem spokenBy_list {ms : List Bytes} (h : ∀ m ∈ ms, ServerReply m) :
    SpokenBy s u (Output.list u ms) := by
  intro d m hm
  unfold Output.list at hm
  split_ifs at hm with hd
  · exact .inr ⟨hd, h m hm⟩
  · cases hm

theorem spokenBy_reply {m : Bytes} (h : ServerReply m) : SpokenBy s u (Output.one u m) := by
  intro d x hx
  unfold Output.one at hx
  split_ifs at hx with hd
  · rw [List.mem_singleton.mp hx]
    exact .inr ⟨hd, h⟩
  · cases hx

end spoken

section steps

variable {P : Bytes → Prop} {msg : Message} {u : ClientPtr} {s s' : Server}

theorem effect_wires (h : Effect P msg u s s') : SameWires s s' := by
  have hupd : ∀ f : Client → Client, (f (s.client u)).wire = (s.client u).wire →
      SameWires s (s.updClient u f) := by
    intro f hf d
    rw [updClient_client]
    split_ifs with hd
    · rw [hf, hd]
    · rfl
  have hleave : ∀ p c, SameWires s (s.leave p c) := by
    intro p c d
    rw [leave_sameClient s p c d]
    rfl
  cases h with
  | reply | talk | announce | mode | operator | topic => exact fun _ => rfl
  | @invite p c =>
    intro d
    show (((s.invite p c).client d).sendAll _).wire = _
    rw [invite_client]
    split_ifs with hd
    · rw [hd]
      rfl
    · rfl
  | part => exact hleave _ _
  | kick => exact hleave _ _
  | rename | register => exact hupd _ rfl
  | nickname | user | pass | pong => exact hupd _ rfl

/-- An effect speaks for its issuer, or welcomes it. -/
theorem effect_emits (h : Effect P msg u s s') : ∃ o, Emits s s' o ∧
    ((SpokenBy s u o ∧ (s'.client u).isRegistered = (s.client u).isRegistered) ∨
      ((s.client u).isRegistered = false ∧ (s'.client u).isRegistered = true ∧
        o = Output.list u (registrationLines (s.client u)))) := by
  have hupd : ∀ f : Client → Client, (f (s.client u)).isRegistered = (s.client u).isRegistered →
      ((s.updClient u f).client u).isRegistered = (s.client u).isRegistered := by
    intro f hf
    rw [updClient_client_self, hf]
  have hleave : ∀ p c, ((s.leave p c).client u).isRegistered = (s.client u).isRegistered := by
    intro p c
    rw [leave_sameClient s p c u]
  cases h with
  | reply hm => exact ⟨_, emits_emit s _, .inl ⟨spokenBy_reply hm, rfl⟩⟩
  | talk _ hout =>
    refine ⟨_, emits_emit s _, .inl ⟨fun d m hm => .inl ?_, rfl⟩⟩
    obtain ⟨rest, -, -, rfl⟩ := hout d m hm
    exact sourced_makeCommand _ _ _
  | announce => exact ⟨_, emits_emit s _, .inl ⟨spokenBy_all (sourced_makeCommand _ _ _), rfl⟩⟩
  | mode =>
    exact ⟨_, (sameStreams_updChannel s _ _).emits, .inl ⟨spokenBy_none, rfl⟩⟩
  | operator | topic =>
    exact ⟨_, (sameStreams_updChannel s _ _).emit _,
      .inl ⟨spokenBy_all (sourced_makeCommand _ _ _), rfl⟩⟩
  | invite =>
    refine ⟨_, (sameStreams_invite s _ _).emit _, .inl ⟨(spokenBy_reply
      (serverReply_makeReply (by decide) _ _)).append (spokenBy_one (sourced_makeCommand _ _ _)),
      ?_⟩⟩
    exact (identity_fields ((sameIdentities_invite s _ _).identity u)).2.2.2.2.1
  | part =>
    exact ⟨_, (sameStreams_leave s _ _).emit _,
      .inl ⟨spokenBy_all (sourced_makeCommand _ _ _), hleave _ _⟩⟩
  | kick =>
    refine ⟨_, (sameStreams_leave s _ _).emit _, .inl ⟨spokenBy_all ?_, hleave _ _⟩⟩
    exact ((sourced_makeCommand _ _ _).append _).append _
  | rename =>
    refine ⟨_, (sameStreams_updClient s u rfl rfl).emit _, .inl ⟨?_, hupd _ rfl⟩⟩
    exact (spokenBy_one (sourced_nickNotice _ _)).append (spokenBy_once (sourced_nickNotice _ _))
  | nickname | user | pass | pong =>
    exact ⟨_, (sameStreams_updClient s u rfl rfl).emits,
      .inl ⟨spokenBy_none, hupd _ rfl⟩⟩
  | register hreg =>
    refine ⟨_, (sameStreams_updClient s u rfl rfl).emit _, .inr ⟨hreg, ?_, rfl⟩⟩
    rw [emit_client, updClient_client_self]
    rfl

theorem welcomeLines_serverReply (s : Server) (p : ChannelPtr) (u : ClientPtr) :
    ∀ m ∈ s.welcomeLines p u, ServerReply m := by
  intro m hm
  simp only [welcomeLines, List.mem_append, List.mem_singleton] at hm
  rcases hm with (rfl | hm) | rfl
  · unfold topicLine
    split_ifs <;> exact serverReply_makeReply (by decide) _ _
  · exact packNames_forall (fun t => (serverReply_makeReply (by decide) _ _).append t) _ _ m hm
  · exact serverReply_makeReply (by decide) _ _

theorem letIn_emits (s : Server) {p : ChannelPtr} (hm : u ∉ (s.channel p).members) :
    ∃ o, Emits s (s.letIn p u) o ∧ SpokenBy s u o := by
  rw [letIn_eq]
  refine ⟨_, (sameStreams_enter s hm).emit _, (spokenBy_all ?_).append
    (spokenBy_list (welcomeLines_serverReply _ _ _))⟩
  refine (sourced_makeCommand ((s.enter p u).client u) _ _).congr ?_
  rw [enter_client s hm, if_pos rfl]
  rfl

theorem entry_emits (h : Entry P msg u s s') : ∃ o, Emits s s' o ∧ SpokenBy s u o := by
  cases h with
  | join _ _ _ _ _ hm => exact letIn_emits s hm
  | @create name =>
    obtain ⟨o, ho, hspoken⟩ := letIn_emits (u := u) (s.newChannel name)
      (p := s.heap.addr s.channels.values) (by simp [newChannel_channel, Channel.new])
    exact ⟨o, ⟨ho.replies, ho.writeBuffer⟩, hspoken⟩

theorem letIn_wires (s : Server) {p : ChannelPtr} (hm : u ∉ (s.channel p).members) :
    SameWires s (s.letIn p u) := by
  intro d
  rw [letIn_eq]
  show (((s.enter p u).client d).sendAll _).wire = _
  rw [enter_client s hm]
  split_ifs with hd
  · rw [hd]
    rfl
  · rfl

theorem entry_wires (h : Entry P msg u s s') : SameWires s s' := by
  cases h with
  | join _ _ _ _ _ hm => exact letIn_wires s hm
  | @create name => exact letIn_wires (s.newChannel name) (by simp [newChannel_channel, Channel.new])

end steps

/-! ## The lines of the other steps -/

section background

variable {P : Bytes → Prop} {s s' : Server}

/-- The line that a closed link gets last from the server. -/
theorem disconnectAfterFlush_emits (s : Server) (c : ClientPtr) (reason : Bytes) :
    Emits s (s.disconnectAfterFlush c reason)
      (Output.one c (closingLine (s.client c).ip reason)) := by
  rw [disconnectAfterFlush_eq]
  have hsame : SameStreams s ({ s with closing := s.closing.insert (s.client c).fd reason }.updClient
      c (·.markClosing s.now)) := by
    intro d
    rw [updClient_client]
    split_ifs with hd
    · rw [hd]
      exact ⟨rfl, rfl⟩
    · exact ⟨rfl, rfl⟩
  exact hsame.emit _

theorem Departure.emits {c : ClientPtr} {cause : Bytes} (h : Departure s c cause s') :
    Emits s s' (s.quitOutput c cause) := by
  constructor <;> intro d <;> by_cases hd : d = c
  · subst hd
    rw [h.self, quitOutput_self]
    exact (List.append_nil _).symm
  · rw [h.client d hd]
    rfl
  · subst hd
    rw [h.self, quitOutput_self]
    exact (List.append_nil _).symm
  · rw [h.client d hd]
    rfl

theorem spokenBy_quit (s : Server) (c : ClientPtr) (cause : Bytes) :
    SpokenBy s c (s.quitOutput c cause) := by
  unfold quitOutput
  split_ifs
  · exact spokenBy_once (sourced_makeCommand _ _ _)
  · exact spokenBy_none

/-- A line of the server that is not a reply, or a notice of a client. -/
def Unasked (s : Server) (d : ClientPtr) (m : Bytes) : Prop :=
  m = ascii "PING :ircserv" ∨ (∃ reason, m = closingLine (s.client d).ip reason) ∨
    ∃ c, s.LiveClient c ∧ Sourced (s.client c) m

theorem background_appends (hb : s.Base P) (h : Background P s s') :
    ∃ o : Output, (∀ d, (s'.client d).replies = (s.client d).replies ++ o d) ∧
      ∀ d, ∀ m ∈ o d, s.Unasked d m := by
  cases h with
  | frame => exact ⟨Output.none, fun d => (List.append_nil _).symm, fun _ _ hm => by cases hm⟩
  | @buffers c f hf =>
    refine ⟨Output.none, fun d => ?_, fun _ _ hm => by cases hm⟩
    rw [updClient_client]
    split_ifs with hd
    · rw [(hf (s.client c)).1, hd]
      exact (List.append_nil _).symm
    · exact (List.append_nil _).symm
  | @ping c =>
    rw [sendReply_eq_emit]
    exact ⟨_, (emits_emit s _).replies, fun d => Output.satisfies_one (.inl rfl) d⟩
  | @close c reason =>
    refine ⟨_, (disconnectAfterFlush_emits s c reason).replies, fun d m hm => ?_⟩
    unfold Output.one at hm
    split_ifs at hm with hd
    · rw [List.mem_singleton.mp hm, hd]
      exact .inr (.inl ⟨reason, rfl⟩)
    · cases hm
  | @depart fd c reason hfd =>
    refine ⟨_, (disconnect_departure hb.links hb.noGhost hfd reason).1.emits.replies,
      fun d m hm => ?_⟩
    rcases spokenBy_quit s c _ d m hm with hm | ⟨rfl, -⟩
    · exact .inr (.inr ⟨c, ⟨fd, hfd⟩, hm⟩)
    · rw [quitOutput_self] at hm
      cases hm

theorem background_lines (hb : s.Base P) (h : Background P s s') (d : ClientPtr) :
    (s'.client d).lines = (s.client d).lines := by
  cases h with
  | frame => rfl
  | @buffers c f hf =>
    rw [updClient_client]
    split_ifs with hd
    · rw [(hf (s.client c)).1, hd]
    · rfl
  | @ping c => rw [sendReply_eq_emit, emit_client, Client.sendAll_lines]
  | close =>
    rw [disconnectAfterFlush_client]
    split_ifs with hd
    · rw [hd]
      rfl
    · rfl
  | @depart fd c reason hfd =>
    have hdep := (disconnect_departure hb.links hb.noGhost hfd reason).1
    by_cases hd : d = c
    · rw [hd, hdep.self]
    · rw [hdep.client d hd]
      rfl

end background

/-! ## Events that are not lines of a client -/

section apart

variable {s : Server} {c : ClientPtr}

/-- The event runs a line of `c`. -/
def IsLineOf (s : Server) (c : ClientPtr) (e : Event) : Prop :=
  ∃ fd, e = .line fd ∧ s.clients.find? fd = some c

/-- Who a client is, and what it has said so far. -/
structure SameRecord (s s' : Server) (c : ClientPtr) : Prop where
  identity : (s'.client c).identity = (s.client c).identity
  lines : (s'.client c).lines = (s.client c).lines

theorem SameRecord.trans {s' t : Server} (h : SameRecord s s' c) (h' : SameRecord s' t c) :
    SameRecord s t c :=
  ⟨h'.identity.trans h.identity, h'.lines.trans h.lines⟩

theorem backgrounds_record {P : Bytes → Prop} {s' : Server} (hb : s.Base P)
    (h : Relation.ReflTransGen (Background P) s s') : SameRecord s s' c := by
  induction h with
  | refl => exact ⟨rfl, rfl⟩
  | tail hrun hstep ih =>
    have hmid := backgrounds_base hrun hb
    exact ih.trans ⟨(background_identities hstep hmid).identity c, background_lines hmid hstep c⟩

theorem effects_record {P : Bytes → Prop} {msg : Message} {u : ClientPtr} {s' : Server}
    (h : Effects P msg u s s') (hc : c ≠ u) : SameRecord s s' c := by
  induction h with
  | refl => exact ⟨rfl, rfl⟩
  | tail _ hstep ih =>
    exact ih.trans ⟨(effect_identified hstep).other c hc,
      congrArg Wire.lines (effect_wires hstep c)⟩

theorem line_record {P : Bytes → Prop} {msg : Message} {u : ClientPtr} {s' : Server}
    (h : Line P msg u s s') (hc : c ≠ u) : SameRecord s s' c := by
  cases h with
  | effects h => exact effects_record h hc
  | @closed t reason h =>
    refine (effects_record h hc).trans ⟨?_, ?_⟩ <;> rw [disconnectAfterFlush_client, if_neg hc]
  | entry h =>
    exact ⟨(entry_identities h).identity c, congrArg Wire.lines (entry_wires h c)⟩

theorem pop_record {u : ClientPtr} (hc : c ≠ u) :
    SameRecord s (s.updClient u fun cl => cl.popLine.2) c := by
  refine ⟨?_, ?_⟩ <;> rw [updClient_client_of_ne _ _ _ _ hc]

/-- A line runs as its issuer, after it is taken out of the buffer. -/
theorem step_line {fd : Fd} (hc : s.clients.find? fd = some c) :
    step s (.line fd) = s.receiveLine c := by
  simp [step, hc]

/-- Only its own lines change a client. -/
theorem step_record (hb : s.Base Clean) (hc : s.LiveClient c) {e : Event} (he : Enabled s e)
    (hline : ¬ s.IsLineOf c e) : SameRecord s (step s e) c := by
  by_cases hl : ∃ fd, e = .line fd
  · obtain ⟨fd, rfl⟩ := hl
    obtain ⟨u, hu, hready⟩ := he
    have hcu : c ≠ u := fun h => hline ⟨fd, rfl, h ▸ hu⟩
    rw [step_line hu]
    rcases line_receiveLine textPred_clean hb ⟨fd, hu⟩
        (serves_clean.lines s fd u ⟨u, hu, hready⟩ hu) with heq | ⟨msg, -, hrun⟩
    · rw [heq]
      exact pop_record hcu
    · exact (pop_record hcu).trans (line_record hrun hcu)
  by_cases ha : ∃ fd addr, e = .accept (.accepted fd addr)
  · obtain ⟨fd, addr, rfl⟩ := ha
    have hne : c ≠ s.heap.addr s.clients.values := by
      rintro rfl
      exact s.heap.fresh _ ((liveClient_iff_mem s _).mp hc)
    show SameRecord s (s.acceptNewClient (.accepted fd addr)) c
    refine ⟨?_, ?_⟩ <;> rw [accept_client, if_neg hne]
  · exact backgrounds_record hb (background_event textPred_clean hb
      (fun fd addr h => ha ⟨fd, addr, h⟩) fun fd h => hl ⟨fd, h⟩)

theorem lineReady_of_enabled {fd : Fd} (he : Enabled s (.line fd))
    (hc : s.clients.find? fd = some c) : s.lineReady fd c = true := by
  obtain ⟨u, hu, hready⟩ := he
  rw [hc] at hu
  exact Option.some.inj hu ▸ hready

theorem receiveLine_clients (hb : s.Base Clean) {fd : Fd} (hc : s.clients.find? fd = some c)
    (hready : s.lineReady fd c = true) : (s.receiveLine c).clients = s.clients := by
  rcases line_receiveLine textPred_clean hb ⟨fd, hc⟩
      (serves_clean.lines s fd c ⟨c, hc, hready⟩ hc) with heq | ⟨msg, -, hrun⟩
  · rw [heq]
    rfl
  · exact (line_clients hrun).trans rfl

theorem line_lines {P : Bytes → Prop} {msg : Message} {u : ClientPtr} {s' : Server}
    (h : Line P msg u s s') (d : ClientPtr) : (s'.client d).lines = (s.client d).lines := by
  have heffects : ∀ {t}, Effects P msg u s t → (t.client d).lines = (s.client d).lines := by
    intro t h
    induction h with
    | refl => rfl
    | tail _ hstep ih => exact (congrArg Wire.lines (effect_wires hstep d)).trans ih
  cases h with
  | effects h => exact heffects h
  | @closed t reason h =>
    refine Eq.trans ?_ (heffects h)
    rw [disconnectAfterFlush_client]
    split_ifs with hd
    · rw [hd]
      rfl
    · rfl
  | entry h => exact congrArg Wire.lines (entry_wires h d)

theorem receiveLine_lines (hb : s.Base Clean) {fd : Fd} (hc : s.clients.find? fd = some c)
    (hready : s.lineReady fd c = true) : ((s.receiveLine c).client c).lines =
      (s.client c).lines ++ [Client.firstLine (s.client c).readBuffer] := by
  have hpop : ((s.updClient c fun cl => cl.popLine.2).client c).lines =
      (s.client c).lines ++ [Client.firstLine (s.client c).readBuffer] := by
    rw [updClient_client_self]
    rfl
  rcases line_receiveLine textPred_clean hb ⟨fd, hc⟩
      (serves_clean.lines s fd c ⟨c, hc, hready⟩ hc) with heq | ⟨msg, -, hrun⟩
  · rw [heq, hpop]
  · rw [line_lines hrun, hpop]

/-- Only `accept` makes a connection. -/
theorem step_find (hb : s.Base Clean) {e : Event} (he : Enabled s e) {fd : Fd}
    (hc : (step s e).clients.find? fd = some c) : s.clients.find? fd = some c ∨
      ∃ addr, e = .accept (.accepted fd addr) ∧ c = s.heap.addr s.clients.values := by
  by_cases hl : ∃ fd', e = .line fd'
  · obtain ⟨fd', rfl⟩ := hl
    obtain ⟨u, hu, hready⟩ := he
    rw [step_line hu, receiveLine_clients hb hu hready] at hc
    exact .inl hc
  by_cases ha : ∃ fd addr, e = .accept (.accepted fd addr)
  · obtain ⟨fd', addr, rfl⟩ := ha
    have hinsert : (step s (.accept (.accepted fd' addr))).clients =
        s.clients.insert fd' (s.heap.addr s.clients.values) := rfl
    rw [hinsert, StdMap.find?_insert] at hc
    split_ifs at hc with hfd
    · exact .inr ⟨addr, by rw [hfd], (Option.some.inj hc).symm⟩
    · exact .inl hc
  · exact .inl (backgrounds_find hb (background_event textPred_clean hb
      (fun fd addr h => ha ⟨fd, addr, h⟩) fun fd h => hl ⟨fd, h⟩) hc)

theorem step_ip (hb : s.Base Clean) (hc : s.LiveClient c) {e : Event} (he : Enabled s e) :
    ((step s e).client c).ip = (s.client c).ip := by
  by_cases hline : s.IsLineOf c e
  · obtain ⟨fd, rfl, hfd⟩ := hline
    have hpop : ((s.updClient c fun cl => cl.popLine.2).client c).ip = (s.client c).ip := by
      rw [updClient_client_self]
      rfl
    rw [step_line hfd]
    rcases line_receiveLine textPred_clean hb ⟨fd, hfd⟩ (serves_clean.lines s fd c he hfd) with
      heq | ⟨msg, -, hrun⟩
    · rw [heq, hpop]
    · rw [line_ip hrun, hpop]
  · exact (identity_fields (step_record hb hc he hline).identity).1

theorem step_password (hb : s.Base Clean) {e : Event} (he : Enabled s e) :
    (step s e).password = s.password :=
  ((kept_password Clean s.password).event textPred_clean serves_clean hb rfl he).1

end apart

end Server
end FtIrc
