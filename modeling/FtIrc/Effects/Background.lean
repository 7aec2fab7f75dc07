import FtIrc.Effects.Dispatch

/-!
# Events that are not lines

Every event of the poll loop but a line and a new connection is a sequence of the steps of
`Background`: it moves bytes and marks, sends a PING, closes an idle link or disconnects a client.
-/

namespace FtIrc

/-- Only the buffers, what was sent of them and the times of the connection change. -/
def Client.BufferChange (f : Client → Client) : Prop :=
  ∀ cl, f cl = { cl with
      readBuffer := (f cl).readBuffer, writeBuffer := (f cl).writeBuffer, sent := (f cl).sent,
      lastActivity := (f cl).lastActivity, pingSent := (f cl).pingSent } ∧
    (f cl).sent ++ (f cl).writeBuffer = cl.sent ++ cl.writeBuffer

namespace Server

/-- The stored quit reasons. -/
structure Reasons (P : Bytes → Prop) (s : Server) : Prop where
  closing : ∀ fd r, s.closing.find? fd = some r → P r
  toDisconnected : ∀ fd r, s.toDisconnected.find? fd = some r → P r

/-- A step that neither belongs to a line nor accepts a client; `P` is a property of the quit reasons. -/
inductive Background (P : Bytes → Prop) : Server → Server → Prop
  | frame {s : Server} {pollFds : List PollFd} {closing toDisconnected : StdMap Fd Bytes}
      {now : Time} (hc : ∀ fd r, closing.find? fd = some r → P r)
      (ht : ∀ fd r, toDisconnected.find? fd = some r → P r) :
      Background P s { s with pollFds, closing, toDisconnected, now }
  | buffers {s : Server} {c : ClientPtr} {f : Client → Client} (hf : Client.BufferChange f) :
      Background P s (s.updClient c f)
  | ping {s : Server} {c : ClientPtr} : Background P s (s.sendReply c (ascii "PING :ircserv"))
  | close {s : Server} {c : ClientPtr} {reason : Bytes} (hP : P reason) :
      Background P s (s.disconnectAfterFlush c reason)
  | depart {s : Server} {fd : Fd} {c : ClientPtr} {reason : Bytes}
      (hfd : s.clients.find? fd = some c) (hP : P ((s.closing.find? fd).getD reason)) :
      Background P s (s.disconnect fd reason)

/-! ## Links -/

theorem sameLinks_disconnectAfterFlush (s : Server) (c : ClientPtr) (reason : Bytes) :
    SameLinks s (s.disconnectAfterFlush c reason) := by
  rw [disconnectAfterFlush_eq]
  have hclosing : SameLinks s { s with closing := s.closing.insert (s.client c).fd reason } :=
    sameLinks_of_eq rfl rfl rfl rfl
  exact (hclosing.trans (sameLinks_updClient _ c _ rfl id rfl rfl)).trans (sameLinks_emit _ _)

theorem effect_links {P : Bytes → Prop} {msg : Message} {u : ClientPtr} {s s' : Server}
    (h : Effect P msg u s s') (hl : s.Links) : s'.Links := by
  cases h with
  | reply => exact hl.congr (sameLinks_emit s _)
  | talk => exact hl.congr (sameLinks_emit s _)
  | announce => exact hl.congr (sameLinks_emit s _)
  | mode hp hop hf =>
    refine hl.congr (sameLinks_updChannel s _ _ ?_ ?_ ?_ ?_) <;> rw [hf.rest]
  | @operator p enable t hp hop ht hne =>
    refine (links_setOperators hl p _ ?_ ?_ ?_ (fun _ => ?_) fun _ d hd => ?_).congr
      (sameLinks_emit _ _)
    · unfold Channel.setModeOperator; split_ifs <;> rfl
    · unfold Channel.setModeOperator; split_ifs <;> rfl
    · unfold Channel.setModeOperator; split_ifs <;> rfl
    · have hnd := hl.operators_nodup p hp
      unfold Channel.setModeOperator
      split_ifs with h1 h2 h3
      · exact hnd
      · exact hnd.append (List.nodup_singleton t) (by simpa [Channel.isOperator] using h2)
      · exact hnd
      · exact hnd.filter _
    · have hmem := hl.operators_members p hp
      unfold Channel.setModeOperator at hd
      split_ifs at hd with h1 h2 h3
      · exact hmem d hd
      · rcases List.mem_append.mp hd with hd | hd
        · exact hmem d hd
        · rwa [List.mem_singleton.mp hd]
      · exact hmem d hd
      · exact hmem d (List.mem_of_mem_filter hd)
  | topic => exact (hl.congr (sameLinks_updChannel s _ _ rfl rfl rfl rfl)).congr (sameLinks_emit _ _)
  | invite _ _ _ _ hp _ _ hd hreg hm hi =>
    exact (links_invite hl hp hd hreg hm hi).congr (sameLinks_emit _ _)
  | part hp => exact (links_leave hl hp u).congr (sameLinks_emit _ _)
  | kick hp => exact (links_leave hl hp _).congr (sameLinks_emit _ _)
  | rename => exact (hl.congr (sameLinks_updClient s u _ rfl id rfl rfl)).congr (sameLinks_emit _ _)
  | nickname => exact hl.congr (sameLinks_updClient s u _ rfl id rfl rfl)
  | user => exact hl.congr (sameLinks_updClient s u _ rfl id rfl rfl)
  | pass => exact hl.congr (sameLinks_updClient s u _ rfl id rfl rfl)
  | register =>
    exact (hl.congr (sameLinks_updClient s u _ rfl (fun _ => rfl) rfl rfl)).congr
      (sameLinks_emit _ _)
  | pong => exact hl.congr (sameLinks_updClient s u _ rfl id rfl rfl)

theorem effect_noGhost {P : Bytes → Prop} {msg : Message} {u : ClientPtr} {s s' : Server}
    (h : Effect P msg u s s') (hl : s.Links) (hg : s.NoGhost) : s'.NoGhost := by
  have hemit : ∀ (t : Server) (o : Output), t.NoGhost → (t.emit o).NoGhost :=
    fun t o ht => ht.congr (sameLinks_emit t o).toSameMembers
  cases h with
  | reply => exact hemit _ _ hg
  | talk => exact hemit _ _ hg
  | announce => exact hemit _ _ hg
  | mode hp hop hf =>
    refine hg.congr (sameMembers_updChannel s _ _ ?_ ?_ ?_) <;> rw [hf.rest]
  | @operator p enable t hp hop ht hne =>
    refine hemit _ _ fun q hq => ?_
    rw [updChannel_channel]
    split_ifs with he
    · unfold Channel.setModeOperator
      split_ifs <;> exact hg p hp
    · exact hg q hq
  | topic => exact hemit _ _ (hg.congr (sameMembers_updChannel s _ _ rfl rfl rfl))
  | invite => exact hemit _ _ (hg.congr (sameMembers_invite s _ _))
  | part hp => exact hemit _ _ (noGhost_leave hl hg hp u)
  | kick hp => exact hemit _ _ (noGhost_leave hl hg hp _)
  | rename => exact hemit _ _ (hg.congr (sameMembers_updClient s u _ rfl id rfl))
  | nickname => exact hg.congr (sameMembers_updClient s u _ rfl id rfl)
  | user => exact hg.congr (sameMembers_updClient s u _ rfl id rfl)
  | pass => exact hg.congr (sameMembers_updClient s u _ rfl id rfl)
  | register => exact hemit _ _ (hg.congr (sameMembers_updClient s u _ rfl (fun _ => rfl) rfl))
  | pong => exact hg.congr (sameMembers_updClient s u _ rfl id rfl)

theorem letIn_links {s : Server} (hl : s.Links) {p : ChannelPtr} {u : ClientPtr}
    (hp : s.LiveChannel p) (hu : s.LiveClient u) (hreg : (s.client u).isRegistered = true)
    (hm : u ∉ (s.channel p).members) : (s.letIn p u).Links := by
  rw [letIn_eq]
  exact (links_enter hl hp hu hreg hm).congr (sameLinks_emit _ _)

theorem entry_links {P : Bytes → Prop} {msg : Message} {u : ClientPtr} {s s' : Server}
    (h : Entry P msg u s s') (hl : s.Links) (hu : s.LiveClient u) : s'.Links := by
  cases h with
  | join _ _ _ hp hreg hm => exact letIn_links hl hp hu hreg hm
  | create hreg hname hk =>
    refine letIn_links (links_newChannel hl hname hk) ?_ hu hreg (by simp [newChannel_channel, Channel.new])
    exact (liveChannel_newChannel hk _).mpr (.inr rfl)

theorem entry_noGhost {P : Bytes → Prop} {msg : Message} {u : ClientPtr} {s s' : Server}
    (h : Entry P msg u s s') (hg : s.NoGhost) : s'.NoGhost := by
  cases h with
  | join _ _ _ _ _ hm =>
    rw [letIn_eq]
    exact (noGhost_enter hg hm).congr (sameLinks_emit _ _).toSameMembers
  | create hreg hname hk =>
    rw [letIn_eq]
    exact (noGhost_create hg hk).congr (sameLinks_emit _ _).toSameMembers

theorem BufferChange.sameLinks {f : Client → Client} (hf : Client.BufferChange f) (s : Server)
    (c : ClientPtr) : SameLinks s (s.updClient c f) := by
  have h := (hf (s.client c)).1
  refine sameLinks_updClient s c f ?_ ?_ ?_ ?_ <;> rw [h]
  exact id

theorem background_links {P : Bytes → Prop} {s s' : Server} (h : Background P s s')
    (hl : s.Links) (hg : s.NoGhost) : s'.Links ∧ s'.NoGhost := by
  have hsame : ∀ {t}, SameLinks s t → t.Links ∧ t.NoGhost :=
    fun ht => ⟨hl.congr ht, hg.congr ht.toSameMembers⟩
  cases h with
  | frame => exact hsame (sameLinks_of_eq rfl rfl rfl rfl)
  | buffers hf => exact hsame (BufferChange.sameLinks hf s _)
  | ping =>
    rw [sendReply_eq_emit]
    exact hsame (sameLinks_emit s _)
  | close => exact hsame (sameLinks_disconnectAfterFlush s _ _)
  | @depart fd c reason hfd =>
    have hdep := (disconnect_departure hl hg hfd reason).1
    exact ⟨hdep.links, hdep.noGhost⟩

end Server
end FtIrc
