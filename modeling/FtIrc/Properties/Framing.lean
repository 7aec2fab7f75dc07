import FtIrc.Effects.Sessions

/-!
# Output framing

What has been sent to a client and what waits in its write buffer are together the frames of the
messages given to `sendReply`, in order. A frame is at most 512 bytes, and its only line end is
its last two bytes.
-/

namespace FtIrc

/-- The stream of a client is the frames of its messages. -/
def Client.Streams (cl : Client) : Prop :=
  cl.sent ++ cl.writeBuffer = (cl.replies.map frame).flatten

theorem Client.Streams.sendAll {cl : Client} (h : cl.Streams) (ms : List Bytes) :
    (cl.sendAll ms).Streams := by
  have hstream : cl.sent ++ cl.writeBuffer = (cl.replies.map frame).flatten := h
  change cl.sent ++ (cl.writeBuffer ++ (ms.map frame).flatten) =
    ((cl.replies ++ ms).map frame).flatten
  rw [List.map_append, List.flatten_append, ← hstream, List.append_assoc]

theorem Client.Streams.congr {cl cl' : Client} (h : cl.Streams) (hs : cl'.sent = cl.sent)
    (hw : cl'.writeBuffer = cl.writeBuffer) (hr : cl'.replies = cl.replies) : cl'.Streams := by
  unfold Client.Streams
  rw [hs, hw, hr]
  exact h

theorem frame_length_le (m : Bytes) : (frame m).length ≤ 512 := by
  have hbody := outputLine_length_le m
  simp only [frame, List.length_append, List.length_cons, List.length_nil]
  omega

namespace Server

def Framed (s : Server) : Prop := ∀ c, (s.client c).Streams

section framed

variable {s s' : Server}

theorem Framed.emit (h : s.Framed) (o : Output) : (s.emit o).Framed := fun c => (h c).sendAll (o c)

theorem Framed.updClient (h : s.Framed) (u : ClientPtr) {f : Client → Client}
    (hs : (f (s.client u)).sent = (s.client u).sent)
    (hw : (f (s.client u)).writeBuffer = (s.client u).writeBuffer)
    (hr : (f (s.client u)).replies = (s.client u).replies) : (s.updClient u f).Framed := by
  intro c
  rw [updClient_client]
  split_ifs
  · exact (h u).congr hs hw hr
  · exact h c

theorem Framed.leave (h : s.Framed) (p : ChannelPtr) (c : ClientPtr) : (s.leave p c).Framed := by
  intro d
  rw [leave_sameClient s p c d]
  exact h d

theorem Framed.enter (h : s.Framed) {p : ChannelPtr} {c : ClientPtr}
    (hm : c ∉ (s.channel p).members) : (s.enter p c).Framed := by
  intro d
  rw [enter_client s hm]
  split_ifs
  · exact h c
  · exact h d

theorem framed_letIn (h : s.Framed) {p : ChannelPtr} {u : ClientPtr}
    (hm : u ∉ (s.channel p).members) : (s.letIn p u).Framed := by
  rw [letIn_eq]
  exact (h.enter hm).emit _

theorem framed_disconnectAfterFlush (h : s.Framed) (c : ClientPtr) (reason : Bytes) :
    (s.disconnectAfterFlush c reason).Framed := by
  rw [disconnectAfterFlush_eq]
  have hclosing : Framed { s with closing := s.closing.insert (s.client c).fd reason } := h
  exact (hclosing.updClient c rfl rfl rfl).emit _

theorem background_framed {P : Bytes → Prop} (h : Background P s s') (hb : s.Base P)
    (hs : s.Framed) : s'.Framed := by
  cases h with
  | frame => exact hs
  | @buffers c f hf =>
    intro d
    rw [updClient_client]
    split_ifs
    · obtain ⟨hrest, hbytes⟩ := hf (s.client c)
      have hreplies : (f (s.client c)).replies = (s.client c).replies := by rw [hrest]
      unfold Client.Streams
      rw [hbytes, hreplies]
      exact hs c
    · exact hs d
  | ping =>
    rw [sendReply_eq_emit]
    exact hs.emit _
  | close => exact framed_disconnectAfterFlush hs _ _
  | @depart fd c reason hfd =>
    have hdep := (disconnect_departure hb.links hb.noGhost hfd reason).1
    intro d
    by_cases hd : d = c
    · subst hd
      rw [hdep.self]
      exact hs d
    · rw [hdep.client d hd]
      exact (hs d).sendAll _

theorem effect_framed {P : Bytes → Prop} {msg : Message} {u : ClientPtr}
    (h : Effect P msg u s s') (hs : s.Framed) : s'.Framed := by
  cases h with
  | reply | talk | announce => exact hs.emit _
  | mode => exact hs
  | @operator p enable t =>
    have hset : (s.updChannel p (·.setModeOperator enable t)).Framed := hs
    exact hset.emit _
  | @topic p t =>
    have hset : (s.updChannel p fun ch => { ch with topic := t }).Framed := hs
    exact hset.emit _
  | @invite p d =>
    have hset : (s.invite p d).Framed := by
      intro e
      rw [invite_client]
      split_ifs
      · exact hs d
      · exact hs e
    exact hset.emit _
  | part => exact (hs.leave _ _).emit _
  | kick => exact (hs.leave _ _).emit _
  | rename => exact (hs.updClient u rfl rfl rfl).emit _
  | nickname | user | pass => exact hs.updClient u rfl rfl rfl
  | register => exact (hs.updClient u rfl rfl rfl).emit _
  | pong => exact hs.updClient u rfl rfl rfl

theorem entry_framed {P : Bytes → Prop} {msg : Message} {u : ClientPtr} (h : Entry P msg u s s')
    (hs : s.Framed) : s'.Framed := by
  cases h with
  | join _ _ _ _ _ hm => exact framed_letIn hs hm
  | @create name =>
    have hnew : (s.newChannel name).Framed := hs
    exact framed_letIn hnew (by simp [newChannel_channel, Channel.new])

theorem accept_framed (hs : s.Framed) (fd : Fd) (addr : Ipv4) :
    (s.acceptNewClient (.accepted fd addr)).Framed := by
  intro c
  rw [accept_client]
  split_ifs
  · rfl
  · exact hs c

theorem kept_framed (P : Bytes → Prop) : Kept P Framed where
  accept _ hs _ := accept_framed hs _ _
  background hb hs h := background_framed h hb hs
  pop _ _ hs := hs.updClient _ rfl rfl rfl
  effect _ _ hs h := effect_framed h hs
  entry _ _ hs h := entry_framed h hs

theorem framed_init (h : ircserv.Init s) : s.Framed := by
  obtain ⟨fd, password, heap, now, -, -, rfl⟩ := h
  exact fun _ => rfl

end framed

/-- The stream of every client consists of well-formed frames. -/
structure OutputFraming (s : Server) : Prop where
  stream : ∀ c, (s.client c).sent ++ (s.client c).writeBuffer =
    ((s.client c).replies.map frame).flatten
  length : ∀ c, ∀ m ∈ (s.client c).replies, (frame m).length ≤ 512
  ending : ∀ c, ∀ m ∈ (s.client c).replies, ∃ body, frame m = body ++ [13, 10] ∧ Clean body

theorem output_framing {s : Server} (h : ircserv.Reachable s) : s.OutputFraming := by
  obtain ⟨hwording, -⟩ := reachable_clean h
  obtain ⟨hframed, -⟩ := (kept_framed Clean).reachable textPred_clean serves_clean
    (fun _ => framed_init) h
  constructor
  case stream => exact hframed
  case length => exact fun _ m _ => frame_length_le m
  case ending => exact fun c m hm => ⟨outputLine m, rfl, textPred_clean.output (hwording.replies c m hm)⟩

/-- After a partial write, part of the second frame of `ann` is still in the buffer. -/
theorem output_framing_partial_write : ∃ s,
    session (registers 4 (ascii "ann") ++ [.send 4 (.taken 100)]) = some s ∧
      (s.client 1).sent.length = 100 ∧ (s.client 1).replies.length = 4 ∧ s.OutputFraming := by
  obtain ⟨s, hs, hview⟩ := Option.map_eq_some_iff.mp (by decide +kernel :
    (session (registers 4 (ascii "ann") ++ [.send 4 (.taken 100)])).map
      (fun s => ((s.client 1).sent.length, (s.client 1).replies.length)) = some (100, 4))
  obtain ⟨hsent, hreplies⟩ := Prod.mk.injEq .. ▸ hview
  exact ⟨s, hs, hsent, hreplies, output_framing (session_reachable hs)⟩

end Server
end FtIrc
