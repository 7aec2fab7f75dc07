import FtIrc.Effects.Delivery
import FtIrc.Effects.Wording

/-!
# Who becomes a member

Of all that the server does only a successful JOIN adds a member to a channel, and it adds its issuer.
-/

namespace FtIrc
namespace Server

/-- The client is a member of the live channel. -/
def InChannel (s : Server) (p : ChannelPtr) (d : ClientPtr) : Prop :=
  s.LiveChannel p ∧ d ∈ (s.channel p).members

/-- Nobody becomes a member. -/
def NoneJoins (s s' : Server) : Prop := ∀ p d, s'.InChannel p d → s.InChannel p d

section joins

variable {P : Bytes → Prop} {msg : Message} {u : ClientPtr} {s s' t : Server}

theorem NoneJoins.refl (s : Server) : NoneJoins s s := fun _ _ => id

theorem NoneJoins.trans (h : NoneJoins s s') (h' : NoneJoins s' t) : NoneJoins s t :=
  fun p d hd => h p d (h' p d hd)

theorem SameMembers.noneJoins (h : SameMembers s s') : NoneJoins s s' := by
  intro p d ⟨hp, hd⟩
  rw [h.members] at hd
  exact ⟨(h.liveChannel p).mp hp, hd⟩

theorem noneJoins_emit (s : Server) (o : Output) : NoneJoins s (s.emit o) :=
  (sameLinks_emit s o).toSameMembers.noneJoins

theorem noneJoins_updChannel (s : Server) (p : ChannelPtr) {f : Channel → Channel}
    (hm : (f (s.channel p)).members = (s.channel p).members) :
    NoneJoins s (s.updChannel p f) := by
  intro q d ⟨hq, hd⟩
  refine ⟨hq, ?_⟩
  rw [updChannel_channel] at hd
  split_ifs at hd with hqp
  · rw [hm] at hd
    rwa [hqp]
  · exact hd

theorem noneJoins_updClient (s : Server) (u : ClientPtr) (f : Client → Client) :
    NoneJoins s (s.updClient u f) := fun _ _ hd => hd

theorem noneJoins_leave (hl : s.Links) {p : ChannelPtr} (hp : s.LiveChannel p) (c : ClientPtr) :
    NoneJoins s (s.leave p c) := by
  intro q d ⟨hq, hd⟩
  refine ⟨((liveChannel_leave hl hp c q).mp hq).1, ?_⟩
  rw [leave_channel] at hd
  split_ifs at hd with hqp
  · rw [hqp]
    exact (List.mem_filter.mp hd).1
  · exact hd

theorem setModeOperator_members (ch : Channel) (enable : Bool) (c : ClientPtr) :
    (ch.setModeOperator enable c).members = ch.members := by
  unfold Channel.setModeOperator
  split_ifs <;> rfl

theorem effect_noneJoins (hl : s.Links) (h : Effect P msg u s s') : NoneJoins s s' := by
  cases h with
  | reply | talk | announce => exact noneJoins_emit s _
  | mode hp hop hf => exact noneJoins_updChannel s _ (by rw [hf.rest])
  | operator =>
    exact (noneJoins_updChannel s _ (setModeOperator_members _ _ _)).trans (noneJoins_emit _ _)
  | topic => exact (noneJoins_updChannel s _ rfl).trans (noneJoins_emit _ _)
  | invite => exact (sameMembers_invite s _ _).noneJoins.trans (noneJoins_emit _ _)
  | part hp | kick hp => exact (noneJoins_leave hl hp _).trans (noneJoins_emit _ _)
  | rename | register => exact (noneJoins_updClient s u _).trans (noneJoins_emit _ _)
  | nickname | user | pass | pong => exact noneJoins_updClient s u _

theorem effects_noneJoins (hb : s.Base P) (h : Effects P msg u s s') : NoneJoins s s' := by
  induction h with
  | refl => exact NoneJoins.refl s
  | tail hrun hstep ih => exact ih.trans (effect_noneJoins (effects_base hrun hb).links hstep)

theorem noneJoins_disconnectAfterFlush (s : Server) (c : ClientPtr) (reason : Bytes) :
    NoneJoins s (s.disconnectAfterFlush c reason) :=
  (sameLinks_disconnectAfterFlush s c reason).toSameMembers.noneJoins

theorem background_noneJoins (hb : s.Base P) (h : Background P s s') : NoneJoins s s' := by
  cases h with
  | frame => exact fun _ _ => id
  | buffers => exact noneJoins_updClient s _ _
  | ping =>
    rw [sendReply_eq_emit]
    exact noneJoins_emit s _
  | close => exact noneJoins_disconnectAfterFlush s _ _
  | @depart fd c reason hfd =>
    have hdep := (disconnect_departure hb.links hb.noGhost hfd reason).1
    intro p d ⟨hp, hd⟩
    rw [hdep.channel p hp] at hd
    obtain ⟨k, hk⟩ := hp
    exact ⟨⟨k, ((hdep.channels k p).mp hk).1⟩, (List.mem_filter.mp hd).1⟩

theorem backgrounds_noneJoins (hb : s.Base P) (h : Relation.ReflTransGen (Background P) s s') :
    NoneJoins s s' := by
  induction h with
  | refl => exact NoneJoins.refl s
  | tail hrun hstep ih => exact ih.trans (background_noneJoins (backgrounds_base hrun hb) hstep)

theorem letIn_inChannel {q : ChannelPtr} (hm : u ∉ (t.channel q).members) {p : ChannelPtr}
    {d : ClientPtr} (h : (t.letIn q u).InChannel p d) : t.InChannel p d ∨ (p = q ∧ d = u) := by
  rw [letIn_eq] at h
  obtain ⟨⟨k, hk⟩, hd⟩ := h
  have hp : t.LiveChannel p := by
    rw [emit_channels, enter_rest] at hk
    exact ⟨k, hk⟩
  rw [emit_channel, enter_channel t hm] at hd
  by_cases hpq : p = q
  · rw [if_pos hpq] at hd
    rcases List.mem_append.mp hd with hd | hd
    · exact .inl ⟨hp, hpq ▸ hd⟩
    · exact .inr ⟨hpq, List.mem_singleton.mp hd⟩
  · rw [if_neg hpq] at hd
    exact .inl ⟨hp, hd⟩

/-- What is common to a JOIN of a channel that exists and of a new one. -/
structure LetsIn (s : Server) (u : ClientPtr) (s' t : Server) (q : ChannelPtr) : Prop where
  letIn : s' = t.letIn q u
  not_member : u ∉ (t.channel q).members
  streams : SameStreams s t
  joins : ∀ p d, s'.InChannel p d → s.InChannel p d ∨ (p = q ∧ d = u)

theorem entry_letsIn (h : Entry P msg u s s') : ∃ t q, LetsIn s u s' t q := by
  cases h with
  | join _ _ _ hp _ hm =>
    exact ⟨s, _, rfl, hm, fun _ => ⟨rfl, rfl⟩, fun p d => letIn_inChannel hm⟩
  | @create name hreg hname hk =>
    have hm : u ∉ ((s.newChannel name).channel (s.heap.addr s.channels.values)).members := by
      simp [newChannel_channel, Channel.new]
    refine ⟨s.newChannel name, s.heap.addr s.channels.values, rfl, hm, fun _ => ⟨rfl, rfl⟩,
      fun p d h => ?_⟩
    refine (letIn_inChannel hm h).imp_left ?_
    rintro ⟨hp, hd⟩
    rw [newChannel_channel] at hd
    split_ifs at hd with hpq
    · cases hd
    · exact ⟨((liveChannel_newChannel hk p).mp hp).resolve_right hpq, hd⟩

/-- A line that makes somebody a member is the JOIN of that client. -/
theorem line_joins (hb : s.Base P) (h : Line P msg u s s') : NoneJoins s s' ∨
    Entry P msg u s s' := by
  cases h with
  | effects h => exact .inl (effects_noneJoins hb h)
  | closed h =>
    exact .inl ((effects_noneJoins hb h).trans (noneJoins_disconnectAfterFlush _ _ _))
  | entry h => exact .inr h

theorem step_joins (hb : s.Base Clean) {e : Event} (he : Enabled s e) {p : ChannelPtr}
    {d : ClientPtr} (hout : ¬ s.InChannel p d) (hin : (step s e).InChannel p d) :
    ∃ fd msg, e = .line fd ∧ s.clients.find? fd = some d ∧ spliter (s.nextLine d) = some msg ∧
      Entry Clean msg d (s.popped d) (step s e) := by
  by_cases hl : ∃ fd, e = .line fd
  · obtain ⟨fd, rfl⟩ := hl
    obtain ⟨u, hu, hready⟩ := he
    rw [step_line hu] at hin
    rcases line_receiveLine textPred_clean hb ⟨fd, hu⟩
        (serves_clean.lines s fd u ⟨u, hu, hready⟩ hu) with heq | ⟨msg, hmsg, hrun⟩
    · rw [heq] at hin
      exact absurd hin hout
    · rcases line_joins (pop_base hb u) hrun with hnone | hentry
      · exact absurd (hnone p d hin) hout
      · obtain ⟨t, q, hlets⟩ := entry_letsIn hentry
        obtain ⟨-, rfl⟩ := (hlets.joins p d hin).resolve_left hout
        exact ⟨fd, msg, rfl, hu, hmsg, by rw [step_line hu]; exact hentry⟩
  by_cases ha : ∃ fd addr, e = .accept (.accepted fd addr)
  · obtain ⟨fd, addr, rfl⟩ := ha
    exact absurd hin hout
  · exact absurd (backgrounds_noneJoins hb (background_event textPred_clean hb
      (fun fd addr h => ha ⟨fd, addr, h⟩) fun fd h => hl ⟨fd, h⟩) p d hin) hout

end joins
end Server
end FtIrc
