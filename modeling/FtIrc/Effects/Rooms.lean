import FtIrc.Effects.Joins
import FtIrc.Library.Rooms

/-!
# The server as a network of rooms

`net` forgets addresses, names and buffers and keeps the rooms. A line of a client is a line of
that user in the network, and every other event only removes users that have gone.
-/

namespace FtIrc

namespace Channel

/-- The room of a channel; no key is the empty string, and no limit is 0. -/
def room (ch : Channel) : Room ClientPtr Bytes Bytes where
  members := ch.members.toFinset
  operators := ch.operators.toFinset
  invited := ch.invitedUsers.toFinset
  modes :=
    { inviteOnly := ch.inviteOnly
      topicByOpOnly := ch.topicByOpOnly
      key := if ch.key = [] then none else some ch.key
      limit := if ch.userLimit = 0 then none else some ch.userLimit }
  topic := ch.topic

theorem toFinset_filter_ne (cs : List ClientPtr) (c : ClientPtr) :
    (cs.filter (· ≠ c)).toFinset = cs.toFinset.erase c := by
  ext d
  simp [and_comm]

theorem toFinset_append_one (cs : List ClientPtr) (c : ClientPtr) :
    (cs ++ [c]).toFinset = insert c cs.toFinset := by
  ext d
  simp

@[simp] theorem mem_room_members {ch : Channel} {c : ClientPtr} :
    c ∈ ch.room.members ↔ c ∈ ch.members := List.mem_toFinset

@[simp] theorem mem_room_operators {ch : Channel} {c : ClientPtr} :
    c ∈ ch.room.operators ↔ c ∈ ch.operators := List.mem_toFinset

@[simp] theorem mem_room_invited {ch : Channel} {c : ClientPtr} :
    c ∈ ch.room.invited ↔ c ∈ ch.invitedUsers := List.mem_toFinset

theorem room_dropMember (ch : Channel) (c : ClientPtr) :
    (ch.dropMember c).room = ch.room.without c := by
  apply Room.ext
  · exact toFinset_filter_ne _ _
  · exact toFinset_filter_ne _ _
  all_goals rfl

theorem room_forget (ch : Channel) (c : ClientPtr) : (ch.forget c).room = ch.room.forget c := by
  apply Room.ext
  · exact toFinset_filter_ne _ _
  · exact toFinset_filter_ne _ _
  · exact toFinset_filter_ne _ _
  all_goals rfl

theorem room_members_eq_empty (ch : Channel) : ch.room.members = ∅ ↔ ch.members = [] := by
  simp [room]

theorem room_modes_eq {ch ch' : Channel} (h : ch'.room.modes = ch.room.modes) :
    ch'.inviteOnly = ch.inviteOnly ∧ ch'.topicByOpOnly = ch.topicByOpOnly ∧ ch'.key = ch.key ∧
      ch'.userLimit = ch.userLimit := by
  simp only [room, Modes.mk.injEq] at h
  obtain ⟨hi, ht, hk, hl⟩ := h
  refine ⟨hi, ht, ?_, ?_⟩
  · split_ifs at hk <;> simp_all
  · split_ifs at hl <;> simp_all

end Channel

namespace Server

def net (s : Server) : Net Bytes ClientPtr Bytes Bytes := fun k =>
  (s.channels.find? k).map fun p => (s.channel p).room

theorem net_of_find {s : Server} {k : Bytes} {p : ChannelPtr} (hk : s.channels.find? k = some p) :
    s.net k = some (s.channel p).room := by
  simp [net, hk]

theorem net_eq_some {s : Server} {k : Bytes} {r : Room ClientPtr Bytes Bytes}
    (h : s.net k = some r) : ∃ p, s.channels.find? k = some p ∧ r = (s.channel p).room := by
  obtain ⟨p, hp, rfl⟩ := Option.map_eq_some_iff.mp h
  exact ⟨p, hp, rfl⟩

@[simp] theorem net_emit (s : Server) (o : Output) : (s.emit o).net = s.net := rfl

@[simp] theorem net_updClient (s : Server) (c : ClientPtr) (f : Client → Client) :
    (s.updClient c f).net = s.net := rfl

/-- Only the channel under one key changes. -/
theorem net_put {s t : Server} {k : Bytes} {p : ChannelPtr}
    (hk : t.channels.find? k = if (t.channel p).members = [] then none else some p)
    (hrest : ∀ j ≠ k, t.channels.find? j = s.channels.find? j)
    (hother : ∀ j ≠ k, ∀ q, s.channels.find? j = some q → t.channel q = s.channel q) :
    t.net = s.net.put k (t.channel p).room := by
  funext j
  by_cases hj : j = k
  · subst hj
    rw [net, hk, Net.put, Function.update_self]
    simp only [Channel.room_members_eq_empty]
    split_ifs <;> rfl
  · rw [Net.put, Function.update_of_ne hj, net, net, hrest j hj]
    cases hq : s.channels.find? j with
    | none => rfl
    | some q => simp [hother j hj q hq]

theorem Members.ne_of_key {s : Server} (hm : s.Members) {j k : Bytes} {p q : ChannelPtr}
    (hp : s.channels.find? k = some p) (hq : s.channels.find? j = some q) (hne : j ≠ k) :
    q ≠ p := by
  rintro rfl
  apply hne
  rw [← hm.channel_key j q hq, hm.channel_key k q hp]

section acts

variable {P : Bytes → Prop} {msg : Message} {u : ClientPtr} {s s' : Server}

theorem net_updChannel (hm : s.Members) {k : Bytes} {p : ChannelPtr}
    (hp : s.channels.find? k = some p) {f : Channel → Channel}
    (hne : (f (s.channel p)).members ≠ []) :
    (s.updChannel p f).net = s.net.put k (f (s.channel p)).room := by
  have hself : (s.updChannel p f).channel p = f (s.channel p) := by simp
  rw [← hself]
  apply net_put
  · rw [hself, if_neg hne]
    exact hp
  · intro j _
    rfl
  · intro j hj q hq
    exact updChannel_channel_of_ne s p q f (hm.ne_of_key hp hq hj)

theorem net_leave (hl : s.Links) {k : Bytes} {p : ChannelPtr} (hp : s.channels.find? k = some p)
    (c : ClientPtr) : (s.leave p c).net = s.net.put k ((s.channel p).room.without c) := by
  have hself : (s.leave p c).channel p = (s.channel p).dropMember c := by
    rw [leave_channel, if_pos rfl]
    rfl
  have hkey : toLower ((s.removeMember p c).channel p).name = k := by
    rw [removeMember_name, hl.channel_key k p hp]
  rw [← Channel.room_dropMember, ← hself]
  apply net_put
  · rw [hself, leave_eq]
    split_ifs with hempty hdrop hdrop
    · rw [deleteChannel_channels, hkey, StdMap.find?_erase, if_pos rfl]
    · exact absurd hempty hdrop
    · exact absurd hdrop hempty
    · exact hp
  · intro j hj
    rw [leave_eq]
    split_ifs
    · rw [deleteChannel_channels, hkey, StdMap.find?_erase, if_neg hj]
      rfl
    · rfl
  · intro j hj q hq
    rw [leave_channel, if_neg (hl.toMembers.ne_of_key hp hq hj)]

/-- One act inside a channel that keeps its members. -/
theorem act_updChannel (hl : s.Links) (hg : s.NoGhost) {p : ChannelPtr} (hp : s.LiveChannel p)
    {f : Channel → Channel} (hmem : (f (s.channel p)).members = (s.channel p).members)
    (hact : Room.Act u (s.channel p).room (f (s.channel p)).room) :
    Relation.ReflTransGen (Net.Act u) s.net (s.updChannel p f).net := by
  have hne : (f (s.channel p)).members ≠ [] := by
    rw [hmem]
    exact hg p hp
  obtain ⟨k, hk⟩ := hp
  rw [net_updChannel hl.toMembers hk hne]
  exact .single (.inside (net_of_find hk) hact)

theorem act_leave (hl : s.Links) {p : ChannelPtr} (hp : s.LiveChannel p) {c : ClientPtr}
    (hact : Room.Act u (s.channel p).room ((s.channel p).room.without c)) :
    Relation.ReflTransGen (Net.Act u) s.net (s.leave p c).net := by
  obtain ⟨k, hk⟩ := hp
  rw [net_leave hl hk]
  exact .single (.inside (net_of_find hk) hact)

theorem raise_room {ch : Channel} {t : ClientPtr} (hne : ch.isOperator t ≠ true) :
    (ch.setModeOperator true t).room =
      { ch.room with operators := insert t ch.room.operators } := by
  rw [Channel.setModeOperator, if_pos rfl, if_neg hne]
  exact Room.ext rfl (Channel.toFinset_append_one _ _) rfl rfl rfl

theorem lower_room {ch : Channel} {t : ClientPtr} (hne : ch.isOperator t ≠ false) :
    (ch.setModeOperator false t).room =
      { ch.room with operators := ch.room.operators.erase t } := by
  rw [Channel.setModeOperator, if_neg Bool.false_ne_true, if_neg (by simpa using hne)]
  exact Room.ext rfl (Channel.toFinset_filter_ne _ _) rfl rfl rfl

theorem setModeOperator_room {ch : Channel} {enable : Bool} {t : ClientPtr}
    (hop : u ∈ ch.operators) (ht : t ∈ ch.members) (hne : ch.isOperator t ≠ enable) :
    Room.Act u ch.room (ch.setModeOperator enable t).room := by
  have hop' : u ∈ ch.room.operators := List.mem_toFinset.mpr hop
  cases enable with
  | true =>
    rw [raise_room hne]
    exact .promote hop' (List.mem_toFinset.mpr ht)
  | false =>
    rw [lower_room hne]
    exact .demote hop' t

/-- An effect is one act of its client, or none. -/
theorem effect_acts (hl : s.Links) (hg : s.NoGhost) (h : Effect P msg u s s') :
    Relation.ReflTransGen (Net.Act u) s.net s'.net := by
  cases h with
  | reply | talk | announce | rename | nickname | user | pass | register | pong => exact .refl
  | @mode p f hp hop hf =>
    apply act_updChannel hl hg hp
    · rw [hf.rest]
    · have hroom : (f (s.channel p)).room =
          { (s.channel p).room with modes := (f (s.channel p)).room.modes } := by
        rw [hf.rest]
        rfl
      rw [hroom]
      exact .modes (List.mem_toFinset.mpr hop) _
  | operator hp hop ht hne =>
    rw [net_emit]
    apply act_updChannel hl hg hp
    · exact setModeOperator_members _ _ _
    · exact setModeOperator_room hop ht hne
  | topic hp hu hop =>
    rw [net_emit]
    apply act_updChannel hl hg hp
    · rfl
    · exact .topic (List.mem_toFinset.mpr hu) (fun h => List.mem_toFinset.mpr (hop h)) _
  | @invite p d nick name rest _ _ _ _ hp hu hop _ _ hm hi =>
    rw [net_emit, invite, net_updClient]
    apply act_updChannel hl hg hp
    · rfl
    · have hroom : Channel.room { s.channel p with
          invitedUsers := (s.channel p).invitedUsers ++ [d] } =
            { (s.channel p).room with invited := insert d (s.channel p).room.invited } :=
        Room.ext rfl rfl (Channel.toFinset_append_one _ _) rfl rfl
      rw [hroom]
      exact .invite (List.mem_toFinset.mpr hu) (fun h => List.mem_toFinset.mpr (hop h))
        (mt List.mem_toFinset.mp hm)
  | part hp hu => exact act_leave hl hp (.leave (List.mem_toFinset.mpr hu))
  | kick hp hop ht =>
    exact act_leave hl hp (.expel (List.mem_toFinset.mpr hop) (List.mem_toFinset.mpr ht))

theorem effects_acts (hb : s.Base P) (h : Effects P msg u s s') :
    Relation.ReflTransGen (Net.Act u) s.net s'.net := by
  induction h with
  | refl => exact .refl
  | tail hrun hstep ih =>
    have hmid := effects_base hrun hb
    exact ih.trans (effect_acts hmid.links hmid.noGhost hstep)

/-- The room with one more member; the invitation is used up. -/
theorem letIn_room {p : ChannelPtr} (hm : u ∉ (s.channel p).members)
    (hne : (s.channel p).members ≠ []) :
    ((s.letIn p u).channel p).room = (s.channel p).room.letIn u := by
  have hch : (s.letIn p u).channel p = (s.enter p u).channel p := by
    rw [letIn_eq, emit_channel]
  rw [hch, enter_channel s hm, if_pos rfl, if_neg hne]
  apply Room.ext
  · exact Channel.toFinset_append_one _ _
  · rfl
  · exact Channel.toFinset_filter_ne _ _
  all_goals rfl

theorem letIn_founded {p : ChannelPtr} {name : Bytes} (hnew : s.channel p = Channel.new name) :
    ((s.letIn p u).channel p).room = Room.founded u := by
  have hm : u ∉ (s.channel p).members := by simp [hnew, Channel.new]
  have hch : (s.letIn p u).channel p = (s.enter p u).channel p := by
    rw [letIn_eq, emit_channel]
  rw [hch, enter_channel s hm, if_pos rfl, hnew]
  rfl

theorem letIn_channels (s : Server) (p : ChannelPtr) (c : ClientPtr) :
    (s.letIn p c).channels = s.channels := by
  rw [letIn_eq, emit_channels, enter_rest]

theorem letIn_channel_of_ne {p q : ChannelPtr} (hm : u ∉ (s.channel p).members) (hq : q ≠ p) :
    (s.letIn p u).channel q = s.channel q := by
  rw [letIn_eq, emit_channel, enter_channel s hm, if_neg hq]

theorem letIn_members {p : ChannelPtr} (hm : u ∉ (s.channel p).members) :
    ((s.letIn p u).channel p).members = (s.channel p).members ++ [u] := by
  rw [letIn_eq, emit_channel, enter_channel s hm, if_pos rfl]

/-- A successful JOIN is an entry into the network with the key of its line. -/
theorem entry_enters (hb : s.Base P) (h : Entry P msg u s s') :
    Net.Enter u (some (msg.parameter.getD 1 [])) s.net s'.net := by
  cases h with
  | @join p name rest hcmd hparam hname hp hreg hm hkey hinv hfull =>
    have hne := hb.noGhost p hp
    have hput : (s.letIn p u).net = s.net.put (toLower name) ((s.letIn p u).channel p).room := by
      apply net_put
      · rw [letIn_channels, letIn_members hm, if_neg (by simp)]
        exact hname
      · intro j _
        rw [letIn_channels]
      · intro j hj q hq
        exact letIn_channel_of_ne hm (hb.links.toMembers.ne_of_key hname hq hj)
    rw [hput, letIn_room hm hne]
    apply Net.Enter.join (net_of_find hname)
    constructor
    · exact mt List.mem_toFinset.mp hm
    · rcases hkey with hkey | hkey
      · exact .inl (if_pos hkey)
      · by_cases hnil : (s.channel p).key = []
        · exact .inl (if_pos hnil)
        · refine .inr ((if_neg hnil).trans ?_)
          rw [hkey, hparam]
          cases rest <;> rfl
    · intro hi
      exact List.mem_toFinset.mpr (hinv hi)
    · intro l hl
      have hcard : (s.channel p).members.toFinset.card = (s.channel p).members.length :=
        List.toFinset_card_of_nodup (hb.links.members_nodup p hp)
      show (s.channel p).members.toFinset.card < l
      have hlim : (if (s.channel p).userLimit = 0 then none else some (s.channel p).userLimit) =
        some l := hl
      split_ifs at hlim with hzero
      rw [Channel.isFull, if_neg (by omega), decide_eq_false_iff_not] at hfull
      have hl := Option.some.inj hlim
      omega
  | @create name hreg hname hk hP =>
    have hself : (s.newChannel name).channel (s.heap.addr s.channels.values) =
        Channel.new name := by
      rw [newChannel_channel, if_pos rfl]
    have hm : u ∉ ((s.newChannel name).channel (s.heap.addr s.channels.values)).members := by
      simp [hself, Channel.new]
    have hput : ((s.newChannel name).letIn (s.heap.addr s.channels.values) u).net =
        s.net.put (toLower name) (((s.newChannel name).letIn
          (s.heap.addr s.channels.values) u).channel (s.heap.addr s.channels.values)).room := by
      apply net_put
      · rw [letIn_channels, letIn_members hm, if_neg (by simp)]
        simp [newChannel]
      · intro j hj
        rw [letIn_channels]
        simp [newChannel, StdMap.find?_insert, hj]
      · intro j _ q hq
        have hold : q ≠ s.heap.addr s.channels.values := by
          rintro rfl
          exact s.fresh_channel ⟨j, hq⟩
        rw [letIn_channel_of_ne hm hold, newChannel_channel, if_neg hold]
    rw [hput, letIn_founded hself]
    apply Net.Enter.found
    rw [net, hk]
    rfl

theorem net_disconnectAfterFlush (s : Server) (c : ClientPtr) (reason : Bytes) :
    (s.disconnectAfterFlush c reason).net = s.net := by
  rw [disconnectAfterFlush_eq]
  rfl

/-- A line of a client is a line of that user. -/
theorem line_refines (hb : s.Base P) (h : Line P msg u s s') :
    Net.Line u (some (msg.parameter.getD 1 [])) s.net s'.net := by
  cases h with
  | effects h => exact .acts (effects_acts hb h)
  | closed h =>
    rw [net_disconnectAfterFlush]
    exact .acts (effects_acts hb h)
  | entry h => exact .enter (entry_enters hb h)

/-- The rooms after a client has been disconnected. -/
theorem Departure.net_eq {c : ClientPtr} {cause : Bytes} (h : Departure s c cause s') :
    s'.net = s.net.depart c := by
  funext k
  show (s'.channels.find? k).map _ = ((s.channels.find? k).map _).bind _
  cases hk' : s'.channels.find? k with
  | some p =>
    obtain ⟨hk, hne⟩ := (h.channels k p).mp hk'
    have hmem : ((s.channel p).forget c).room.members ≠ ∅ := by
      rw [Ne, Channel.room_members_eq_empty]
      exact hne
    rw [hk, Option.map_some, Option.map_some, Option.bind_some, h.channel p ⟨k, hk'⟩,
      ← Channel.room_forget, if_neg hmem]
  | none =>
    cases hk : s.channels.find? k with
    | none => rfl
    | some p =>
      have hempty : ((s.channel p).forget c).members = [] := by
        by_contra hne
        rw [(h.channels k p).mpr ⟨hk, hne⟩] at hk'
        cases hk'
      rw [Option.map_some, Option.bind_some, ← Channel.room_forget,
        if_pos ((Channel.room_members_eq_empty _).mpr hempty)]
      rfl

/-- What is not a line removes the users that it disconnects, and nothing else. -/
theorem backgrounds_depart (hb : s.Base P) (h : Relation.ReflTransGen (Background P) s s') :
    ∃ vs : List ClientPtr, (∀ v ∈ vs, s.LiveClient v ∧ ¬ s'.LiveClient v) ∧
      s'.net = vs.foldl Net.depart s.net := by
  induction h with
  | refl => exact ⟨[], by simp, rfl⟩
  | @tail t t' hrun hstep ih =>
    obtain ⟨vs, hvs, hnet⟩ := ih
    have hmid := backgrounds_base hrun hb
    have hgone : ∀ v, ¬ t.LiveClient v → ¬ t'.LiveClient v := by
      intro v hv ⟨fd, hfd⟩
      exact hv ⟨fd, background_find hmid hstep hfd⟩
    have hsame : t'.net = t.net → ∃ vs : List ClientPtr,
        (∀ v ∈ vs, s.LiveClient v ∧ ¬ t'.LiveClient v) ∧ t'.net = vs.foldl Net.depart s.net := by
      intro heq
      exact ⟨vs, fun v hv => ⟨(hvs v hv).1, hgone v (hvs v hv).2⟩, heq.trans hnet⟩
    cases hstep with
    | frame | buffers => exact hsame rfl
    | ping => exact hsame rfl
    | close => exact hsame (net_disconnectAfterFlush _ _ _)
    | @depart fd c reason hfd =>
      have hdep := (disconnect_departure hmid.links hmid.noGhost hfd reason).1
      refine ⟨vs ++ [c], ?_, ?_⟩
      · intro v hv
        rcases List.mem_append.mp hv with hv | hv
        · exact ⟨(hvs v hv).1, hgone v (hvs v hv).2⟩
        · rw [List.mem_singleton.mp hv]
          refine ⟨⟨fd, backgrounds_find hb hrun hfd⟩, ?_⟩
          intro hlive
          have herase := (hmid.links.liveClient_erase ⟨fd, hfd⟩ c).mp (hdep.clients ▸ hlive)
          exact herase.2 rfl
      · rw [hdep.net_eq, hnet, List.foldl_append]
        rfl

end acts

end Server
end FtIrc
