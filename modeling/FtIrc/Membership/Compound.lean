import FtIrc.Membership.Changes

/-!
# JOIN, departures and accept

The changes of the links that a whole command or event makes, read field by field, and that they
keep `Links` and `NoGhost`.
-/

namespace FtIrc
namespace Server

/-! ## Entering -/

theorem enter_eq (s : Server) (p : ChannelPtr) (c : ClientPtr) :
    s.enter p c =
      if (s.channel p).members = [] then
        ((s.uninvite p c).addMember p c).updChannel p (·.addOperator c)
      else (s.uninvite p c).addMember p c := by
  have hempty : ((s.uninvite p c).channel p).isEmpty = (s.channel p).members.isEmpty := by
    simp [Channel.isEmpty, uninvite_channel]
  unfold enter
  change (if ((s.uninvite p c).channel p).isEmpty = true then _ else _) = _
  rw [hempty]
  by_cases hm : (s.channel p).members = []
  · rw [if_pos (by simp [hm]), if_pos hm]
    rfl
  · rw [if_neg (by simp [hm]), if_neg hm]
    rfl

@[simp] theorem enter_clients (s : Server) (p : ChannelPtr) (c : ClientPtr) :
    (s.enter p c).clients = s.clients := by
  rw [enter_eq]
  split <;> simp [uninvite]

@[simp] theorem enter_channels (s : Server) (p : ChannelPtr) (c : ClientPtr) :
    (s.enter p c).channels = s.channels := by
  rw [enter_eq]
  split <;> simp [uninvite]

theorem uninvite_not_member {s : Server} {p : ChannelPtr} {c : ClientPtr}
    (hm : c ∉ (s.channel p).members) : c ∉ ((s.uninvite p c).channel p).members := by
  simpa [uninvite_channel] using hm

theorem enter_channel (s : Server) {p : ChannelPtr} {c : ClientPtr}
    (hm : c ∉ (s.channel p).members) (q : ChannelPtr) :
    (s.enter p c).channel q =
      if q = p then
        { s.channel p with
          invitedUsers := (s.channel p).invitedUsers.filter (· ≠ c)
          members := (s.channel p).members ++ [c]
          operators := if (s.channel p).members = [] then ((s.channel p).addOperator c).operators
            else (s.channel p).operators }
      else s.channel q := by
  rw [enter_eq]
  by_cases hq : q = p
  · subst hq
    by_cases hempty : (s.channel q).members = []
    · simp [hempty, addMember_channel _ (uninvite_not_member hm), uninvite_channel,
        Channel.addOperator, Channel.isOperator]
      split_ifs <;> rfl
    · simp [hempty, addMember_channel _ (uninvite_not_member hm), uninvite_channel]
  · split_ifs <;>
      simp [updChannel_channel_of_ne, hq, addMember_channel _ (uninvite_not_member hm),
        uninvite_channel]

theorem enter_client (s : Server) {p : ChannelPtr} {c : ClientPtr}
    (hm : c ∉ (s.channel p).members) (d : ClientPtr) :
    (s.enter p c).client d =
      if d = c then
        { s.client c with
          joinedChannels := (s.client c).joinedChannels.insert (s.channel p).name p
          invitedChannels := (s.client c).invitedChannels.filter (· ≠ p) }
      else s.client d := by
  have hname : ((s.uninvite p c).channel p).name = (s.channel p).name := by
    simp [uninvite_channel]
  have hadd : ((s.uninvite p c).addMember p c).client d =
      if d = c then
        { s.client c with
          joinedChannels := (s.client c).joinedChannels.insert (s.channel p).name p
          invitedChannels := (s.client c).invitedChannels.filter (· ≠ p) }
      else s.client d := by
    rw [addMember_client _ (uninvite_not_member hm), hname]
    by_cases hd : d = c
    · simp [hd, uninvite_client, Client.addJoinedChannels, Client.removeInvitedChannel]
    · simp [hd, uninvite_client]
  rw [enter_eq, ← hadd]
  split <;> rfl

theorem links_enter {s : Server} (h : s.Links) {p : ChannelPtr} {c : ClientPtr}
    (hp : s.LiveChannel p) (hc : s.LiveClient c) (hreg : (s.client c).isRegistered = true)
    (hm : c ∉ (s.channel p).members) : (s.enter p c).Links := by
  have hsame := sameMembers_uninvite s p c
  have hin : ((s.uninvite p c).addMember p c).Links :=
    links_addMember (links_uninvite h p c) hp hc (hsame.registered c hreg)
      (uninvite_not_member hm) (by simp [uninvite_channel])
  rw [enter_eq]
  split_ifs with hempty
  · refine links_setOperators hin p _ ?_ ?_ ?_ (fun hlive => ?_) fun hlive d hd => ?_
    · unfold Channel.addOperator; split <;> rfl
    · unfold Channel.addOperator; split <;> rfl
    · unfold Channel.addOperator; split <;> rfl
    · have hnd := hin.operators_nodup p hlive
      unfold Channel.addOperator
      split
      · exact hnd
      · rename_i hno
        exact hnd.append (List.nodup_singleton c) (by simpa [Channel.isOperator] using hno)
    · have hself : c ∈ (((s.uninvite p c).addMember p c).channel p).members := by
        simp [addMember_channel _ (uninvite_not_member hm)]
      unfold Channel.addOperator at hd
      split at hd
      · exact hin.operators_members p hlive d hd
      · rcases List.mem_append.mp hd with hd | hd
        · exact hin.operators_members p hlive d hd
        · rwa [List.mem_singleton.mp hd]
  · exact hin

theorem noGhost_enter {s : Server} (h : s.NoGhost) {p : ChannelPtr} {c : ClientPtr}
    (hm : c ∉ (s.channel p).members) : (s.enter p c).NoGhost := by
  intro q hq
  rw [enter_channel s hm]
  by_cases he : q = p
  · simp [he]
  · rw [if_neg he]
    refine h q ?_
    simpa [LiveChannel] using hq

/-- The first member of a new channel. -/
theorem noGhost_create {s : Server} (h : s.NoGhost) {name : Bytes} {c : ClientPtr}
    (hk : s.channels.find? (toLower name) = none) :
    ((s.newChannel name).enter (s.heap.addr s.channels.values) c).NoGhost := by
  have hm : c ∉ ((s.newChannel name).channel (s.heap.addr s.channels.values)).members := by
    simp [newChannel_channel, Channel.new]
  intro q hq
  have hlive : (s.newChannel name).LiveChannel q := by simpa [LiveChannel] using hq
  rw [enter_channel _ hm]
  by_cases he : q = s.heap.addr s.channels.values
  · simp [he]
  · rw [if_neg he, newChannel_channel, if_neg he]
    rcases (liveChannel_newChannel hk q).mp hlive with hl | hl
    · exact h q hl
    · exact absurd hl he

/-! ## Leaving one channel -/

theorem leave_eq (s : Server) (p : ChannelPtr) (c : ClientPtr) :
    s.leave p c =
      if (s.channel p).members.filter (· ≠ c) = [] then
        (s.removeMember p c).deleteChannel ((s.removeMember p c).channel p).name
      else s.removeMember p c := by
  have hempty : ((s.removeMember p c).channel p).isEmpty =
      ((s.channel p).members.filter (· ≠ c)).isEmpty := by
    simp [Channel.isEmpty, removeMember_channel]
  unfold leave
  simp only [hempty, List.isEmpty_iff, removeMember_name]

@[simp] theorem leave_clients (s : Server) (p : ChannelPtr) (c : ClientPtr) :
    (s.leave p c).clients = s.clients := by
  rw [leave_eq]
  split <;> simp

theorem leave_channel (s : Server) (p q : ChannelPtr) (c : ClientPtr) :
    (s.leave p c).channel q =
      if q = p then
        { s.channel p with
          members := (s.channel p).members.filter (· ≠ c)
          operators := (s.channel p).operators.filter (· ≠ c) }
      else s.channel q := by
  rw [leave_eq]
  split_ifs with h1 h2 <;> simp [removeMember_channel, *]

theorem liveChannel_leave {s : Server} (h : s.Links) {p : ChannelPtr} (hp : s.LiveChannel p)
    (c : ClientPtr) (q : ChannelPtr) :
    (s.leave p c).LiveChannel q ↔
      s.LiveChannel q ∧ (q = p → (s.channel p).members.filter (· ≠ c) ≠ []) := by
  by_cases hempty : (s.channel p).members.filter (· ≠ c) = []
  · rw [leave_eq, if_pos hempty, (links_removeMember h c hp).liveChannel_delete hp]
    exact and_congr Iff.rfl ⟨fun hne he => absurd he hne, fun himp he => himp he hempty⟩
  · rw [leave_eq, if_neg hempty]
    exact ⟨fun hq => ⟨hq, fun he => he ▸ hempty⟩, And.left⟩

theorem links_leave {s : Server} (h : s.Links) {p : ChannelPtr} (hp : s.LiveChannel p)
    (c : ClientPtr) : (s.leave p c).Links := by
  have hrem := links_removeMember h c hp
  rw [leave_eq]
  split_ifs with hempty
  · refine links_deleteChannel hrem hp ?_
    simpa [removeMember_channel] using hempty
  · exact hrem

theorem noGhost_leave {s : Server} (hl : s.Links) (h : s.NoGhost) {p : ChannelPtr}
    (hp : s.LiveChannel p) (c : ClientPtr) : (s.leave p c).NoGhost := by
  intro q hq
  obtain ⟨hlive, hne⟩ := (liveChannel_leave hl hp c q).mp hq
  rw [leave_channel]
  by_cases he : q = p
  · subst he
    rw [if_pos rfl]
    exact hne rfl
  · rw [if_neg he]
    exact h q hlive

/-- A change of links leaves all other fields of a client alone. -/
def SameClient (cl cl' : Client) : Prop :=
  cl' = { cl with joinedChannels := cl'.joinedChannels, invitedChannels := cl'.invitedChannels }

theorem SameClient.trans {a b c : Client} (h : SameClient a b) (h' : SameClient b c) :
    SameClient a c := by
  unfold SameClient at *
  rw [h', h]

theorem removeMember_sameClient (s : Server) (p : ChannelPtr) (c d : ClientPtr) :
    SameClient (s.client d) ((s.removeMember p c).client d) := by
  rw [removeMember_client]
  split_ifs with hd
  · subst hd; rfl
  · rfl

theorem deleteChannel_sameClient (s : Server) (name : Bytes) (d : ClientPtr) :
    SameClient (s.client d) ((s.deleteChannel name).client d) := by
  cases hf : s.channels.find? (toLower name) with
  | none => simp [deleteChannel, hf, SameClient]
  | some q =>
    rw [deleteChannel_eq s hf]
    dsimp only
    split_ifs <;> rfl

theorem leave_sameClient (s : Server) (p : ChannelPtr) (c d : ClientPtr) :
    SameClient (s.client d) ((s.leave p c).client d) := by
  have hrem := removeMember_sameClient s p c d
  rw [leave_eq]
  split_ifs
  · exact hrem.trans (deleteChannel_sameClient _ _ d)
  · exact hrem

theorem leave_joinedChannels (s : Server) (p : ChannelPtr) (c d : ClientPtr) :
    ((s.leave p c).client d).joinedChannels =
      if d = c then (s.client c).joinedChannels.erase (s.channel p).name
      else (s.client d).joinedChannels := by
  have hdel : ∀ (t : Server) (n : Bytes),
      ((t.deleteChannel n).client d).joinedChannels = (t.client d).joinedChannels := by
    intro t n
    cases hf : t.channels.find? (toLower n) with
    | none => simp [deleteChannel, hf]
    | some q =>
      rw [deleteChannel_eq t hf]
      dsimp only
      split_ifs <;> rfl
  have hrem : ((s.removeMember p c).client d).joinedChannels =
      if d = c then (s.client c).joinedChannels.erase (s.channel p).name
      else (s.client d).joinedChannels := by
    rw [removeMember_client]
    split_ifs <;> rfl
  by_cases hempty : (s.channel p).members.filter (· ≠ c) = []
  · rw [leave_eq, if_pos hempty, hdel, hrem]
  · rw [leave_eq, if_neg hempty, hrem]

/-! ## Accept -/

theorem accept_clients (s : Server) (fd : Fd) (addr : Ipv4) :
    (s.acceptNewClient (.accepted fd addr)).clients =
      s.clients.insert fd (s.heap.addr s.clients.values) := rfl

theorem accept_client (s : Server) (fd : Fd) (addr : Ipv4) (d : ClientPtr) :
    (s.acceptNewClient (.accepted fd addr)).client d =
      if d = s.heap.addr s.clients.values then Client.new fd (inetNtop addr) s.now
      else s.client d := by
  simp [acceptNewClient, Function.update_apply]

theorem liveClient_accept {s : Server} {fd : Fd} (addr : Ipv4)
    (hfd : s.clients.find? fd = none) (d : ClientPtr) :
    (s.acceptNewClient (.accepted fd addr)).LiveClient d ↔
      s.LiveClient d ∨ d = s.heap.addr s.clients.values := by
  simp only [LiveClient, accept_clients, StdMap.find?_insert]
  constructor
  · rintro ⟨k, h⟩
    split_ifs at h with he
    · exact .inr (Option.some.inj h).symm
    · exact .inl ⟨k, h⟩
  · rintro (⟨k, h⟩ | rfl)
    · refine ⟨k, ?_⟩
      rw [if_neg]
      · exact h
      · rintro rfl
        simp [hfd] at h
    · exact ⟨fd, by simp⟩

theorem accept_client_live (s : Server) (fd : Fd) (addr : Ipv4) {d : ClientPtr}
    (hd : s.LiveClient d) :
    (s.acceptNewClient (.accepted fd addr)).client d = s.client d := by
  rw [accept_client, if_neg]
  rintro rfl
  exact s.fresh_client hd

theorem links_accept {s : Server} (h : s.Links) {fd : Fd} (addr : Ipv4)
    (hfd : s.clients.find? fd = none) : (s.acceptNewClient (.accepted fd addr)).Links := by
  have hlc := liveClient_accept (s := s) addr hfd
  have hold := @accept_client_live s fd addr
  have hnew : (s.acceptNewClient (.accepted fd addr)).client (s.heap.addr s.clients.values) =
      Client.new fd (inetNtop addr) s.now := by
    simp [accept_client]
  constructor <;> constructor
  all_goals try simp only [hlc]
  case client_fd =>
    intro fd' d hd
    rw [accept_clients, StdMap.find?_insert] at hd
    split_ifs at hd with he
    · obtain rfl := Option.some.inj hd
      rw [hnew, he]
      rfl
    · rw [hold ⟨fd', hd⟩]
      exact h.client_fd fd' d hd
  case channel_key => exact h.channel_key
  case channel_name => exact h.channel_name
  case members_nodup => exact h.members_nodup
  case operators_nodup => exact h.operators_nodup
  case operators_members => exact h.operators_members
  case member =>
    intro q hq d hd
    obtain ⟨hlive, hr⟩ := h.member q hq d hd
    rw [hold hlive]
    exact ⟨.inl hlive, hr⟩
  case joined =>
    rintro d (hd | rfl)
    · rw [hold hd]
      exact h.joined d hd
    · rw [hnew]
      simp [Client.new]
  case invitedUsers_nodup => exact h.invitedUsers_nodup
  case invitedChannels_nodup =>
    rintro d (hd | rfl)
    · rw [hold hd]
      exact h.invitedChannels_nodup d hd
    · rw [hnew]
      simp [Client.new]
  case invited =>
    intro q hq d hd
    obtain ⟨hlive, hr⟩ := h.invited q hq d hd
    rw [hold hlive]
    exact ⟨.inl hlive, hr⟩
  case invitation =>
    rintro d (hd | rfl)
    · rw [hold hd]
      exact h.invitation d hd
    · rw [hnew]
      simp [Client.new]

end Server
end FtIrc
