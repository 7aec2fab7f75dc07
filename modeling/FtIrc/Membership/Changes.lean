import FtIrc.Membership.Links

/-!
# Changes of the links

The elementary changes behind JOIN, PART, KICK, INVITE, MODE o, accept and disconnect, and that
each of them keeps the links consistent.
-/

namespace FtIrc

theorem lowerChar_lowerChar : ∀ b : Byte, lowerChar (lowerChar b) = lowerChar b :=
  forall_byte (by decide +kernel)

@[simp] theorem toLower_toLower (s : Bytes) : toLower (toLower s) = toLower s := by
  simp [toLower, lowerChar_lowerChar]

namespace Server

/-! ## Invitations -/

/-- The invitation of `c` to `p` is removed on both sides. -/
def uninvite (s : Server) (p : ChannelPtr) (c : ClientPtr) : Server :=
  (s.updChannel p fun ch => { ch with invitedUsers := ch.invitedUsers.filter (· ≠ c) }).updClient c
    (·.removeInvitedChannel p)

/-- The invitation of `c` to `p` is recorded on both sides. -/
def invite (s : Server) (p : ChannelPtr) (c : ClientPtr) : Server :=
  (s.updChannel p fun ch => { ch with invitedUsers := ch.invitedUsers ++ [c] }).updClient c
    (·.addInvitedChannel p)

theorem uninvite_channel (s : Server) (p q : ChannelPtr) (c : ClientPtr) :
    (s.uninvite p c).channel q = if q = p then
      { s.channel p with invitedUsers := (s.channel p).invitedUsers.filter (· ≠ c) }
    else s.channel q := by
  simp [uninvite, updChannel_channel]

theorem uninvite_client (s : Server) (p : ChannelPtr) (c d : ClientPtr) :
    (s.uninvite p c).client d = if d = c then (s.client c).removeInvitedChannel p
    else s.client d := by
  simp [uninvite, updClient_client]

theorem invite_channel (s : Server) (p q : ChannelPtr) (c : ClientPtr) :
    (s.invite p c).channel q = if q = p then
      { s.channel p with invitedUsers := (s.channel p).invitedUsers ++ [c] }
    else s.channel q := by
  simp [invite, updChannel_channel]

theorem invite_client (s : Server) (p : ChannelPtr) (c d : ClientPtr) :
    (s.invite p c).client d = if d = c then (s.client c).addInvitedChannel p
    else s.client d := by
  simp [invite, updClient_client]

theorem sameMembers_uninvite (s : Server) (p : ChannelPtr) (c : ClientPtr) :
    SameMembers s (s.uninvite p c) :=
  (sameMembers_updChannel s p _ rfl rfl rfl).trans (sameMembers_updClient _ c _ rfl id rfl)

theorem sameMembers_invite (s : Server) (p : ChannelPtr) (c : ClientPtr) :
    SameMembers s (s.invite p c) :=
  (sameMembers_updChannel s p _ rfl rfl rfl).trans (sameMembers_updClient _ c _ rfl id rfl)

theorem links_uninvite {s : Server} (h : s.Links) (p : ChannelPtr) (c : ClientPtr) :
    (s.uninvite p c).Links := by
  have hsame := sameMembers_uninvite s p c
  have hinvited : ∀ q d, d ∈ ((s.uninvite p c).channel q).invitedUsers ↔
      d ∈ (s.channel q).invitedUsers ∧ (q = p → d ≠ c) := by
    intro q d
    rw [uninvite_channel]
    split_ifs with hq
    · subst hq; simp
    · simp [hq]
  have hinvitation : ∀ d q, q ∈ ((s.uninvite p c).client d).invitedChannels ↔
      q ∈ (s.client d).invitedChannels ∧ (d = c → q ≠ p) := by
    intro d q
    rw [uninvite_client]
    split_ifs with hd
    · subst hd; simp [Client.removeInvitedChannel]
    · simp [hd]
  refine ⟨h.toMembers.congr hsame, ?_⟩
  constructor
  case invitedUsers_nodup =>
    intro q hq
    rw [uninvite_channel]
    split_ifs with he
    · exact (h.invitedUsers_nodup p (he ▸ hq)).filter _
    · exact h.invitedUsers_nodup q hq
  case invitedChannels_nodup =>
    intro d hd
    rw [uninvite_client]
    split_ifs with he
    · exact (h.invitedChannels_nodup c (he ▸ hd)).filter _
    · exact h.invitedChannels_nodup d hd
  case invited =>
    intro q hq d hd
    obtain ⟨hd, hne⟩ := (hinvited q d).mp hd
    obtain ⟨hlive, hreg, hnot, hback⟩ := h.invited q hq d hd
    refine ⟨hlive, hsame.registered d hreg, ?_, (hinvitation d q).mpr ⟨hback, ?_⟩⟩
    · rwa [hsame.members]
    · exact fun he hqp => hne hqp he
  case invitation =>
    intro d hd q hq
    obtain ⟨hq, hne⟩ := (hinvitation d q).mp hq
    obtain ⟨hlive, hback⟩ := h.invitation d hd q hq
    exact ⟨hlive, (hinvited q d).mpr ⟨hback, fun he hdc => hne hdc he⟩⟩

theorem links_invite {s : Server} (h : s.Links) {p : ChannelPtr} {c : ClientPtr}
    (hp : s.LiveChannel p) (hc : s.LiveClient c) (hreg : (s.client c).isRegistered = true)
    (hm : c ∉ (s.channel p).members) (hi : c ∉ (s.channel p).invitedUsers) :
    (s.invite p c).Links := by
  have hsame := sameMembers_invite s p c
  have hni : p ∉ (s.client c).invitedChannels := fun hin => hi (h.invitation c hc p hin).2
  have hinvited : ∀ q d, d ∈ ((s.invite p c).channel q).invitedUsers ↔
      d ∈ (s.channel q).invitedUsers ∨ (q = p ∧ d = c) := by
    intro q d
    rw [invite_channel]
    split_ifs with hq
    · subst hq; simp
    · simp [hq]
  have hinvitation : ∀ d q, q ∈ ((s.invite p c).client d).invitedChannels ↔
      q ∈ (s.client d).invitedChannels ∨ (q = p ∧ d = c) := by
    intro d q
    rw [invite_client]
    split_ifs with hd
    · subst hd; simp [Client.addInvitedChannel]
    · simp [hd]
  refine ⟨h.toMembers.congr hsame, ?_⟩
  constructor
  case invitedUsers_nodup =>
    intro q hq
    rw [invite_channel]
    split_ifs with he
    · exact (h.invitedUsers_nodup p hp).append (List.nodup_singleton c) (by simpa using hi)
    · exact h.invitedUsers_nodup q hq
  case invitedChannels_nodup =>
    intro d hd
    rw [invite_client]
    split_ifs with he
    · exact (h.invitedChannels_nodup c hc).append (List.nodup_singleton p) (by simpa using hni)
    · exact h.invitedChannels_nodup d hd
  case invited =>
    intro q hq d hd
    rw [hsame.members, hinvitation]
    rcases (hinvited q d).mp hd with hd | ⟨rfl, rfl⟩
    · obtain ⟨hlive, hreg, hnot, hback⟩ := h.invited q hq d hd
      exact ⟨hlive, hsame.registered d hreg, hnot, Or.inl hback⟩
    · exact ⟨hc, hsame.registered d hreg, hm, Or.inr ⟨rfl, rfl⟩⟩
  case invitation =>
    intro d hd q hq
    rw [hinvited]
    rcases (hinvitation d q).mp hq with hq | ⟨rfl, rfl⟩
    · exact (h.invitation d hd q hq).imp id Or.inl
    · exact ⟨hp, Or.inr ⟨rfl, rfl⟩⟩

/-! ## Operators -/

theorem links_setOperators {s : Server} (h : s.Links) (p : ChannelPtr) (f : Channel → Channel)
    (hn : (f (s.channel p)).name = (s.channel p).name)
    (hm : (f (s.channel p)).members = (s.channel p).members)
    (hi : (f (s.channel p)).invitedUsers = (s.channel p).invitedUsers)
    (hnd : s.LiveChannel p → (f (s.channel p)).operators.Nodup)
    (hsub : s.LiveChannel p → ∀ c ∈ (f (s.channel p)).operators, c ∈ (s.channel p).members) :
    (s.updChannel p f).Links := by
  have hname : ∀ q, ((s.updChannel p f).channel q).name = (s.channel q).name := by
    intro q
    by_cases hq : q = p
    · subst hq; simpa
    · simp [updChannel_channel_of_ne, hq]
  have hmem : ∀ q, ((s.updChannel p f).channel q).members = (s.channel q).members := by
    intro q
    by_cases hq : q = p
    · subst hq; simpa
    · simp [updChannel_channel_of_ne, hq]
  have hinv : ∀ q, ((s.updChannel p f).channel q).invitedUsers = (s.channel q).invitedUsers := by
    intro q
    by_cases hq : q = p
    · subst hq; simpa
    · simp [updChannel_channel_of_ne, hq]
  constructor <;> constructor
  case client_fd => exact h.client_fd
  case channel_key => intro k q hq; rw [hname]; exact h.channel_key k q hq
  case channel_name => intro q hq; rw [hname]; exact h.channel_name q hq
  case members_nodup => intro q hq; rw [hmem]; exact h.members_nodup q hq
  case operators_nodup =>
    intro q hq
    by_cases he : q = p
    · subst he; rw [updChannel_channel_self]; exact hnd hq
    · rw [updChannel_channel_of_ne _ _ _ _ he]; exact h.operators_nodup q hq
  case operators_members =>
    intro q hq
    rw [hmem]
    by_cases he : q = p
    · subst he; rw [updChannel_channel_self]; exact hsub hq
    · rw [updChannel_channel_of_ne _ _ _ _ he]; exact h.operators_members q hq
  case member => intro q hq c hc; rw [hname]; exact h.member q hq c (hmem q ▸ hc)
  case joined => intro c hc n q hq; rw [hname, hmem]; exact h.joined c hc n q hq
  case invitedUsers_nodup => intro q hq; rw [hinv]; exact h.invitedUsers_nodup q hq
  case invitedChannels_nodup => exact h.invitedChannels_nodup
  case invited => intro q hq c hc; rw [hmem]; exact h.invited q hq c (hinv q ▸ hc)
  case invitation => intro c hc q hq; rw [hinv]; exact h.invitation c hc q hq

/-! ## Members -/

theorem addMember_eq (s : Server) {p : ChannelPtr} {c : ClientPtr}
    (h : c ∉ (s.channel p).members) :
    s.addMember p c =
      (s.updChannel p fun ch => { ch with members := ch.members ++ [c] }).updClient c
        (·.addJoinedChannels (s.channel p).name p) := by
  simp [addMember, Channel.isMember, h]

theorem addMember_channel (s : Server) {p : ChannelPtr} {c : ClientPtr}
    (h : c ∉ (s.channel p).members) (q : ChannelPtr) :
    (s.addMember p c).channel q =
      if q = p then { s.channel p with members := (s.channel p).members ++ [c] }
      else s.channel q := by
  simp [addMember_eq s h, updChannel_channel]

theorem addMember_client (s : Server) {p : ChannelPtr} {c : ClientPtr}
    (h : c ∉ (s.channel p).members) (d : ClientPtr) :
    (s.addMember p c).client d =
      if d = c then (s.client c).addJoinedChannels (s.channel p).name p else s.client d := by
  simp [addMember_eq s h, updClient_client]

@[simp] theorem addMember_clients (s : Server) (p : ChannelPtr) (c : ClientPtr) :
    (s.addMember p c).clients = s.clients := by
  unfold addMember; split <;> rfl

@[simp] theorem addMember_channels (s : Server) (p : ChannelPtr) (c : ClientPtr) :
    (s.addMember p c).channels = s.channels := by
  unfold addMember; split <;> rfl

theorem links_addMember {s : Server} (h : s.Links) {p : ChannelPtr} {c : ClientPtr}
    (hp : s.LiveChannel p) (hc : s.LiveClient c) (hreg : (s.client c).isRegistered = true)
    (hm : c ∉ (s.channel p).members) (hi : c ∉ (s.channel p).invitedUsers) :
    (s.addMember p c).Links := by
  have hname : ∀ q, ((s.addMember p c).channel q).name = (s.channel q).name := by
    intro q; rw [addMember_channel s hm]; split_ifs with he <;> simp [he]
  have hops : ∀ q, ((s.addMember p c).channel q).operators = (s.channel q).operators := by
    intro q; rw [addMember_channel s hm]; split_ifs with he <;> simp [he]
  have hinv : ∀ q, ((s.addMember p c).channel q).invitedUsers = (s.channel q).invitedUsers := by
    intro q; rw [addMember_channel s hm]; split_ifs with he <;> simp [he]
  have hmem : ∀ q d, d ∈ ((s.addMember p c).channel q).members ↔
      d ∈ (s.channel q).members ∨ (q = p ∧ d = c) := by
    intro q d; rw [addMember_channel s hm]; split_ifs with he
    · subst he; simp
    · simp [he]
  have hfd : ∀ d, ((s.addMember p c).client d).fd = (s.client d).fd := by
    intro d; rw [addMember_client s hm]; split_ifs with he <;> simp [he, Client.addJoinedChannels]
  have hregs : ∀ d, ((s.addMember p c).client d).isRegistered = (s.client d).isRegistered := by
    intro d; rw [addMember_client s hm]; split_ifs with he <;> simp [he, Client.addJoinedChannels]
  have hich : ∀ d, ((s.addMember p c).client d).invitedChannels = (s.client d).invitedChannels := by
    intro d; rw [addMember_client s hm]; split_ifs with he <;> simp [he, Client.addJoinedChannels]
  have hjoin : ∀ d n, ((s.addMember p c).client d).joinedChannels.find? n =
      if d = c ∧ n = (s.channel p).name then some p
      else (s.client d).joinedChannels.find? n := by
    intro d n; rw [addMember_client s hm]
    by_cases he : d = c
    · subst he; simp [Client.addJoinedChannels, StdMap.find?_insert]
    · simp [he]
  have hlc : ∀ d, (s.addMember p c).LiveClient d ↔ s.LiveClient d := by simp [LiveClient]
  have hlp : ∀ q, (s.addMember p c).LiveChannel q ↔ s.LiveChannel q := by simp [LiveChannel]
  constructor <;> constructor
  all_goals simp only [hlc, hlp, hname, hops, hinv, hfd, hregs, hich, addMember_clients,
    addMember_channels]
  case client_fd => exact h.client_fd
  case channel_key => exact h.channel_key
  case channel_name => exact h.channel_name
  case members_nodup =>
    intro q hq
    rw [addMember_channel s hm]
    split_ifs with he
    · exact (h.members_nodup p hp).append (List.nodup_singleton c) (by simpa using hm)
    · exact h.members_nodup q hq
  case operators_nodup => exact h.operators_nodup
  case operators_members => exact fun q hq d hd => (hmem q d).mpr (.inl (h.operators_members q hq d hd))
  case member =>
    intro q hq d hd
    rw [hjoin]
    rcases (hmem q d).mp hd with hd | ⟨rfl, rfl⟩
    · obtain ⟨hlive, hr, hj⟩ := h.member q hq d hd
      refine ⟨hlive, hr, ?_⟩
      split_ifs with he
      · by_cases hqp : q = p
        · rw [hqp]
        · exact absurd (congrArg toLower he.2) (h.name_ne hp hq hqp)
      · exact hj
    · exact ⟨hc, hreg, by simp⟩
  case joined =>
    intro d hd n q hj
    rw [hjoin] at hj
    rw [hmem]
    split_ifs at hj with he
    · obtain ⟨rfl, rfl⟩ := he
      obtain rfl := Option.some.inj hj
      exact ⟨hp, rfl, .inr ⟨rfl, rfl⟩⟩
    · exact (h.joined d hd n q hj).imp id (And.imp id .inl)
  case invitedUsers_nodup => exact h.invitedUsers_nodup
  case invitedChannels_nodup => exact h.invitedChannels_nodup
  case invited =>
    intro q hq d hd
    obtain ⟨hlive, hr, hn, hb⟩ := h.invited q hq d hd
    refine ⟨hlive, hr, ?_, hb⟩
    rw [hmem]
    rintro (hd' | ⟨rfl, rfl⟩)
    · exact hn hd'
    · exact hi hd
  case invitation => exact h.invitation

theorem removeMember_channel (s : Server) (p q : ChannelPtr) (c : ClientPtr) :
    (s.removeMember p c).channel q =
      if q = p then
        { s.channel p with
          members := (s.channel p).members.filter (· ≠ c)
          operators := (s.channel p).operators.filter (· ≠ c) }
      else s.channel q := by
  by_cases h : q = p <;> simp [removeMember, updChannel_channel, h, Channel.removeOperator]

theorem removeMember_client (s : Server) (p : ChannelPtr) (c d : ClientPtr) :
    (s.removeMember p c).client d =
      if d = c then (s.client c).removeJoinedChannels (s.channel p).name else s.client d := by
  simp [removeMember, updClient_client, Channel.removeOperator]

@[simp] theorem removeMember_clients (s : Server) (p : ChannelPtr) (c : ClientPtr) :
    (s.removeMember p c).clients = s.clients := rfl

@[simp] theorem removeMember_channels (s : Server) (p : ChannelPtr) (c : ClientPtr) :
    (s.removeMember p c).channels = s.channels := rfl

theorem links_removeMember {s : Server} (h : s.Links) {p : ChannelPtr} (c : ClientPtr)
    (hp : s.LiveChannel p) : (s.removeMember p c).Links := by
  have hname : ∀ q, ((s.removeMember p c).channel q).name = (s.channel q).name :=
    fun q => removeMember_name s p q c
  have hinv : ∀ q, ((s.removeMember p c).channel q).invitedUsers = (s.channel q).invitedUsers := by
    intro q; rw [removeMember_channel]; split_ifs with he <;> simp [he]
  have hmem : ∀ q d, d ∈ ((s.removeMember p c).channel q).members ↔
      d ∈ (s.channel q).members ∧ (q = p → d ≠ c) := by
    intro q d; rw [removeMember_channel]; split_ifs with he
    · subst he; simp
    · simp [he]
  have hops : ∀ q d, d ∈ ((s.removeMember p c).channel q).operators ↔
      d ∈ (s.channel q).operators ∧ (q = p → d ≠ c) := by
    intro q d; rw [removeMember_channel]; split_ifs with he
    · subst he; simp
    · simp [he]
  have hfd : ∀ d, ((s.removeMember p c).client d).fd = (s.client d).fd := by
    intro d; rw [removeMember_client]; split_ifs with he <;> simp [he, Client.removeJoinedChannels]
  have hregs : ∀ d, ((s.removeMember p c).client d).isRegistered = (s.client d).isRegistered := by
    intro d; rw [removeMember_client]; split_ifs with he <;> simp [he, Client.removeJoinedChannels]
  have hich : ∀ d, ((s.removeMember p c).client d).invitedChannels =
      (s.client d).invitedChannels := by
    intro d; rw [removeMember_client]; split_ifs with he <;> simp [he, Client.removeJoinedChannels]
  have hjoin : ∀ d n, ((s.removeMember p c).client d).joinedChannels.find? n =
      if d = c ∧ n = (s.channel p).name then none
      else (s.client d).joinedChannels.find? n := by
    intro d n; rw [removeMember_client]
    by_cases he : d = c
    · subst he; simp [Client.removeJoinedChannels, StdMap.find?_erase]
    · simp [he]
  have hlc : ∀ d, (s.removeMember p c).LiveClient d ↔ s.LiveClient d := fun _ => Iff.rfl
  have hlp : ∀ q, (s.removeMember p c).LiveChannel q ↔ s.LiveChannel q := fun _ => Iff.rfl
  constructor <;> constructor
  all_goals simp only [hlc, hlp, hname, hinv, hfd, hregs, hich, removeMember_clients,
    removeMember_channels]
  case client_fd => exact h.client_fd
  case channel_key => exact h.channel_key
  case channel_name => exact h.channel_name
  case members_nodup =>
    intro q hq
    rw [removeMember_channel]
    split_ifs with he
    · exact (h.members_nodup p hp).filter _
    · exact h.members_nodup q hq
  case operators_nodup =>
    intro q hq
    rw [removeMember_channel]
    split_ifs with he
    · exact (h.operators_nodup p hp).filter _
    · exact h.operators_nodup q hq
  case operators_members =>
    intro q hq d hd
    rw [hmem]
    rw [hops] at hd
    exact ⟨h.operators_members q hq d hd.1, hd.2⟩
  case member =>
    intro q hq d hd
    obtain ⟨hd, hne⟩ := (hmem q d).mp hd
    obtain ⟨hlive, hr, hj⟩ := h.member q hq d hd
    refine ⟨hlive, hr, ?_⟩
    rw [hjoin, if_neg]
    · exact hj
    · rintro ⟨rfl, he⟩
      exact h.name_ne hp hq (fun hqp => hne hqp rfl) (congrArg toLower he)
  case joined =>
    intro d hd n q hj
    rw [hjoin] at hj
    split_ifs at hj with he
    obtain ⟨hlive, hn, hmq⟩ := h.joined d hd n q hj
    refine ⟨hlive, hn, (hmem q d).mpr ⟨hmq, ?_⟩⟩
    rintro rfl hdc
    exact he ⟨hdc, hn.symm⟩
  case invitedUsers_nodup => exact h.invitedUsers_nodup
  case invitedChannels_nodup => exact h.invitedChannels_nodup
  case invited =>
    intro q hq d hd
    obtain ⟨hlive, hr, hn, hb⟩ := h.invited q hq d hd
    exact ⟨hlive, hr, fun hin => hn ((hmem q d).mp hin).1, hb⟩
  case invitation => exact h.invitation

/-! ## Channels -/

theorem clearInvitedUsers_client (s : Server) (p : ChannelPtr) (d : ClientPtr) :
    (s.clearInvitedUsers p).client d =
      if d ∈ s.clients.values then (s.client d).removeInvitedChannel p else s.client d := by
  unfold clearInvitedUsers
  generalize s.clients.values = cs
  induction cs generalizing s with
  | nil => simp
  | cons c cs ih =>
    have hidem : ∀ cl : Client,
        (cl.removeInvitedChannel p).removeInvitedChannel p = cl.removeInvitedChannel p := by
      intro cl
      simp [Client.removeInvitedChannel, List.filter_filter]
    rw [List.foldl_cons, ih, updClient_client]
    by_cases hd : d = c <;> by_cases hcs : d ∈ cs <;> simp_all

theorem clearInvitedUsers_eq (s : Server) (p : ChannelPtr) :
    { s.clearInvitedUsers p with client := s.client } = s := by
  unfold clearInvitedUsers
  generalize s.clients.values = cs
  induction cs generalizing s with
  | nil => rfl
  | cons c cs ih =>
    have hstep := ih (s.updClient c (·.removeInvitedChannel p))
    rw [List.foldl_cons]
    exact congrArg (fun t : Server => { t with client := s.client }) hstep

/-- `deleteChannel` takes the channel out of the map and out of all invitations. -/
theorem deleteChannel_eq (s : Server) {name : Bytes} {p : ChannelPtr}
    (h : s.channels.find? (toLower name) = some p) :
    s.deleteChannel name =
      { s with
        channels := s.channels.erase (toLower name)
        client := fun d =>
          if d ∈ s.clients.values then (s.client d).removeInvitedChannel p else s.client d } := by
  have hdel : s.deleteChannel name =
      { s with channels := s.channels.erase (toLower name) }.clearInvitedUsers p := by
    simp [deleteChannel, h]
  rw [hdel]
  refine ext_client ?_ fun d => clearInvitedUsers_client _ p d
  exact congrArg (fun t : Server => { t with client := fun d =>
    if d ∈ s.clients.values then (s.client d).removeInvitedChannel p else s.client d })
    (clearInvitedUsers_eq { s with channels := s.channels.erase (toLower name) } p)

theorem liveClient_iff_mem (s : Server) (c : ClientPtr) :
    s.LiveClient c ↔ c ∈ s.clients.values := s.clients.mem_values.symm

@[simp] theorem deleteChannel_clients (s : Server) (name : Bytes) :
    (s.deleteChannel name).clients = s.clients := by
  cases h : s.channels.find? (toLower name) with
  | none => simp [deleteChannel, h]
  | some p => rw [deleteChannel_eq s h]

@[simp] theorem deleteChannel_channel (s : Server) (name : Bytes) :
    (s.deleteChannel name).channel = s.channel := by
  cases h : s.channels.find? (toLower name) with
  | none => simp [deleteChannel, h]
  | some p => rw [deleteChannel_eq s h]

theorem deleteChannel_channels (s : Server) (name : Bytes) :
    (s.deleteChannel name).channels = s.channels.erase (toLower name) := by
  cases h : s.channels.find? (toLower name) with
  | none =>
    refine StdMap.ext_find? fun k => ?_
    by_cases hk : k = toLower name <;> simp [deleteChannel, h, StdMap.find?_erase, hk]
  | some p => rw [deleteChannel_eq s h]

theorem Members.liveChannel_delete {s : Server} (h : s.Members) {p : ChannelPtr}
    (hp : s.LiveChannel p) (q : ChannelPtr) :
    (s.deleteChannel (s.channel p).name).LiveChannel q ↔ s.LiveChannel q ∧ q ≠ p := by
  simp only [LiveChannel, deleteChannel_channels, StdMap.find?_erase]
  constructor
  · rintro ⟨k, hk⟩
    split_ifs at hk with he
    refine ⟨⟨k, hk⟩, ?_⟩
    rintro rfl
    exact he (h.channel_key k q hk).symm
  · rintro ⟨⟨k, hk⟩, hne⟩
    refine ⟨k, ?_⟩
    rw [if_neg]
    · exact hk
    · rintro rfl
      exact hne (Option.some.inj (hk.symm.trans (h.find_live hp)))

theorem links_deleteChannel {s : Server} (h : s.Links) {p : ChannelPtr} (hp : s.LiveChannel p)
    (hempty : (s.channel p).members = []) : (s.deleteChannel (s.channel p).name).Links := by
  have hlp := h.liveChannel_delete hp
  have hlc : ∀ d, (s.deleteChannel (s.channel p).name).LiveClient d ↔ s.LiveClient d := by
    simp [LiveClient]
  have hclient := congrArg Server.client (deleteChannel_eq s (h.find_live hp))
  have hfd : ∀ d, ((s.deleteChannel (s.channel p).name).client d).fd = (s.client d).fd := by
    intro d; rw [hclient]; dsimp only; split_ifs <;> rfl
  have hregs : ∀ d, ((s.deleteChannel (s.channel p).name).client d).isRegistered =
      (s.client d).isRegistered := by
    intro d; rw [hclient]; dsimp only; split_ifs <;> rfl
  have hjoin : ∀ d, ((s.deleteChannel (s.channel p).name).client d).joinedChannels =
      (s.client d).joinedChannels := by
    intro d; rw [hclient]; dsimp only; split_ifs <;> rfl
  have hich : ∀ d, s.LiveClient d →
      ((s.deleteChannel (s.channel p).name).client d).invitedChannels =
        (s.client d).invitedChannels.filter (· ≠ p) := by
    intro d hd
    rw [hclient]
    dsimp only
    rw [if_pos ((liveClient_iff_mem s d).mp hd)]
    rfl
  constructor <;> constructor
  all_goals simp only [hlc, hlp, hfd, hregs, hjoin, deleteChannel_clients, deleteChannel_channel,
    deleteChannel_channels]
  case client_fd => exact h.client_fd
  case channel_key =>
    intro k q hk
    rw [StdMap.find?_erase] at hk
    split_ifs at hk
    exact h.channel_key k q hk
  case channel_name => exact fun q hq => h.channel_name q hq.1
  case members_nodup => exact fun q hq => h.members_nodup q hq.1
  case operators_nodup => exact fun q hq => h.operators_nodup q hq.1
  case operators_members => exact fun q hq => h.operators_members q hq.1
  case member => exact fun q hq => h.member q hq.1
  case joined =>
    intro d hd n q hj
    obtain ⟨hq, hn, hm⟩ := h.joined d hd n q hj
    refine ⟨⟨hq, ?_⟩, hn, hm⟩
    rintro rfl
    simp [hempty] at hm
  case invitedUsers_nodup => exact fun q hq => h.invitedUsers_nodup q hq.1
  case invitedChannels_nodup =>
    intro d hd
    rw [hich d hd]
    exact (h.invitedChannels_nodup d hd).filter _
  case invited =>
    intro q hq d hd
    obtain ⟨hlive, hr, hn, hb⟩ := h.invited q hq.1 d hd
    refine ⟨hlive, hr, hn, ?_⟩
    rw [hich d hlive]
    simpa [hq.2] using hb
  case invitation =>
    intro d hd q hq
    rw [hich d hd, List.mem_filter] at hq
    obtain ⟨hlive, hb⟩ := h.invitation d hd q hq.1
    exact ⟨⟨hlive, by simpa using hq.2⟩, hb⟩

/-- The channel that `findOrCreateChannel` makes for a new name. -/
def newChannel (s : Server) (name : Bytes) : Server :=
  { s with
    channel := Function.update s.channel (s.heap.addr s.channels.values) (Channel.new name)
    channels := s.channels.insert (toLower name) (s.heap.addr s.channels.values) }

theorem fresh_channel (s : Server) : ¬ s.LiveChannel (s.heap.addr s.channels.values) := fun h =>
  s.heap.fresh _ (s.channels.mem_values.mpr h)

theorem fresh_client (s : Server) : ¬ s.LiveClient (s.heap.addr s.clients.values) := fun h =>
  s.heap.fresh _ (s.clients.mem_values.mpr h)

theorem newChannel_channel (s : Server) (name : Bytes) (q : ChannelPtr) :
    (s.newChannel name).channel q =
      if q = s.heap.addr s.channels.values then Channel.new name else s.channel q := by
  simp [newChannel, Function.update_apply]

theorem liveChannel_newChannel {s : Server} {name : Bytes}
    (hk : s.channels.find? (toLower name) = none) (q : ChannelPtr) :
    (s.newChannel name).LiveChannel q ↔ s.LiveChannel q ∨ q = s.heap.addr s.channels.values := by
  simp only [LiveChannel, newChannel, StdMap.find?_insert]
  constructor
  · rintro ⟨k, h⟩
    split_ifs at h with he
    · exact .inr (Option.some.inj h).symm
    · exact .inl ⟨k, h⟩
  · rintro (⟨k, h⟩ | rfl)
    · refine ⟨k, ?_⟩
      rw [if_neg]
      · exact h
      · rintro rfl
        simp [hk] at h
    · exact ⟨toLower name, by simp⟩

theorem links_newChannel {s : Server} (h : s.Links) {name : Bytes}
    (hname : isValidChannelName name = true) (hk : s.channels.find? (toLower name) = none) :
    (s.newChannel name).Links := by
  have hlp := liveChannel_newChannel hk
  have hfresh := s.fresh_channel
  have hlc : ∀ d, (s.newChannel name).LiveClient d ↔ s.LiveClient d := fun _ => Iff.rfl
  have hnew : (s.newChannel name).channel (s.heap.addr s.channels.values) = Channel.new name := by
    simp [newChannel_channel]
  have hold : ∀ q, s.LiveChannel q → (s.newChannel name).channel q = s.channel q := by
    intro q hq
    rw [newChannel_channel, if_neg]
    rintro rfl
    exact hfresh hq
  constructor <;> constructor
  all_goals try simp only [hlp, hlc]
  case client_fd => exact h.client_fd
  case channel_key =>
    intro k q hq
    simp only [newChannel, StdMap.find?_insert] at hq
    split_ifs at hq with he
    · obtain rfl := Option.some.inj hq
      rw [hnew, he]
      rfl
    · rw [hold q ⟨k, hq⟩]
      exact h.channel_key k q hq
  case channel_name | members_nodup | operators_nodup | operators_members | member |
      invitedUsers_nodup | invited =>
    rintro q (hq | rfl)
    · rw [hold q hq]
      first
        | exact h.channel_name q hq
        | exact h.members_nodup q hq
        | exact h.operators_nodup q hq
        | exact h.operators_members q hq
        | exact h.member q hq
        | exact h.invitedUsers_nodup q hq
        | exact h.invited q hq
    · rw [hnew]
      simp [Channel.new, hname]
  case joined =>
    intro d hd n q hj
    have hd' := h.joined d hd n q hj
    rw [hold q hd'.1]
    exact ⟨.inl hd'.1, hd'.2⟩
  case invitedChannels_nodup => exact h.invitedChannels_nodup
  case invitation =>
    intro d hd q hq
    have hd' := h.invitation d hd q hq
    rw [hold q hd'.1]
    exact ⟨.inl hd'.1, hd'.2⟩

end Server
end FtIrc
