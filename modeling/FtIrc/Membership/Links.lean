import FtIrc.State.Handlers

/-!
# Links between clients and channels

Membership is stored in the channel and in the client, operators in the channel, invitations on
both sides. `Links` says that the copies agree and refer to live objects only.
-/

namespace FtIrc
namespace Server

/-- Members, operators and joined channels. An empty channel is allowed here: it exists between
the steps of JOIN and of the leaving commands. -/
structure Members (s : Server) : Prop where
  client_fd : ∀ fd c, s.clients.find? fd = some c → (s.client c).fd = fd
  channel_key : ∀ k p, s.channels.find? k = some p → toLower (s.channel p).name = k
  channel_name : ∀ p, s.LiveChannel p → isValidChannelName (s.channel p).name = true
  members_nodup : ∀ p, s.LiveChannel p → (s.channel p).members.Nodup
  operators_nodup : ∀ p, s.LiveChannel p → (s.channel p).operators.Nodup
  operators_members : ∀ p, s.LiveChannel p → ∀ c ∈ (s.channel p).operators, c ∈ (s.channel p).members
  member : ∀ p, s.LiveChannel p → ∀ c ∈ (s.channel p).members,
    s.LiveClient c ∧ (s.client c).isRegistered = true ∧
      (s.client c).joinedChannels.find? (s.channel p).name = some p
  joined : ∀ c, s.LiveClient c → ∀ n p, (s.client c).joinedChannels.find? n = some p →
    s.LiveChannel p ∧ (s.channel p).name = n ∧ c ∈ (s.channel p).members

/-- Invited users and invited channels. -/
structure Invitations (s : Server) : Prop where
  invitedUsers_nodup : ∀ p, s.LiveChannel p → (s.channel p).invitedUsers.Nodup
  invitedChannels_nodup : ∀ c, s.LiveClient c → (s.client c).invitedChannels.Nodup
  invited : ∀ p, s.LiveChannel p → ∀ c ∈ (s.channel p).invitedUsers,
    s.LiveClient c ∧ (s.client c).isRegistered = true ∧ c ∉ (s.channel p).members ∧
      p ∈ (s.client c).invitedChannels
  invitation : ∀ c, s.LiveClient c → ∀ p ∈ (s.client c).invitedChannels,
    s.LiveChannel p ∧ c ∈ (s.channel p).invitedUsers

/-- The invariant of the pointers between clients and channels. -/
structure Links (s : Server) : Prop extends Members s, Invitations s

/-- No live channel is empty. -/
def NoGhost (s : Server) : Prop := ∀ p, s.LiveChannel p → (s.channel p).members ≠ []

/-! ## What the invariants depend on -/

/-- `s'` has the maps and the memberships of `s`; clients may have become registered. -/
structure SameMembers (s s' : Server) : Prop where
  clients : s'.clients = s.clients
  channels : s'.channels = s.channels
  fd : ∀ c, (s'.client c).fd = (s.client c).fd
  registered : ∀ c, (s.client c).isRegistered = true → (s'.client c).isRegistered = true
  joined : ∀ c, (s'.client c).joinedChannels = (s.client c).joinedChannels
  name : ∀ p, (s'.channel p).name = (s.channel p).name
  members : ∀ p, (s'.channel p).members = (s.channel p).members
  operators : ∀ p, (s'.channel p).operators = (s.channel p).operators

/-- `s'` has the links of `s`. -/
structure SameLinks (s s' : Server) : Prop extends SameMembers s s' where
  invitations : ∀ c, (s'.client c).invitedChannels = (s.client c).invitedChannels
  invited : ∀ p, (s'.channel p).invitedUsers = (s.channel p).invitedUsers

theorem sameLinks_of_eq {s s' : Server} (hcs : s'.clients = s.clients)
    (hps : s'.channels = s.channels) (hc : s'.client = s.client)
    (hp : s'.channel = s.channel) : SameLinks s s' := by
  refine ⟨⟨hcs, hps, ?_, ?_, ?_, ?_, ?_, ?_⟩, ?_, ?_⟩ <;> simp [hc, hp]

theorem sameLinks_emit (s : Server) (o : Output) : SameLinks s (s.emit o) := by
  constructor
  case toSameMembers => constructor <;> intros <;> first | rfl | assumption
  all_goals intros; rfl

theorem sameMembers_updClient (s : Server) (c : ClientPtr) (f : Client → Client)
    (hfd : (f (s.client c)).fd = (s.client c).fd)
    (hreg : (s.client c).isRegistered = true → (f (s.client c)).isRegistered = true)
    (hj : (f (s.client c)).joinedChannels = (s.client c).joinedChannels) :
    SameMembers s (s.updClient c f) := by
  constructor
  case fd | registered | joined =>
    intro d
    by_cases h : d = c
    · subst h
      simpa
    · simp [updClient_client_of_ne, h]
  all_goals intros; rfl

theorem sameLinks_updClient (s : Server) (c : ClientPtr) (f : Client → Client)
    (hfd : (f (s.client c)).fd = (s.client c).fd)
    (hreg : (s.client c).isRegistered = true → (f (s.client c)).isRegistered = true)
    (hj : (f (s.client c)).joinedChannels = (s.client c).joinedChannels)
    (hi : (f (s.client c)).invitedChannels = (s.client c).invitedChannels) :
    SameLinks s (s.updClient c f) := by
  refine ⟨sameMembers_updClient s c f hfd hreg hj, fun d => ?_, fun _ => rfl⟩
  by_cases h : d = c
  · subst h
    simpa
  · simp [updClient_client_of_ne, h]

theorem sameMembers_updChannel (s : Server) (p : ChannelPtr) (f : Channel → Channel)
    (hn : (f (s.channel p)).name = (s.channel p).name)
    (hm : (f (s.channel p)).members = (s.channel p).members)
    (ho : (f (s.channel p)).operators = (s.channel p).operators) :
    SameMembers s (s.updChannel p f) := by
  constructor
  case name | members | operators =>
    intro q
    by_cases h : q = p
    · subst h
      simpa
    · simp [updChannel_channel_of_ne, h]
  all_goals intros; first | rfl | assumption

theorem sameLinks_updChannel (s : Server) (p : ChannelPtr) (f : Channel → Channel)
    (hn : (f (s.channel p)).name = (s.channel p).name)
    (hm : (f (s.channel p)).members = (s.channel p).members)
    (ho : (f (s.channel p)).operators = (s.channel p).operators)
    (hi : (f (s.channel p)).invitedUsers = (s.channel p).invitedUsers) :
    SameLinks s (s.updChannel p f) := by
  refine ⟨sameMembers_updChannel s p f hn hm ho, fun _ => rfl, fun q => ?_⟩
  by_cases h : q = p
  · subst h
    simpa
  · simp [updChannel_channel_of_ne, h]

section congr

variable {s s' t : Server}

theorem SameMembers.trans (h : SameMembers s s') (h' : SameMembers s' t) : SameMembers s t where
  clients := h'.clients.trans h.clients
  channels := h'.channels.trans h.channels
  fd c := (h'.fd c).trans (h.fd c)
  registered c hc := h'.registered c (h.registered c hc)
  joined c := (h'.joined c).trans (h.joined c)
  name p := (h'.name p).trans (h.name p)
  members p := (h'.members p).trans (h.members p)
  operators p := (h'.operators p).trans (h.operators p)

theorem SameLinks.trans (h : SameLinks s s') (h' : SameLinks s' t) : SameLinks s t where
  toSameMembers := h.toSameMembers.trans h'.toSameMembers
  invitations c := (h'.invitations c).trans (h.invitations c)
  invited p := (h'.invited p).trans (h.invited p)

theorem SameMembers.liveClient (h : SameMembers s s') (c : ClientPtr) :
    s'.LiveClient c ↔ s.LiveClient c := by
  simp [LiveClient, h.clients]

theorem SameMembers.liveChannel (h : SameMembers s s') (p : ChannelPtr) :
    s'.LiveChannel p ↔ s.LiveChannel p := by
  simp [LiveChannel, h.channels]

theorem Members.congr (hs : s.Members) (h : SameMembers s s') : s'.Members := by
  constructor
  case client_fd => intro fd c hc; rw [h.fd]; exact hs.client_fd fd c (h.clients ▸ hc)
  case channel_key => intro k p hp; rw [h.name]; exact hs.channel_key k p (h.channels ▸ hp)
  all_goals simp only [h.liveClient, h.liveChannel, h.joined, h.name, h.members, h.operators]
  case channel_name => exact hs.channel_name
  case members_nodup => exact hs.members_nodup
  case operators_nodup => exact hs.operators_nodup
  case operators_members => exact hs.operators_members
  case member => exact fun p hp c hc => (hs.member p hp c hc).imp id (And.imp (h.registered c) id)
  case joined => exact hs.joined

/-- The invariant depends on the links only. -/
theorem Links.congr (hs : s.Links) (h : SameLinks s s') : s'.Links := by
  refine ⟨hs.toMembers.congr h.toSameMembers, ?_⟩
  constructor
  all_goals simp only [h.liveClient, h.liveChannel, h.invitations, h.members, h.invited]
  case invitedUsers_nodup => exact hs.invitedUsers_nodup
  case invitedChannels_nodup => exact hs.invitedChannels_nodup
  case invited => exact fun p hp c hc => (hs.invited p hp c hc).imp id (And.imp (h.registered c) id)
  case invitation => exact hs.invitation

theorem NoGhost.congr (hs : s.NoGhost) (h : SameMembers s s') : s'.NoGhost := by
  intro p hp
  rw [h.members]
  exact hs p ((h.liveChannel p).mp hp)

end congr

section consequences

variable {s : Server}

theorem Members.find_live (h : s.Members) {p : ChannelPtr} (hp : s.LiveChannel p) :
    s.channels.find? (toLower (s.channel p).name) = some p := by
  obtain ⟨k, hk⟩ := hp
  rw [h.channel_key k p hk]
  exact hk

theorem Members.fd_live (h : s.Members) {c : ClientPtr} (hc : s.LiveClient c) :
    s.clients.find? (s.client c).fd = some c := by
  obtain ⟨fd, hfd⟩ := hc
  rw [h.client_fd fd c hfd]
  exact hfd

/-- Membership seen from the channel and from the client. -/
theorem Members.member_iff (h : s.Members) {p : ChannelPtr} (hp : s.LiveChannel p)
    (c : ClientPtr) :
    c ∈ (s.channel p).members ↔ s.LiveClient c ∧ (s.client c).isRegistered = true ∧
      (s.client c).joinedChannels.find? (s.channel p).name = some p :=
  ⟨h.member p hp c, fun ⟨hc, _, hj⟩ => (h.joined c hc _ p hj).2.2⟩

/-- Distinct live channels have distinct names. -/
theorem Members.name_ne (h : s.Members) {p q : ChannelPtr} (hp : s.LiveChannel p)
    (hq : s.LiveChannel q) (hne : q ≠ p) :
    toLower (s.channel q).name ≠ toLower (s.channel p).name := by
  intro he
  have hfind := h.find_live hq
  rw [he, h.find_live hp] at hfind
  exact hne (Option.some.inj hfind).symm

end consequences

theorem noGhost_init (fd : Fd) (password : Bytes) (heap : Allocator) (now : Time) :
    (init fd password heap now).NoGhost := by
  rintro p ⟨k, hk⟩
  simp [init] at hk

theorem links_init (fd : Fd) (password : Bytes) (heap : Allocator) (now : Time) :
    (init fd password heap now).Links := by
  have hchan : ∀ p, ¬ (init fd password heap now).LiveChannel p := by
    rintro p ⟨k, hk⟩
    simp [init] at hk
  have hcl : ∀ c, ¬ (init fd password heap now).LiveClient c := by
    rintro c ⟨k, hk⟩
    simp [init] at hk
  constructor <;> constructor
  case client_fd => intro fd c hc; simp [init] at hc
  case channel_key => intro k p hp; simp [init] at hp
  all_goals first
    | exact fun p hp => absurd hp (hchan p)
    | exact fun c hc => absurd hc (hcl c)

end Server
end FtIrc
