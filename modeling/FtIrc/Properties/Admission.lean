import FtIrc.Properties.Authority

/-!
# Admission to channels

A client enters a channel that exists by its own JOIN line, when the channel admits it, and uses
up its invitation. To enter again while the channel is invite-only it has to be invited again.
-/

namespace FtIrc
namespace Server

/-- What a JOIN with this key has to meet. -/
structure Admissible (ch : Channel) (c : ClientPtr) (key : Bytes) : Prop where
  key : ch.key = [] ∨ ch.key = key
  invited : ch.inviteOnly = true → c ∈ ch.invitedUsers
  limit : 0 < ch.userLimit → ch.members.length < ch.userLimit

/-- The JOIN line `msg` of `c` has let it into `ch`, which is `ch'` afterwards. -/
structure Admission (s : Server) (c : ClientPtr) (msg : Message) (ch ch' : Channel) : Prop where
  command : findCommand msg.command = some .join
  registered : (s.client c).isRegistered = true
  admissible : Admissible ch c (msg.parameter.getD 1 [])
  limit : 0 < ch'.userLimit → ch'.members.length ≤ ch'.userLimit
  used : c ∉ ch'.invitedUsers

theorem isFull_eq_false {ch : Channel} :
    ch.isFull = false ↔ (0 < ch.userLimit → ch.members.length < ch.userLimit) := by
  unfold Channel.isFull
  split_ifs with h
  · simp only [true_iff]
    omega
  · simp only [decide_eq_false_iff_not]
    omega

section admission

variable {s : Server} {u c : ClientPtr}

/-- A line that makes `c` a member of a channel that exists lets `c` itself in. -/
theorem line_admits {P : Bytes → Prop} {msg : Message} {s' : Server} (hb : s.Base P)
    (h : Line P msg u s s') {k : Bytes} {p p' : ChannelPtr} (hk : s.channels.find? k = some p)
    (hk' : s'.channels.find? k = some p') (hout : c ∉ (s.channel p).members)
    (hin : c ∈ (s'.channel p').members) :
    p' = p ∧ c = u ∧ Admission s u msg (s.channel p) (s'.channel p) := by
  have hacts : ∀ {t : Server}, Effects P msg u s t → t.net = s'.net → False := by
    intro t heffects hnet
    have hroom' : t.net k = some (s'.channel p').room := by
      rw [hnet]
      exact net_of_find hk'
    obtain ⟨r, hr, hauth⟩ := Net.acts_authority (effects_acts hb heffects) hroom'
    obtain rfl := Option.some.inj (hr.symm.trans (net_of_find hk))
    apply hout
    exact Channel.mem_room_members.mp (hauth.members (Channel.mem_room_members.mpr hin))
  cases h with
  | effects heffects => exact (hacts heffects rfl).elim
  | closed heffects => exact (hacts heffects (net_disconnectAfterFlush _ _ _).symm).elim
  | entry hentry =>
    cases hentry with
    | @join q name rest hcmd hparam hname hq hreg hm hkey hinv hfull =>
      rw [letIn_channels] at hk'
      obtain rfl := Option.some.inj (hk'.symm.trans hk)
      have hpq : p' = q := by
        by_contra hne
        rw [letIn_channel_of_ne hm hne] at hin
        exact hout hin
      subst hpq
      have hch : ((s.letIn p' u).channel p') =
          { s.channel p' with
            invitedUsers := (s.channel p').invitedUsers.filter (· ≠ u)
            members := (s.channel p').members ++ [u] } := by
        rw [letIn_eq, emit_channel, enter_channel s hm, if_pos rfl, if_neg (hb.noGhost p' hq)]
      rw [hch] at hin ⊢
      have hcu : c = u := by
        rcases List.mem_append.mp hin with hin | hin
        · exact absurd hin hout
        · exact List.mem_singleton.mp hin
      have hadm := isFull_eq_false.mp hfull
      refine ⟨rfl, hcu, ?_⟩
      constructor
      case command => exact hcmd
      case registered => exact hreg
      case admissible =>
        refine ⟨hkey.imp_right fun h => ?_, hinv, hadm⟩
        rw [h, hparam]
        cases rest <;> rfl
      case limit =>
        intro hlim
        show ((s.channel p').members ++ [u]).length ≤ (s.channel p').userLimit
        have hlt := hadm hlim
        rw [List.length_append, List.length_singleton]
        omega
      case used => simp
    | @create name hreg hname hfree =>
      -- the new channel has another name, and the old ones are left alone
      have hold : p ≠ s.heap.addr s.channels.values := by
        rintro rfl
        exact s.fresh_channel ⟨k, hk⟩
      have hm : u ∉ ((s.newChannel name).channel (s.heap.addr s.channels.values)).members := by
        simp [newChannel_channel, Channel.new]
      have hne : k ≠ toLower name := by
        rintro rfl
        exact absurd (hk.symm.trans hfree) (by simp)
      have hsame : (s.newChannel name).channels.find? k = s.channels.find? k := by
        rw [newChannel, StdMap.find?_insert, if_neg hne]
      rw [letIn_channels, hsame, hk] at hk'
      obtain rfl := Option.some.inj hk'
      rw [letIn_channel_of_ne hm hold, newChannel_channel, if_neg hold] at hin
      exact absurd hin hout

end admission

theorem event_admits {s : Server} (hb : s.Base Clean) {e : Event} (he : Enabled s e)
    {k : Bytes} {p p' : ChannelPtr} {c : ClientPtr} (hk : s.channels.find? k = some p)
    (hk' : (step s e).channels.find? k = some p') (hout : c ∉ (s.channel p).members)
    (hin : c ∈ ((step s e).channel p').members) :
    p' = p ∧ ∃ fd msg, e = .line fd ∧ s.clients.find? fd = some c ∧
      spliter (s.nextLine c) = some msg ∧
      Admission s c msg (s.channel p) ((step s e).channel p) := by
  by_cases hline : ∃ fd, e = .line fd
  · obtain ⟨fd, rfl⟩ := hline
    obtain ⟨u, hu, -⟩ := id he
    rw [step_line hu] at hk' hin ⊢
    rcases line_receiveLine textPred_clean hb ⟨fd, hu⟩ (serves_clean.lines s fd u he hu) with
      heq | ⟨msg, hmsg, hrun⟩
    · rw [heq] at hk' hin
      obtain rfl := Option.some.inj (hk'.symm.trans hk)
      exact absurd hin hout
    · obtain ⟨hp, rfl, hadm⟩ := line_admits (pop_base hb u) hrun hk hk' hout hin
      refine ⟨hp, fd, msg, rfl, hu, hmsg, hadm.command, ?_, hadm.admissible, hadm.limit, hadm.used⟩
      exact (popped_fields s c c).2 ▸ hadm.registered
  · obtain ⟨vs, -, hother⟩ := (other_event_abandons hb he fun fd h => hline ⟨fd, h⟩)
    obtain ⟨q, hq, habandoned⟩ := hother k p' hk'
    obtain rfl := Option.some.inj (hq.symm.trans hk)
    exact absurd ((habandoned.members c).mp hin).1 hout

/-- A client becomes a member of a channel that exists only by its own JOIN line, with the right
key, invited when `+i` is set and within the limit, and has no invitation afterwards. -/
theorem admission {s : Server} (hs : ircserv.Reachable s) {e : Event} (he : Enabled s e)
    {k : Bytes} {p p' : ChannelPtr} {c : ClientPtr} (hk : s.channels.find? k = some p)
    (hk' : (step s e).channels.find? k = some p') (hout : c ∉ (s.channel p).members)
    (hin : c ∈ ((step s e).channel p').members) :
    p' = p ∧ ∃ fd msg, e = .line fd ∧ s.clients.find? fd = some c ∧
      spliter (s.nextLine c) = some msg ∧
      Admission s c msg (s.channel p) ((step s e).channel p) :=
  event_admits (reachable_clean hs).2 he hk hk' hout hin

/-- `ann` has set a key and a limit, and `bob` asks to join with the key. -/
def bobJoins : List Event :=
  annAndBob ++ typed 4 (ascii "JOIN #a") ++ typed 4 (ascii "MODE #a +kl sesame 2") ++
    [.recv 5 (.data (ascii "JOIN #A sesame\r\n"))]

theorem admission_bob : ∃ s msg, session bobJoins = some s ∧
    (s.channel 1).members = [1] ∧ ((step s (.line 5)).channel 1).members = [1, 2] ∧
    Admission s 2 msg (s.channel 1) ((step s (.line 5)).channel 1) := by
  obtain ⟨s, hs, hview⟩ := Option.map_eq_some_iff.mp (by decide +kernel :
    (session bobJoins).map (fun s =>
      (enabled s (.line 5), s.channels.find? (ascii "#a"),
        (step s (.line 5)).channels.find? (ascii "#a"), (s.channel 1).members,
        ((step s (.line 5)).channel 1).members)) =
      some (true, some 1, some 1, [1], [1, 2]))
  simp only [Prod.mk.injEq] at hview
  obtain ⟨hen, hk, hk', hbefore, hafter⟩ := hview
  obtain ⟨-, fd, msg, -, -, -, hadm⟩ := admission (session_reachable hs) (enabled_sound _ _ hen)
    hk hk' (c := 2) (by rw [hbefore]; decide) (by rw [hafter]; decide)
  exact ⟨s, msg, hs, hbefore, hafter, hadm⟩

/-! ## The answer to a JOIN -/

theorem handleJoin_admits {s : Server} {p : ChannelPtr} {u : ClientPtr} {key : Bytes}
    (hm : u ∉ (s.channel p).members) :
    u ∈ ((s.handleJoin p u key).channel p).members ↔ Admissible (s.channel p) u key := by
  have hmember : (s.channel p).isMember u = false := by simpa [Channel.isMember] using hm
  have hrefused : ∀ m, u ∉ ((s.sendToOne u m).channel p).members := by
    intro m
    rw [sendOne_eq_emit, emit_channel]
    exact hm
  unfold handleJoin
  dsimp only
  rw [hmember, if_neg Bool.false_ne_true]
  split_ifs with hkey hinv hfull
  · have hbad : (s.channel p).key ≠ [] ∧ (s.channel p).key ≠ key := by
      simpa [Channel.checkKey] using hkey
    exact iff_of_false (hrefused _) fun h => h.key.elim hbad.1 hbad.2
  · have hbad : (s.channel p).inviteOnly = true ∧ u ∉ (s.channel p).invitedUsers := by
      simpa [Channel.isInvited] using hinv
    exact iff_of_false (hrefused _) fun h => hbad.2 (h.invited hbad.1)
  · apply iff_of_false (hrefused _)
    intro h
    rw [isFull_eq_false.mpr h.limit] at hfull
    exact Bool.false_ne_true hfull
  · rw [letIn_members hm]
    apply iff_of_true
    · simp
    · constructor
      · by_cases hnil : (s.channel p).key = []
        · exact .inl hnil
        · right
          simpa [Channel.checkKey, hnil] using hkey
      · intro hi
        simpa [Channel.isInvited, hi] using hinv
      · exact isFull_eq_false.mp (by simpa using hfull)

/-- A JOIN of a registered client for a channel that exists, in which it is not, makes it a member
if and only if the key, the invitation and the limit are in order. -/
theorem join_decides {s : Server} {fd : Fd} {u : ClientPtr}
    (hu : s.clients.find? fd = some u) (hreg : (s.client u).isRegistered = true) {msg : Message}
    (hmsg : spliter (s.nextLine u) = some msg) (hcmd : findCommand msg.command = some .join)
    {name : Bytes} {rest : List Bytes} (hparam : msg.parameter = name :: rest)
    (hvalid : isValidChannelName name = true) {p : ChannelPtr}
    (hp : s.findChannel name = some p) (hm : u ∉ (s.channel p).members) :
    u ∈ ((step s (.line fd)).channel p).members ↔
      Admissible (s.channel p) u (rest.headD []) := by
  have hzero : name ≠ ascii "0" := by
    rintro rfl
    revert hvalid
    decide
  have hreg' : ((s.popped u).client u).isRegistered = true := (popped_fields s u u).2.trans hreg
  have hp' : (s.popped u).channels.find? (toLower name) = some p := hp
  have hrun : step s (.line fd) = (s.popped u).handleJoin p u (rest.headD []) := by
    rw [step_line hu, receiveLine_dispatch hmsg]
    simp only [dispatch, hcmd, needLogin, hreg', Bool.not_true, Bool.and_false,
      Bool.false_eq_true, if_false, execute, executeJoin, hparam, hzero, hvalid,
      findOrCreateChannel_eq, hp']
  rw [hrun]
  exact handleJoin_admits (s := s.popped u) hm

theorem join_decides_bob : ∃ s, session bobJoins = some s ∧
    (2 ∈ ((step s (.line 5)).channel 1).members ↔
      Admissible (s.channel 1) 2 (ascii "sesame")) := by
  obtain ⟨s, hs, hview⟩ := Option.map_eq_some_iff.mp (by decide +kernel :
    (session bobJoins).map (fun s =>
      (s.clients.find? 5, (s.client 2).isRegistered,
        decide (spliter (s.nextLine 2) =
          some ⟨false, [], ascii "JOIN", [ascii "#A", ascii "sesame"]⟩),
        s.findChannel (ascii "#A"), (s.channel 1).members)) =
      some (some 2, true, true, some 1, [1]))
  simp only [Prod.mk.injEq, decide_eq_true_eq] at hview
  obtain ⟨hu, hreg, hmsg, hp, hbefore⟩ := hview
  exact ⟨s, hs, join_decides hu hreg hmsg (by decide) rfl (by decide) hp
    (by rw [hbefore]; decide)⟩

/-! ## Invitations are for one JOIN -/

/-- The channel of the key `k` has invited `c`. -/
def Invited (s : Server) (k : Bytes) (c : ClientPtr) : Prop :=
  ∃ p, s.channels.find? k = some p ∧ c ∈ (s.channel p).invitedUsers

/-- The event lets `c` into the channel of the key `k`, which it may open. -/
structure Joins (s : Server) (e : Event) (k : Bytes) (c : ClientPtr) : Prop where
  outside : ∀ p, s.channels.find? k = some p → c ∉ (s.channel p).members
  inside : ∃ p, (step s e).channels.find? k = some p ∧ c ∈ ((step s e).channel p).members

/-- The event is an INVITE line that names `c` and the channel of the key `k`. -/
structure Invites (s : Server) (e : Event) (k : Bytes) (c : ClientPtr) : Prop where
  line : ∃ fd u msg, e = .line fd ∧ s.clients.find? fd = some u ∧
    spliter (s.nextLine u) = some msg ∧ findCommand msg.command = some .invite ∧
    s.findClientByNickname (msg.parameter.headD []) = some c ∧
    toLower (msg.parameter.getD 1 []) = k
  before : ¬ s.Invited k c
  after : (step s e).Invited k c

section invitations

variable {s : Server} {u c : ClientPtr} {k : Bytes}

theorem invited_room : s.Invited k c ↔ ∃ r, s.net k = some r ∧ c ∈ r.invited := by
  constructor
  · intro ⟨p, hp, hc⟩
    exact ⟨_, net_of_find hp, Channel.mem_room_invited.mpr hc⟩
  · intro ⟨r, hr, hc⟩
    obtain ⟨p, hp, rfl⟩ := net_eq_some hr
    exact ⟨p, hp, Channel.mem_room_invited.mp hc⟩

/-- An INVITE records one invitation or only sends replies. -/
theorem executeInvite_cases (s : Server) (u : ClientPtr) (msg : Message) :
    (∃ o, s.executeInvite u msg = s.emit o) ∨
      ∃ d p o, s.findClientByNickname (msg.parameter.headD []) = some d ∧
        s.findChannel (msg.parameter.getD 1 []) = some p ∧
        s.executeInvite u msg = (s.invite p d).emit o := by
  have hreply : ∀ m, ∃ o, s.sendReply u m = s.emit o := fun m => ⟨_, sendReply_eq_emit ..⟩
  unfold executeInvite
  split
  · next nick name rest hparam =>
    split
    · exact .inl (hreply _)
    · next d hd =>
      split
      · exact .inl (hreply _)
      · next p hp =>
        unfold handleInvite
        dsimp only
        split_ifs
        · exact .inl (hreply _)
        · exact .inl (hreply _)
        · exact .inl ⟨Output.none, (emit_none s).symm⟩
        · exact .inl (hreply _)
        · right
          have hsend : ∀ m m', ∃ o, ((s.invite p d).sendToOne u m).sendToOne d m' =
              (s.invite p d).emit o := by
            intro m m'
            rw [sendOne_eq_emit, sendOne_eq_emit, emit_emit]
            exact ⟨_, rfl⟩
          obtain ⟨o, ho⟩ := hsend _ _
          refine ⟨d, p, o, ?_, ?_, ho⟩
          · rw [hparam]
            exact hd
          · rw [hparam]
            exact hp
  · exact .inl (hreply _)

theorem executeInvite_invites (hm : s.Members) {msg : Message} (hbefore : ¬ s.Invited k c)
    (hafter : (s.executeInvite u msg).Invited k c) :
    s.findClientByNickname (msg.parameter.headD []) = some c ∧
      toLower (msg.parameter.getD 1 []) = k := by
  rcases executeInvite_cases s u msg with ⟨o, heq⟩ | ⟨d, p, o, hd, hp, heq⟩
  · rw [heq] at hafter
    exact absurd hafter hbefore
  · obtain ⟨q, hq, hc⟩ := heq ▸ hafter
    have hq : s.channels.find? k = some q := hq
    rw [emit_channel, invite_channel] at hc
    split_ifs at hc with hqp
    · rcases List.mem_append.mp hc with hc | hc
      · exact absurd ⟨q, hq, hqp ▸ hc⟩ hbefore
      · rw [List.mem_singleton.mp hc]
        refine ⟨hd, ?_⟩
        rw [← hm.channel_key k q hq, hqp]
        exact (hm.channel_key _ p hp).symm
    · exact absurd ⟨q, hq, hc⟩ hbefore

/-- No other command invites anybody. -/
theorem effects_invited {P : Bytes → Prop} {msg : Message} {s' : Server} (hb : s.Base P)
    (h : Effects P msg u s s') (hcmd : findCommand msg.command ≠ some .invite)
    (hafter : s'.Invited k c) : s.Invited k c := by
  induction h with
  | refl => exact hafter
  | @tail t t' hrun hstep ih =>
    apply ih
    have hmid := effects_base hrun hb
    have hput : ∀ {q : ChannelPtr} {r : Room ClientPtr Bytes Bytes},
        t.LiveChannel q → r.invited = (t.channel q).room.invited →
        t'.net = t.net.put (toLower (t.channel q).name) r → t.Invited k c := by
      intro q r hq hinv hnet
      obtain ⟨r', hr', hc⟩ := invited_room.mp hafter
      rw [hnet] at hr'
      rcases Net.put_eq_some hr' with ⟨rfl, rfl⟩ | hold
      · exact invited_room.mpr ⟨_, net_of_find (hmid.links.find_live hq), hinv ▸ hc⟩
      · exact invited_room.mpr ⟨r', hold, hc⟩
    have hupd : ∀ {q : ChannelPtr} {f : Channel → Channel} {o : Output}, t.LiveChannel q →
        t' = (t.updChannel q f).emit o →
        (f (t.channel q)).members = (t.channel q).members →
        (f (t.channel q)).invitedUsers = (t.channel q).invitedUsers → t.Invited k c := by
      intro q f o hq ht' hmem hinv
      apply hput hq (r := (f (t.channel q)).room) (congrArg List.toFinset hinv)
      rw [ht', net_emit]
      apply net_updChannel hmid.links.toMembers (hmid.links.find_live hq)
      rw [hmem]
      exact hmid.noGhost q hq
    cases hstep with
    | reply | talk | announce | rename | nickname | user | pass | register | pong =>
      exact hafter
    | mode hp hop hf =>
      apply hupd hp (emit_none _).symm
      · rw [hf.rest]
      · rw [hf.rest]
    | operator hp =>
      apply hupd hp rfl
      · exact setModeOperator_members _ _ _
      · unfold Channel.setModeOperator
        split_ifs <;> rfl
    | topic hp => exact hupd hp rfl rfl rfl
    | invite hinvite => exact absurd hinvite hcmd
    | @part p _ hp =>
      apply hput hp (r := (t.channel p).room.without u) rfl
      rw [net_emit]
      exact net_leave hmid.links (hmid.links.find_live hp) u
    | @kick p d _ hp =>
      apply hput hp (r := (t.channel p).room.without d) rfl
      rw [net_emit]
      exact net_leave hmid.links (hmid.links.find_live hp) d

/-- The entry into a channel invites nobody. -/
theorem entry_invited {P : Bytes → Prop} {msg : Message} {s' : Server} (hb : s.Base P)
    (h : Entry P msg u s s') (hafter : s'.Invited k c) : s.Invited k c := by
  obtain ⟨r', hr', hc⟩ := invited_room.mp hafter
  exact invited_room.mpr ((entry_enters hb h).invited hr' hc)

theorem line_invited {P : Bytes → Prop} {msg : Message} {s' : Server} (hb : s.Base P)
    (h : Line P msg u s s') (hcmd : findCommand msg.command ≠ some .invite)
    (hafter : s'.Invited k c) : s.Invited k c := by
  cases h with
  | effects heffects => exact effects_invited hb heffects hcmd hafter
  | closed heffects =>
    rw [invited_room, net_disconnectAfterFlush, ← invited_room] at hafter
    exact effects_invited hb heffects hcmd hafter
  | entry hentry => exact entry_invited hb hentry hafter

theorem popped_findClientByNickname (nick : Bytes) :
    (s.popped u).findClientByNickname nick = s.findClientByNickname nick := by
  have hclients : (s.popped u).clients = s.clients := rfl
  simp only [findClientByNickname, hclients, popped_fields s]

theorem dispatch_invites (hm : s.Members) {msg : Message}
    (hcmd : findCommand msg.command = some .invite) (hbefore : ¬ s.Invited k c)
    (hafter : (s.dispatch u msg).Invited k c) :
    s.findClientByNickname (msg.parameter.headD []) = some c ∧
      toLower (msg.parameter.getD 1 []) = k := by
  simp only [dispatch, hcmd] at hafter
  split_ifs at hafter
  · exact absurd hafter hbefore
  · exact executeInvite_invites hm hbefore hafter

/-- Only an INVITE line makes an invitation. -/
theorem invites_of_flip {e : Event} (hb : s.Base Clean) (he : Enabled s e)
    (hbefore : ¬ s.Invited k c) (hafter : (step s e).Invited k c) : Invites s e k c := by
  by_cases hline : ∃ fd, e = .line fd
  · obtain ⟨fd, rfl⟩ := hline
    obtain ⟨v, hv, -⟩ := id he
    have hrecv : (s.receiveLine v).Invited k c := step_line hv ▸ hafter
    rcases line_receiveLine textPred_clean hb ⟨fd, hv⟩ (serves_clean.lines s fd v he hv) with
      heq | ⟨msg, hmsg, hrun⟩
    · rw [heq] at hrecv
      exact absurd hrecv hbefore
    · have hinvite : findCommand msg.command = some .invite := by
        by_contra hother
        exact hbefore (line_invited (s := s.popped v) (pop_base hb v) hrun hother hrecv)
      rw [receiveLine_dispatch hmsg] at hrecv
      have hnamed := dispatch_invites (pop_base hb v).links.toMembers hinvite hbefore hrecv
      have hnick := (popped_findClientByNickname _).symm.trans hnamed.1
      exact ⟨⟨fd, v, msg, rfl, hv, hmsg, hinvite, hnick, hnamed.2⟩, hbefore, hafter⟩
  · obtain ⟨vs, -, hother⟩ := other_event_abandons hb he fun fd h => hline ⟨fd, h⟩
    obtain ⟨p', hp', hc⟩ := hafter
    obtain ⟨p, hp, habandoned⟩ := hother k p' hp'
    exact absurd ⟨p, hp, ((habandoned.invitedUsers c).mp hc).1⟩ hbefore

/-- Whoever has just come in has no invitation any more. -/
theorem joins_not_invited {e : Event} (hb : s.Base Clean) (he : Enabled s e)
    (h : Joins s e k c) : ¬ (step s e).Invited k c := by
  intro ⟨q, hq, hc⟩
  obtain ⟨p', hk', hin⟩ := h.inside
  obtain rfl := Option.some.inj (hq.symm.trans hk')
  cases hk : s.channels.find? k with
  | some p =>
    obtain ⟨rfl, fd, msg, -, -, -, hadm⟩ := event_admits hb he hk hk' (h.outside p hk) hin
    exact hadm.used hc
  | none =>
    by_cases hline : ∃ fd, e = .line fd
    · obtain ⟨fd, rfl⟩ := hline
      obtain ⟨v, hv, -⟩ := id he
      have hnew := (line_event_refines hb hv he).founded (k := k)
        (by rw [net, hk]; rfl) (net_of_find hk')
      rw [(opened_of_room hnew).invitedUsers] at hc
      exact List.not_mem_nil hc
    · obtain ⟨vs, -, hother⟩ := other_event_abandons hb he fun fd h => hline ⟨fd, h⟩
      obtain ⟨p, hp, -⟩ := hother k q hk'
      exact absurd (hp.symm.trans hk) (by simp)

end invitations

/-- Between two entries of `c` into a channel that is invite-only at the second, there is an INVITE
line that names `c` and the channel and that gives the invitation used. -/
theorem invitation_renewed {s s' : Server} (hs : ircserv.Reachable s) {k : Bytes} {c : ClientPtr}
    {e f : Event} {es : List Event} (he : Enabled s e) (hfirst : Joins s e k c)
    (hrun : ircserv.Run (step s e) es s') (hf : Enabled s' f) (hsecond : Joins s' f k c)
    {p : ChannelPtr} (hp : s'.channels.find? k = some p)
    (hclosed : (s'.channel p).inviteOnly = true) :
    ∃ es₁ g es₂ t, es = es₁ ++ g :: es₂ ∧ ircserv.Run (step s e) es₁ t ∧ Enabled t g ∧
      Invites t g k c := by
  have hmid : ircserv.Reachable (step s e) := .step hs he
  have hstart := joins_not_invited (reachable_clean hs).2 he hfirst
  have hend : s'.Invited k c := by
    obtain ⟨p', hp', hin⟩ := hsecond.inside
    obtain ⟨-, fd, msg, -, -, -, hadm⟩ :=
      event_admits (reachable_clean (hrun.reachable hmid)).2 hf hp hp' (hsecond.outside p hp) hin
    exact ⟨p, hp, hadm.admissible.invited hclosed⟩
  obtain ⟨es₁, g, es₂, t, hsplit, hpre, hg, hbefore, hafter, -⟩ := hrun.exists_flip (P := fun t => t.Invited k c) hstart hend
  have ht := (reachable_clean (hpre.reachable hmid)).2
  exact ⟨es₁, g, es₂, t, hsplit, hpre, hg, invites_of_flip ht hg hbefore hafter⟩

/-- `bob` is about to use the invitation to the channel of `ann`. -/
def bobInvited : List Event :=
  annAndBob ++ typed 4 (ascii "JOIN #a") ++ typed 4 (ascii "MODE #a +i") ++
    typed 4 (ascii "INVITE bob #A") ++ [.recv 5 (.data (ascii "JOIN #a\r\n"))]

/-- `bob` has left again, and `ann` lets him back in. -/
def bobReturns : List Event :=
  typed 5 (ascii "PART #a") ++ typed 4 (ascii "INVITE Bob #a") ++
    [.recv 5 (.data (ascii "JOIN #a\r\n"))]

theorem invitation_renewed_bob : ∃ s s', session bobInvited = some s ∧
    ircserv.Run (step s (.line 5)) bobReturns s' ∧
    ∃ es₁ g es₂ t, bobReturns = es₁ ++ g :: es₂ ∧ ircserv.Run (step s (.line 5)) es₁ t ∧
      Enabled t g ∧ Invites t g (ascii "#a") 2 := by
  obtain ⟨s, hs, hview⟩ := Option.bind_eq_some_iff.mp (by decide +kernel :
    (session bobInvited).bind (fun s =>
      (ircserv.play enabled (step s (.line 5)) bobReturns).map fun s' =>
        (enabled s (.line 5), enabled s' (.line 5), (s'.channel 1).inviteOnly,
          decide ([s, step s (.line 5), s', step s' (.line 5)].map (fun t =>
            (t.channels.find? (ascii "#a"), (t.channel 1).members)) =
              [(some 1, [1]), (some 1, [1, 2]), (some 1, [1]), (some 1, [1, 2])]))) =
      some (true, true, true, true))
  obtain ⟨s', hs', hview⟩ := Option.map_eq_some_iff.mp hview
  simp only [Prod.mk.injEq, decide_eq_true_eq, List.map_cons, List.map_nil, List.cons.injEq,
    and_true] at hview
  obtain ⟨hen, hen', hclosed, ⟨hk, hm⟩, ⟨hk₁, hm₁⟩, ⟨hk', hm'⟩, hk₁', hm₁'⟩ := hview
  have hrun : ircserv.Run (step s (.line 5)) bobReturns s' :=
    System.Run.of_play enabled_sound hs'
  have houtside : ∀ {t : Server} {p}, t.channels.find? (ascii "#a") = some 1 →
      (t.channel 1).members = [1] → t.channels.find? (ascii "#a") = some p →
        2 ∉ (t.channel p).members := by
    intro t p hone hmembers hp
    obtain rfl := Option.some.inj (hp.symm.trans hone)
    rw [hmembers]
    decide
  refine ⟨s, s', hs, hrun, invitation_renewed (session_reachable hs) (enabled_sound _ _ hen) ?_
    hrun (enabled_sound _ _ hen') ?_ hk' hclosed⟩
  · exact ⟨fun p hp => houtside hk hm hp, 1, hk₁, by rw [hm₁]; decide⟩
  · exact ⟨fun p hp => houtside hk' hm' hp, 1, hk₁', by rw [hm₁']; decide⟩

end Server
end FtIrc
