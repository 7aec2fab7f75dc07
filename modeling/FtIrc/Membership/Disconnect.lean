import FtIrc.Membership.Compound

/-!
# Disconnection

`disconnect` sends the QUIT notices, takes the client out of every channel, deletes the channels
this leaves empty, takes it out of the invitation lists and erases it. `Departure` states what is
left.
-/

namespace FtIrc

/-- The channel after `c` has left it. -/
def Channel.dropMember (ch : Channel) (c : ClientPtr) : Channel :=
  { ch with
    members := ch.members.filter (· ≠ c)
    operators := ch.operators.filter (· ≠ c) }

/-- The channel after `c` has been disconnected. -/
def Channel.forget (ch : Channel) (c : ClientPtr) : Channel :=
  { ch.dropMember c with invitedUsers := ch.invitedUsers.filter (· ≠ c) }

theorem filter_ne_of_not_mem {c : ClientPtr} {cs : List ClientPtr} (h : c ∉ cs) :
    cs.filter (· ≠ c) = cs := by
  rw [List.filter_eq_self]
  intro d hd
  simp only [decide_eq_true_eq]
  rintro rfl
  exact h hd

theorem Channel.dropMember_of_not_member {ch : Channel} {c : ClientPtr} (hm : c ∉ ch.members)
    (hops : ∀ d ∈ ch.operators, d ∈ ch.members) : ch.dropMember c = ch := by
  unfold dropMember
  rw [filter_ne_of_not_mem hm, filter_ne_of_not_mem fun h => hm (hops c h)]

namespace Server

/-! ## Leaving the channels -/

/-- After the entries `es` of the loop over all channels, started in `s`. -/
private structure QuitLoop (s : Server) (c : ClientPtr) (es : List (Bytes × ChannelPtr))
    (st : Server × List Bytes) : Prop where
  links : st.1.Links
  rest : st.1 = { s with client := st.1.client, channel := st.1.channel }
  channel : ∀ p, s.LiveChannel p → st.1.channel p =
    if p ∈ es.map Prod.snd then (s.channel p).dropMember c else s.channel p
  settings : ∀ p, st.1.channel p = { s.channel p with
    members := (st.1.channel p).members, operators := (st.1.channel p).operators }
  same : SameClient (s.client c) (st.1.client c)
  other : ∀ d, d ≠ c → st.1.client d = s.client d
  emptied : ∀ k, k ∈ st.2 ↔ ∃ p, (k, p) ∈ es ∧ c ∈ (s.channel p).members ∧
    (s.channel p).members.filter (· ≠ c) = []

private theorem quitLoop {s : Server} (h : s.Links) (c : ClientPtr)
    (es : List (Bytes × ChannelPtr)) (hes : ∀ e ∈ es, s.channels.find? e.1 = some e.2) :
    QuitLoop s c es (es.foldl (quitRound c) (s, [])) := by
  induction es using List.reverseRecOn with
  | nil => exact ⟨h, rfl, by simp, fun _ => rfl, rfl, fun _ _ => rfl, by simp⟩
  | append_singleton es e ih =>
    have ih := ih fun e' he' => hes e' (List.mem_append_left _ he')
    rw [List.foldl_append, List.foldl_cons, List.foldl_nil]
    generalize es.foldl (quitRound c) (s, []) = st at ih
    have hlive : s.LiveChannel e.2 := ⟨e.1, hes e (by simp)⟩
    have hcur := ih.channel e.2 hlive
    have hkey : ∀ k, (k, e.2) ∈ es → k = e.1 := by
      intro k hk
      have hfind := hes (k, e.2) (List.mem_append_left _ hk)
      exact (h.channel_key k e.2 hfind).symm.trans (h.channel_key e.1 e.2 (hes e (by simp)))
    by_cases hm : c ∈ (st.1.channel e.2).members
    · have hnew : e.2 ∉ es.map Prod.snd := by
        intro hin
        rw [hcur, if_pos hin] at hm
        simp [Channel.dropMember] at hm
      rw [if_neg hnew] at hcur
      have hlive' : st.1.LiveChannel e.2 := by
        rw [ih.rest]
        exact hlive
      have hround : quitRound c st e = (st.1.removeMember e.2 c,
          if ((st.1.removeMember e.2 c).channel e.2).isEmpty then st.2 ++ [e.1] else st.2) := by
        simp [quitRound, removeQuitUser, Channel.isMember, hm]
      rw [hround]
      refine ⟨links_removeMember ih.links c hlive', ?_, fun p hp => ?_, fun p => ?_, ?_,
        fun d hd => ?_, fun k => ?_⟩
      · dsimp only
        rw [ih.rest]
        rfl
      · dsimp only
        rw [removeMember_channel, ih.channel p hp]
        by_cases hpe : p = e.2
        · subst hpe
          simp [hcur, Channel.dropMember]
        · simp only [hpe, if_false, List.map_append, List.map_cons, List.map_nil, List.mem_append,
            List.mem_singleton, or_false]
      · dsimp only
        rw [removeMember_channel]
        split_ifs with hpe
        · subst hpe
          rw [ih.settings]
        · exact ih.settings p
      · exact ih.same.trans (removeMember_sameClient _ _ _ _)
      · dsimp only
        rw [removeMember_client, if_neg hd]
        exact ih.other d hd
      · have hempty : ((st.1.removeMember e.2 c).channel e.2).isEmpty = true ↔
            (s.channel e.2).members.filter (· ≠ c) = [] := by
          simp [Channel.isEmpty, removeMember_channel, hcur]
        rw [hcur] at hm
        simp only [List.mem_append, List.mem_singleton, or_and_right, exists_or]
        rw [← ih.emptied k]
        split_ifs with he
        · rw [List.mem_append, List.mem_singleton]
          refine or_congr Iff.rfl ⟨?_, ?_⟩
          · rintro rfl
            exact ⟨e.2, rfl, hm, hempty.mp he⟩
          · rintro ⟨p, hp, -⟩
            exact congrArg Prod.fst hp
        · refine ⟨Or.inl, ?_⟩
          rintro (hk | ⟨p, rfl, -, hp⟩)
          · exact hk
          · exact absurd (hempty.mpr hp) he
    · have hround : quitRound c st e = st := by
        simp [quitRound, Channel.isMember, hm]
      rw [hround]
      refine ⟨ih.links, ih.rest, fun p hp => ?_, ih.settings, ih.same, ih.other, fun k => ?_⟩
      · rw [ih.channel p hp]
        by_cases hpe : p = e.2
        · subst hpe
          rw [hcur] at hm
          rw [if_pos (by simp : e.2 ∈ (es ++ [e]).map Prod.snd)]
          split_ifs with hin
          · rfl
          · rw [if_neg hin] at hm
            exact (Channel.dropMember_of_not_member hm (h.operators_members _ hp)).symm
        · simp only [hpe, List.map_append, List.map_cons, List.map_nil, List.mem_append,
            List.mem_singleton, or_false]
      · rw [ih.emptied k]
        constructor
        · rintro ⟨p, hp, hrest⟩
          exact ⟨p, List.mem_append_left _ hp, hrest⟩
        · rintro ⟨p, hp, hin, hempty⟩
          rcases List.mem_append.mp hp with hp | hp
          · exact ⟨p, hp, hin, hempty⟩
          · obtain rfl := List.mem_singleton.mp hp
            have hmem : p ∈ es.map Prod.snd := by
              by_contra hno
              rw [hcur, if_neg hno] at hm
              exact hm hin
            obtain ⟨⟨k', p'⟩, hin', rfl⟩ := List.mem_map.mp hmem
            obtain rfl := hkey k' hin'
            exact ⟨p', hin', hin, hempty⟩

/-! ## Deleting the emptied channels -/

private theorem deleteLoop {s : Server} (h : s.Links) (ks : List Bytes)
    (hks : ∀ k ∈ ks, toLower k = k ∧ ∀ p, s.channels.find? k = some p →
      (s.channel p).members = []) :
    let t := ks.foldl deleteChannel s
    t.Links ∧ t = { s with client := t.client, channels := t.channels } ∧
      (∀ k, t.channels.find? k = if k ∈ ks then none else s.channels.find? k) ∧
      ∀ d, t.client d = { s.client d with invitedChannels := (t.client d).invitedChannels } := by
  induction ks using List.reverseRecOn with
  | nil => exact ⟨h, rfl, by simp, fun _ => rfl⟩
  | append_singleton ks k ih =>
    obtain ⟨hlinks, hrest, hfind, hclient⟩ := ih fun k' hk' => hks k' (List.mem_append_left _ hk')
    obtain ⟨hlow, hempty⟩ := hks k (by simp)
    simp only [List.foldl_append, List.foldl_cons, List.foldl_nil]
    generalize ks.foldl deleteChannel s = t at *
    have hfind' : ∀ k', (t.deleteChannel k).channels.find? k' =
        if k' ∈ ks ++ [k] then none else s.channels.find? k' := by
      intro k'
      rw [deleteChannel_channels, hlow, StdMap.find?_erase, hfind]
      by_cases hk : k' = k <;> simp [hk]
    cases hk : t.channels.find? (toLower k) with
    | none =>
      have hdel : t.deleteChannel k = t := by simp [deleteChannel, hk]
      rw [hdel] at hfind' ⊢
      exact ⟨hlinks, hrest, hfind', hclient⟩
    | some p =>
      have hpk : t.channels.find? k = some p := hlow ▸ hk
      have hname : toLower (t.channel p).name = toLower k := by
        rw [hlinks.channel_key k p hpk, hlow]
      have hmem : (t.channel p).members = [] := by
        have hs : s.channels.find? k = some p := by
          rw [hfind] at hpk
          split_ifs at hpk
          exact hpk
        rw [hrest]
        exact hempty p hs
      refine ⟨?_, ?_, hfind', fun d => ?_⟩
      · rw [deleteChannel_congr t hname.symm]
        exact links_deleteChannel hlinks ⟨k, hpk⟩ hmem
      · rw [deleteChannel_eq t hk, hrest]
      · rw [deleteChannel_eq t hk]
        dsimp only
        split_ifs
        · rw [hclient d]
          rfl
        · exact hclient d

private theorem forgetLoop (s : Server) (c : ClientPtr) (ps : List ChannelPtr) :
    let t := ps.foldl (fun s p => s.updChannel p (·.removeMemberfromInvitedUsers c)) s
    t = { s with channel := t.channel } ∧
      ∀ p, t.channel p = if p ∈ ps then (s.channel p).removeMemberfromInvitedUsers c
        else s.channel p := by
  induction ps using List.reverseRecOn with
  | nil => exact ⟨rfl, by simp⟩
  | append_singleton ps q ih =>
    obtain ⟨hrest, hchannel⟩ := ih
    simp only [List.foldl_append, List.foldl_cons, List.foldl_nil]
    refine ⟨?_, fun p => ?_⟩
    · rw [hrest]
      rfl
    · have hidem : ∀ ch : Channel, (ch.removeMemberfromInvitedUsers c).removeMemberfromInvitedUsers c
          = ch.removeMemberfromInvitedUsers c := by
        intro ch
        simp [Channel.removeMemberfromInvitedUsers, List.filter_filter]
      rw [updChannel_channel]
      by_cases hpq : p = q
      · subst hpq
        rw [if_pos rfl, hchannel, if_pos (by simp : p ∈ ps ++ [p])]
        split_ifs
        · exact hidem _
        · rfl
      · simp only [hpq, if_false, hchannel, List.mem_append, List.mem_singleton, or_false]

/-! ## Disconnecting a client -/

theorem Members.liveClient_erase {s : Server} (h : s.Members) {c : ClientPtr}
    (hc : s.LiveClient c) (d : ClientPtr) :
    (∃ fd, (s.clients.erase (s.client c).fd).find? fd = some d) ↔ s.LiveClient d ∧ d ≠ c := by
  simp only [StdMap.find?_erase]
  constructor
  · rintro ⟨fd, hfd⟩
    split_ifs at hfd with he
    refine ⟨⟨fd, hfd⟩, ?_⟩
    rintro rfl
    exact he (h.client_fd fd d hfd).symm
  · rintro ⟨⟨fd, hfd⟩, hne⟩
    refine ⟨fd, ?_⟩
    rw [if_neg]
    · exact hfd
    · rintro rfl
      exact hne (Option.some.inj (hfd.symm.trans (h.fd_live hc)))

private theorem links_erase {s t : Server} (h : s.Links) {c : ClientPtr} (hc : s.LiveClient c)
    (hm : ∀ p, s.LiveChannel p → c ∉ (s.channel p).members)
    (hclients : t.clients = s.clients.erase (s.client c).fd) (hchannels : t.channels = s.channels)
    (hclient : t.client = s.client)
    (hchannel : ∀ p, s.LiveChannel p →
      t.channel p = (s.channel p).removeMemberfromInvitedUsers c) : t.Links := by
  have hlc : ∀ d, t.LiveClient d ↔ s.LiveClient d ∧ d ≠ c := by
    intro d
    rw [LiveClient, hclients]
    exact h.liveClient_erase hc d
  have hlp : ∀ p, t.LiveChannel p ↔ s.LiveChannel p := by simp [LiveChannel, hchannels]
  constructor <;> constructor
  all_goals try simp only [hlc, hlp, hclient]
  case client_fd =>
    intro fd d hd
    rw [hclients, StdMap.find?_erase] at hd
    split_ifs at hd
    exact h.client_fd fd d hd
  case channel_key =>
    intro k p hp
    rw [hchannels] at hp
    rw [hchannel p ⟨k, hp⟩]
    exact h.channel_key k p hp
  case channel_name => intro p hp; rw [hchannel p hp]; exact h.channel_name p hp
  case members_nodup => intro p hp; rw [hchannel p hp]; exact h.members_nodup p hp
  case operators_nodup => intro p hp; rw [hchannel p hp]; exact h.operators_nodup p hp
  case operators_members => intro p hp; rw [hchannel p hp]; exact h.operators_members p hp
  case member =>
    intro p hp d hd
    rw [hchannel p hp] at hd ⊢
    obtain ⟨hlive, hrest⟩ := h.member p hp d hd
    refine ⟨⟨hlive, ?_⟩, hrest⟩
    rintro rfl
    exact hm p hp hd
  case joined =>
    intro d hd n p hj
    obtain ⟨hp, hn, hin⟩ := h.joined d hd.1 n p hj
    rw [hchannel p hp]
    exact ⟨hp, hn, hin⟩
  case invitedUsers_nodup =>
    intro p hp
    rw [hchannel p hp]
    exact (h.invitedUsers_nodup p hp).filter _
  case invitedChannels_nodup => exact fun d hd => h.invitedChannels_nodup d hd.1
  case invited =>
    intro p hp d hd
    rw [hchannel p hp] at hd ⊢
    obtain ⟨hd, hne⟩ := List.mem_filter.mp hd
    obtain ⟨hlive, hrest⟩ := h.invited p hp d hd
    exact ⟨⟨hlive, by simpa using hne⟩, hrest⟩
  case invitation =>
    intro d hd p hp
    obtain ⟨hlive, hin⟩ := h.invitation d hd.1 p hp
    rw [hchannel p hlive]
    exact ⟨hlive, List.mem_filter.mpr ⟨hin, by simpa using hd.2⟩⟩

/-- The QUIT notices of a disconnection. -/
def quitOutput (s : Server) (c : ClientPtr) (cause : Bytes) : Output :=
  if (s.client c).isRegistered then
    outputOnce c (s.neighbours c) (makeCommand (s.client c) (ascii "QUIT") (ascii ":" ++ cause))
  else Output.none

theorem quitOutput_self (s : Server) (c : ClientPtr) (cause : Bytes) :
    s.quitOutput c cause c = [] := by
  unfold quitOutput
  split_ifs
  · simp [outputOnce]
  · rfl

/-- `s'` is `s` without the client `c`, which quit with the given text. -/
structure Departure (s : Server) (c : ClientPtr) (cause : Bytes) (s' : Server) : Prop where
  links : s'.Links
  noGhost : s'.NoGhost
  clients : s'.clients = s.clients.erase (s.client c).fd
  channels : ∀ k p, s'.channels.find? k = some p ↔
    s.channels.find? k = some p ∧ (s.channel p).members.filter (· ≠ c) ≠ []
  channel : ∀ p, s'.LiveChannel p → s'.channel p = (s.channel p).forget c
  client : ∀ d, d ≠ c → s'.client d =
    { (s.client d).sendAll (s.quitOutput c cause d) with
      invitedChannels := (s'.client d).invitedChannels }
  self : SameClient (s.client c) (s'.client c)
  settings : ∀ p, s'.channel p = { s.channel p with
    members := (s'.channel p).members, operators := (s'.channel p).operators,
    invitedUsers := (s'.channel p).invitedUsers }

private theorem removeClientFromAllChannels_spec {s : Server} (h : s.Links) (hg : s.NoGhost)
    {c : ClientPtr} (hc : s.LiveClient c) (cause : Bytes) :
    let t := s.removeClientFromAllChannels c cause
    t = { s with client := t.client, channel := t.channel, channels := t.channels } ∧
      Departure s c cause { t with clients := t.clients.erase (s.client c).fd } := by
  intro t
  have hsame := sameLinks_emit s (s.quitOutput c cause)
  have hstart : (if (s.client c).isRegistered then
      s.broadcastQuit c (makeCommand (s.client c) (ascii "QUIT") (ascii ":" ++ cause)) else s) =
      s.emit (s.quitOutput c cause) := by
    unfold quitOutput
    split_ifs
    · rw [broadcastQuit_eq]
    · rw [emit_none]
  have hloop := quitLoop (h.congr hsame) c (s.emit (s.quitOutput c cause)).channels.entries
    fun e he => (s.channels.find?_eq_some (k := e.1)).mpr he
  obtain ⟨st, hst⟩ : ∃ st, st = s.channels.entries.foldl (quitRound c)
    (s.emit (s.quitOutput c cause), []) := ⟨_, rfl⟩
  obtain ⟨u, hu⟩ : ∃ u, u = st.2.foldl deleteChannel st.1 := ⟨_, rfl⟩
  have ht : t = (u.client c).invitedChannels.foldl
      (fun s p => s.updChannel p (·.removeMemberfromInvitedUsers c)) u := by
    change removeClientFromAllChannels s c cause = _
    unfold removeClientFromAllChannels
    rw [hu, hst]
    simp only [hstart, emit_channels]
  rw [emit_channels, ← hst] at hloop
  have hdrop : ∀ p, s.LiveChannel p → st.1.channel p = (s.channel p).dropMember c := by
    intro p hp
    have hin : p ∈ s.channels.entries.map Prod.snd := s.channels.mem_values.mpr hp
    rw [hloop.channel p hp, if_pos hin]
    rfl
  have hst_channels : st.1.channels = s.channels := by rw [hloop.rest]; rfl
  have hst_clients : st.1.clients = s.clients := by rw [hloop.rest]; rfl
  have hemptied : ∀ k, k ∈ st.2 ↔ ∃ p, s.channels.find? k = some p ∧
      (s.channel p).members.filter (· ≠ c) = [] := by
    intro k
    rw [hloop.emptied k]
    constructor
    · rintro ⟨p, hp, -, hempty⟩
      exact ⟨p, s.channels.find?_eq_some.mpr hp, hempty⟩
    · rintro ⟨p, hp, hempty⟩
      refine ⟨p, s.channels.find?_eq_some.mp hp, ?_, hempty⟩
      by_contra hno
      rw [emit_channel] at hno
      rw [filter_ne_of_not_mem hno] at hempty
      exact hg p ⟨k, hp⟩ hempty
  obtain ⟨hlinks, hrest, hfind, hclient⟩ := deleteLoop hloop.links st.2 fun k hk => by
    obtain ⟨p, hp, hempty⟩ := (hemptied k).mp hk
    refine ⟨by rw [← h.channel_key k p hp, toLower_toLower], fun q hq => ?_⟩
    rw [hst_channels, hp] at hq
    obtain rfl := Option.some.inj hq
    rw [hdrop p ⟨k, hp⟩]
    exact hempty
  obtain ⟨hrest', hchannel⟩ := forgetLoop u c (u.client c).invitedChannels
  rw [← hu] at hlinks hrest hfind hclient
  rw [← ht] at hrest' hchannel
  have hu_clients : u.clients = s.clients := by rw [hrest]; exact hst_clients
  have hu_channel : u.channel = st.1.channel := by rw [hrest]
  have ht_clients : t.clients = s.clients := by rw [hrest']; exact hu_clients
  have ht_client : t.client = u.client := by rw [hrest']
  have ht_channels : t.channels = u.channels := by rw [hrest']
  have hchannels : ∀ k p, t.channels.find? k = some p ↔
      s.channels.find? k = some p ∧ (s.channel p).members.filter (· ≠ c) ≠ [] := by
    intro k p
    rw [ht_channels, hfind, hst_channels]
    constructor
    · intro hp
      split_ifs at hp with hk
      exact ⟨hp, fun hempty => hk ((hemptied k).mpr ⟨p, hp, hempty⟩)⟩
    · rintro ⟨hp, hne⟩
      rw [if_neg]
      · exact hp
      · intro hk
        obtain ⟨q, hq, hempty⟩ := (hemptied k).mp hk
        obtain rfl := Option.some.inj (hp.symm.trans hq)
        exact hne hempty
  have hlive : ∀ p, t.LiveChannel p → s.LiveChannel p := fun p ⟨k, hk⟩ => ⟨k, ((hchannels k p).mp hk).1⟩
  have hforget : ∀ p, t.LiveChannel p → t.channel p = (s.channel p).forget c := by
    intro p hp
    have hpu : u.LiveChannel p := by
      rw [LiveChannel, ← ht_channels]
      exact hp
    have hcu : u.LiveClient c := by
      rw [LiveClient, hu_clients]
      exact hc
    have hu : u.channel p = (s.channel p).dropMember c := by rw [hu_channel, hdrop p (hlive p hp)]
    have huf : (u.channel p).removeMemberfromInvitedUsers c = (s.channel p).forget c := by
      rw [hu]
      rfl
    rw [hchannel]
    split_ifs with hin
    · exact huf
    · rw [← huf, Channel.removeMemberfromInvitedUsers, filter_ne_of_not_mem]
      exact fun hbad => hin (hlinks.invited p hpu c hbad).2.2.2
  have hother : ∀ d, d ≠ c → t.client d =
      { (s.client d).sendAll (s.quitOutput c cause d) with
        invitedChannels := (t.client d).invitedChannels } := by
    intro d hd
    rw [ht_client, hclient d, hloop.other d hd]
    rfl
  have hforgetU : ∀ p, u.LiveChannel p →
      t.channel p = (u.channel p).removeMemberfromInvitedUsers c := by
    intro p hp
    have hpt : t.LiveChannel p := by
      rw [LiveChannel, ht_channels]
      exact hp
    have hups : u.channel p = (s.channel p).dropMember c := by
      rw [hu_channel, hdrop p (hlive p hpt)]
    rw [hforget p hpt, hups]
    rfl
  have hcu : u.LiveClient c := by
    rw [LiveClient, hu_clients]
    exact hc
  have hfd : (u.client c).fd = (s.client c).fd := by
    have h1 : (u.client c).fd = (st.1.client c).fd := by rw [hclient c]
    have h2 : (st.1.client c).fd = (s.client c).fd := by rw [hloop.same]; rfl
    exact h1.trans h2
  have hnot : ∀ p, u.LiveChannel p → c ∉ (u.channel p).members := by
    intro p hp
    have hpt : t.LiveChannel p := by
      rw [LiveChannel, ht_channels]
      exact hp
    rw [hu_channel, hdrop p (hlive p hpt)]
    simp [Channel.dropMember]
  have hself : SameClient (s.client c) (t.client c) := by
    have hloopc : SameClient (s.client c) (st.1.client c) := by
      have hsame := hloop.same
      rwa [emit_client, quitOutput_self, Client.sendAll_nil] at hsame
    rw [ht_client, hclient c]
    exact hloopc.trans rfl
  have hsettings : ∀ p, t.channel p = { s.channel p with
      members := (t.channel p).members, operators := (t.channel p).operators,
      invitedUsers := (t.channel p).invitedUsers } := by
    intro p
    have hp : u.channel p = { s.channel p with
        members := (u.channel p).members, operators := (u.channel p).operators } := by
      rw [hu_channel]
      exact hloop.settings p
    rw [hchannel]
    split_ifs
    · unfold Channel.removeMemberfromInvitedUsers
      rw [hp]
    · rw [hp]
  refine ⟨?_, ?_, ?_, ?_, hchannels, hforget, hother, hself, hsettings⟩
  · rw [hrest', hrest, hloop.rest]
    rfl
  · refine links_erase hlinks hcu hnot ?_ ht_channels ht_client hforgetU
    rw [hfd, hu_clients, ← ht_clients]
  · rintro p ⟨k, hk⟩
    rw [hforget p ⟨k, hk⟩]
    exact ((hchannels k p).mp hk).2
  · rw [ht_clients]

/-- `disconnect` of a connected client. -/
theorem disconnect_departure {s : Server} (h : s.Links) (hg : s.NoGhost) {fd : Fd} {c : ClientPtr}
    (hfd : s.clients.find? fd = some c) (reason : Bytes) :
    Departure s c ((s.closing.find? fd).getD reason) (s.disconnect fd reason) ∧
      (s.disconnect fd reason).closing = s.closing.erase fd ∧
      (s.disconnect fd reason).toDisconnected = s.toDisconnected := by
  have hc : s.LiveClient c := ⟨fd, hfd⟩
  have hfd' : (s.client c).fd = fd := h.client_fd fd c hfd
  have hsame : SameLinks s { s with closing := s.closing.erase fd } :=
    sameLinks_of_eq rfl rfl rfl rfl
  obtain ⟨hrest, hdep⟩ := removeClientFromAllChannels_spec (h.congr hsame)
    (hg.congr hsame.toSameMembers) hc ((s.closing.find? fd).getD reason)
  have hdisc : s.disconnect fd reason =
      { removeClientFromAllChannels { s with closing := s.closing.erase fd } c
          ((s.closing.find? fd).getD reason) with
        clients := (removeClientFromAllChannels { s with closing := s.closing.erase fd } c
          ((s.closing.find? fd).getD reason)).clients.erase (s.client c).fd
        pollFds := (s.disconnect fd reason).pollFds } := by
    rw [hfd']
    simp only [disconnect, hfd]
    rfl
  have hlast : ∀ t : Server, SameLinks t { t with pollFds := (s.disconnect fd reason).pollFds } :=
    fun t => sameLinks_of_eq rfl rfl rfl rfl
  rw [hdisc]
  refine ⟨⟨hdep.links.congr (hlast _), hdep.noGhost.congr (hlast _).toSameMembers, hdep.clients,
    hdep.channels, hdep.channel, hdep.client, hdep.self, hdep.settings⟩, ?_, ?_⟩
  · dsimp only
    rw [hrest]
  · dsimp only
    rw [hrest]

/-- What `disconnect` leaves alone, whether or not the descriptor is connected. -/
theorem disconnect_rest {s : Server} (h : s.Links) (hg : s.NoGhost) (fd : Fd) (reason : Bytes) :
    s.disconnect fd reason = { s with
      client := (s.disconnect fd reason).client
      channel := (s.disconnect fd reason).channel
      channels := (s.disconnect fd reason).channels
      clients := s.clients.erase fd
      closing := s.closing.erase fd
      pollFds := (s.pollFds.eraseP (·.fd = fd)).modifyHead fun f =>
        { f with pollIn := true, pollOut := false } } := by
  cases hfd : s.clients.find? fd with
  | none =>
    have herase : s.clients.erase fd = s.clients := by
      apply StdMap.ext_find?
      intro k
      rw [StdMap.find?_erase]
      split_ifs with hk
      · rw [hk, hfd]
      · rfl
    rw [herase]
    simp only [disconnect, hfd]
    rfl
  | some c =>
    have hsame : SameLinks s { s with closing := s.closing.erase fd } :=
      sameLinks_of_eq rfl rfl rfl rfl
    obtain ⟨hrest, -⟩ := removeClientFromAllChannels_spec (h.congr hsame)
      (hg.congr hsame.toSameMembers) ⟨fd, hfd⟩ ((s.closing.find? fd).getD reason)
    simp only [disconnect, hfd]
    rw [hrest]
    rfl

end Server
end FtIrc
