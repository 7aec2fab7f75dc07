import FtIrc.Effects.Sessions
import FtIrc.Effects.Wording

/-!
# Leaving all channels

`JOIN 0`, a PART for each channel and the disconnection leave the same channels behind.
-/

namespace FtIrc

/-- `PART <name>`. -/
def partMessage (name : Bytes) : Message where
  existPrefix := false
  msgPrefix := []
  command := ascii "PART"
  parameter := [name]

namespace Server

/-- `t'` has the channels of `t`, in which `c` is not invited any more. -/
structure SameChannels (c : ClientPtr) (t t' : Server) : Prop where
  channels : t'.channels = t.channels
  channel : ∀ p, t.LiveChannel p → t'.channel p = (t.channel p).removeMemberfromInvitedUsers c
  invitations : ∀ d, t'.LiveClient d → ∀ p,
    p ∈ (t'.client d).invitedChannels ↔ p ∈ (t.client d).invitedChannels

/-- Neither side of the links knows of a channel of `c`. -/
structure InNoChannel (s : Server) (c : ClientPtr) : Prop where
  members : ∀ p, s.LiveChannel p → c ∉ (s.channel p).members
  operators : ∀ p, s.LiveChannel p → c ∉ (s.channel p).operators
  joined : s.LiveClient c → (s.client c).joinedChannels = StdMap.empty

section leaving

variable {s : Server} {c : ClientPtr}

/-- After the channels `es` have been left, starting in `s`. -/
structure LeftAll (s : Server) (c : ClientPtr) (es : List (Bytes × ChannelPtr))
    (t : Server) : Prop where
  links : t.Links
  clients : t.clients = s.clients
  channels : ∀ k p, t.channels.find? k = some p ↔ s.channels.find? k = some p ∧
    (p ∈ es.map Prod.snd → (s.channel p).members.filter (· ≠ c) ≠ [])
  channel : ∀ p, t.channel p =
    if p ∈ es.map Prod.snd then (s.channel p).dropMember c else s.channel p
  joined : ∀ n, (t.client c).joinedChannels.find? n =
    if n ∈ es.map Prod.fst then none else (s.client c).joinedChannels.find? n

/-- In a round of `JOIN 0` the channel is found under its name, and the round is a PART. -/
theorem partRound_part (hl : s.Links) (hc : s.LiveClient c) {e : Bytes × ChannelPtr}
    (he : (s.client c).joinedChannels.find? e.1 = some e.2) :
    partRound c s e = s.executePart c (partMessage e.1) := by
  obtain ⟨hp, hname, hmem⟩ := hl.joined c hc _ _ he
  have hfind : s.findChannel e.1 = some e.2 := by
    rw [findChannel, ← hname]
    exact hl.find_live hp
  simp only [executePart, partMessage, hfind]
  rfl

theorem leave_channels (hl : s.Links) {p : ChannelPtr} (hp : s.LiveChannel p) (k : Bytes)
    (q : ChannelPtr) : (s.leave p c).channels.find? k = some q ↔
      s.channels.find? k = some q ∧ (q = p → (s.channel p).members.filter (· ≠ c) ≠ []) := by
  by_cases hempty : (s.channel p).members.filter (· ≠ c) = []
  · rw [leave_eq, if_pos hempty, deleteChannel_channels, removeMember_name, StdMap.find?_erase]
    constructor
    · intro h
      split_ifs at h with hk
      refine ⟨h, ?_⟩
      rintro rfl
      exact absurd (hl.channel_key k q h).symm hk
    · intro ⟨h, hne⟩
      rw [if_neg]
      · exact h
      · rintro rfl
        exact hne (Option.some.inj (h.symm.trans (hl.find_live hp))) hempty
  · rw [leave_eq, if_neg hempty]
    exact ⟨fun h => ⟨h, fun _ => hempty⟩, And.left⟩

theorem leftAll_round {es : List (Bytes × ChannelPtr)} {t : Server} (hl : s.Links)
    (hc : s.LiveClient c) (h : LeftAll s c es t) {e : Bytes × ChannelPtr}
    (he : (s.client c).joinedChannels.find? e.1 = some e.2) (hnew : e.1 ∉ es.map Prod.fst)
    (hes : ∀ e' ∈ es, (s.client c).joinedChannels.find? e'.1 = some e'.2) :
    LeftAll s c (es ++ [e]) (partRound c t e) ∧
      partRound c t e = t.executePart c (partMessage e.1) := by
  have hct : t.LiveClient c := by
    rw [LiveClient, h.clients]
    exact hc
  have het : (t.client c).joinedChannels.find? e.1 = some e.2 := by
    rw [h.joined, if_neg hnew]
    exact he
  have hfresh : e.2 ∉ es.map Prod.snd := by
    intro hin
    obtain ⟨e', he', heq⟩ := List.mem_map.mp hin
    have hname := (hl.joined c hc _ _ he).2.1
    have hname' := (hl.joined c hc _ _ (hes e' he')).2.1
    rw [heq, hname] at hname'
    exact hnew (hname' ▸ List.mem_map_of_mem he')
  obtain ⟨hp, hname, hmem⟩ := h.links.joined c hct _ _ het
  have hround : partRound c t e = (t.leave e.2 c).emit (Output.all (t.channel e.2).members
      (partNotice (t.client c) (t.channel e.2).name (t.client c).nickname)) :=
    handlePart_leave t e.2 c [] e.1 (by simpa [Channel.isMember] using hmem) (by rw [hname])
  have hchannel := h.channel e.2
  rw [if_neg hfresh] at hchannel
  refine ⟨⟨?_, ?_, fun k p => ?_, fun p => ?_, fun n => ?_⟩, partRound_part h.links hct het⟩
  · rw [hround]
    exact (links_leave h.links hp c).congr (sameLinks_emit _ _)
  · rw [hround, emit_clients, leave_clients]
    exact h.clients
  · rw [hround, emit_channels, leave_channels h.links hp, h.channels, hchannel, and_assoc]
    refine and_congr Iff.rfl ?_
    simp only [List.map_append, List.map_cons, List.map_nil, List.mem_append, List.mem_singleton,
      or_imp]
    refine and_congr Iff.rfl ⟨fun hne heq => ?_, fun hne heq => ?_⟩
    · rw [heq]
      exact hne heq
    · rw [← heq]
      exact hne heq
  · rw [hround, emit_channel, leave_channel, hchannel]
    by_cases hpe : p = e.2
    · rw [if_pos hpe, if_pos (by simp [hpe]), hpe]
      rfl
    · rw [if_neg hpe, h.channel]
      simp only [List.map_append, List.map_cons, List.map_nil, List.mem_append,
        List.mem_singleton, hpe, or_false]
  · rw [hround, emit_client, Client.sendAll_joinedChannels, leave_joinedChannels, if_pos rfl, hname,
      StdMap.find?_erase, h.joined]
    by_cases hn : n = e.1
    · rw [if_pos hn, if_pos (by simp [hn])]
    · rw [if_neg hn]
      simp only [List.map_append, List.map_cons, List.map_nil, List.mem_append,
        List.mem_singleton, hn, or_false]

/-- `JOIN 0` round by round: each round is a PART, and leaves one more channel. -/
theorem leftAll_fold (hl : s.Links) (hc : s.LiveClient c) (es : List (Bytes × ChannelPtr))
    (hes : ∀ e ∈ es, (s.client c).joinedChannels.find? e.1 = some e.2)
    (hnd : (es.map Prod.fst).Nodup) :
    LeftAll s c es (es.foldl (partRound c) s) ∧
      es.foldl (partRound c) s =
        (es.map Prod.fst).foldl (fun t name => t.executePart c (partMessage name)) s := by
  induction es using List.reverseRecOn with
  | nil => exact ⟨⟨hl, rfl, by simp, by simp, by simp⟩, rfl⟩
  | append_singleton es e ih =>
    rw [List.map_append, List.nodup_append] at hnd
    have hes' : ∀ e' ∈ es, (s.client c).joinedChannels.find? e'.1 = some e'.2 :=
      fun e' he' => hes e' (List.mem_append_left _ he')
    obtain ⟨hleft, hparts⟩ := ih hes' hnd.1
    have hnew : e.1 ∉ es.map Prod.fst := fun hin => hnd.2.2 _ hin e.1 (by simp) rfl
    obtain ⟨hround, hpart⟩ := leftAll_round hl hc hleft (hes e (by simp)) hnew hes'
    rw [List.foldl_append, List.map_append, List.foldl_append, ← hparts]
    exact ⟨hround, hpart⟩

theorem executeJoin_zero {msg : Message} (hmsg : msg.parameter.head? = some (ascii "0")) :
    s.executeJoin c msg = (s.client c).joinedChannels.entries.foldl (partRound c) s := by
  cases hparam : msg.parameter with
  | nil => simp [hparam] at hmsg
  | cons name rest =>
    obtain rfl : name = ascii "0" := by simpa [hparam] using hmsg
    simp [executeJoin, hparam]

/-- What the departure keeps is what the PARTs keep. -/
theorem LeftAll.sameChannels (hl : s.Links) (hg : s.NoGhost) (hc : s.LiveClient c) {t s' : Server}
    {cause : Bytes} (h : LeftAll s c (s.client c).joinedChannels.entries t)
    (h' : Departure s c cause s') : SameChannels c t s' := by
  -- a channel outside of the map of the client does not have it as a member
  have hout : ∀ p, s.LiveChannel p → p ∉ (s.client c).joinedChannels.entries.map Prod.snd →
      c ∉ (s.channel p).members := by
    intro p hp hnot hin
    exact hnot ((StdMap.mem_values _).mpr ⟨_, (hl.member p hp c hin).2.2⟩)
  have hchannels : s'.channels = t.channels := by
    refine StdMap.ext_find? fun k => Option.ext fun p => ?_
    rw [h'.channels, h.channels]
    refine and_congr_right fun hk => ⟨fun hne _ => hne, fun hne => ?_⟩
    by_cases hin : p ∈ (s.client c).joinedChannels.entries.map Prod.snd
    · exact hne hin
    · rw [filter_ne_of_not_mem (hout p ⟨k, hk⟩ hin)]
      exact hg p ⟨k, hk⟩
  have hlive : ∀ p, s'.LiveChannel p ↔ t.LiveChannel p := fun p => by rw [LiveChannel, hchannels]; rfl
  have hchannel : ∀ p, t.LiveChannel p →
      s'.channel p = (t.channel p).removeMemberfromInvitedUsers c := by
    intro p hp
    obtain ⟨k, hk⟩ := hp
    have hps : s.LiveChannel p := ⟨k, ((h.channels k p).mp hk).1⟩
    rw [h'.channel p ((hlive p).mpr ⟨k, hk⟩), h.channel]
    split_ifs with hin
    · rfl
    · have hdrop := Channel.dropMember_of_not_member (hout p hps hin) (hl.operators_members p hps)
      rw [Channel.forget, hdrop]
      rfl
  refine ⟨hchannels, hchannel, fun d hd p => ?_⟩
  have hne : d ≠ c ∧ t.LiveClient d := by
    rw [LiveClient, h'.clients] at hd
    obtain ⟨hds, hdc⟩ := (hl.liveClient_erase hc d).mp hd
    rw [LiveClient, h.clients]
    exact ⟨hdc, hds⟩
  constructor
  · intro hin
    obtain ⟨hp, huser⟩ := h'.links.invitation d hd p hin
    rw [hchannel p ((hlive p).mp hp)] at huser
    exact (h.links.invited p ((hlive p).mp hp) d (List.mem_filter.mp huser).1).2.2.2
  · intro hin
    obtain ⟨hp, huser⟩ := h.links.invitation d hne.2 p hin
    refine (h'.links.invited p ((hlive p).mpr hp) d ?_).2.2.2
    rw [hchannel p hp]
    exact List.mem_filter.mpr ⟨huser, by simpa using hne.1⟩

theorem LeftAll.inNoChannel (hc : s.LiveClient c) {t : Server}
    (h : LeftAll s c (s.client c).joinedChannels.entries t) : t.InNoChannel c := by
  have hct : t.LiveClient c := by
    rw [LiveClient, h.clients]
    exact hc
  have hjoined : (t.client c).joinedChannels = StdMap.empty := by
    refine StdMap.ext_find? fun n => ?_
    rw [h.joined]
    split_ifs with hin
    · rfl
    · cases hn : (s.client c).joinedChannels.find? n with
      | none => rfl
      | some p => exact absurd (StdMap.mem_keys _ |>.mpr ⟨p, hn⟩) hin
  have hmembers : ∀ p, t.LiveChannel p → c ∉ (t.channel p).members := by
    intro p hp hin
    have hfind := (h.links.member p hp c hin).2.2
    rw [hjoined] at hfind
    cases hfind
  exact ⟨hmembers, fun p hp hin => hmembers p hp (h.links.operators_members p hp c hin),
    fun _ => hjoined⟩

theorem Departure.inNoChannel (hl : s.Links) (hc : s.LiveClient c) {s' : Server} {cause : Bytes}
    (h : Departure s c cause s') : s'.InNoChannel c := by
  refine ⟨fun p hp hin => ?_, fun p hp hin => ?_, fun hlive => ?_⟩
  · rw [h.channel p hp] at hin
    simp [Channel.forget, Channel.dropMember] at hin
  · rw [h.channel p hp] at hin
    simp [Channel.forget, Channel.dropMember] at hin
  · rw [LiveClient, h.clients] at hlive
    exact absurd rfl ((hl.liveClient_erase hc c).mp hlive).2

/-- `JOIN 0` is a PART of every channel in the order of the client's map, and disconnecting the client
instead leaves the same channels, apart from its own invitations. -/
theorem leaving_agrees (h : ircserv.Reachable s) {fd : Fd} (hc : s.clients.find? fd = some c)
    {msg : Message} (hmsg : msg.parameter.head? = some (ascii "0")) (reason : Bytes) :
    s.executeJoin c msg = (s.client c).joinedChannels.keys.foldl
        (fun t name => t.executePart c (partMessage name)) s ∧
      SameChannels c (s.executeJoin c msg) (s.disconnect fd reason) ∧
      (s.executeJoin c msg).InNoChannel c ∧ (s.disconnect fd reason).InNoChannel c := by
  have hb := (reachable_clean h).2
  have hlive : s.LiveClient c := ⟨fd, hc⟩
  obtain ⟨hleft, hparts⟩ := leftAll_fold hb.links hlive (s.client c).joinedChannels.entries
    (fun e he => (StdMap.find?_eq_some _).mpr he) (StdMap.keys_nodup _)
  have hdep := (disconnect_departure hb.links hb.noGhost hc reason).1
  rw [executeJoin_zero hmsg]
  exact ⟨hparts, hleft.sameChannels hb.links hb.noGhost hlive hdep, hleft.inNoChannel hlive,
    hdep.inNoChannel hb.links hlive⟩

end leaving

/-- `ann` is alone in one channel and with `bob` in another. -/
def annJoins : List Event :=
  annAndBob ++ typed 4 (ascii "JOIN #a") ++ typed 4 (ascii "JOIN #b") ++ typed 5 (ascii "JOIN #b")

theorem leaving_agrees_ann : ∃ s, session annJoins = some s ∧
    (s.client 1).joinedChannels.keys = [ascii "#a", ascii "#b"] ∧
    s.executeJoin 1 ⟨false, [], ascii "JOIN", [ascii "0"]⟩ =
      (s.client 1).joinedChannels.keys.foldl
        (fun t name => t.executePart 1 (partMessage name)) s ∧
    SameChannels 1 (s.executeJoin 1 ⟨false, [], ascii "JOIN", [ascii "0"]⟩)
      (s.disconnect 4 (ascii "Connection error")) ∧
    (s.executeJoin 1 ⟨false, [], ascii "JOIN", [ascii "0"]⟩).InNoChannel 1 ∧
    (s.disconnect 4 (ascii "Connection error")).InNoChannel 1 := by
  obtain ⟨s, hs, hview⟩ := Option.map_eq_some_iff.mp (by decide +kernel :
    (session annJoins).map (fun s => (s.clients.find? 4,
      decide ((s.client 1).joinedChannels.keys = [ascii "#a", ascii "#b"]))) =
        some (some 1, true))
  simp only [Prod.mk.injEq, decide_eq_true_eq] at hview
  obtain ⟨hc, hkeys⟩ := hview
  exact ⟨s, hs, hkeys, leaving_agrees (session_reachable hs) hc rfl _⟩

end Server
end FtIrc
