import FtIrc.Effects.Sessions

/-!
# Lifetime of channels

A channel lives as long as it has members. Its name is free afterwards, and the next JOIN of the
name makes a new channel.
-/

namespace FtIrc
namespace Server

theorem channelName_ne_zero {name : Bytes} (h : isValidChannelName name = true) :
    name ≠ ascii "0" := by
  rintro rfl
  revert h
  decide

/-- `u` is alone in the channel and its operator, and nothing is left of an earlier channel. -/
structure JoinedAlone (s : Server) (u : ClientPtr) (name : Bytes) (p : ChannelPtr) : Prop where
  found : s.findChannel name = some p
  channel : s.channel p = { Channel.new name with members := [u], operators := [u] }
  joined : (s.client u).joinedChannels.find? name = some p
  invitation : ∀ c, s.LiveClient c → p ∉ (s.client c).invitedChannels

theorem executeJoin_free {s : Server} {u : ClientPtr} {msg : Message} {name : Bytes}
    {rest : List Bytes} (hparam : msg.parameter = name :: rest)
    (hvalid : isValidChannelName name = true) (hfree : s.findChannel name = none) :
    s.executeJoin u msg = (s.newChannel name).letIn (s.heap.addr s.channels.values) u := by
  have hfind : s.channels.find? (toLower name) = none := hfree
  simp only [executeJoin, hparam, if_neg (channelName_ne_zero hvalid), hvalid, Bool.not_true,
    Bool.false_eq_true, if_false, findOrCreateChannel_eq, hfind]
  exact handleJoin_newChannel name _

theorem joinedAlone_letIn {s : Server} (hl : s.Links) {u : ClientPtr} (hu : s.LiveClient u)
    (hreg : (s.client u).isRegistered = true) {name : Bytes}
    (hvalid : isValidChannelName name = true) (hfree : s.findChannel name = none) :
    ((s.newChannel name).letIn (s.heap.addr s.channels.values) u).JoinedAlone u name
      (s.heap.addr s.channels.values) := by
  have hnew : (s.newChannel name).channel (s.heap.addr s.channels.values) = Channel.new name := by
    simp [newChannel_channel]
  have hm : u ∉ ((s.newChannel name).channel (s.heap.addr s.channels.values)).members := by
    simp [hnew, Channel.new]
  have hlive : (s.newChannel name).LiveChannel (s.heap.addr s.channels.values) :=
    (liveChannel_newChannel hfree _).mpr (.inr rfl)
  have hlinks := letIn_links (links_newChannel hl hvalid hfree) hlive hu hreg hm
  have hchannel : ((s.newChannel name).letIn (s.heap.addr s.channels.values) u).channel
      (s.heap.addr s.channels.values) = { Channel.new name with members := [u], operators := [u] } := by
    rw [letIn_eq, emit_channel, enter_channel _ hm, if_pos rfl, hnew]
    rfl
  constructor
  case found =>
    show StdMap.find? _ (toLower name) = _
    rw [letIn_eq, emit_channels, enter_channels]
    simp [newChannel]
  case channel => exact hchannel
  case joined =>
    rw [letIn_eq, emit_client, Client.sendAll_joinedChannels, enter_client _ hm, if_pos rfl, hnew]
    simp [Channel.new]
  case invitation =>
    intro c hc hin
    have hinvited := (hlinks.invitation c hc _ hin).2
    rw [hchannel] at hinvited
    cases hinvited

/-- Live channels have members and names of their own, and names without members are free. -/
structure NoGhostChannels (s : Server) : Prop where
  members : ∀ p, s.LiveChannel p → (s.channel p).members ≠ []
  key : ∀ k p, s.channels.find? k = some p → k = toLower (s.channel p).name
  name : ∀ p, s.LiveChannel p → isValidChannelName (s.channel p).name = true
  invitation : ∀ c, s.LiveClient c → ∀ p ∈ (s.client c).invitedChannels, s.LiveChannel p
  unique : ∀ p q, s.LiveChannel p → s.LiveChannel q →
    toLower (s.channel p).name = toLower (s.channel q).name → p = q
  gone : ∀ name, (∀ c, s.LiveClient c → ∀ n p, (s.client c).joinedChannels.find? n = some p →
    toLower n ≠ toLower name) → s.findChannel name = none
  rejoin : ∀ u msg name rest, s.LiveClient u → (s.client u).isRegistered = true →
    findCommand msg.command = some .join → msg.parameter = name :: rest →
    isValidChannelName name = true → s.findChannel name = none →
    ∃ p, (s.dispatch u msg).JoinedAlone u name p

theorem no_ghost_channels {s : Server} (h : ircserv.Reachable s) : s.NoGhostChannels := by
  have hbase := (reachable_clean h).2
  have hl := hbase.links
  constructor
  case members => exact hbase.noGhost
  case key => exact fun k p hp => (hl.channel_key k p hp).symm
  case name => exact hl.channel_name
  case invitation => exact fun c hc p hp => (hl.invitation c hc p hp).1
  case unique =>
    intro p q hp hq heq
    by_contra hne
    exact hl.name_ne hq hp hne heq
  case gone =>
    intro name hnone
    cases hfind : s.findChannel name with
    | none => rfl
    | some p =>
      -- the channel has a member, which is joined to it
      obtain ⟨hp, hname⟩ := findChannel_some hl hfind
      obtain ⟨c, hc⟩ := List.exists_mem_of_ne_nil _ (hbase.noGhost p hp)
      obtain ⟨hlive, -, hjoined⟩ := hl.member p hp c hc
      exact absurd hname.symm (hnone c hlive _ p hjoined)
  case rejoin =>
    intro u msg name rest hu hreg hcmd hparam hvalid hfree
    refine ⟨s.heap.addr s.channels.values, ?_⟩
    have hrun : s.dispatch u msg = s.executeJoin u msg := by simp [dispatch, hcmd, hreg, execute]
    rw [hrun, executeJoin_free hparam hvalid hfree]
    exact joinedAlone_letIn hl hu hreg hvalid hfree

/-- `ann` leaves the channel that she locked with a key, and its name is free. -/
theorem no_ghost_channels_after_part : ∃ s,
    session (annAndBob ++ typed 4 (ascii "JOIN #a") ++ typed 4 (ascii "MODE #a +k door") ++
      typed 4 (ascii "PART #A")) = some s ∧ s.findChannel (ascii "#a") = none ∧
      s.NoGhostChannels := by
  obtain ⟨s, hs, hview⟩ := Option.map_eq_some_iff.mp (by decide +kernel :
    (session (annAndBob ++ typed 4 (ascii "JOIN #a") ++ typed 4 (ascii "MODE #a +k door") ++
      typed 4 (ascii "PART #A"))).map (fun s => s.findChannel (ascii "#a")) = some none)
  exact ⟨s, hs, hview, no_ghost_channels (session_reachable hs)⟩

end Server
end FtIrc
