import FtIrc.Effects.Sessions

/-!
# Integrity of memberships and invitations

The invariants of `Links`, read off a reachable state: the copies of each pointer agree, and no
pointer refers to a deleted object.
-/

namespace FtIrc
namespace Server

/-- The channel's member list, the client's channel map and the operator list agree. -/
structure MembershipIntegrity (s : Server) : Prop where
  member_iff : ∀ p, s.LiveChannel p → ∀ c, c ∈ (s.channel p).members ↔
    s.LiveClient c ∧ (s.client c).isRegistered = true ∧
      (s.client c).joinedChannels.find? (s.channel p).name = some p
  joined : ∀ c, s.LiveClient c → ∀ n p, (s.client c).joinedChannels.find? n = some p →
    (s.channel p).name = n ∧ s.channels.find? (toLower n) = some p
  members_nodup : ∀ p, s.LiveChannel p → (s.channel p).members.Nodup
  operators_nodup : ∀ p, s.LiveChannel p → (s.channel p).operators.Nodup
  operators_subset : ∀ p, s.LiveChannel p → (s.channel p).operators ⊆ (s.channel p).members

theorem membership_integrity {s : Server} (h : ircserv.Reachable s) : s.MembershipIntegrity := by
  have hl := (reachable_clean h).2.links
  constructor
  case member_iff => exact fun p hp c => hl.member_iff hp c
  case joined =>
    intro c hc n p hj
    obtain ⟨hp, hn, -⟩ := hl.joined c hc n p hj
    exact ⟨hn, hn ▸ hl.find_live hp⟩
  case members_nodup => exact hl.members_nodup
  case operators_nodup => exact hl.operators_nodup
  case operators_subset => exact fun p hp c hc => hl.operators_members p hp c hc

theorem membership_integrity_shared_channel : ∃ s p,
    session (annAndBob ++ typed 4 (ascii "JOIN #a") ++ typed 5 (ascii "JOIN #A")) = some s ∧
      s.channels.find? (ascii "#a") = some p ∧ (s.channel p).members = [1, 2] ∧
      s.MembershipIntegrity := by
  obtain ⟨s, hs, hview⟩ := Option.map_eq_some_iff.mp (by decide +kernel :
    (session (annAndBob ++ typed 4 (ascii "JOIN #a") ++ typed 5 (ascii "JOIN #A"))).map
      (fun s => (s.channels.find? (ascii "#a"), (s.channel 1).members)) = some (some 1, [1, 2]))
  obtain ⟨hfind, hmembers⟩ := Prod.mk.injEq .. ▸ hview
  exact ⟨s, 1, hs, hfind, hmembers, membership_integrity (session_reachable hs)⟩

/-! ## Invitations -/

/-- The channel's list of invited users and the client's list of invitations agree, and the next
client and the next channel start without invitations. -/
structure InvitationIntegrity (s : Server) : Prop where
  invited_iff : ∀ p c, s.LiveChannel p → s.LiveClient c →
    (c ∈ (s.channel p).invitedUsers ↔ p ∈ (s.client c).invitedChannels)
  invitedUsers_nodup : ∀ p, s.LiveChannel p → (s.channel p).invitedUsers.Nodup
  invitedChannels_nodup : ∀ c, s.LiveClient c → (s.client c).invitedChannels.Nodup
  invited : ∀ p, s.LiveChannel p → ∀ c ∈ (s.channel p).invitedUsers,
    s.LiveClient c ∧ (s.client c).isRegistered = true ∧ c ∉ (s.channel p).members
  invitation : ∀ c, s.LiveClient c → ∀ p ∈ (s.client c).invitedChannels, s.LiveChannel p
  next_client : ∀ p, s.LiveChannel p → s.heap.addr s.clients.values ∉ (s.channel p).invitedUsers
  next_channel : ∀ c, s.LiveClient c → s.heap.addr s.channels.values ∉ (s.client c).invitedChannels

theorem invitation_integrity {s : Server} (h : ircserv.Reachable s) : s.InvitationIntegrity := by
  have hl := (reachable_clean h).2.links
  constructor
  case invited_iff =>
    intro p c hp hc
    exact ⟨fun hi => (hl.invited p hp c hi).2.2.2, fun hi => (hl.invitation c hc p hi).2⟩
  case invitedUsers_nodup => exact hl.invitedUsers_nodup
  case invitedChannels_nodup => exact hl.invitedChannels_nodup
  case invited =>
    intro p hp c hi
    obtain ⟨hc, hreg, hm, -⟩ := hl.invited p hp c hi
    exact ⟨hc, hreg, hm⟩
  case invitation => exact fun c hc p hi => (hl.invitation c hc p hi).1
  case next_client => exact fun p hp hi => fresh_client s (hl.invited p hp _ hi).1
  case next_channel => exact fun c hc hi => fresh_channel s (hl.invitation c hc _ hi).1

theorem invitation_integrity_pending : ∃ s p,
    session (annAndBob ++ typed 4 (ascii "JOIN #a") ++ typed 4 (ascii "INVITE Bob #A")) = some s ∧
      s.channels.find? (ascii "#a") = some p ∧ (s.channel p).invitedUsers = [2] ∧
      s.InvitationIntegrity := by
  obtain ⟨s, hs, hview⟩ := Option.map_eq_some_iff.mp (by decide +kernel :
    (session (annAndBob ++ typed 4 (ascii "JOIN #a") ++ typed 4 (ascii "INVITE Bob #A"))).map
      (fun s => (s.channels.find? (ascii "#a"), (s.channel 1).invitedUsers)) = some (some 1, [2]))
  obtain ⟨hfind, hinvited⟩ := Prod.mk.injEq .. ▸ hview
  exact ⟨s, 1, hs, hfind, hinvited, invitation_integrity (session_reachable hs)⟩

end Server
end FtIrc
