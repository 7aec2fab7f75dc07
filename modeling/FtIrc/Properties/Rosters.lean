import FtIrc.Properties.Notices
import FtIrc.Properties.FanOut
import FtIrc.Effects.Rooms

/-!
# What the members of a channel are told

Whoever stays in a channel and reads its lines knows at any time who is in the channel and who is
an operator.
-/

namespace FtIrc
namespace Server

/-- The nicknames of the members and of the operators of a channel. -/
def roster (s : Server) (p : ChannelPtr) : Roster Bytes :=
  (s.channel p).room.roster fun d => (s.client d).nickname

/-- What holds in every state while a line runs. -/
structure Sound (s : Server) : Prop where
  base : s.Base Clean
  identities : s.Identities

theorem reachable_sound {s : Server} (hs : ircserv.Reachable s) : s.Sound :=
  ⟨(reachable_clean hs).2, reachable_identities hs⟩

namespace Sound

variable {s s' : Server} {p q : ChannelPtr} {c d u : ClientPtr}

theorem effect {msg : Message} (h : s.Sound) (hu : s.LiveClient u)
    (he : Effect Clean msg u s s') : s'.Sound :=
  ⟨effects_base (.single he) h.base, h.identities.identified hu (effect_identified he)⟩

theorem background (h : s.Sound) (he : Background Clean s s') : s'.Sound :=
  ⟨background_base he h.base, h.identities.congr (background_identities he h.base)⟩

theorem popped (h : s.Sound) (c : ClientPtr) : (s.popped c).Sound :=
  ⟨pop_base h.base c, h.identities.congr (sameIdentities_popped s c)⟩

theorem masked (h : s.Sound) (hc : s.LiveClient c) (hreg : (s.client c).isRegistered = true) :
    (s.client c).Masked where
  nickname := h.identities.nickname c hc (h.identities.registered c hc hreg).2.1
  username := (h.identities.username c hc).2
  ip := by
    obtain ⟨addr, haddr⟩ := h.identities.ip c hc
    rw [haddr]
    exact inetNtop_no_space addr

theorem member (h : s.Sound) (hin : s.InChannel p c) :
    s.LiveClient c ∧ (s.client c).isRegistered = true :=
  ⟨(h.base.links.member p hin.1 c hin.2).1, (h.base.links.member p hin.1 c hin.2).2.1⟩

theorem member_masked (h : s.Sound) (hin : s.InChannel p c) : (s.client c).Masked :=
  h.masked (h.member hin).1 (h.member hin).2

theorem isItem_name (h : s.Sound) (hp : s.LiveChannel p) : IsItem (s.channel p).name :=
  isItem_channelName (h.base.links.channel_name p hp)

theorem name_ne (h : s.Sound) (hp : s.LiveChannel p) (hq : s.LiveChannel q) (hne : q ≠ p) :
    (s.channel q).name ≠ (s.channel p).name := by
  intro hname
  have hfind := h.base.links.find_live hq
  rw [hname, h.base.links.find_live hp] at hfind
  exact hne (Option.some.inj hfind).symm

/-- Nobody else in a channel has the nickname of a client. -/
theorem nameIsFree (h : s.Sound) (hp : s.LiveChannel p) (hc : s.LiveClient c) :
    NameIsFree (fun d => (s.client d).nickname) c (s.channel p).room.members := by
  intro d hd hname
  have hmember := h.member ⟨hp, Channel.mem_room_members.mp hd⟩
  apply h.identities.unique d c hmember.1 hc
  · exact (h.identities.registered d hmember.1 hmember.2).2.1
  · exact congrArg toLower hname

theorem operators (h : s.Sound) (hp : s.LiveChannel p) :
    (s.channel p).room.operators ⊆ (s.channel p).room.members := by
  intro d hd
  apply Channel.mem_room_members.mpr
  exact h.base.links.operators_members p hp d (Channel.mem_room_operators.mp hd)

theorem all_eq (h : s.Sound) (hin : s.InChannel p c) (m : Bytes) :
    Output.all (s.channel p).members m c = [m] := by
  have hnd := h.base.links.members_nodup p hin.1
  unfold Output.all
  rw [List.count_eq_one_of_mem hnd hin.2]
  rfl

end Sound

section rosters

variable {s s' t : Server} {p : ChannelPtr}

theorem roster_congr (hmembers : (s'.channel p).members = (s.channel p).members)
    (hoperators : (s'.channel p).operators = (s.channel p).operators)
    (hsub : ∀ d ∈ (s.channel p).operators, d ∈ (s.channel p).members)
    (hname : ∀ d ∈ (s.channel p).members, (s'.client d).nickname = (s.client d).nickname) :
    s'.roster p = s.roster p := by
  apply Roster.ext
  · show Finset.image _ (s'.channel p).members.toFinset = _
    rw [hmembers]
    exact Finset.image_congr fun d hd => hname d (List.mem_toFinset.mp hd)
  · show Finset.image _ (s'.channel p).operators.toFinset = _
    rw [hoperators]
    exact Finset.image_congr fun d hd => hname d (hsub d (List.mem_toFinset.mp hd))

end rosters

/-- The lines that `c` gets while `s` becomes `s'` account for the change of the people in `p`. -/
structure Follows (s s' : Server) (p : ChannelPtr) (c : ClientPtr) : Prop where
  name : (s'.channel p).name = (s.channel p).name
  told : ∃ ms, (s'.client c).replies = (s.client c).replies ++ ms ∧
    ((∀ m ∈ ms, Readable m) →
      (ms.filterMap (noticeOf (s.channel p).name)).foldl Roster.hear (s.roster p) = s'.roster p)

namespace Follows

variable {s s' t : Server} {p : ChannelPtr} {c : ClientPtr}

theorem trans (h : Follows s s' p c) (h' : Follows s' t p c) : Follows s t p c := by
  obtain ⟨ms, hms, htold⟩ := h.told
  obtain ⟨ms', hms', htold'⟩ := h'.told
  refine ⟨h'.name.trans h.name, ms ++ ms', ?_, fun hread => ?_⟩
  · rw [hms', hms, List.append_assoc]
  · have hleft := htold fun m hm => hread m (List.mem_append_left _ hm)
    have hright := htold' fun m hm => hread m (List.mem_append_right _ hm)
    rw [h.name] at hright
    rw [List.filterMap_append, List.foldl_append, hleft, hright]

/-- Nothing changes, and nothing is said about it. -/
theorem quiet (hname : (s'.channel p).name = (s.channel p).name)
    (hroster : s'.roster p = s.roster p) {ms : List Bytes}
    (hms : (s'.client c).replies = (s.client c).replies ++ ms)
    (hnone : ∀ m ∈ ms, Readable m → noticeOf (s.channel p).name m = none) : Follows s s' p c := by
  refine ⟨hname, ms, hms, fun hread => ?_⟩
  have hempty : ms.filterMap (noticeOf (s.channel p).name) = [] := by
    rw [List.filterMap_eq_nil_iff]
    exact fun m hm => hnone m hm (hread m hm)
  rw [hempty, hroster]
  rfl

/-- One change, and one line about it. -/
theorem notice (hname : (s'.channel p).name = (s.channel p).name) {m : Bytes} {n : Notice Bytes}
    (hms : (s'.client c).replies = (s.client c).replies ++ [m])
    (hn : Readable m → noticeOf (s.channel p).name m = some n)
    (hroster : s'.roster p = (s.roster p).hear n) : Follows s s' p c := by
  refine ⟨hname, [m], hms, fun hread => ?_⟩
  rw [hroster, List.filterMap_cons_some (hn (hread m List.mem_cons_self))]
  rfl

end Follows

/-! ## Effects -/

section effects

variable {s s' : Server} {p q : ChannelPtr} {c t u : ClientPtr} {msg : Message}

/-- What changes neither the people nor their names, and sends no notice to `c`. -/
theorem follows_quiet (hs : s.Sound) (hp : s.LiveChannel p) (ms : List Bytes)
    (hsame : SameMembers s s')
    (hnick : ∀ d ∈ (s.channel p).members, (s'.client d).nickname = (s.client d).nickname)
    (hms : (s'.client c).replies = (s.client c).replies ++ ms)
    (hnone : ∀ m ∈ ms, Readable m → noticeOf (s.channel p).name m = none) : Follows s s' p c := by
  apply Follows.quiet (hsame.name p) _ hms hnone
  apply roster_congr (hsame.members p) (hsame.operators p) _ hnick
  exact hs.base.links.operators_members p hp

/-- What is said in another channel. -/
theorem follows_elsewhere (hs : s.Sound) (hp : s.LiveChannel p) (ms : List Bytes)
    (hchannel : s'.channel p = s.channel p)
    (hnick : ∀ d, (s'.client d).nickname = (s.client d).nickname)
    (hms : (s'.client c).replies = (s.client c).replies ++ ms)
    (hnone : ∀ m ∈ ms, Readable m → noticeOf (s.channel p).name m = none) : Follows s s' p c := by
  apply Follows.quiet (congrArg Channel.name hchannel) _ hms hnone
  apply roster_congr (congrArg Channel.members hchannel) (congrArg Channel.operators hchannel)
  · exact hs.base.links.operators_members p hp
  · exact fun d _ => hnick d

/-- Somebody leaves a channel by PART or KICK. -/
theorem leave_follows (hs : s.Sound) (hq : s.LiveChannel q) {line : Bytes}
    (hline : ∀ name, Readable line → noticeOf name line =
      if (s.channel q).name ≠ name then none else some (.left (s.client t).nickname))
    (ht : t ∈ (s.channel q).members) (hin : s.InChannel p c) :
    Follows s ((s.leave q t).emit (Output.all (s.channel q).members line)) p c := by
  have hms := ((sameStreams_leave s q t).emit (Output.all (s.channel q).members line)).replies c
  have hnick : ∀ d, ((s.leave q t).client d).nickname = (s.client d).nickname := by
    intro d
    rw [leave_sameClient s q t d]
  by_cases hpq : p = q
  · subst hpq
    have hroom : ((s.leave p t).channel p).room = (s.channel p).room.without t := by
      rw [leave_channel, if_pos rfl]
      exact Channel.room_dropMember _ _
    have hroster : (s.leave p t).roster p =
        ((s.channel p).room.without t).roster fun d => (s.client d).nickname := by
      rw [roster, hroom]
      exact congrArg _ (funext hnick)
    have hlive := (hs.member ⟨hq, ht⟩).1
    apply Follows.notice (m := line) (n := .left (s.client t).nickname)
    case hname =>
      show ((s.leave p t).channel p).name = _
      rw [leave_channel, if_pos rfl]
    case hms => rw [hms, hs.all_eq hin]
    case hn =>
      intro hread
      rw [hline _ hread, if_neg (not_not.mpr rfl)]
    case hroster =>
      exact hroster.trans (Room.roster_without (hs.operators hq) (hs.nameIsFree hq hlive))
  · apply follows_elsewhere hs hin.1 (Output.all (s.channel q).members line c)
    case hchannel =>
      show (s.leave q t).channel p = _
      rw [leave_channel, if_neg hpq]
    case hnick => exact hnick
    case hms => exact hms
    case hnone =>
      intro m hm hread
      rw [List.eq_of_mem_replicate hm] at hread ⊢
      rw [hline _ hread, if_pos (hs.name_ne hin.1 hq (Ne.symm hpq))]

theorem operator_follows (hs : s.Sound) (hq : s.LiveChannel q) {enable : Bool}
    (hop : u ∈ (s.channel q).operators) (ht : t ∈ (s.channel q).members)
    (hne : (s.channel q).isOperator t ≠ enable) (hin : s.InChannel p c) :
    Follows s ((s.updChannel q (·.setModeOperator enable t)).emit
      (Output.all (s.channel q).members
        (operatorNotice (s.client u) (s.client t) (s.channel q).name enable))) p c := by
  have hu : s.InChannel q u := ⟨hq, hs.base.links.operators_members q hq u hop⟩
  have htarget := hs.member_masked ⟨hq, ht⟩
  have hline := fun name => @noticeOf_operator (s.client u) (s.client t) name (s.channel q).name
    (hs.member_masked hu) (hs.isItem_name hq) (isItem_nickname htarget.nickname) enable
  by_cases hpq : p = q
  · subst hpq
    have hself := updChannel_channel_self s p (·.setModeOperator enable t)
    apply Follows.notice (m := operatorNotice (s.client u) (s.client t) (s.channel p).name enable)
      (n := if enable then .raised (s.client t).nickname else .lowered (s.client t).nickname)
    case hname =>
      rw [emit_channel, hself, Channel.setModeOperator]
      split_ifs <;> rfl
    case hms =>
      rw [emit_client, Client.sendAll_replies, hs.all_eq hin]
      rfl
    case hn =>
      intro hread
      rw [hline _ hread, if_neg (not_not.mpr rfl)]
    case hroster =>
      rw [roster, emit_channel, hself]
      cases enable with
      | true =>
        rw [raise_room hne]
        exact Room.roster_raise
      | false =>
        rw [lower_room hne]
        exact Room.roster_lower (hs.operators hq) (hs.nameIsFree hq (hs.member ⟨hq, ht⟩).1)
  · apply follows_elsewhere hs hin.1 (Output.all (s.channel q).members
      (operatorNotice (s.client u) (s.client t) (s.channel q).name enable) c)
    case hchannel => rw [emit_channel, updChannel_channel_of_ne s q p _ hpq]
    case hnick => exact fun _ => rfl
    case hms => rfl
    case hnone =>
      intro m hm hread
      rw [List.eq_of_mem_replicate hm] at hread ⊢
      rw [hline _ hread, if_pos (hs.name_ne hin.1 hq (Ne.symm hpq))]

theorem rename_follows (hs : s.Sound) (hu : s.LiveClient u)
    (hreg : (s.client u).isRegistered = true) (hin : s.InChannel p c) (n : Bytes) :
    Follows s ((s.updClient u fun cl => { cl with nickname := n }).emit
      ((Output.one u (nickNotice (s.client u).nickname n (s.client u).username
          (s.client u).ip)).append
        (outputOnce u (s.neighbours u) (nickNotice (s.client u).nickname n
          (s.client u).username (s.client u).ip)))) p c := by
  generalize hline : nickNotice (s.client u).nickname n (s.client u).username (s.client u).ip = line
  have hms := ((sameStreams_updClient s u (f := fun cl => { cl with nickname := n }) rfl rfl).emit
    ((Output.one u line).append (outputOnce u (s.neighbours u) line))).replies c
  have hnick : ∀ d, ((s.updClient u fun cl => { cl with nickname := n }).client d).nickname =
      Function.update (fun d => (s.client d).nickname) u n d := by
    intro d
    rw [updClient_client, Function.update_apply]
    split_ifs <;> rfl
  by_cases htold : c = u ∨ c ∈ s.neighbours u
  · have hone : (Output.one u line).append (outputOnce u (s.neighbours u) line) c = [line] := by
      by_cases hcu : c = u
      · simp [Output.append, Output.one, outputOnce, hcu]
      · simp [Output.append, Output.one, outputOnce, hcu, htold.resolve_left hcu]
    apply Follows.notice (m := line) (n := .renamed (s.client u).nickname n)
    case hname => rfl
    case hms => rw [hms, hone]
    case hn =>
      intro hread
      rw [← hline] at hread ⊢
      exact noticeOf_nick (hs.masked hu hreg) hread
    case hroster =>
      have hroster : (s.updClient u fun cl => { cl with nickname := n }).roster p =
          (s.channel p).room.roster (Function.update (fun d => (s.client d).nickname) u n) :=
        congrArg _ (funext hnick)
      exact hroster.trans (Room.roster_rename (hs.operators hin.1) (hs.nameIsFree hin.1 hu) n)
  · obtain ⟨hcu, hfar⟩ := not_or.mp htold
    have hout : u ∉ (s.channel p).members := by
      intro hmem
      exact hfar ((mem_neighbours hs.base.links hu c).mpr ⟨p, hin.1, hmem, hin.2⟩)
    apply follows_quiet hs hin.1 []
    case hsame =>
      exact (sameMembers_updClient s u _ rfl id rfl).trans (sameLinks_emit _ _).toSameMembers
    case hnick =>
      intro d hd
      have hne : d ≠ u := fun h => hout (h ▸ hd)
      exact (hnick d).trans (Function.update_of_ne hne _ _)
    case hms =>
      rw [hms]
      simp [Output.append, Output.one, outputOnce, hcu, hfar]
    case hnone => simp

/-- A client that is not registered is in no channel. -/
theorem stranger_follows (hs : s.Sound) (hreg : (s.client u).isRegistered = false)
    (hin : s.InChannel p c) {f : Client → Client} {o : Output} (ho : o c = [])
    (hsame : SameMembers s (s.updClient u f))
    (hreplies : (f (s.client u)).replies = (s.client u).replies) :
    Follows s ((s.updClient u f).emit o) p c := by
  have hout : ∀ d ∈ (s.channel p).members, d ≠ u := by
    rintro d hd rfl
    exact absurd ((hs.member ⟨hin.1, hd⟩).2.symm.trans hreg) (by decide)
  apply follows_quiet hs hin.1 []
  case hsame => exact hsame.trans (sameLinks_emit _ _).toSameMembers
  case hnick =>
    intro d hd
    show ((s.updClient u f).client d).nickname = _
    rw [updClient_client_of_ne s u d f (hout d hd)]
  case hms =>
    rw [emit_client, Client.sendAll_replies, ho,
      updClient_client_of_ne s u c f (hout c hin.2)]
  case hnone => simp

theorem effect_follows (hs : s.Sound) (hu : s.LiveClient u) (h : Effect Clean msg u s s')
    (hin : s.InChannel p c) : Follows s s' p c := by
  have hstranger : ∀ {f : Client → Client}, (s.client u).isRegistered = false →
      SameMembers s (s.updClient u f) → (f (s.client u)).replies = (s.client u).replies →
      Follows s (s.updClient u f) p c := by
    intro f hreg hsame hreplies
    have hfollows := stranger_follows hs hreg hin (o := Output.none) rfl hsame hreplies
    rwa [emit_none] at hfollows
  have hemit : ∀ {o : Output}, (∀ m ∈ o c, Readable m → noticeOf (s.channel p).name m = none) →
      Follows s (s.emit o) p c := fun {o} hnone =>
    follows_quiet hs hin.1 (o c) (sameLinks_emit s o).toSameMembers (fun _ _ => rfl) rfl hnone
  cases h with
  | reply hm =>
    apply hemit
    intro m hin hread
    exact Output.satisfies_one (P := fun m => Readable m → noticeOf _ m = none)
      (noticeOf_reply hm) c m hin hread
  | talk hreg hout =>
    apply hemit
    intro m hm hread
    obtain ⟨rest, hne, -, rfl⟩ := hout c m hm
    exact noticeOf_makeCommand (hs.masked hu hreg) ⟨by decide, by decide, by decide⟩ hne
      (by decide) hread
  | @announce q applied args hq hop hne happlied _ hargs =>
    apply hemit
    intro m hm hread
    rw [List.eq_of_mem_replicate hm] at hread ⊢
    have hu' : s.InChannel q u := ⟨hq, hs.base.links.operators_members q hq u hop⟩
    exact noticeOf_mode (hs.member_masked hu') (hs.isItem_name hq) hne happlied hargs hread
  | @mode q f hq hop hf =>
    apply follows_quiet hs hin.1 []
    case hsame => apply sameMembers_updChannel s q f <;> rw [hf.rest]
    case hnick => exact fun _ _ => rfl
    case hms => exact (List.append_nil _).symm
    case hnone => simp
  | operator hq hop ht hne => exact operator_follows hs hq hop ht hne hin
  | @topic q t hq hu' =>
    apply follows_quiet hs hin.1 (Output.all (s.channel q).members
      (topicNotice (s.client u) (s.channel q).name t) c)
    case hsame =>
      exact (sameMembers_updChannel s q _ rfl rfl rfl).trans (sameLinks_emit _ _).toSameMembers
    case hnick => exact fun _ _ => rfl
    case hms => rfl
    case hnone =>
      intro m hm hread
      rw [List.eq_of_mem_replicate hm] at hread ⊢
      exact noticeOf_makeCommand (hs.member_masked ⟨hq, hu'⟩) ⟨by decide, by decide, by decide⟩
        (by simp [(hs.isItem_name hq).nonempty]) (by decide) hread
  | @invite q d nick name rest _ _ _ _ hq hu' =>
    have hmask := hs.member_masked ⟨hq, hu'⟩
    have hcmd : IsItem (ascii "INVITE") := ⟨by decide, by decide, by decide⟩
    have hcode : 100 ≤ Numeric.rplInviting := by decide
    have hreply := Output.satisfies_one (c := u)
      (P := fun m => Readable m → noticeOf (s.channel p).name m = none)
      (noticeOf_reply (serverReply_makeReply hcode (s.client u).nickname
        ((s.channel q).name ++ ascii " " ++ (s.client d).nickname)))
    have hnotice := Output.satisfies_one (c := d)
      (P := fun m => Readable m → noticeOf (s.channel p).name m = none)
      (m := inviteNotice (s.client u) (s.client d) (s.channel q).name)
      (noticeOf_makeCommand hmask hcmd (by simp [(hs.isItem_name hq).nonempty]) (by decide))
    apply follows_quiet hs hin.1 _
    case hsame => exact (sameMembers_invite s q d).trans (sameLinks_emit _ _).toSameMembers
    case hnick =>
      exact fun e _ => (identity_fields ((sameIdentities_invite s q d).identity e)).2.1
    case hms => exact ((sameStreams_invite s q d).emit _).replies c
    case hnone => exact (hreply.append hnotice) c
  | part hq hu' =>
    exact leave_follows hs hq (fun name hread => noticeOf_part (hs.member_masked ⟨hq, hu'⟩)
      (hs.isItem_name hq) hread) hu' hin
  | @kick q t reason hq hop ht =>
    have hu' : s.InChannel q u := ⟨hq, hs.base.links.operators_members q hq u hop⟩
    have htarget := hs.member_masked ⟨hq, ht⟩
    exact leave_follows hs hq (fun name hread => noticeOf_kick (hs.member_masked hu')
      (hs.isItem_name hq) (isItem_nickname htarget.nickname) hread) ht hin
  | rename hreg => exact rename_follows hs hu hreg hin _
  | nickname hreg => exact hstranger hreg (sameMembers_updClient s u _ rfl id rfl) rfl
  | user hreg => exact hstranger hreg (sameMembers_updClient s u _ rfl id rfl) rfl
  | pass _ _ hreg => exact hstranger hreg (sameMembers_updClient s u _ rfl id rfl) rfl
  | register hreg =>
    have hcu : c ≠ u := by
      rintro rfl
      exact absurd ((hs.member hin).2.symm.trans hreg) (by decide)
    exact stranger_follows hs hreg hin (if_neg hcu)
      (sameMembers_updClient s u _ rfl (fun _ => rfl) rfl) rfl
  | pong =>
    apply follows_quiet hs hin.1 []
    case hsame => exact sameMembers_updClient s u _ rfl id rfl
    case hnick =>
      intro d _
      rw [updClient_client]
      split_ifs with hd
      · rw [hd]
        rfl
      · rfl
    case hms =>
      have hstreams := sameStreams_updClient s u (f := (·.updateLastActivity s.now)) rfl rfl
      exact hstreams.emits.replies c
    case hnone => simp

end effects

end Server
end FtIrc
