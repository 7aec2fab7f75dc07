import FtIrc.Properties.Rosters
import FtIrc.Properties.Admission

/-!
# A member's view of its channel

As long as a client stays in a channel, the lines that it gets are enough to know the nicknames of
its members and of its operators.
-/

namespace FtIrc
namespace Server

section steps

variable {s s' t : Server} {p q : ChannelPtr} {c d u v : ClientPtr} {msg : Message}

theorem Follows.refl (s : Server) (p : ChannelPtr) (c : ClientPtr) : Follows s s p c :=
  Follows.quiet rfl rfl (List.append_nil _).symm (by simp)

theorem effects_follow (hs : s.Sound) (hu : s.LiveClient u) (h : Effects Clean msg u s s')
    (hin : s'.InChannel p c) : s'.Sound ∧ Follows s s' p c := by
  induction h with
  | refl => exact ⟨hs, Follows.refl s p c⟩
  | @tail t s' hrun hstep ih =>
    have hmid := effects_base hrun hs.base
    have hin' := effect_noneJoins hmid.links hstep p c hin
    have hu' : t.LiveClient u := by
      rw [LiveClient, effects_clients hrun]
      exact hu
    obtain ⟨hsound, hfirst⟩ := ih hin'
    exact ⟨hsound.effect hu' hstep, hfirst.trans (effect_follows hsound hu' hstep hin')⟩

theorem popped_follows (hs : s.Sound) (hin : s.InChannel p c) (u : ClientPtr) :
    Follows s (s.popped u) p c := by
  apply follows_quiet hs hin.1 []
  case hsame => exact sameMembers_updClient s u _ rfl id rfl
  case hnick =>
    exact fun d _ => (popped_fields s u d).1
  case hms => exact (sameStreams_popped s u).emits.replies c
  case hnone => simp

/-- The closing line says nothing about the channel. -/
theorem closing_follows (hs : s.Sound) (hin : s.InChannel p c) (u : ClientPtr) (reason : Bytes) :
    Follows s (s.disconnectAfterFlush u reason) p c := by
  apply follows_quiet hs hin.1 (Output.one u (closingLine (s.client u).ip reason) c)
  case hsame => exact (sameLinks_disconnectAfterFlush s u reason).toSameMembers
  case hnick =>
    intro d _
    exact (identity_fields ((sameIdentities_disconnectAfterFlush s u reason).identity d)).2.1
  case hms =>
    rw [disconnectAfterFlush_eq]
    have hmark : SameStreams s ({ s with
        closing := s.closing.insert (s.client u).fd reason }.updClient u (·.markClosing s.now)) :=
      sameStreams_updClient { s with closing := s.closing.insert (s.client u).fd reason } u rfl rfl
    exact (hmark.emit _).replies c
  case hnone =>
    intro m hm hread
    exact Output.satisfies_one (P := fun m => Readable m → noticeOf (s.channel p).name m = none)
      noticeOf_closing c m hm hread

/-! ## Entries -/

/-- Somebody enters the channel. -/
theorem letIn_follows (hs : s.Sound) (hu : s.LiveClient u)
    (hreg : (s.client u).isRegistered = true) (hm : u ∉ (s.channel p).members)
    (hin : s.InChannel p c) : Follows s (s.letIn p u) p c := by
  have hne : (s.channel p).members ≠ [] := hs.base.noGhost p hin.1
  have hcu : c ≠ u := by
    rintro rfl
    exact hm hin.2
  have hname : ((s.enter p u).channel p).name = (s.channel p).name := by
    rw [enter_channel s hm, if_pos rfl]
  have hmask : ((s.enter p u).client u).Masked := by
    have h := hs.masked hu hreg
    rw [enter_client s hm, if_pos rfl]
    exact ⟨h.nickname, h.username, h.ip⟩
  have hnick : ((s.enter p u).client u).nickname = (s.client u).nickname := by
    rw [enter_client s hm, if_pos rfl]
  have hchannel : (s.letIn p u).channel p = (s.enter p u).channel p := by
    rw [letIn_eq, emit_channel]
  apply Follows.notice
    (m := joinNotice ((s.enter p u).client u) ((s.enter p u).channel p).name)
    (n := .joined (s.client u).nickname)
  case hname => rw [hchannel, hname]
  case hms =>
    rw [letIn_eq, ((sameStreams_enter s hm).emit _).replies c]
    have hall : Output.all ((s.enter p u).channel p).members
        (joinNotice ((s.enter p u).client u) ((s.enter p u).channel p).name) c =
        [joinNotice ((s.enter p u).client u) ((s.enter p u).channel p).name] := by
      have hmembers : ((s.enter p u).channel p).members = (s.channel p).members ++ [u] := by
        rw [enter_channel s hm, if_pos rfl]
      have hcount : List.count c ((s.channel p).members ++ [u]) = 1 := by
        rw [List.count_append, List.count_eq_one_of_mem (hs.base.links.members_nodup p hin.1) hin.2,
          List.count_singleton, if_neg (by simpa using hcu.symm)]
      rw [Output.all, hmembers, hcount]
      rfl
    have hlist : ∀ ms, Output.list u ms c = [] := fun ms => if_neg hcu
    rw [Output.append, hall, hlist, List.append_nil]
  case hn =>
    intro hread
    rw [noticeOf_join hmask (by rw [hname]; exact hs.isItem_name hin.1) hread, hname,
      if_neg (not_not.mpr rfl), hnick]
  case hroster =>
    have hnames : (fun d => ((s.letIn p u).client d).nickname) = fun d => (s.client d).nickname :=
      funext fun d => (identity_fields ((sameIdentities_letIn s hm).identity d)).2.1
    rw [roster, letIn_room hm hne, hnames]
    exact Room.roster_letIn

/-- Somebody enters another channel. -/
theorem letIn_elsewhere (hs : s.Sound) (hin : s.InChannel p c)
    (hclient : t.client = s.client) (hchannel : t.channel p = s.channel p) (hpq : p ≠ q)
    (hm : u ∉ (t.channel q).members) (hmask : (s.client u).Masked)
    (hitem : IsItem (t.channel q).name) (hname : (t.channel q).name ≠ (s.channel p).name) :
    Follows s (t.letIn q u) p c := by
  have hname' : ((t.enter q u).channel q).name = (t.channel q).name := by
    rw [enter_channel t hm, if_pos rfl]
  have hmask' : ((t.enter q u).client u).Masked := by
    rw [enter_client t hm, if_pos rfl, hclient]
    exact ⟨hmask.nickname, hmask.username, hmask.ip⟩
  have hjoin : (Output.all ((t.enter q u).channel q).members
      (joinNotice ((t.enter q u).client u) ((t.enter q u).channel q).name)).Satisfies
        fun m => Readable m → noticeOf (s.channel p).name m = none := by
    apply Output.satisfies_all
    intro hread
    rw [noticeOf_join hmask' (hname' ▸ hitem) hread, if_pos (hname' ▸ hname)]
  have hwelcome : (Output.list u ((t.enter q u).welcomeLines q u)).Satisfies
      fun m => Readable m → noticeOf (s.channel p).name m = none := by
    apply Output.satisfies_list
    intro m hmem
    exact noticeOf_reply (welcomeLines_serverReply _ _ _ m hmem)
  apply follows_elsewhere hs hin.1 _
  case hchannel => rw [letIn_channel_of_ne hm hpq, hchannel]
  case hnick =>
    intro d
    rw [(identity_fields ((sameIdentities_letIn t hm).identity d)).2.1, hclient]
  case hms =>
    rw [letIn_eq, ((sameStreams_enter t hm).emit _).replies c, hclient]
  case hnone => exact (hjoin.append hwelcome) c

theorem entry_follows (hs : s.Sound) (hu : s.LiveClient u) (h : Entry Clean msg u s s')
    (hin : s.InChannel p c) : Follows s s' p c := by
  cases h with
  | @join q name rest hcmd hparam hname hq hreg hm =>
    by_cases hpq : p = q
    · subst hpq
      exact letIn_follows hs hu hreg hm hin
    · exact letIn_elsewhere hs hin rfl rfl hpq hm (hs.masked hu hreg) (hs.isItem_name hq)
        (hs.name_ne hin.1 hq (Ne.symm hpq))
  | @create name hreg hname hfree =>
    have hnew : (s.newChannel name).channel (s.heap.addr s.channels.values) =
        Channel.new name := by
      rw [newChannel_channel, if_pos rfl]
    have hpq : p ≠ s.heap.addr s.channels.values := by
      rintro rfl
      exact s.fresh_channel hin.1
    have hother : name ≠ (s.channel p).name := by
      intro heq
      have hfind := hs.base.links.find_live hin.1
      rw [← heq, hfree] at hfind
      cases hfind
    apply letIn_elsewhere hs hin
    case hclient => rfl
    case hchannel => rw [newChannel_channel, if_neg hpq]
    case hpq => exact hpq
    case hm => simp [hnew, Channel.new]
    case hmask => exact hs.masked hu hreg
    case hitem =>
      rw [hnew]
      exact isItem_channelName hname
    case hname =>
      rw [hnew]
      exact hother

theorem line_follows (hs : s.Sound) (hu : s.LiveClient u) (h : Line Clean msg u s s')
    (hin : s.InChannel p c) (hin' : s'.InChannel p c) : Follows s s' p c := by
  cases h with
  | effects heffects => exact (effects_follow hs hu heffects hin').2
  | @closed t reason heffects =>
    have hmid := noneJoins_disconnectAfterFlush t u reason p c hin'
    obtain ⟨hsound, hfollows⟩ := effects_follow hs hu heffects hmid
    exact hfollows.trans (closing_follows hsound hmid u reason)
  | entry hentry => exact entry_follows hs hu hentry hin

/-! ## Departures -/

/-- Who leaves the server is named to those that share a channel with it, and to nobody else. -/
theorem depart_follows (hs : s.Sound) (hv : s.LiveClient v) {cause : Bytes}
    (hdep : Departure s v cause s') (hin : s.InChannel p c) (hin' : s'.InChannel p c) :
    Follows s s' p c := by
  have hchannel := hdep.channel p hin'.1
  have hcv : c ≠ v := by
    have hmem := hin'.2
    rw [hchannel] at hmem
    exact of_decide_eq_true (List.mem_filter.mp hmem).2
  have hms : (s'.client c).replies = (s.client c).replies ++ s.quitOutput v cause c := by
    rw [hdep.client c hcv]
    rfl
  have hname : (s'.channel p).name = (s.channel p).name := by
    rw [hchannel]
    rfl
  have hroster : s'.roster p =
      ((s.channel p).room.forget v).roster fun d => (s.client d).nickname := by
    have hnames : ∀ vs : Finset ClientPtr,
        (vs.erase v).image (fun d => (s'.client d).nickname) =
          (vs.erase v).image fun d => (s.client d).nickname := by
      intro vs
      apply Finset.image_congr
      intro d hd
      have hne := (Finset.mem_erase.mp hd).1
      show (s'.client d).nickname = (s.client d).nickname
      rw [hdep.client d hne]
      rfl
    rw [roster, hchannel, Channel.room_forget]
    apply Roster.ext
    · exact hnames _
    · exact hnames _
  by_cases htold : (s.client v).isRegistered = true ∧ c ∈ s.neighbours v
  · have hquit : s.quitOutput v cause c =
        [makeCommand (s.client v) (ascii "QUIT") (ascii ":" ++ cause)] := by
      rw [quitOutput, if_pos htold.1]
      exact if_pos ⟨hcv, htold.2⟩
    apply Follows.notice (n := .left (s.client v).nickname)
    case hname => exact hname
    case hms => rw [hms, hquit]
    case hn => exact noticeOf_quit (hs.masked hv htold.1)
    case hroster =>
      exact hroster.trans (Room.roster_forget (hs.operators hin.1) (hs.nameIsFree hin.1 hv))
  · have hout : v ∉ (s.channel p).room.members := by
      intro hmem
      have hmember : s.InChannel p v := ⟨hin.1, Channel.mem_room_members.mp hmem⟩
      apply htold
      exact ⟨(hs.member hmember).2,
        (mem_neighbours hs.base.links hv c).mpr ⟨p, hin.1, hmember.2, hin.2⟩⟩
    have hquiet : s.quitOutput v cause c = [] := by
      rw [quitOutput]
      split_ifs with hreg
      · exact if_neg fun h => htold ⟨hreg, h.2⟩
      · rfl
    apply Follows.quiet hname _ hms
    · rw [hquiet]
      simp
    · exact hroster.trans (Room.roster_forget_of_notMem (hs.operators hin.1) hout)

theorem background_follows (hs : s.Sound) (h : Background Clean s s') (hin : s.InChannel p c)
    (hin' : s'.InChannel p c) : Follows s s' p c := by
  cases h with
  | frame => exact Follows.quiet rfl rfl (List.append_nil _).symm (by simp)
  | @buffers u f hf =>
    have hkeep := (hf (s.client u)).1
    apply follows_quiet hs hin.1 []
    case hsame => exact (BufferChange.sameLinks hf s u).toSameMembers
    case hnick =>
      intro d _
      rw [updClient_client]
      split_ifs with hd
      · rw [hkeep, hd]
      · rfl
    case hms =>
      rw [updClient_client, List.append_nil]
      split_ifs with hc
      · rw [hkeep, hc]
      · rfl
    case hnone => simp
  | @ping u =>
    rw [sendReply_eq_emit]
    apply follows_quiet hs hin.1 _ (sameLinks_emit _ _).toSameMembers (fun _ _ => rfl) rfl
    intro m hm _
    exact Output.satisfies_one (P := fun m => noticeOf (s.channel p).name m = none)
      noticeOf_ping c m hm
  | close => exact closing_follows hs hin _ _
  | @depart fd v reason hfd =>
    have hdep := (disconnect_departure hs.base.links hs.base.noGhost hfd reason).1
    exact depart_follows hs ⟨fd, hfd⟩ hdep hin hin'

theorem backgrounds_follow (hs : s.Sound) (h : Relation.ReflTransGen (Background Clean) s s')
    (hin : s'.InChannel p c) : s'.Sound ∧ Follows s s' p c := by
  induction h with
  | refl => exact ⟨hs, Follows.refl s p c⟩
  | @tail t s' hrun hstep ih =>
    have hin' := background_noneJoins (backgrounds_base hrun hs.base) hstep p c hin
    obtain ⟨hsound, hfirst⟩ := ih hin'
    exact ⟨hsound.background hstep,
      hfirst.trans (background_follows hsound hstep hin' hin)⟩

end steps

/-! ## Runs -/

section runs

variable {s s' : Server} {p : ChannelPtr} {c : ClientPtr}

/-- One event: the lines that it brings account for all that it changes in the channel. -/
theorem step_follows (hs : s.Sound) {e : Event} (he : Enabled s e) (hin : s.InChannel p c)
    (hin' : (step s e).InChannel p c) : Follows s (step s e) p c := by
  by_cases hline : ∃ fd, e = .line fd
  · obtain ⟨fd, rfl⟩ := hline
    obtain ⟨u, hu, hready⟩ := he
    rw [step_line hu] at hin' ⊢
    have hpop := popped_follows hs hin u
    rcases line_receiveLine textPred_clean hs.base ⟨fd, hu⟩
        (serves_clean.lines s fd u ⟨u, hu, hready⟩ hu) with heq | ⟨msg, -, hrun⟩
    · rw [heq]
      exact hpop
    · exact hpop.trans (line_follows (hs.popped u) ⟨fd, hu⟩ hrun hin hin')
  by_cases haccept : ∃ fd addr, e = .accept (.accepted fd addr)
  · obtain ⟨fd, addr, rfl⟩ := haccept
    have hlive : ∀ d, s.LiveClient d → ((step s (.accept (.accepted fd addr))).client d) =
        s.client d := fun d hd => accept_client_live s fd addr hd
    have hchannel : (step s (.accept (.accepted fd addr))).channel p = s.channel p := rfl
    have hreplies : ((step s (.accept (.accepted fd addr))).client c).replies =
        (s.client c).replies ++ [] := by
      rw [hlive c (hs.member hin).1, List.append_nil]
    apply Follows.quiet (congrArg Channel.name hchannel) _ hreplies (by simp)
    apply roster_congr (congrArg Channel.members hchannel) (congrArg Channel.operators hchannel)
      (hs.base.links.operators_members p hin.1)
    intro d hd
    rw [hlive d (hs.member ⟨hin.1, hd⟩).1]
  · have hbackground := background_event textPred_clean hs.base
      (fun fd addr h => haccept ⟨fd, addr, h⟩) fun fd h => hline ⟨fd, h⟩
    exact (backgrounds_follow hs hbackground hin').2

/-- The server as long as a client stays in a channel. -/
def whileMember (p : ChannelPtr) (c : ClientPtr) : System Server Event :=
  ircserv.restrict fun s e => (step s e).InChannel p c

theorem run_follows (hs : ircserv.Reachable s) (hin : s.InChannel p c) {es : List Event}
    (hrun : (whileMember p c).Run s es s') : Follows s s' p c := by
  induction hrun with
  | nil s => exact Follows.refl s p c
  | @cons s s' e es he _ ih =>
    obtain ⟨hen, hstays⟩ := he
    have hfirst := step_follows (reachable_sound hs) hen hin hstays
    exact hfirst.trans (ih (.step hs hen) hstays)

/-- A client that stays in a channel and starts from the nicknames of its members and operators
knows them at the end of every run from the lines that it has got, if none of them was cut. -/
theorem rosters_agree {s s' : Server} (hs : ircserv.Reachable s) {p : ChannelPtr} {c : ClientPtr}
    (hin : s.InChannel p c) {es : List Event} (hrun : (whileMember p c).Run s es s') :
    ∃ ms, (s'.client c).replies = (s.client c).replies ++ ms ∧
      ((∀ m ∈ ms, m.length ≤ 510) →
        (ms.filterMap (noticeOf (s.channel p).name)).foldl Roster.hear (s.roster p) =
          s'.roster p) := by
  obtain ⟨ms, hms, htold⟩ := (run_follows hs hin hrun).told
  refine ⟨ms, hms, fun hlength => htold fun m hm => ⟨?_, hlength m hm⟩⟩
  have hclean := (reachable_clean (hrun.of_restrict.reachable hs)).1.replies c m
  rw [hms] at hclean
  exact hclean (List.mem_append_right _ hm)

end runs

/-- `ann` has a channel with `bob` in it. -/
def annHosts : List Event :=
  annAndBob ++ typed 4 (ascii "JOIN #a") ++ typed 5 (ascii "JOIN #a")

/-- `bob` takes another nickname and becomes an operator. -/
def bobRises : List Event :=
  typed 5 (ascii "NICK rob") ++ typed 4 (ascii "MODE #a +o rob")

theorem rosters_agree_ann : ∃ s s', session annHosts = some s ∧
    (s.channel 1).operators = [1] ∧ (whileMember 1 1).Run s bobRises s' ∧
    (s'.channel 1).operators = [1, 2] ∧ (s'.client 2).nickname = ascii "rob" ∧
    ∃ ms, (s'.client 1).replies = (s.client 1).replies ++ ms ∧
      (ms.filterMap (noticeOf (s.channel 1).name)).foldl Roster.hear (s.roster 1) =
        s'.roster 1 := by
  obtain ⟨s, hs, hview⟩ := Option.bind_eq_some_iff.mp (by decide +kernel :
    (session annHosts).bind (fun s =>
      ((whileMember 1 1).play
        (fun s e => enabled s e && decide ((step s e).channels.find? (ascii "#a") = some 1 ∧
          1 ∈ ((step s e).channel 1).members)) s bobRises).map fun s' =>
        (decide (s.channels.find? (ascii "#a") = some 1 ∧ 1 ∈ (s.channel 1).members ∧
          (s.channel 1).operators = [1]),
        decide ((s'.channel 1).operators = [1, 2] ∧ (s'.client 2).nickname = ascii "rob"),
        (s'.client 1).replies.all fun m => decide (m.length ≤ 510))) =
      some (true, true, true))
  obtain ⟨s', hs', hview⟩ := Option.map_eq_some_iff.mp hview
  simp only [Prod.mk.injEq, decide_eq_true_eq, List.all_eq_true] at hview
  obtain ⟨⟨hp, hin, hop⟩, ⟨hop', hnick⟩, hlength⟩ := hview
  have hrun : (whileMember 1 1).Run s bobRises s' := by
    apply System.Run.of_play _ hs'
    intro t e ht
    rw [Bool.and_eq_true, decide_eq_true_eq] at ht
    exact ⟨enabled_sound t e ht.1, ⟨_, ht.2.1⟩, ht.2.2⟩
  obtain ⟨ms, hms, htold⟩ := rosters_agree (session_reachable hs) ⟨⟨_, hp⟩, hin⟩ hrun
  refine ⟨s, s', hs, hop, hrun, hop', hnick, ms, hms, htold fun m hm => hlength m ?_⟩
  rw [hms]
  exact List.mem_append_right _ hm

end Server
end FtIrc
