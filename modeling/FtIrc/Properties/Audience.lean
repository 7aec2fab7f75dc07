import FtIrc.Effects.Delivery
import FtIrc.Effects.Sessions
import FtIrc.Effects.Wording

/-!
# The audience of a PRIVMSG

Who receives a message is decided by the target alone: the other members of the channel it names,
or the client it names, or the sender, who is told that there is nobody.
-/

namespace FtIrc
namespace Server

/-- The channel is the one that the text names. -/
def NamesChannel (s : Server) (target : Bytes) (p : ChannelPtr) : Prop :=
  s.LiveChannel p ∧ toLower (s.channel p).name = toLower target

/-- The client is the one that the text names. -/
def NamesClient (s : Server) (target : Bytes) (d : ClientPtr) : Prop :=
  s.LiveClient d ∧ (s.client d).isRegistered = true ∧
    toLower (s.client d).nickname = toLower target

/-- `s'` is `s` after the text has been sent by `c` to the target. -/
structure Addressed (s : Server) (c : ClientPtr) (target text : Bytes) (s' : Server) : Prop where
  channel : ∀ p, s.NamesChannel target p → c ∈ (s.channel p).members →
    Delivery s s' (makeCommand (s.client c) (ascii "PRIVMSG")
      ((s.channel p).name ++ ascii " :" ++ text)) (fun d => d ≠ c ∧ d ∈ (s.channel p).members)
  outsider : ∀ p, s.NamesChannel target p → c ∉ (s.channel p).members →
    Delivery s s' (makeReply Numeric.errCannotSendToChan (s.client c).nickname
      ((s.channel p).name ++ ascii " :Cannot send to channel")) (· = c)
  client : (∀ p, ¬ s.NamesChannel target p) → ∀ d, s.NamesClient target d →
    Delivery s s' (makeCommand (s.client c) (ascii "PRIVMSG")
      ((s.client d).nickname ++ ascii " :" ++ text)) (· = d)
  nobody : (∀ p, ¬ s.NamesChannel target p) → (∀ d, ¬ s.NamesClient target d) →
    Delivery s s' (makeReply Numeric.errNoSuchNick (s.client c).nickname
      (target ++ ascii " :No such nick/channel")) (· = c)

section lookups

variable {s : Server}

theorem findChannel_iff (hl : s.Links) {target : Bytes} {p : ChannelPtr} :
    s.findChannel target = some p ↔ s.NamesChannel target p := by
  constructor
  · intro h
    exact ⟨⟨_, h⟩, hl.channel_key _ p h⟩
  · intro ⟨hp, hname⟩
    rw [findChannel, ← hname]
    exact hl.find_live hp

theorem findClient_iff (hi : s.Identities) {target : Bytes} {d : ClientPtr} :
    s.findClientByNickname target = some d ↔ s.NamesClient target d := by
  constructor
  · intro h
    exact findClient_some h
  · intro ⟨hd, hreg, hname⟩
    cases hfind : s.findClientByNickname target with
    | none =>
      have hnone := List.find?_eq_none.mp hfind d ((liveClient_iff_mem s d).mp hd)
      simp [hreg, hname] at hnone
    | some e =>
      obtain ⟨he, hereg, hename⟩ := findClient_some hfind
      have hne := (hi.registered e he hereg).2.1
      exact congrArg some (hi.unique e d he hd hne (hename.trans hname.symm))

end lookups

theorem executePrivmsg_addressed {s : Server} {c : ClientPtr} {msg : Message} (hl : s.Links)
    (hi : s.Identities) (hreg : (s.client c).isRegistered = true)
    (htarget : msg.parameter.headD [] ≠ []) (htext : msg.parameter.getD 1 [] ≠ []) :
    s.Addressed c (msg.parameter.headD []) (msg.parameter.getD 1 []) (s.executePrivmsg c msg) := by
  have hnick : IrcReply.targetname (s.client c) = (s.client c).nickname := by
    simp [IrcReply.targetname, hreg]
  generalize hmsg : msg.parameter.headD [] = target at htarget ⊢
  generalize hmsg' : msg.parameter.getD 1 [] = text at htext ⊢
  have htarget' : target.isEmpty = false := by simpa using htarget
  have htext' : text.isEmpty = false := by simpa using htext
  have hchannel : ∀ p, s.findChannel target = some p →
      s.executePrivmsg c msg = s.handleChannelPrivmsg p c text := by
    intro p hp
    simp only [executePrivmsg, hmsg, hmsg', htarget', htext', hp, Bool.false_eq_true, if_false]
  have hnone : (∀ p, ¬ s.NamesChannel target p) → s.findChannel target = none := by
    intro hno
    exact Option.eq_none_iff_forall_ne_some.mpr fun p hp => hno p ((findChannel_iff hl).mp hp)
  constructor
  · intro p hp hm
    have hmember : (s.channel p).isMember c = true := by simpa [Channel.isMember] using hm
    rw [hchannel p ((findChannel_iff hl).mpr hp)]
    simp only [handleChannelPrivmsg, hmember, Bool.not_true, Bool.false_eq_true, if_false,
      sendToAllExcept_eq_emit]
    refine (delivery_all ((hl.members_nodup p hp.1).filter _) s _).congr fun d => ?_
    rw [List.mem_filter]
    simp [and_comm]
  · intro p hp hm
    have hmember : (s.channel p).isMember c = false := by simpa [Channel.isMember] using hm
    rw [hchannel p ((findChannel_iff hl).mpr hp)]
    simp only [handleChannelPrivmsg, hmember, Bool.not_false, if_true, sendOne_eq_emit]
    exact delivery_one s c _
  · intro hno d hd
    have hrun : s.executePrivmsg c msg = s.handlePersonalPrivmsg c d text := by
      simp only [executePrivmsg, hmsg, hmsg', htarget', htext', hnone hno,
        (findClient_iff hi).mpr hd, Bool.false_eq_true, if_false]
    rw [hrun]
    simp only [handlePersonalPrivmsg, sendReply_eq_emit]
    exact delivery_one s d _
  · intro hno hnobody
    have hnone' : s.findClientByNickname target = none :=
      Option.eq_none_iff_forall_ne_some.mpr fun d hd => hnobody d ((findClient_iff hi).mp hd)
    have hrun : s.executePrivmsg c msg =
        s.replyTo c Numeric.errNoSuchNick (target ++ ascii " :No such nick/channel") := by
      simp only [executePrivmsg, hmsg, hmsg', htarget', htext', hnone hno, hnone',
        Bool.false_eq_true, if_false]
    rw [hrun]
    simp only [replyTo, hnick, sendReply_eq_emit]
    exact delivery_one s c _

/-- A PRIVMSG line with a target and a text, in the order of the line loop: once it is taken out of
the buffer, its delivery is the only thing that happens. -/
theorem privmsg_audience {s : Server} (h : ircserv.Reachable s) {fd : Fd} {c : ClientPtr}
    (hc : s.clients.find? fd = some c) (hreg : (s.client c).isRegistered = true) {msg : Message}
    (hmsg : spliter (s.nextLine c) = some msg) (hcmd : msg.command = ascii "PRIVMSG")
    (htarget : msg.parameter.headD [] ≠ []) (htext : msg.parameter.getD 1 [] ≠ []) :
    (s.popped c).Addressed c (msg.parameter.headD []) (msg.parameter.getD 1 [])
      (step s (.line fd)) := by
  have hb := pop_base (reachable_clean h).2 c
  have hi := (reachable_identities h).congr (sameIdentities_popped s c)
  have hreg' := (popped_fields s c c).2.trans hreg
  have hfound : findCommand msg.command = some .privmsg := by
    rw [hcmd]
    decide
  have hrun : step s (.line fd) = (s.popped c).executePrivmsg c msg := by
    rw [step_line hc, receiveLine_dispatch hmsg]
    simp [dispatch, hfound, needLogin, hreg', execute]
  rw [hrun]
  exact executePrivmsg_addressed hb.links hi hreg' htarget htext

/-- `ann` and `bob` are in a channel, and `carol` is not; `ann` has sent a message to the channel. -/
def annTalks : List Event :=
  annAndBob ++ registers 6 (ascii "carol") ++ typed 4 (ascii "JOIN #a") ++
    typed 5 (ascii "JOIN #A") ++ [.recv 4 (.data (ascii "PRIVMSG #A :hi bob\n"))]

theorem privmsg_audience_ann : ∃ s, session annTalks = some s ∧
    (s.popped 1).NamesChannel (ascii "#A") 1 ∧ ((s.popped 1).channel 1).members = [1, 2] ∧
    (s.popped 1).Addressed 1 (ascii "#A") (ascii "hi bob") (step s (.line 4)) := by
  obtain ⟨s, hs, hview⟩ := Option.map_eq_some_iff.mp (by decide +kernel :
    (session annTalks).map (fun s =>
      (s.clients.find? 4, (s.client 1).isRegistered,
        decide (spliter (s.nextLine 1) =
          some ⟨false, [], ascii "PRIVMSG", [ascii "#A", ascii "hi bob"]⟩),
        decide (s.channels.find? (ascii "#a") = some 1 ∧ (s.channel 1).name = ascii "#a" ∧
          (s.channel 1).members = [1, 2]))) =
        some (some 1, true, true, true))
  simp only [Prod.mk.injEq, decide_eq_true_eq] at hview
  obtain ⟨hc, hreg, hmsg, hp, hname, hmembers⟩ := hview
  have hnames : (s.popped 1).NamesChannel (ascii "#A") 1 := by
    refine ⟨⟨_, hp⟩, ?_⟩
    show toLower (s.channel 1).name = _
    rw [hname]
    decide
  exact ⟨s, hs, hnames, hmembers, privmsg_audience (session_reachable hs) hc hreg hmsg rfl
    (by decide) (by decide)⟩

end Server
end FtIrc
