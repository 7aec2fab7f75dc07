import FtIrc.Effects.Rooms
import FtIrc.Effects.Sessions

/-!
# Operator authority

The rights of the network of rooms hold in the server: each change of a channel by a line was made
with the rights that its client had in front of the line, and what is not a line only removes
clients that are disconnected.
-/

namespace FtIrc
namespace Server

/-! ## The server does what the network does -/

/-- The key that a line offers: the second parameter. -/
def offeredKey (raw : Bytes) : Option Bytes :=
  (spliter raw).map fun msg => msg.parameter.getD 1 []

section refinement

variable {s : Server} {e : Event}

theorem line_event_refines (hb : s.Base Clean) {fd : Fd} {u : ClientPtr}
    (hu : s.clients.find? fd = some u) (he : Enabled s (.line fd)) :
    Net.Line u (offeredKey (s.nextLine u)) s.net (step s (.line fd)).net := by
  rw [step_line hu]
  rcases line_receiveLine textPred_clean hb ⟨fd, hu⟩ (serves_clean.lines s fd u he hu) with
    heq | ⟨msg, hmsg, hrun⟩
  · rw [heq]
    exact .acts .refl
  · have hkey : offeredKey (s.nextLine u) = some (msg.parameter.getD 1 []) := by
      rw [offeredKey, nextLine, hmsg]
      rfl
    have hline := line_refines (pop_base hb u) hrun
    rwa [net_updClient, ← hkey] at hline

theorem other_event_refines (hb : s.Base Clean) (he : Enabled s e) (hline : ∀ fd, e ≠ .line fd) :
    ∃ vs : List ClientPtr, (∀ v ∈ vs, s.LiveClient v ∧ ¬ (step s e).LiveClient v) ∧
      (step s e).net = vs.foldl Net.depart s.net := by
  by_cases haccept : ∃ fd addr, e = .accept (.accepted fd addr)
  · obtain ⟨fd, addr, rfl⟩ := haccept
    exact ⟨[], by simp, rfl⟩
  · apply backgrounds_depart hb
    apply background_event textPred_clean hb
    · intro fd addr h
      exact haccept ⟨fd, addr, h⟩
    · exact hline

end refinement

/-- Every step of the server is a step of the network: a line is run with the rights of its
client, and any other event only takes out the clients that it disconnects. -/
theorem step_refines_net {s : Server} (hs : ircserv.Reachable s) {e : Event} (he : Enabled s e) :
    (∀ fd u, e = .line fd → s.clients.find? fd = some u →
        Net.Line u (offeredKey (s.nextLine u)) s.net (step s e).net) ∧
      ((∀ fd, e ≠ .line fd) →
        ∃ vs : List ClientPtr, (∀ v ∈ vs, s.LiveClient v ∧ ¬ (step s e).LiveClient v) ∧
          (step s e).net = vs.foldl Net.depart s.net) := by
  have hb := (reachable_clean hs).2
  constructor
  · rintro fd u rfl hu
    exact line_event_refines hb hu he
  · intro hline
    exact other_event_refines hb he hline

/-- `ann` has a channel with `bob` in it and asks to close it to others. -/
def annCloses : List Event :=
  annAndBob ++ typed 4 (ascii "JOIN #a") ++ typed 5 (ascii "JOIN #a") ++
    [.recv 4 (.data (ascii "MODE #a +i\r\n"))]

theorem step_refines_net_ann : ∃ s, session annCloses = some s ∧
    (s.net (ascii "#a")).map (fun r => r.modes.inviteOnly) = some false ∧
    ((step s (.line 4)).net (ascii "#a")).map (fun r => r.modes.inviteOnly) = some true ∧
    Net.Line 1 (offeredKey (s.nextLine 1)) s.net (step s (.line 4)).net := by
  obtain ⟨s, hs, hview⟩ := Option.map_eq_some_iff.mp (by decide +kernel :
    (session annCloses).map (fun s =>
      (enabled s (.line 4), s.clients.find? 4,
        (s.net (ascii "#a")).map (fun r => r.modes.inviteOnly),
        ((step s (.line 4)).net (ascii "#a")).map (fun r => r.modes.inviteOnly))) =
      some (true, some 1, some false, some true))
  simp only [Prod.mk.injEq] at hview
  obtain ⟨hen, hann, hbefore, hafter⟩ := hview
  exact ⟨s, hs, hbefore, hafter,
    (step_refines_net (session_reachable hs) (enabled_sound _ _ hen)).1 4 1 rfl hann⟩

/-! ## Rights in a channel -/

/-- Each difference between `ch` and `ch'` is one that `u` had the right to make. -/
structure Authorized (u : ClientPtr) (ch ch' : Channel) : Prop where
  inviteOnly : ch'.inviteOnly ≠ ch.inviteOnly → u ∈ ch.operators
  topicByOpOnly : ch'.topicByOpOnly ≠ ch.topicByOpOnly → u ∈ ch.operators
  key : ch'.key ≠ ch.key → u ∈ ch.operators
  userLimit : ch'.userLimit ≠ ch.userLimit → u ∈ ch.operators
  promoted : ∀ v ∈ ch'.operators, v ∉ ch.operators → u ∈ ch.operators
  demoted : ∀ v ∈ ch.operators, v ∉ ch'.operators → v = u ∨ u ∈ ch.operators
  expelled : ∀ v ∈ ch.members, v ∉ ch'.members → v = u ∨ u ∈ ch.operators
  topic : ch'.topic ≠ ch.topic →
    u ∈ ch.members ∧ (ch.topicByOpOnly = true → u ∈ ch.operators)
  invited : ∀ v ∈ ch'.invitedUsers, v ∉ ch.invitedUsers →
    u ∈ ch.members ∧ (ch.inviteOnly = true → u ∈ ch.operators)

section channels

variable {u : ClientPtr} {ch ch' : Channel}

theorem authorized_of_room (h : Room.Authority u ch.room ch'.room) : Authorized u ch ch' := by
  have hmodes : u ∉ ch.operators → ch'.room.modes = ch.room.modes := by
    intro hu
    by_contra hne
    exact hu (Channel.mem_room_operators.mp (h.modes hne))
  constructor
  case inviteOnly =>
    intro hne
    by_contra hu
    exact hne (Channel.room_modes_eq (hmodes hu)).1
  case topicByOpOnly =>
    intro hne
    by_contra hu
    exact hne (Channel.room_modes_eq (hmodes hu)).2.1
  case key =>
    intro hne
    by_contra hu
    exact hne (Channel.room_modes_eq (hmodes hu)).2.2.1
  case userLimit =>
    intro hne
    by_contra hu
    exact hne (Channel.room_modes_eq (hmodes hu)).2.2.2
  case promoted => simpa using h.promoted
  case demoted => simpa using h.demoted
  case expelled => simpa using h.expelled
  case topic => simpa [Channel.room] using h.topic
  case invited => simpa [Channel.room] using h.invited

theorem authorized_of_letIn (h : ch'.room = ch.room.letIn u) : Authorized u ch ch' := by
  have hmodes : ch'.room.modes = ch.room.modes := by
    rw [h]
    rfl
  have hmodes := Channel.room_modes_eq hmodes
  have hmembers : ∀ v, v ∈ ch'.members ↔ v = u ∨ v ∈ ch.members := by
    intro v
    rw [← Channel.mem_room_members, h]
    simp [Room.letIn]
  have hoperators : ∀ v, v ∈ ch'.operators ↔ v ∈ ch.operators := by
    intro v
    rw [← Channel.mem_room_operators, h]
    simp [Room.letIn]
  have hinvited : ∀ v, v ∈ ch'.invitedUsers → v ∈ ch.invitedUsers := by
    intro v hv
    rw [← Channel.mem_room_invited, h] at hv
    exact Channel.mem_room_invited.mp (Finset.mem_of_mem_erase hv)
  have htopic : ch'.topic = ch.topic := congrArg Room.topic h
  constructor
  case inviteOnly => exact fun hne => absurd hmodes.1 hne
  case topicByOpOnly => exact fun hne => absurd hmodes.2.1 hne
  case key => exact fun hne => absurd hmodes.2.2.1 hne
  case userLimit => exact fun hne => absurd hmodes.2.2.2 hne
  case promoted => exact fun v hv hn => absurd ((hoperators v).mp hv) hn
  case demoted => exact fun v hv hn => absurd ((hoperators v).mpr hv) hn
  case expelled => exact fun v hv hn => absurd ((hmembers v).mpr (.inr hv)) hn
  case topic => exact fun hne => absurd htopic hne
  case invited => exact fun v hv hn => absurd (hinvited v hv) hn

end channels

/-- A channel that a line opens: its client is alone in it and governs it, and no mode is set. -/
structure Opened (u : ClientPtr) (ch : Channel) : Prop where
  members : ∀ c, c ∈ ch.members ↔ c = u
  operators : ∀ c, c ∈ ch.operators ↔ c = u
  invitedUsers : ch.invitedUsers = []
  modes : ch.inviteOnly = false ∧ ch.topicByOpOnly = false ∧ ch.key = [] ∧ ch.userLimit = 0
  topic : ch.topic = []

theorem opened_of_room {u : ClientPtr} {ch : Channel} (h : ch.room = Room.founded u) :
    Opened u ch := by
  have hnew : (Room.founded u : Room ClientPtr Bytes Bytes).modes = (Channel.new []).room.modes :=
    rfl
  constructor
  · intro c
    rw [← Channel.mem_room_members, h]
    simp [Room.founded]
  · intro c
    rw [← Channel.mem_room_operators, h]
    simp [Room.founded]
  · have hinvited : ch.room.invited = ∅ := congrArg Room.invited h
    simpa [Channel.room] using hinvited
  · exact Channel.room_modes_eq ((congrArg Room.modes h).trans hnew)
  · exact congrArg Room.topic h

/-- The channel without the clients `vs`. -/
structure Abandoned (vs : List ClientPtr) (ch ch' : Channel) : Prop where
  members : ∀ c, c ∈ ch'.members ↔ c ∈ ch.members ∧ c ∉ vs
  operators : ∀ c, c ∈ ch'.operators ↔ c ∈ ch.operators ∧ c ∉ vs
  invitedUsers : ∀ c, c ∈ ch'.invitedUsers ↔ c ∈ ch.invitedUsers ∧ c ∉ vs
  modes : ch'.inviteOnly = ch.inviteOnly ∧ ch'.topicByOpOnly = ch.topicByOpOnly ∧
    ch'.key = ch.key ∧ ch'.userLimit = ch.userLimit
  topic : ch'.topic = ch.topic

theorem abandoned_of_room {vs : List ClientPtr} {ch ch' : Channel}
    (h : ch'.room = vs.foldl Room.forget ch.room) : Abandoned vs ch ch' := by
  rw [Room.foldl_forget] at h
  constructor
  · intro c
    rw [← Channel.mem_room_members, h]
    simp
  · intro c
    rw [← Channel.mem_room_operators, h]
    simp
  · intro c
    rw [← Channel.mem_room_invited, h]
    simp
  · apply Channel.room_modes_eq
    rw [h]
  · exact congrArg Room.topic h

theorem other_event_abandons {s : Server} (hb : s.Base Clean) {e : Event} (he : Enabled s e)
    (hline : ∀ fd, e ≠ .line fd) :
    ∃ vs : List ClientPtr, (∀ v ∈ vs, s.LiveClient v ∧ ¬ (step s e).LiveClient v) ∧
      ∀ k p', (step s e).channels.find? k = some p' →
        ∃ p, s.channels.find? k = some p ∧
          Abandoned vs (s.channel p) ((step s e).channel p') := by
  obtain ⟨vs, hvs, hnet⟩ := other_event_refines hb he hline
  refine ⟨vs, hvs, fun k p' hk' => ?_⟩
  have hroom' := net_of_find hk'
  rw [hnet] at hroom'
  obtain ⟨r, hr, hforget⟩ := Net.departs_eq_some hroom'
  obtain ⟨p, hp, rfl⟩ := net_eq_some hr
  exact ⟨p, hp, abandoned_of_room hforget⟩

/-- A line changes a channel with the rights of its client only and opens a channel for its
client alone; all other events just remove clients that are disconnected. -/
theorem operator_authority {s : Server} (hs : ircserv.Reachable s) {e : Event}
    (he : Enabled s e) :
    (∀ fd u, e = .line fd → s.clients.find? fd = some u → ∀ k p',
        (step s e).channels.find? k = some p' →
          (∀ p, s.channels.find? k = some p →
            Authorized u (s.channel p) ((step s e).channel p')) ∧
          (s.channels.find? k = none → Opened u ((step s e).channel p'))) ∧
      ((∀ fd, e ≠ .line fd) →
        ∃ vs : List ClientPtr, (∀ v ∈ vs, s.LiveClient v ∧ ¬ (step s e).LiveClient v) ∧
          ∀ k p', (step s e).channels.find? k = some p' →
            ∃ p, s.channels.find? k = some p ∧
              Abandoned vs (s.channel p) ((step s e).channel p')) := by
  have hb := (reachable_clean hs).2
  constructor
  · rintro fd u rfl hu k p' hk'
    have hline := line_event_refines hb hu he
    have hroom' := net_of_find hk'
    constructor
    · intro p hk
      rcases hline.authority (net_of_find hk) hroom' with hauth | ⟨-, hletIn⟩
      · exact authorized_of_room hauth
      · exact authorized_of_letIn hletIn
    · intro hnone
      apply opened_of_room
      apply hline.founded (k := k) _ hroom'
      rw [net, hnone]
      rfl
  · intro hline
    exact other_event_abandons hb he hline

theorem operator_authority_ann : ∃ s, session annCloses = some s ∧
    (s.channel 1).inviteOnly = false ∧ ((step s (.line 4)).channel 1).inviteOnly = true ∧
    Authorized 1 (s.channel 1) ((step s (.line 4)).channel 1) := by
  obtain ⟨s, hs, hview⟩ := Option.map_eq_some_iff.mp (by decide +kernel :
    (session annCloses).map (fun s =>
      (enabled s (.line 4), s.clients.find? 4, s.channels.find? (ascii "#a"),
        (step s (.line 4)).channels.find? (ascii "#a"), (s.channel 1).inviteOnly,
        ((step s (.line 4)).channel 1).inviteOnly)) =
      some (true, some 1, some 1, some 1, false, true))
  simp only [Prod.mk.injEq] at hview
  obtain ⟨hen, hann, hk, hk', hbefore, hafter⟩ := hview
  have hline := (operator_authority (session_reachable hs) (enabled_sound _ _ hen)).1 4 1 rfl hann
  exact ⟨s, hs, hbefore, hafter, (hline _ 1 hk').1 1 hk⟩

/-! ## Channels that nobody governs -/

/-- What becomes of a channel without operators. -/
structure Ungoverned (ch ch' : Channel) : Prop where
  operators : ch'.operators = []
  modes : ch'.inviteOnly = ch.inviteOnly ∧ ch'.topicByOpOnly = ch.topicByOpOnly ∧
    ch'.key = ch.key ∧ ch'.userLimit = ch.userLimit
  topic : ch.topicByOpOnly = true → ch'.topic = ch.topic
  circle : ch.inviteOnly = true → ∀ c, c ∈ ch'.members ∨ c ∈ ch'.invitedUsers →
    c ∈ ch.members ∨ c ∈ ch.invitedUsers

theorem ungoverned_of_room {ch ch' : Channel} (h : ch.room.Frozen ch'.room) :
    Ungoverned ch ch' := by
  constructor
  · simpa [Channel.room] using h.operators
  · exact Channel.room_modes_eq h.modes
  · exact h.topic
  · intro hi c hc
    have hin := Finset.subset_iff.mp (h.circle hi)
    simp only [Finset.mem_union, Channel.mem_room_members, Channel.mem_room_invited] at hin
    exact hin hc

theorem event_frozen {s : Server} (hb : s.Base Clean) {e : Event} (he : Enabled s e) {k : Bytes}
    {r r' : Room ClientPtr Bytes Bytes} (hr : s.net k = some r)
    (hr' : (step s e).net k = some r') (hop : r.operators = ∅) : r.Frozen r' := by
  by_cases hline : ∃ fd, e = .line fd
  · obtain ⟨fd, rfl⟩ := hline
    obtain ⟨u, hu, -⟩ := id he
    exact (line_event_refines hb hu he).frozen hr hr' hop
  · obtain ⟨vs, -, hnet⟩ := other_event_refines hb he fun fd h => hline ⟨fd, h⟩
    rw [hnet] at hr'
    obtain ⟨r₀, hr₀, rfl⟩ := Net.departs_eq_some hr'
    obtain rfl : r₀ = r := Option.some.inj (hr₀.symm.trans hr)
    exact Net.departs_frozen hop

/-- The server as long as there is a channel of that name. -/
def whileOpen (name : Bytes) : System Server Event :=
  ircserv.restrict fun s e => ((step s e).findChannel name).isSome = true

theorem room_frozen {name : Bytes} {s s' : Server} {es : List Event}
    (hrun : (whileOpen name).Run s es s') (hs : ircserv.Reachable s)
    {r : Room ClientPtr Bytes Bytes} (hr : s.net (toLower name) = some r)
    (hop : r.operators = ∅) : ∃ r', s'.net (toLower name) = some r' ∧ r.Frozen r' := by
  induction hrun generalizing r with
  | nil s => exact ⟨r, hr, .refl hop⟩
  | @cons s s' e es he _ ih =>
    obtain ⟨hen, hopen⟩ := he
    obtain ⟨p, hp⟩ := Option.isSome_iff_exists.mp hopen
    have hnext : (step s e).net (toLower name) = some ((step s e).channel p).room :=
      net_of_find hp
    have hfirst := event_frozen (reachable_clean hs).2 hen hr hnext hop
    obtain ⟨r', hr', hrest⟩ := ih (.step hs hen) hnext hfirst.operators
    exact ⟨r', hr', hfirst.trans hrest⟩

/-- A channel that has lost its last operator never gets one again while it exists: nobody can
change its modes any more, nor its topic when `+t` is set, nor invite anyone when `+i` is set. -/
theorem operatorless_frozen {s s' : Server} (hs : ircserv.Reachable s) {name : Bytes}
    {p : ChannelPtr} (hp : s.findChannel name = some p) (hop : (s.channel p).operators = [])
    {es : List Event} (hrun : (whileOpen name).Run s es s') :
    ∃ p', s'.findChannel name = some p' ∧ Ungoverned (s.channel p) (s'.channel p') := by
  obtain ⟨r', hr', hfrozen⟩ := room_frozen hrun hs (net_of_find hp) (by simpa [Channel.room])
  obtain ⟨p', hp', rfl⟩ := net_eq_some hr'
  exact ⟨p', hp', ungoverned_of_room hfrozen⟩

/-- `ann` has closed the channel of `annCloses` and left it to `bob`. -/
def annLeaves : List Event := annCloses ++ .line 4 :: typed 4 (ascii "PART #a")

theorem operatorless_frozen_bob : ∃ s s', session annLeaves = some s ∧
    (s.channel 1).members = [2] ∧ (s.channel 1).inviteOnly = true ∧
    (whileOpen (ascii "#a")).Run s (typed 4 (ascii "JOIN #a")) s' ∧
    ∃ p', s'.findChannel (ascii "#a") = some p' ∧ Ungoverned (s.channel 1) (s'.channel p') := by
  obtain ⟨s, hs, hview⟩ := Option.bind_eq_some_iff.mp (by decide +kernel :
    (session annLeaves).bind (fun s =>
      ((whileOpen (ascii "#a")).play
        (fun s e => enabled s e && ((step s e).findChannel (ascii "#a")).isSome) s
        (typed 4 (ascii "JOIN #a"))).map fun _ =>
      (s.findChannel (ascii "#a"), (s.channel 1).members, (s.channel 1).operators,
        (s.channel 1).inviteOnly)) =
      some (some 1, [2], [], true))
  obtain ⟨s', hs', hview⟩ := Option.map_eq_some_iff.mp hview
  simp only [Prod.mk.injEq] at hview
  obtain ⟨hp, hmembers, hop, hclosed⟩ := hview
  have hrun : (whileOpen (ascii "#a")).Run s (typed 4 (ascii "JOIN #a")) s' := by
    apply System.Run.of_play _ hs'
    intro t e ht
    rw [Bool.and_eq_true] at ht
    exact ⟨enabled_sound t e ht.1, ht.2⟩
  exact ⟨s, s', hs, hmembers, hclosed, hrun,
    operatorless_frozen (session_reachable hs) hp hop hrun⟩

end Server
end FtIrc
