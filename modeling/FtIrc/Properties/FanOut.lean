import FtIrc.Effects.Closing

/-!
# Who is told of a new nickname and of a departure

Both notices go along the channels of a client and reach everybody there once, however many channels
they share.
-/

namespace FtIrc
namespace Server

/-- The two are members of one channel. -/
def Share (s : Server) (c d : ClientPtr) : Prop :=
  ∃ p, s.LiveChannel p ∧ c ∈ (s.channel p).members ∧ d ∈ (s.channel p).members

/-- The line is enqueued once for each of the recipients, and nothing else is enqueued. -/
structure EnqueuedOnce (s s' : Server) (m : Bytes) (recipient : ClientPtr → Prop) : Prop where
  told : ∀ d, recipient d → (s'.client d).replies = (s.client d).replies ++ [m] ∧
    (s'.client d).writeBuffer = (s.client d).writeBuffer ++ frame m
  rest : ∀ d, ¬ recipient d → (s'.client d).replies = (s.client d).replies ∧
    (s'.client d).writeBuffer = (s.client d).writeBuffer

section fanOut

variable {s s' : Server} {c u : ClientPtr}

theorem Emits.enqueuedOnce {o : Output} (h : Emits s s' o) {m : Bytes}
    {recipient : ClientPtr → Prop} (htold : ∀ d, recipient d → o d = [m])
    (hrest : ∀ d, ¬ recipient d → o d = []) : EnqueuedOnce s s' m recipient := by
  constructor <;> intro d hd
  · rw [h.replies, h.writeBuffer, htold d hd]
    simp
  · rw [h.replies, h.writeBuffer, hrest d hd]
    simp

/-- The map of the client and the member lists of the channels say the same. -/
theorem mem_neighbours (hl : s.Links) (hc : s.LiveClient c) (d : ClientPtr) :
    d ∈ s.neighbours c ↔ s.Share c d := by
  rw [neighbours, List.mem_flatMap]
  constructor
  · rintro ⟨p, hp, hd⟩
    obtain ⟨n, hn⟩ := (StdMap.mem_values _).mp hp
    obtain ⟨hlive, -, hin⟩ := hl.joined c hc n p hn
    exact ⟨p, hlive, hin, hd⟩
  · rintro ⟨p, hlive, hin, hd⟩
    exact ⟨p, (StdMap.mem_values _).mpr ⟨_, (hl.member p hlive c hin).2.2⟩, hd⟩

/-! ## A new nickname -/

/-- A NICK that takes effect. -/
theorem executeNick_renames {msg : Message} (hl : s.Links) (hu : s.LiveClient u)
    (hreg : (s.client u).isRegistered = true)
    (hne : ((s.executeNick u msg).client u).nickname ≠ (s.client u).nickname) :
    EnqueuedOnce s (s.executeNick u msg)
      (nickNotice (s.client u).nickname ((s.executeNick u msg).client u).nickname
        (s.client u).username (s.client u).ip) (fun d => d = u ∨ s.Share u d) := by
  have hreply : ∀ m, ((s.sendReply u m).client u).nickname = (s.client u).nickname := by
    intro m
    rw [sendReply_eq_emit]
    rfl
  have hset := updClient_client_self s u fun cl => { cl with nickname := msg.parameter.headD [] }
  unfold executeNick at hne ⊢
  dsimp only at hne ⊢
  split_ifs at hne ⊢ with hempty hvalid htaken hsame
  · exact absurd (hreply _) hne
  · exact absurd (hreply _) hne
  · exact absurd (hreply _) hne
  · rw [hset] at hne
    exact absurd hsame.symm hne
  · have hnb : (s.updClient u fun cl =>
        { cl with nickname := msg.parameter.headD [] }).neighbours u = s.neighbours u := by
      simp [neighbours]
    rw [broadcastNickChange_eq, hnb, emit_client, hset]
    refine ((sameStreams_updClient s u rfl rfl).emit _).enqueuedOnce (fun d hd => ?_) fun d hd => ?_
    · by_cases hdu : d = u
      · simp [Output.append, Output.one, outputOnce, hdu]
      · have hin := (mem_neighbours hl hu d).mpr (hd.resolve_left hdu)
        simp [Output.append, Output.one, outputOnce, hdu, hin]
    · obtain ⟨hdu, hshare⟩ := not_or.mp hd
      have hin : d ∉ s.neighbours u := fun h => hshare ((mem_neighbours hl hu d).mp h)
      simp [Output.append, Output.one, outputOnce, hdu, hin]

/-- A round of the line loop that gives a registered client another nickname. -/
theorem receiveLine_renames (hb : s.Base Clean) {fd : Fd} (hc : s.clients.find? fd = some c)
    (hready : s.lineReady fd c = true) (hreg : (s.client c).isRegistered = true)
    (hne : ((s.receiveLine c).client c).nickname ≠ (s.client c).nickname) :
    EnqueuedOnce s (s.receiveLine c)
      (nickNotice (s.client c).nickname ((s.receiveLine c).client c).nickname
        (s.client c).username (s.client c).ip) (fun d => d = c ∨ s.Share c d) := by
  have hpop : SameStreams s (s.updClient c fun cl => cl.popLine.2) :=
    sameStreams_updClient s c rfl rfl
  have hid : ((s.updClient c fun cl => cl.popLine.2).client c).identity = (s.client c).identity := by
    rw [updClient_client_self]
    rfl
  obtain ⟨hip, hnick, huser, -, hreg', -⟩ := identity_fields hid
  have hraw := serves_clean.lines s fd c ⟨c, hc, hready⟩ hc
  rcases line_receiveLine textPred_clean hb ⟨fd, hc⟩ hraw with heq | ⟨msg, hmsg, hline⟩
  · rw [heq] at hne
    exact absurd hnick hne
  · have hcmd : findCommand msg.command = some .nick := by
      by_contra hcmd
      have hsame := line_identity hline (hreg'.trans hreg) hcmd
      exact hne ((congrArg Identity.nickname hsame).trans hnick)
    have hrun : s.receiveLine c = (s.updClient c fun cl => cl.popLine.2).executeNick c msg := by
      rw [receiveLine_dispatch hmsg, popped]
      simp [dispatch, hcmd, needLogin, execute]
    have hlive : (s.updClient c fun cl => cl.popLine.2).LiveClient c := ⟨fd, hc⟩
    rw [hrun] at hne ⊢
    rw [← hnick] at hne
    have honce := executeNick_renames (pop_base hb c).links hlive (hreg'.trans hreg) hne
    rw [hnick, huser, hip] at honce
    refine ⟨fun d hd => ?_, fun d hd => ?_⟩
    · rw [← (hpop d).1, ← (hpop d).2]
      exact honce.told d hd
    · rw [← (hpop d).1, ← (hpop d).2]
      exact honce.rest d hd

/-! ## A departure -/

/-- `u` is the state in front of the disconnection of the descriptor in a cleanup that starts in
`s`. -/
def CleaningUp (s : Server) (fd : Fd) (mark : Bytes) (u : Server) : Prop :=
  ∃ before after, s.toDisconnected.entries = before ++ (fd, mark) :: after ∧
    u = { s with toDisconnected := StdMap.empty }.disconnectAll before

theorem disconnect_enqueuedOnce (hl : s.Links) (hg : s.NoGhost) {fd : Fd}
    (hc : s.clients.find? fd = some c) (hreg : (s.client c).isRegistered = true) (mark : Bytes) :
    EnqueuedOnce s (s.disconnect fd mark)
      (makeCommand (s.client c) (ascii "QUIT")
        (ascii ":" ++ (s.closing.find? fd).getD mark)) (fun d => d ≠ c ∧ s.Share c d) := by
  have hemits := (disconnect_departure hl hg hc mark).1.emits
  rw [quitOutput, if_pos hreg] at hemits
  refine hemits.enqueuedOnce (fun d hd => ?_) fun d hd => ?_
  · exact if_pos ⟨hd.1, (mem_neighbours hl ⟨fd, hc⟩ d).mpr hd.2⟩
  · exact if_neg fun h => hd ⟨h.1, (mem_neighbours hl ⟨fd, hc⟩ d).mp h.2⟩

theorem cleaningUp_base (hb : s.Base Clean) {fd : Fd} {mark : Bytes} {t : Server}
    (h : s.CleaningUp fd mark t) : t.Base Clean := by
  obtain ⟨before, after, hsplit, rfl⟩ := h
  have hreasons := marked_reasons hb
  rw [hsplit] at hreasons
  have hb₀ := background_base (background_unmark hb) hb
  exact backgrounds_base (background_disconnectAll hb₀ fun e he => hreasons e (by simp [he])) hb₀

/-- Whatever happens, a registered client that gets another nickname is announced once to itself and
to each client that shares a channel with it; and when the cleanup comes to a registered client, its
QUIT is announced once to each other client that then shares a channel with it. -/
theorem fanOut_exact (h : ircserv.Reachable s) :
    (∀ e c, Enabled s e → s.LiveClient c → (s.client c).isRegistered = true →
      ((step s e).client c).nickname ≠ (s.client c).nickname →
      EnqueuedOnce s (step s e)
        (nickNotice (s.client c).nickname ((step s e).client c).nickname
          (s.client c).username (s.client c).ip) (fun d => d = c ∨ s.Share c d)) ∧
    ∀ fd mark t c, s.CleaningUp fd mark t → t.clients.find? fd = some c →
      (t.client c).isRegistered = true →
      EnqueuedOnce t (t.disconnect fd mark)
        (makeCommand (t.client c) (ascii "QUIT")
          (ascii ":" ++ (t.closing.find? fd).getD mark)) (fun d => d ≠ c ∧ t.Share c d) := by
  have hb := (reachable_clean h).2
  constructor
  · intro e c he hc hreg hne
    by_cases hline : s.IsLineOf c e
    · obtain ⟨fd, rfl, hfd⟩ := hline
      rw [step_line hfd] at hne ⊢
      exact receiveLine_renames hb hfd (lineReady_of_enabled he hfd) hreg hne
    · have hsame := (step_record hb hc he hline).identity
      exact absurd (identity_fields hsame).2.1 hne
  · intro fd mark t c ht hc hreg
    have hbt := cleaningUp_base hb ht
    exact disconnect_enqueuedOnce hbt.links hbt.noGhost hc hreg mark

end fanOut

/-- `ann` and `bob` share two channels and `carol` is in none; `ann` has sent a NICK, and the connection
of `bob` is broken. -/
def annRenames : List Event :=
  annAndBob ++ registers 6 (ascii "carol") ++ typed 4 (ascii "JOIN #a") ++
    typed 4 (ascii "JOIN #b") ++ typed 5 (ascii "JOIN #a") ++ typed 5 (ascii "JOIN #b") ++
    [.recv 4 (.data (ascii "NICK eve\r\n")), .pollError 5]

theorem fanOut_exact_ann : ∃ s, session annRenames = some s ∧ s.Share 1 2 ∧
    EnqueuedOnce s (step s (.line 4)) (ascii ":ann!ann@127.0.0.1 NICK :eve")
      (fun d => d = 1 ∨ s.Share 1 d) ∧
    ∃ t, s.CleaningUp 5 (ascii "Connection error") t ∧
      EnqueuedOnce t (t.disconnect 5 (ascii "Connection error"))
        (ascii ":bob!bob@127.0.0.1 QUIT :Connection error") (fun d => d ≠ 2 ∧ t.Share 2 d) := by
  obtain ⟨s, hs, hview⟩ := Option.map_eq_some_iff.mp (by decide +kernel :
    (session annRenames).map (fun s =>
      (enabled s (.line 4), decide (s.clients.find? 4 = some 1 ∧ s.clients.find? 5 = some 2 ∧
          (s.client 1).isRegistered = true ∧ (s.client 2).isRegistered = true),
        decide (s.channels.find? (ascii "#a") = some 1 ∧ (s.channel 1).members = [1, 2]),
        decide (nickNotice (s.client 1).nickname ((step s (.line 4)).client 1).nickname
          (s.client 1).username (s.client 1).ip = ascii ":ann!ann@127.0.0.1 NICK :eve" ∧
          ((step s (.line 4)).client 1).nickname ≠ (s.client 1).nickname),
        decide (s.toDisconnected.entries = [(5, ascii "Connection error")] ∧
          makeCommand (s.client 2) (ascii "QUIT") (ascii ":" ++
            (s.closing.find? 5).getD (ascii "Connection error")) =
              ascii ":bob!bob@127.0.0.1 QUIT :Connection error"))) =
      some (true, true, true, true, true))
  simp only [Prod.mk.injEq, decide_eq_true_eq] at hview
  obtain ⟨hen, ⟨h4, h5, hreg1, hreg2⟩, ⟨hp, hm⟩, ⟨hnotice, hne⟩, hmarks, hquit⟩ := hview
  have hall := fanOut_exact (session_reachable hs)
  have hrename := hall.1 (.line 4) 1 (enabled_sound _ _ hen) ⟨4, h4⟩ hreg1 hne
  rw [hnotice] at hrename
  refine ⟨s, hs, ⟨1, ⟨_, hp⟩, by simp [hm], by simp [hm]⟩, hrename,
    { s with toDisconnected := StdMap.empty }, ⟨[], [], hmarks, rfl⟩, ?_⟩
  have hleave := hall.2 5 (ascii "Connection error") { s with toDisconnected := StdMap.empty } 2
    ⟨[], [], hmarks, rfl⟩ h5 hreg2
  exact hquit ▸ hleave

end Server
end FtIrc
