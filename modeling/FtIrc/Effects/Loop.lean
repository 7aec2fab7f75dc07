import FtIrc.Effects.Delivery
import FtIrc.Effects.Marks
import FtIrc.Effects.Registration
import FtIrc.Effects.Sessions

/-!
# The loop, seen from one connection

In the order of the loop, the idle check comes right after the cleanup, so every event is one step of
the shutdown of a connection. What a connection receives while it shuts down comes from others.
-/

namespace FtIrc

namespace Server

/-! ## Runs of the loop -/

theorem run_reachable {t : Phase × Server} (h : run.Reachable t) : ircserv.Reachable t.2 := by
  induction h with
  | init h => exact .init h.2
  | step _ he ih => exact .step ih he.2

theorem run_base {t : Phase × Server} (h : run.Reachable t) : t.2.Base Clean :=
  (reachable_clean (run_reachable h)).2

theorem after_idle {phase : Phase} (h : (phase.after .idle).isSome = true) : phase = .idle := by
  cases phase with
  | refresh | serve => cases h
  | idle => rfl

theorem after_eq_idle {phase : Phase} {e : Event} (h : phase.after e = some .idle) :
    e = .cleanup ∨ (phase = .idle ∧ ∃ now, e = .tick now) := by
  cases phase <;> cases e <;> simp_all [Phase.after]

/-- The marks are worked off in front of the idle check. -/
theorem idle_unmarked {t : Phase × Server} (h : run.Reachable t) (hphase : t.1 = .idle) :
    t.2.toDisconnected = StdMap.empty := by
  have hall : t.1 = .idle → t.2.toDisconnected = StdMap.empty := by
    refine System.Reachable.invariant (I := fun t : Phase × Server => t.1 = .idle →
      t.2.toDisconnected = StdMap.empty) (fun t ht hphase => ?_) (fun t e ht ih he hphase => ?_) h
    · rw [ht.1] at hphase
      cases hphase
    · obtain ⟨phase, s⟩ := t
      have hafter : phase.after e = some .idle := by
        obtain ⟨p, hp⟩ := Option.isSome_iff_exists.mp he.1
        have hnext : (phase.after e).getD phase = .idle := hphase
        rw [show phase.after e = some p from hp] at hnext ⊢
        exact congrArg some hnext
      rcases after_eq_idle hafter with rfl | ⟨rfl, now, rfl⟩
      · exact (cleanup_targets (run_base ht) 0).2.2
      · exact ih rfl
  exact hall hphase

/-- Each event of the loop is a step of the shutdown, as long as the connection is there. -/
theorem run_shutdown {t : Phase × Server} (h : run.Reachable t) {e : Event}
    (he : run.Enabled t e) {fd : Fd} {c : ClientPtr} (hc : t.2.clients.find? fd = some c)
    (hc' : (step t.2 e).clients.find? fd = some c) :
    Shutdown.Step (t.2.shutdown fd) ((step t.2 e).shutdown fd) := by
  have hb := run_base h
  by_cases hcleanup : e = .cleanup
  · subst hcleanup
    have hmark : ¬ t.2.isMarked fd = true := by
      intro hmark
      have hgone := (cleanup_targets hb fd).1
      rw [if_pos hmark] at hgone
      exact absurd (hc'.symm.trans hgone) (by simp)
    show Shutdown.Step _ (t.2.cleanupDisconnected.shutdown fd)
    rw [shutdown_cleanup hb, if_neg hmark]
    exact .same _
  by_cases hidle : e = .idle
  · subst hidle
    have hmarks := idle_unmarked h (after_idle he.1)
    show Shutdown.Step _ (t.2.checkIdleClients.shutdown fd)
    rw [checkIdleClients_shutdown hb.links hc]
    refine step_idleOutcome _ _ ?_
    rw [Server.shutdown, hmarks]
    rfl
  · exact step_shutdown hb he.2 hcleanup hidle fd

/-- The loop as long as `c` is connected on the descriptor. -/
def connection (fd : Fd) (c : ClientPtr) : System (Phase × Server) Event :=
  run.restrict fun t e => (step t.2 e).clients.find? fd = some c

/-- A test of the events of `connection`. -/
def stays (fd : Fd) (c : ClientPtr) (t : Phase × Server) (e : Event) : Bool :=
  loopEnabled t e && decide ((step t.2 e).clients.find? fd = some c)

theorem stays_sound {fd : Fd} {c : ClientPtr} (t : Phase × Server) (e : Event)
    (h : stays fd c t e = true) : (connection fd c).Enabled t e := by
  rw [stays, Bool.and_eq_true] at h
  exact ⟨loopEnabled_sound t e h.1, of_decide_eq_true h.2⟩

/-- A property of a connection that each of its steps keeps. -/
theorem connection_induct {fd : Fd} {c : ClientPtr} {R : Phase × Server → Prop}
    {t t' : Phase × Server} {es : List Event} (ht : run.Reachable t)
    (hc : t.2.clients.find? fd = some c) (hR : R t) (h : (connection fd c).Run t es t')
    (hstep : ∀ u e, run.Reachable u → u.2.clients.find? fd = some c → run.Enabled u e →
      (step u.2 e).clients.find? fd = some c → R u → R (run.next u e)) :
    R t' ∧ run.Reachable t' ∧ t'.2.clients.find? fd = some c := by
  induction h with
  | nil t => exact ⟨hR, ht, hc⟩
  | cons he _ ih => exact ih (.step ht he.1) he.2 (hstep _ _ ht hc he.1 he.2 hR)

theorem connection_steps {fd : Fd} {c : ClientPtr} {t t' : Phase × Server} {es : List Event}
    (ht : run.Reachable t) (hc : t.2.clients.find? fd = some c)
    (h : (connection fd c).Run t es t') :
    Relation.ReflTransGen Shutdown.Step (t.2.shutdown fd) (t'.2.shutdown fd) :=
  (connection_induct ht hc (R := fun u =>
    Relation.ReflTransGen Shutdown.Step (t.2.shutdown fd) (u.2.shutdown fd)) .refl h
    fun _ _ hu hcu he hcu' ih => ih.tail (run_shutdown hu he hcu hcu')).1

/-! ## Lines of others -/

/-- Lines that others send to `c`, and nothing else of its connection changes. -/
def Hears (s s' : Server) (c : ClientPtr) : Prop :=
  (s'.client c).wire = (s.client c).wire ∧
    ∃ ms, (s'.client c).replies = (s.client c).replies ++ ms ∧
      ∀ m ∈ ms, ∃ d, d ≠ c ∧ s.LiveClient d ∧ Sourced (s.client d) m

section hears

variable {P : Bytes → Prop} {s s' : Server} {c u : ClientPtr}

theorem hears_of_eq (h : s'.client c = s.client c) : Hears s s' c :=
  ⟨by rw [h], [], by rw [h, List.append_nil], fun _ hm => by cases hm⟩

/-- A registered client keeps its identity, unless it sends NICK. -/
theorem effect_identity {msg : Message} (h : Effect P msg u s s')
    (hreg : (s.client u).isRegistered = true) (hcmd : findCommand msg.command ≠ some .nick) :
    (s'.client u).identity = (s.client u).identity := by
  cases h with
  | reply | talk | announce | mode | operator | topic => rfl
  | invite => exact (sameIdentities_invite s _ _).identity u
  | part | kick => exact (sameIdentities_leave s _ _).identity u
  | rename _ _ _ _ hnick => exact absurd hnick hcmd
  | nickname hun | user hun | pass _ _ hun | register hun =>
    exact absurd (hun.symm.trans hreg) (by decide)
  | pong =>
    rw [updClient_client_self]
    rfl

theorem effects_identity {msg : Message} (h : Effects P msg u s s')
    (hreg : (s.client u).isRegistered = true) (hcmd : findCommand msg.command ≠ some .nick) :
    (s'.client u).identity = (s.client u).identity := by
  induction h with
  | refl => rfl
  | tail _ hstep ih =>
    exact (effect_identity hstep ((congrArg Identity.isRegistered ih).trans hreg) hcmd).trans ih

theorem line_identity {msg : Message} (h : Line P msg u s s')
    (hreg : (s.client u).isRegistered = true) (hcmd : findCommand msg.command ≠ some .nick) :
    (s'.client u).identity = (s.client u).identity := by
  cases h with
  | effects h => exact effects_identity h hreg hcmd
  | closed h =>
    exact ((sameIdentities_disconnectAfterFlush _ u _).identity u).trans
      (effects_identity h hreg hcmd)
  | entry h => exact (entry_identities h).identity u

/-- What the issuer of a line says to `c`. -/
structure Speaking (s s' : Server) (u c : ClientPtr) : Prop where
  wire : (s'.client c).wire = (s.client c).wire
  said : ∃ ms, (s'.client c).replies = (s.client c).replies ++ ms ∧
    ∀ m ∈ ms, Sourced (s.client u) m

theorem Speaking.effect {msg : Message} {t : Server} (h : Speaking s t u c) (hc : c ≠ u)
    (hreg : (s.client u).isRegistered = true)
    (hid : (t.client u).identity = (s.client u).identity) (hstep : Effect P msg u t s') :
    Speaking s s' u c := by
  obtain ⟨ms, hms, hsaid⟩ := h.said
  refine ⟨(effect_wires hstep c).trans h.wire, ?_⟩
  obtain ⟨o, ho, hcase⟩ := effect_emits hstep
  refine ⟨ms ++ o c, by rw [ho.replies, hms, List.append_assoc], fun m hm => ?_⟩
  rcases List.mem_append.mp hm with hm | hm
  · exact hsaid m hm
  · rcases hcase with ⟨hspoken, -⟩ | ⟨hun, -, -⟩
    · rcases hspoken c m hm with hm | ⟨heq, -⟩
      · exact hm.congr hid.symm
      · exact absurd heq hc
    · exact absurd (hun.symm.trans ((congrArg Identity.isRegistered hid).trans hreg)) (by decide)

theorem line_speaking {msg : Message} (h : Line P msg u s s') (hc : c ≠ u)
    (hreg : (s.client u).isRegistered = true) (hcmd : findCommand msg.command ≠ some .nick) :
    Speaking s s' u c := by
  have heffects : ∀ {t}, Effects P msg u s t → Speaking s t u c := by
    intro t h
    induction h with
    | refl => exact ⟨rfl, [], (List.append_nil _).symm, fun _ hm => by cases hm⟩
    | tail h hstep ih => exact ih.effect hc hreg (effects_identity h hreg hcmd) hstep
  cases h with
  | effects h => exact heffects h
  | @closed t reason h =>
    have hmid := heffects h
    have hother := disconnectAfterFlush_client t u c reason
    rw [if_neg hc] at hother
    refine ⟨?_, ?_⟩
    · rw [hother]
      exact hmid.wire
    · rw [hother]
      exact hmid.said
  | entry h =>
    obtain ⟨o, ho, hspoken⟩ := entry_emits h
    refine ⟨entry_wires h c, o c, ho.replies c, fun m hm => ?_⟩
    rcases hspoken c m hm with hm | ⟨heq, -⟩
    · exact hm
    · exact absurd heq hc

/-- The others are told of a new nickname under the old one. -/
theorem executeNick_hears {msg : Message} (hreg : (s.client u).isRegistered = true)
    (hu : s.LiveClient u) (hc : c ≠ u) : Hears s (s.executeNick u msg) c := by
  have hreply : ∀ m, Hears s (s.sendReply u m) c := fun m =>
    hears_of_eq (updClient_client_of_ne s u c _ hc)
  have hset : ∀ f, (s.updClient u f).client c = s.client c := fun f =>
    updClient_client_of_ne s u c f hc
  unfold executeNick
  dsimp only
  split_ifs
  · exact hreply _
  · exact hreply _
  · exact hreply _
  · exact hears_of_eq (hset _)
  · rw [broadcastNickChange_eq, updClient_client_self]
    have hemits := (sameStreams_updClient s u (f := fun cl =>
      { cl with nickname := msg.parameter.headD [] }) rfl rfl).emit
    refine ⟨?_, _, (hemits _).replies c, fun m hm => ⟨u, hc.symm, hu, ?_⟩⟩
    · show ((s.updClient u _).client c).wire = _
      rw [hset]
    have hnotice := sourced_nickNotice (s.client u) (msg.parameter.headD [])
    rcases (spokenBy_one hnotice).append (spokenBy_once hnotice) c m hm with hm | ⟨heq, -⟩
    · exact hm
    · exact absurd heq hc

/-- Nobody but registered clients is heard by others. -/
theorem hears_receiveLine (hb : s.Base Clean) {fd : Fd} (hu : s.clients.find? fd = some u)
    (hready : s.lineReady fd u = true) (hc : c ≠ u) : Hears s (s.receiveLine u) c := by
  have hpop : (s.popped u).client c = s.client c := updClient_client_of_ne s u c _ hc
  have hid := (sameIdentities_popped s u).identity u
  cases hreg : (s.client u).isRegistered with
  | false =>
    refine hears_of_eq ?_
    have hreg' := (congrArg Identity.isRegistered hid).trans hreg
    unfold receiveLine
    dsimp only
    split_ifs
    · exact hpop
    · exact ((private_operate hreg' _).client c hc).trans hpop
  | true =>
    have hreg' := (congrArg Identity.isRegistered hid).trans hreg
    rcases line_receiveLine textPred_clean hb ⟨fd, hu⟩
        (serves_clean.lines s fd u ⟨u, hu, hready⟩ hu) with heq | ⟨msg, hmsg, hrun⟩
    · rw [heq]
      exact hears_of_eq hpop
    · have hheard : Hears (s.popped u) (s.receiveLine u) c := by
        by_cases hcmd : findCommand msg.command = some .nick
        · have hnick : (s.popped u).dispatch u msg = (s.popped u).executeNick u msg := by
            simp [dispatch, hcmd, needLogin, execute]
          rw [receiveLine_dispatch hmsg, hnick]
          exact executeNick_hears hreg' ⟨fd, hu⟩ hc
        · have hspeak := line_speaking (c := c) hrun hc hreg' hcmd
          obtain ⟨ms, hms, hsaid⟩ := hspeak.said
          exact ⟨hspeak.wire, ms, hms, fun m hm => ⟨u, hc.symm, ⟨fd, hu⟩, hsaid m hm⟩⟩
      obtain ⟨hwire, ms, hms, hsaid⟩ := hheard
      rw [hpop] at hwire hms
      refine ⟨hwire, ms, hms, fun m hm => ?_⟩
      obtain ⟨d, hd, hlive, hm⟩ := hsaid m hm
      exact ⟨d, hd, hlive, hm.congr ((sameIdentities_popped s u).identity d).symm⟩

theorem Hears.trans {t : Server} (h : Hears s s' c) (h' : Hears s' t c)
    (hid : SameIdentities s s') : Hears s t c := by
  obtain ⟨hwire, ms, hms, hsaid⟩ := h
  obtain ⟨hwire', ms', hms', hsaid'⟩ := h'
  refine ⟨hwire'.trans hwire, ms ++ ms', by rw [hms', hms, List.append_assoc], fun m hm => ?_⟩
  rcases List.mem_append.mp hm with hm | hm
  · exact hsaid m hm
  · obtain ⟨d, hd, hlive, hm⟩ := hsaid' m hm
    exact ⟨d, hd, hid.live d hlive, hm.congr (hid.identity d).symm⟩

theorem Departure.hears {cause : Bytes} (h : Departure s u cause s') (hu : s.LiveClient u)
    (hc : c ≠ u) : Hears s s' c := by
  refine ⟨?_, _, h.emits.replies c, fun m hm => ⟨u, hc.symm, hu, ?_⟩⟩
  · rw [h.client c hc]
    rfl
  · rcases spokenBy_quit s u cause c m hm with hm | ⟨heq, -⟩
    · exact hm
    · exact absurd heq hc

theorem disconnect_none (s : Server) {fd : Fd} (hfd : s.clients.find? fd = none) (reason : Bytes) :
    (s.disconnect fd reason).client = s.client := by
  simp only [disconnect, hfd]
  rfl

/-- The QUIT notices of a cleanup. -/
theorem hears_disconnectAll (hb : s.Base P) {fd : Fd} (hc : s.clients.find? fd = some c)
    {targets : List (Fd × Bytes)} (ht : ∀ e ∈ targets, P e.2)
    (hfd : ∀ e ∈ targets, e.1 ≠ fd) : Hears s (s.disconnectAll targets) c := by
  induction targets generalizing s with
  | nil => exact hears_of_eq rfl
  | cons e es ih =>
    have hne := hfd e List.mem_cons_self
    have hrun := background_disconnect hb e.1 (ht e List.mem_cons_self)
    have hb' := backgrounds_base hrun hb
    have hrest := disconnect_rest hb.links hb.noGhost e.1 e.2
    have hc' : (s.disconnect e.1 e.2).clients.find? fd = some c := by
      rw [hrest]
      show (s.clients.erase e.1).find? fd = some c
      rw [StdMap.find?_erase, if_neg hne.symm]
      exact hc
    have htail := ih hb' hc' (fun e' he' => ht e' (List.mem_cons_of_mem _ he'))
      fun e' he' => hfd e' (List.mem_cons_of_mem _ he')
    have hhead : Hears s (s.disconnect e.1 e.2) c ∧ SameIdentities s (s.disconnect e.1 e.2) := by
      cases hfind : s.clients.find? e.1 with
      | none =>
        have hclient := disconnect_none s hfind e.2
        refine ⟨hears_of_eq (by rw [hclient]), fun d ⟨k, hk⟩ => ⟨k, ?_⟩, fun d => by rw [hclient]⟩
        exact backgrounds_find hb hrun hk
      | some d =>
        have hcd : c ≠ d := by
          rintro rfl
          exact hne ((hb.links.client_fd _ _ hfind).symm.trans (hb.links.client_fd _ _ hc))
        have hdep := (disconnect_departure hb.links hb.noGhost hfind e.2).1
        exact ⟨hdep.hears ⟨e.1, hfind⟩ hcd, hdep.sameIdentities⟩
    exact hhead.1.trans htail hhead.2

theorem hears_cleanup (hb : s.Base P) {fd : Fd} (hc : s.clients.find? fd = some c)
    (hmark : ¬ s.isMarked fd = true) : Hears s s.cleanupDisconnected c := by
  have hclear := background_unmark hb
  have hall := hears_disconnectAll (background_base hclear hb) (s := { s with
    toDisconnected := StdMap.empty }) hc (marked_reasons hb) fun e he heq => hmark ?_
  · exact hall
  · rw [isMarked_iff]
    exact ⟨e.2, s.toDisconnected.find?_eq_some.mpr (heq ▸ he)⟩

end hears

/-! ## Events -/

/-- What the poll loop does for the descriptor, up to its disconnection. -/
inductive OfDescriptor (fd : Fd) : Event → Prop
  | recv (r : RecvResult) : OfDescriptor fd (.recv fd r)
  | line : OfDescriptor fd (.line fd)
  | send (r : SendResult) : OfDescriptor fd (.send fd r)
  | pollError : OfDescriptor fd (.pollError fd)

section events

variable {s : Server} {fd : Fd} {c : ClientPtr}

theorem refreshPollEvents_client (s : Server) : s.refreshPollEvents.client = s.client := by
  have hfold : ∀ (ps : List PollFd) (st : Server × List PollFd),
      (ps.foldl refreshRound st).1.client = st.1.client := by
    intro ps
    induction ps with
    | nil => exact fun _ => rfl
    | cons p ps ih =>
      intro st
      rw [List.foldl_cons, ih]
      unfold refreshRound
      dsimp only
      split_ifs
      · rfl
      · split
        · rfl
        · split_ifs
          · exact mark_client _ _ _
          · rfl
  exact hfold s.pollFds (s, [])

theorem receiveChunk_client_other (s : Server) (fd : Fd) {u : ClientPtr} (hc : c ≠ u)
    (r : RecvResult) : (s.receiveChunk fd u r).1.client c = s.client c := by
  cases r with
  | failed | closed => exact congrFun (mark_client s fd _) c
  | data buffer =>
    simp only [receiveChunk]
    split_ifs
    · rfl
    · rw [mark_client, updClient_client_of_ne _ _ _ _ hc]
    · rw [updClient_client_of_ne _ _ _ _ hc]

/-- Events about other descriptors only bring lines of others. -/
theorem hears_step (hb : s.Base Clean) {e : Event} (he : Enabled s e)
    (hc : s.clients.find? fd = some c) (hc' : (step s e).clients.find? fd = some c)
    (hother : ¬ OfDescriptor fd e) (hidle : e ≠ .idle) : Hears s (step s e) c := by
  have hne : ∀ {fd' u}, s.clients.find? fd' = some u → fd' ≠ fd → c ≠ u := by
    rintro fd' u hu hne rfl
    exact hne ((hb.links.client_fd _ _ hu).symm.trans (hb.links.client_fd _ _ hc))
  cases e with
  | accept r =>
    cases r with
    | failed | blocking => exact hears_of_eq rfl
    | accepted fd' addr =>
      refine hears_of_eq ?_
      show (s.acceptNewClient (.accepted fd' addr)).client c = _
      rw [accept_client, if_neg]
      rintro rfl
      exact s.heap.fresh _ ((liveClient_iff_mem s _).mp ⟨fd, hc⟩)
  | recv fd' r =>
    have hfd : fd' ≠ fd := fun h => hother (h ▸ .recv r)
    simp only [step]
    split
    · exact hears_of_eq rfl
    · rename_i u hu
      exact hears_of_eq (receiveChunk_client_other s fd' (hne hu hfd) r)
  | line fd' =>
    have hfd : fd' ≠ fd := fun h => hother (h ▸ .line)
    obtain ⟨u, hu, hready⟩ := he
    rw [step_line hu]
    exact hears_receiveLine hb hu hready (hne hu hfd)
  | send fd' r =>
    have hfd : fd' ≠ fd := fun h => hother (h ▸ .send r)
    obtain ⟨u, hu⟩ : ∃ u, s.clients.find? fd' = some u := by
      cases r with
      | failed => exact he.2
      | taken count => exact ⟨_, he.2.choose_spec.1⟩
    exact hears_of_eq ((@sendData_other s fd' fd u c hu r).2 (hne hu hfd))
  | pollError fd' => exact hears_of_eq (congrFun (mark_client s fd' _) c)
  | pollTimeout | tick => exact hears_of_eq rfl
  | refresh => exact hears_of_eq (congrFun (refreshPollEvents_client s) c)
  | cleanup =>
    refine hears_cleanup hb hc fun hmark => ?_
    have hgone := (cleanup_targets hb fd).1
    rw [if_pos hmark] at hgone
    exact absurd (hc'.symm.trans hgone) (by simp)
  | idle => exact absurd rfl hidle

end events

end Server
end FtIrc
