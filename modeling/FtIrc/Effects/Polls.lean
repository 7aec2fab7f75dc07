import FtIrc.Effects.Descriptors

/-!
# The poll list

The poll list starts with the descriptor of the server and then has the keys of `clients`, each
once.
-/

namespace FtIrc
namespace Server

section polls

variable {s s' : Server}

/-- The descriptors that are polled, in the order of the list. -/
def polledFds (s : Server) : List Fd := s.pollFds.map PollFd.fd

structure Polled (s : Server) : Prop where
  listed : ∃ fds, s.polledFds = s.serverFd :: fds ∧ fds.Nodup ∧
    ∀ fd, fd ∈ fds ↔ s.clients.find? fd ≠ none
  server : s.clients.find? s.serverFd = none

theorem Polled.congr (h : s.Polled) (hp : s'.polledFds = s.polledFds)
    (hs : s'.serverFd = s.serverFd) (hc : s'.clients = s.clients) : s'.Polled := by
  constructor
  · rw [hp, hs, hc]
    exact h.listed
  · rw [hs, hc]
    exact h.server

theorem polledFds_setServerEvents (s : Server) (pollIn : Bool) :
    (s.setServerEvents pollIn).polledFds = s.polledFds := by
  unfold setServerEvents polledFds
  cases s.pollFds <;> rfl

theorem polled_init (h : ircserv.Init s) : s.Polled := by
  obtain ⟨fd, password, heap, now, -, -, rfl⟩ := h
  exact ⟨⟨[], rfl, List.nodup_nil, fun fd => by simp [init]⟩, rfl⟩

theorem polled_accept (h : s.Polled) {fd : Fd} {addr : Ipv4} (hfd : fd ≠ s.serverFd)
    (hnew : s.clients.find? fd = none) : (s.acceptNewClient (.accepted fd addr)).Polled := by
  obtain ⟨fds, hfds, hnodup, hmem⟩ := h.listed
  have hfresh : fd ∉ fds := fun hin => (hmem fd).mp hin hnew
  constructor
  · refine ⟨fds ++ [fd], ?_, ?_, fun k => ?_⟩
    · show (s.pollFds ++ [PollFd.mk fd true false]).map PollFd.fd = _
      rw [List.map_append, show s.pollFds.map PollFd.fd = _ from hfds]
      rfl
    · rw [List.nodup_append]
      refine ⟨hnodup, List.nodup_singleton fd, fun a ha b hb => ?_⟩
      rw [List.mem_singleton.mp hb]
      exact fun heq => hfresh (heq ▸ ha)
    · show _ ↔ (s.clients.insert fd _).find? k ≠ none
      rw [List.mem_append, hmem, StdMap.find?_insert, List.mem_singleton]
      split_ifs with hk <;> simp [hk]
  · show (s.clients.insert fd _).find? s.serverFd = none
    rw [StdMap.find?_insert, if_neg hfd.symm]
    exact h.server

/-- A disconnection takes its descriptor out of the list. -/
theorem polled_disconnect (hb : s.Base Clean) (h : s.Polled) {fd : Fd} (hfd : fd ≠ s.serverFd)
    (reason : Bytes) : (s.disconnect fd reason).Polled := by
  have hrest := disconnect_rest hb.links hb.noGhost fd reason
  have hserver : (s.disconnect fd reason).serverFd = s.serverFd := by rw [hrest]
  have hclients : (s.disconnect fd reason).clients = s.clients.erase fd := by rw [hrest]
  have hpolled : (s.disconnect fd reason).polledFds = s.polledFds.erase fd := by
    have hshape : (s.disconnect fd reason).polledFds = (s.pollFds.eraseP (·.fd = fd)).map PollFd.fd := by
      rw [hrest]
      exact polledFds_setServerEvents { s with pollFds := s.pollFds.eraseP (·.fd = fd) } true
    rw [hshape]
    unfold polledFds
    generalize s.pollFds = ps
    induction ps with
    | nil => rfl
    | cons p ps ih =>
      by_cases hp : p.fd = fd
      · simp [hp]
      · rw [List.eraseP_cons_of_neg (by simp [hp]), List.map_cons, List.map_cons, ih,
          List.erase_cons_tail (by simp [hp])]
  obtain ⟨fds, hfds, hnodup, hmem⟩ := h.listed
  constructor
  · refine ⟨fds.erase fd, ?_, hnodup.erase fd, fun k => ?_⟩
    · rw [hpolled, hfds, hserver, List.erase_cons_tail (by simp [Ne.symm hfd])]
    · rw [hnodup.mem_erase_iff, hmem, hclients, StdMap.find?_erase]
      split_ifs with hk <;> simp [hk]
  · rw [hclients, hserver, StdMap.find?_erase, if_neg hfd.symm]
    exact h.server

theorem polled_disconnectAll (hb : s.Base Clean) (h : s.Polled) {targets : List (Fd × Bytes)}
    (ht : ∀ e ∈ targets, Clean e.2) (hfd : ∀ e ∈ targets, e.1 ≠ s.serverFd) :
    (s.disconnectAll targets).Polled := by
  induction targets generalizing s with
  | nil => exact h
  | cons e es ih =>
    have hrun := background_disconnect hb e.1 (ht e List.mem_cons_self)
    have hserver : (s.disconnect e.1 e.2).serverFd = s.serverFd := by
      rw [disconnect_rest hb.links hb.noGhost]
    refine ih (backgrounds_base hrun hb) (polled_disconnect hb h (hfd e List.mem_cons_self) e.2)
      (fun e' he' => ht e' (List.mem_cons_of_mem _ he')) fun e' he' => ?_
    rw [hserver]
    exact hfd e' (List.mem_cons_of_mem _ he')

/-! ## Refresh -/

/-- The connection on the descriptor has too much output waiting. -/
def exceeds (s : Server) (fd : Fd) : Bool :=
  match s.clients.find? fd with
  | some c => decide (maxSendQ < (s.client c).writeBuffer.length)
  | none => false

/-- The entry of the poll list after `refreshPollEvents`. -/
def refreshed (s : Server) (p : PollFd) : PollFd :=
  if p.fd = s.serverFd then p
  else
    match s.clients.find? p.fd with
    | none => { p with pollIn := true, pollOut := false }
    | some c =>
      { p with
        pollIn := true
        pollOut := !s.exceeds p.fd && !(s.client c).writeBuffer.isEmpty }

theorem refreshRound_eq (st : Server × List PollFd) (p : PollFd) : refreshRound st p =
    (if p.fd ≠ st.1.serverFd ∧ st.1.exceeds p.fd = true then
      st.1.markForDisconnection p.fd (ascii "SendQ exceeded") else st.1,
    st.2 ++ [st.1.refreshed p]) := by
  unfold refreshRound refreshed exceeds
  dsimp only
  by_cases hserver : p.fd = st.1.serverFd
  · simp [hserver]
  · cases hc : st.1.clients.find? p.fd with
    | none => simp [hserver]
    | some c =>
      by_cases hmax : maxSendQ < (st.1.client c).writeBuffer.length <;> simp [hserver, hmax]

theorem refreshed_mark (s : Server) (fd : Fd) (reason : Bytes) :
    (s.markForDisconnection fd reason).refreshed = s.refreshed ∧
      (s.markForDisconnection fd reason).exceeds = s.exceeds ∧
      (s.markForDisconnection fd reason).serverFd = s.serverFd := by
  rw [markForDisconnection_rest]
  exact ⟨rfl, rfl, rfl⟩

/-- The marks and the new list of `refreshPollEvents`. -/
theorem refreshFold (ps : List PollFd) (st : Server × List PollFd) (fd : Fd) :
    (ps.foldl refreshRound st).2 = st.2 ++ ps.map st.1.refreshed ∧
      (ps.foldl refreshRound st).1.serverFd = st.1.serverFd ∧
      (ps.foldl refreshRound st).1.shutdown fd =
        if fd ∈ ps.map PollFd.fd ∧ fd ≠ st.1.serverFd ∧ st.1.exceeds fd = true then
          (st.1.shutdown fd).marked (ascii "SendQ exceeded") else st.1.shutdown fd := by
  induction ps generalizing st with
  | nil => exact ⟨(List.append_nil _).symm, rfl, by simp⟩
  | cons p ps ih =>
    rw [List.foldl_cons, refreshRound_eq]
    generalize ht : (if p.fd ≠ st.1.serverFd ∧ st.1.exceeds p.fd = true then
      st.1.markForDisconnection p.fd (ascii "SendQ exceeded") else st.1) = t
    have hsame : t.refreshed = st.1.refreshed ∧ t.exceeds = st.1.exceeds ∧
        t.serverFd = st.1.serverFd := by
      rw [← ht]
      split_ifs
      · exact refreshed_mark st.1 p.fd _
      · exact ⟨rfl, rfl, rfl⟩
    have hmark : t.shutdown fd = if fd = p.fd ∧ fd ≠ st.1.serverFd ∧ st.1.exceeds fd = true then
        (st.1.shutdown fd).marked (ascii "SendQ exceeded") else st.1.shutdown fd := by
      rw [← ht]
      by_cases hfd : fd = p.fd
      · subst hfd
        split_ifs with hif hif' hif'
        · rw [shutdown_mark, if_pos rfl]
        · exact absurd ⟨rfl, hif⟩ hif'
        · exact absurd hif'.2 hif
        · rfl
      · simp only [hfd, false_and, if_false]
        split_ifs
        · rw [shutdown_mark, if_neg hfd]
        · rfl
    obtain ⟨hlist, hserver, hshut⟩ := ih (t, st.2 ++ [st.1.refreshed p])
    obtain ⟨hrefreshed, hexceeds, hfds⟩ := hsame
    dsimp only at hlist hserver hshut
    refine ⟨?_, hserver.trans hfds, ?_⟩
    · rw [hlist, hrefreshed, List.append_assoc]
      rfl
    · rw [hshut, hexceeds, hfds, hmark, List.map_cons]
      by_cases hfd : fd = p.fd
      · subst hfd
        by_cases hex : p.fd ≠ st.1.serverFd ∧ st.1.exceeds p.fd = true
        · simp [hex, marked_marked]
        · rw [if_neg (fun h => hex h.2), if_neg (fun h => hex h.2), if_neg (fun h => hex h.2)]
      · simp [hfd]

theorem refreshPollEvents_pollFds (s : Server) :
    s.refreshPollEvents.pollFds = s.pollFds.map s.refreshed :=
  (refreshFold s.pollFds (s, []) 0).1

theorem refreshPollEvents_serverFd (s : Server) : s.refreshPollEvents.serverFd = s.serverFd :=
  (refreshFold s.pollFds (s, []) 0).2.1

theorem refreshed_fd (s : Server) (p : PollFd) : (s.refreshed p).fd = p.fd := by
  unfold refreshed
  split_ifs
  · rfl
  · split <;> rfl

theorem polled_refresh (h : s.Polled) : s.refreshPollEvents.Polled := by
  refine h.congr ?_ (refreshPollEvents_serverFd s) (refreshFold_clients _ _)
  rw [polledFds, refreshPollEvents_pollFds, List.map_map]
  exact List.map_congr_left fun p _ => refreshed_fd s p

/-- The connections with too much output are marked. -/
theorem refresh_marks (h : s.Polled) {fd : Fd} {c : ClientPtr}
    (hc : s.clients.find? fd = some c) : s.refreshPollEvents.shutdown fd =
      if maxSendQ < (s.client c).writeBuffer.length then
        (s.shutdown fd).marked (ascii "SendQ exceeded") else s.shutdown fd := by
  obtain ⟨fds, hfds, -, hmem⟩ := h.listed
  have hne : fd ≠ s.serverFd := by
    rintro rfl
    exact absurd (hc.symm.trans h.server) (by simp)
  have hin : fd ∈ s.pollFds.map PollFd.fd := by
    show fd ∈ s.polledFds
    rw [hfds]
    exact List.mem_cons_of_mem _ ((hmem fd).mpr (by simp [hc]))
  have hexceeds : s.exceeds fd = decide (maxSendQ < (s.client c).writeBuffer.length) := by
    simp [exceeds, hc]
  show (s.pollFds.foldl refreshRound (s, [])).1.shutdown fd = _
  rw [(refreshFold s.pollFds (s, []) fd).2.2]
  dsimp only
  rw [hexceeds]
  simp [hin, hne]

/-! ## Events -/

theorem line_polled {P : Bytes → Prop} {msg : Message} {u : ClientPtr} (h : Line P msg u s s')
    (hs : s.Polled) : s'.Polled := by
  have hnet : ∀ {t : Server}, SameNetwork s t → t.Polled := fun hsame =>
    hs.congr (congrArg (List.map PollFd.fd) hsame.pollFds) hsame.serverFd hsame.clients
  cases h with
  | effects h => exact hnet (effects_network h)
  | entry h => exact hnet (entry_network h)
  | @closed t reason h =>
    have ht := hnet (effects_network h)
    rw [disconnectAfterFlush_eq]
    exact ht.congr rfl rfl rfl

theorem mark_polled (hs : s.Polled) (fd : Fd) (reason : Bytes) :
    (s.markForDisconnection fd reason).Polled := by
  rw [markForDisconnection_rest]
  exact hs.congr rfl rfl rfl

theorem polled_step (hb : s.Base Clean) (hk : s.Keyed) (h : s.Polled) {e : Event}
    (he : Enabled s e) : (step s e).Polled := by
  cases e with
  | accept r =>
    cases r with
    | failed => exact h.congr (polledFds_setServerEvents s false) rfl rfl
    | blocking => exact h
    | accepted fd addr => exact polled_accept h he.1 he.2
  | recv fd r =>
    simp only [step]
    split
    · exact h
    · rename_i c hc
      cases r with
      | failed | closed => exact mark_polled h fd _
      | data buffer =>
        simp only [receiveChunk]
        split_ifs
        · exact h
        · refine mark_polled ?_ fd _
          exact h.congr rfl rfl rfl
        · exact h.congr rfl rfl rfl
  | line fd =>
    obtain ⟨u, hu, hready⟩ := he
    have hpop : (s.updClient u fun cl => cl.popLine.2).Polled := h.congr rfl rfl rfl
    rw [step_line hu]
    rcases line_receiveLine textPred_clean hb ⟨fd, hu⟩
        (serves_clean.lines s fd u ⟨u, hu, hready⟩ hu) with heq | ⟨msg, -, hline⟩
    · rw [heq]
      exact hpop
    · exact line_polled hline hpop
  | send fd r =>
    show (s.sendData fd r).Polled
    rw [sendData_rest]
    exact h.congr rfl rfl rfl
  | pollError fd => exact mark_polled h fd _
  | pollTimeout => exact h.congr (polledFds_setServerEvents s true) rfl rfl
  | refresh => exact polled_refresh h
  | cleanup =>
    have hunmark : Polled { s with toDisconnected := StdMap.empty } := h.congr rfl rfl rfl
    refine polled_disconnectAll (background_base (background_unmark hb) hb) hunmark
      (marked_reasons hb) fun e he heq => ?_
    -- the server has no entry, since it is no client
    have hidle := hk s.serverFd h.server
    have hmark : s.toDisconnected.find? s.serverFd = some e.2 :=
      s.toDisconnected.find?_eq_some.mpr (heq ▸ he)
    exact absurd (congrArg Shutdown.mark hidle) (by simp [Server.shutdown, hmark, Shutdown.idle])
  | idle =>
    show s.checkIdleClients.Polled
    rw [checkIdleClients_rest]
    exact h.congr rfl rfl rfl
  | tick => exact h.congr rfl rfl rfl

/-- Only `tick` sets the clock. -/
theorem step_now (hb : s.Base Clean) {e : Event} (he : Enabled s e) (htick : ∀ now, e ≠ .tick now) :
    (step s e).now = s.now := by
  have hmark : ∀ (t : Server) fd r, (t.markForDisconnection fd r).now = t.now := fun t fd r => by
    rw [markForDisconnection_rest]
  cases e with
  | accept r => cases r <;> rfl
  | recv fd r =>
    simp only [step]
    split
    · rfl
    · cases r with
      | failed | closed => exact hmark s fd _
      | data buffer =>
        simp only [receiveChunk]
        split_ifs
        · rfl
        · exact hmark _ fd _
        · rfl
  | line fd =>
    obtain ⟨u, hu, hready⟩ := he
    rw [step_line hu]
    rcases line_receiveLine textPred_clean hb ⟨fd, hu⟩
        (serves_clean.lines s fd u ⟨u, hu, hready⟩ hu) with heq | ⟨msg, -, hline⟩
    · rw [heq]
      rfl
    · generalize s.receiveLine u = s' at hline
      cases hline with
      | effects h => exact (effects_network h).now
      | entry h => exact (entry_network h).now
      | closed h =>
        rw [disconnectAfterFlush_eq]
        exact (effects_network h).now
  | send fd r =>
    show (s.sendData fd r).now = s.now
    rw [sendData_rest]
  | pollError fd => exact hmark s fd _
  | pollTimeout => rfl
  | refresh =>
    have hfold : ∀ (ps : List PollFd) (st : Server × List PollFd),
        (ps.foldl refreshRound st).1.now = st.1.now := by
      intro ps
      induction ps with
      | nil => exact fun _ => rfl
      | cons p ps ih =>
        intro st
        rw [List.foldl_cons, ih, refreshRound_eq]
        split_ifs
        · exact hmark _ _ _
        · rfl
    exact hfold s.pollFds (s, [])
  | cleanup =>
    have hfold : ∀ {t : Server}, t.Base Clean → ∀ targets : List (Fd × Bytes),
        (∀ e ∈ targets, Clean e.2) → (t.disconnectAll targets).now = t.now := by
      intro t hb targets ht
      induction targets generalizing t with
      | nil => rfl
      | cons e es ih =>
        have hrun := background_disconnect hb e.1 (ht e List.mem_cons_self)
        have hnow : (t.disconnect e.1 e.2).now = t.now := by
          rw [disconnect_rest hb.links hb.noGhost]
        exact (ih (backgrounds_base hrun hb) fun e' he' => ht e' (List.mem_cons_of_mem _ he')).trans
          hnow
    exact hfold (background_base (background_unmark hb) hb) _ (marked_reasons hb)
  | idle =>
    show s.checkIdleClients.now = s.now
    rw [checkIdleClients_rest]
  | tick now => exact absurd rfl (htick now)

theorem reachable_polled (h : ircserv.Reachable s) : s.Polled :=
  System.Reachable.invariant (I := Polled) (fun _ => polled_init)
    (fun _ _ hs ih he => polled_step (reachable_clean hs).2 (reachable_keyed hs) ih he) h

end polls

end Server
end FtIrc
