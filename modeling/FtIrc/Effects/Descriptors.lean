import FtIrc.Effects.Emission
import FtIrc.Effects.Marks

/-!
# Descriptors

The maps and the poll list are keyed by descriptors, which are used again. No entry outlives the
connection it was made for.
-/

namespace FtIrc
namespace Server

/-! ## Connections -/

section clients

variable {s : Server} {fd : Fd} {c : ClientPtr}

theorem mark_clients (s : Server) (fd : Fd) (reason : Bytes) :
    (s.markForDisconnection fd reason).clients = s.clients := by
  rw [markForDisconnection_rest]

theorem refreshRound_clients (st : Server × List PollFd) (p : PollFd) :
    (refreshRound st p).1.clients = st.1.clients := by
  unfold refreshRound
  dsimp only
  split_ifs
  · rfl
  · split
    · rfl
    · split_ifs
      · exact mark_clients _ _ _
      · rfl

theorem refreshFold_clients (ps : List PollFd) (st : Server × List PollFd) :
    (ps.foldl refreshRound st).1.clients = st.1.clients := by
  induction ps generalizing st with
  | nil => rfl
  | cons p ps ih => rw [List.foldl_cons, ih, refreshRound_clients]

theorem checkIdleClients_clients (s : Server) : s.checkIdleClients.clients = s.clients := by
  rw [checkIdleClients_rest]

theorem receiveChunk_clients (s : Server) (fd : Fd) (c : ClientPtr) (r : RecvResult) :
    (s.receiveChunk fd c r).1.clients = s.clients := by
  cases r with
  | failed | closed => exact mark_clients s fd _
  | data buffer =>
    simp only [receiveChunk]
    split_ifs
    · rfl
    · exact mark_clients _ fd _
    · rfl

/-- Only the cleanup ends a connection, when it is marked. -/
theorem step_clients (hb : s.Base Clean) {e : Event} (he : Enabled s e)
    (hc : s.clients.find? fd = some c) (hkeep : ¬ (e = .cleanup ∧ s.isMarked fd = true)) :
    (step s e).clients.find? fd = some c := by
  cases e with
  | accept r =>
    cases r with
    | failed | blocking => exact hc
    | accepted fd' addr =>
      have hne : fd ≠ fd' := by
        rintro rfl
        exact absurd (hc.symm.trans he.2) (by simp)
      show (s.clients.insert fd' _).find? fd = some c
      rw [StdMap.find?_insert, if_neg hne]
      exact hc
  | recv fd' r =>
    simp only [step]
    split
    · exact hc
    · rw [receiveChunk_clients]
      exact hc
  | line fd' =>
    obtain ⟨u, hu, hready⟩ := he
    rw [step_line hu, receiveLine_clients hb hu hready]
    exact hc
  | send fd' r =>
    show (s.sendData fd' r).clients.find? fd = some c
    rw [sendData_rest]
    exact hc
  | pollError fd' =>
    show (s.markForDisconnection fd' _).clients.find? fd = some c
    rw [mark_clients]
    exact hc
  | pollTimeout | tick => exact hc
  | refresh =>
    show s.refreshPollEvents.clients.find? fd = some c
    rw [show s.refreshPollEvents.clients = s.clients from refreshFold_clients _ _]
    exact hc
  | cleanup =>
    show s.cleanupDisconnected.clients.find? fd = some c
    rw [(cleanup_targets hb fd).1, if_neg fun hmark => hkeep ⟨rfl, hmark⟩]
    exact hc
  | idle =>
    show s.checkIdleClients.clients.find? fd = some c
    rw [checkIdleClients_clients]
    exact hc

/-! ## Entries -/

/-- Without a connection there are no entries. -/
def Keyed (s : Server) : Prop := ∀ fd, s.clients.find? fd = none → s.shutdown fd = .idle

theorem refresh_none (hfd : s.clients.find? fd = none) :
    s.refreshPollEvents.shutdown fd = s.shutdown fd := by
  have hround : ∀ (st : Server × List PollFd) (p : PollFd), st.1.clients.find? fd = none →
      (refreshRound st p).1.shutdown fd = st.1.shutdown fd := by
    intro st p hst
    unfold refreshRound
    dsimp only
    split_ifs
    · rfl
    · split
      · rfl
      · rename_i c hc
        split_ifs
        · rw [shutdown_mark, if_neg]
          rintro rfl
          exact absurd (hc.symm.trans hst) (by simp)
        · rfl
  have hfold : ∀ (ps : List PollFd) (st : Server × List PollFd), st.1.clients.find? fd = none →
      (ps.foldl refreshRound st).1.shutdown fd = st.1.shutdown fd := by
    intro ps
    induction ps with
    | nil => exact fun _ _ => rfl
    | cons p ps ih =>
      intro st hst
      rw [List.foldl_cons, ih _ (by rw [refreshRound_clients]; exact hst), hround st p hst]
  exact hfold s.pollFds (s, []) hfd

theorem idle_none (hl : s.Links) (hfd : s.clients.find? fd = none) :
    s.checkIdleClients.shutdown fd = s.shutdown fd := by
  refine (idleFold_other (d := s.heap.addr s.clients.values) (fun e he => ?_) s.clients.sorted
    fun e he => ⟨?_, ?_⟩).1
  · exact hl.client_fd e.1 e.2 (s.clients.find?_eq_some.mpr he)
  · rintro rfl
    exact absurd ((s.clients.find?_eq_some.mpr he).symm.trans hfd) (by simp)
  · intro h
    exact s.heap.fresh s.clients.values (h ▸ List.mem_map_of_mem he)

theorem keyed_step (hb : s.Base Clean) (h : s.Keyed) {e : Event} (he : Enabled s e) :
    (step s e).Keyed := by
  intro fd hnone
  cases hold : s.clients.find? fd with
  | some c =>
    -- the connection is gone, so it was marked
    by_cases hgone : e = .cleanup ∧ s.isMarked fd = true
    · obtain ⟨rfl, hmark⟩ := hgone
      show s.cleanupDisconnected.shutdown fd = .idle
      rw [shutdown_cleanup hb, if_pos hmark]
    · exact absurd ((step_clients hb he hold hgone).symm.trans hnone) (by simp)
  | none =>
    have hidle := h fd hold
    have hmark : ∀ (t : Server) fd' r, fd' ≠ fd → t.shutdown fd = .idle →
        (t.markForDisconnection fd' r).shutdown fd = .idle := by
      intro t fd' r hne ht
      rw [shutdown_mark, if_neg hne.symm, ht]
    have hne : ∀ {fd' u}, s.clients.find? fd' = some u → fd' ≠ fd := by
      rintro fd' u hu rfl
      exact absurd (hu.symm.trans hold) (by simp)
    cases e with
    | accept r => cases r <;> exact hidle
    | recv fd' r =>
      simp only [step]
      split
      · exact hidle
      · rename_i u hu
        cases r with
        | failed | closed => exact hmark s fd' _ (hne hu) hidle
        | data buffer =>
          simp only [receiveChunk]
          split_ifs
          · exact hidle
          · exact hmark _ fd' _ (hne hu) hidle
          · exact hidle
    | line fd' =>
      obtain ⟨u, hu, hready⟩ := he
      rw [step_line hu]
      rcases shutdown_receiveLine hb hu hready with hsame | ⟨reason, hclosed⟩
      · rw [hsame, hidle]
      · rw [hclosed, if_neg (hne hu).symm, hidle]
    | send fd' r =>
      show (s.sendData fd' r).shutdown fd = .idle
      cases hu : s.clients.find? fd' with
      | none =>
        rw [sendData, hu]
        exact hidle
      | some u => rw [(sendData_other (d := u) hu r).1 (hne hu).symm, hidle]
    | pollError fd' =>
      obtain ⟨u, hu⟩ := he
      exact hmark s fd' _ (hne hu) hidle
    | pollTimeout | tick => exact hidle
    | refresh =>
      show s.refreshPollEvents.shutdown fd = .idle
      rw [refresh_none hold, hidle]
    | cleanup =>
      show s.cleanupDisconnected.shutdown fd = .idle
      rw [shutdown_cleanup hb]
      split_ifs
      · rfl
      · exact hidle
    | idle =>
      show s.checkIdleClients.shutdown fd = .idle
      rw [idle_none hb.links hold, hidle]

theorem reachable_keyed (h : ircserv.Reachable s) : s.Keyed := by
  refine System.Reachable.invariant (I := Keyed) (fun s hs fd _ => ?_)
    (fun s e hs ih he => keyed_step (reachable_clean hs).2 ih he) h
  obtain ⟨fd', password, heap, now, -, -, rfl⟩ := hs
  rfl

end clients

end Server
end FtIrc
