import FtIrc.Effects.Closing

/-!
# Closing is final

Once a connection has an entry in one of the two maps, no line of it is taken any more, and only
its disconnection ends this.
-/

namespace FtIrc
namespace Server

/-- What a run of a connection that shuts down leaves as it is. -/
structure Final (fd : Fd) (c : ClientPtr) (t : Phase × Server) (es : List Event)
    (t' : Phase × Server) : Prop where
  ignored : ∀ e ∈ es, e ≠ .line fd
  lines : (t'.2.client c).lines = (t.2.client c).lines
  begun : t'.2.closing.contains fd = true ∨ t'.2.isMarked fd = true
  closing : ∀ r, t.2.closing.find? fd = some r → t'.2.closing.find? fd = some r ∨
    t'.2.closing.find? fd = none ∧ t'.2.toDisconnected.find? fd = some r
  mark : ∀ r, t.2.toDisconnected.find? fd = some r → t'.2.toDisconnected.find? fd = some r
  errors : (t'.2.client c).errors = (t.2.client c).errors
  leaves : ∀ e, run.Enabled t' e → (step t'.2 e).clients.find? fd ≠ some c →
    e = .cleanup ∧ t'.2.isMarked fd = true ∧ (step t'.2 e).clients.find? fd = none

theorem closing_final {t : Phase × Server} (h : run.Reachable t) {fd : Fd} {c : ClientPtr}
    (hc : t.2.clients.find? fd = some c) : (t.2.client c).errors.length ≤ 1 ∧
      (t.2.closing.contains fd = true ∨ t.2.isMarked fd = true →
        ∀ es t', (connection fd c).Run t es t' → Final fd c t es t') := by
  refine ⟨?_, fun hentry es t' hrun => ?_⟩
  · cases run_told h hc with
    | idle _ he | marked _ _ he | closed _ _ _ he => simp [he]
  have hbegun := begun_iff.mpr hentry
  have hsteps := connection_steps h hc hrun
  have ht' := hrun.of_restrict.reachable h
  have hc' := (connection_induct h hc (R := fun _ => True) trivial hrun fun _ _ _ _ _ _ _ =>
    trivial).2.2
  obtain ⟨hignored, hlines, herrors⟩ := muted_run h hc hbegun hrun
  constructor
  case ignored => exact hignored
  case lines => exact hlines
  case begun => exact begun_iff.mp (Shutdown.begun_of_steps hsteps hbegun).1
  case closing =>
    intro r hr
    rcases Shutdown.closing_of_steps hsteps hr with hkept | hmoved
    · exact .inl hkept
    · exact .inr ⟨congrArg Shutdown.closing hmoved, congrArg Shutdown.mark hmoved⟩
  case mark =>
    intro r hr
    exact (congrArg Shutdown.mark (Shutdown.mark_of_steps hsteps hr)).trans hr
  case errors => exact herrors
  case leaves =>
    intro e he hgone
    by_cases hend : e = .cleanup ∧ t'.2.isMarked fd = true
    · refine ⟨hend.1, hend.2, ?_⟩
      rw [hend.1]
      show t'.2.cleanupDisconnected.clients.find? fd = none
      rw [(cleanup_targets (run_base ht') fd).1, if_pos hend.2]
    · exact absurd (step_clients (run_base ht') he.2 hc' hend) hgone

/-- `ann` quits; the line that she sends with it stays in her read buffer. -/
theorem closing_final_quit : ∃ t t',
    loop (.refresh :: registers 4 (ascii "ann") ++
      [.recv 4 (.data (ascii "QUIT :bye\nJOIN #a\n")), .line 4]) = some t ∧
    t.2.closing.find? 4 = some (ascii "bye") ∧ (t'.2.client 1).hasCompleteLine = true ∧
    Final 4 1 t [.send 4 (.taken 10), .cleanup, .idle] t' := by
  obtain ⟨t, ht, hview⟩ := Option.map_eq_some_iff.mp (by decide +kernel :
    (loop (.refresh :: registers 4 (ascii "ann") ++
      [.recv 4 (.data (ascii "QUIT :bye\nJOIN #a\n")), .line 4])).map (fun t =>
        (t.2.clients.find? 4, t.2.closing.find? 4,
          ((connection 4 1).play (stays 4 1) t [.send 4 (.taken 10), .cleanup, .idle]).map
            fun t' => (t'.2.client 1).hasCompleteLine)) =
      some (some 1, some (ascii "bye"), some true))
  simp only [Prod.mk.injEq] at hview
  obtain ⟨hc, hclosing, hrest⟩ := hview
  obtain ⟨t', ht', hline⟩ := Option.map_eq_some_iff.mp hrest
  have hrun := System.Run.of_play stays_sound ht'
  refine ⟨t, t', ht, hclosing, hline, ?_⟩
  exact (closing_final (loop_reachable ht) hc).2 (.inl (by simp [StdMap.contains, hclosing])) _ _
    hrun

end Server
end FtIrc
