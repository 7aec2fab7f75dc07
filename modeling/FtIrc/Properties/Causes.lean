import FtIrc.Effects.Closing
import FtIrc.Effects.Polls

/-!
# The reason of a QUIT notice

All that marks a connection, and which of the reasons is announced.
-/

namespace FtIrc
namespace Server

/-! ## The calls of `markForDisconnection` -/

/-- The reason with which an event calls `markForDisconnection` for the connection. -/
def markCall (s : Server) (fd : Fd) (c : ClientPtr) : Event → Option Bytes
  | .recv fd' r =>
    if fd' ≠ fd then none
    else
      match r with
      | .failed => some (ascii "Receive error")
      | .closed => some (ascii "Client disconnected")
      | .data buffer =>
        let cl := { s.client c with readBuffer := (s.client c).readBuffer ++ buffer }
        if !s.closing.contains fd && (8192 < cl.readBuffer.length && !cl.hasCompleteLine) then
          some (ascii "Input buffer overflow")
        else none
  | .send fd' r =>
    if fd' ≠ fd ∨ (s.client c).writeBuffer.isEmpty then none
    else
      match r with
      | .failed => some (ascii "Send error")
      | .taken count =>
        if ((s.client c).writeBuffer.drop count).isEmpty then s.closing.find? fd else none
  | .pollError fd' => if fd' = fd then some (ascii "Connection error") else none
  | .refresh =>
    if maxSendQ < (s.client c).writeBuffer.length then some (ascii "SendQ exceeded") else none
  | .idle =>
    match s.closing.find? fd with
    | some reason => if 5 < (s.client c).getClosingTime s.now then some reason else none
    | none =>
      if !(s.client c).isRegistered ∧ timeoutRegistration < (s.client c).getConnectTime s.now then
        some (ascii "Registration timeout")
      else none
  | _ => none

/-- The reasons of a run, in the order of the calls. -/
def markCalls (fd : Fd) (c : ClientPtr) : Phase × Server → List Event → List Bytes
  | _, [] => []
  | t, e :: es => (t.2.markCall fd c e).toList ++ markCalls fd c (run.next t e) es

section calls

variable {s : Server} {fd : Fd} {c : ClientPtr}

theorem mark_marked (sh : Shutdown Bytes) (r : Bytes) :
    (sh.marked r).mark = sh.mark.or (some r) := rfl

theorem markCall_recv (hc : s.clients.find? fd = some c) (fd' : Fd) (r : RecvResult) :
    ((step s (.recv fd' r)).shutdown fd).mark =
      (s.shutdown fd).mark.or (s.markCall fd c (.recv fd' r)) := by
  by_cases hfd : fd' = fd
  · subst hfd
    simp only [step, hc, markCall, ne_eq, not_true_eq_false, if_false]
    cases r with
    | failed | closed => rw [receiveChunk, shutdown_mark, if_pos rfl, mark_marked]
    | data buffer =>
      simp only [receiveChunk, updClient_client_self]
      cases hclosing : s.closing.contains fd' with
      | true => simp
      | false =>
        simp only [Bool.false_eq_true, if_false, Bool.not_false, Bool.true_and]
        show (Server.shutdown (Prod.fst (if _ then _ else _)) fd').mark = _
        split_ifs with hfull hcall hcall
        · rw [shutdown_mark, if_pos rfl, mark_marked]
          rfl
        · exact absurd hfull hcall
        · exact absurd hcall hfull
        · exact (Option.or_none).symm
  · simp only [markCall, ne_eq, hfd, not_false_eq_true, if_true, Option.or_none, step]
    split
    · rfl
    · rename_i u hu
      have hsame : ∀ (t : Server) r, t.shutdown fd = s.shutdown fd →
          (t.markForDisconnection fd' r).shutdown fd = s.shutdown fd := by
        intro t r ht
        rw [shutdown_mark, if_neg (Ne.symm hfd), ht]
      cases r with
      | failed | closed => exact congrArg Shutdown.mark (hsame s _ rfl)
      | data buffer =>
        simp only [receiveChunk]
        split_ifs
        · rfl
        · exact congrArg Shutdown.mark (hsame _ _ rfl)
        · rfl

theorem markCall_send (hc : s.clients.find? fd = some c) (fd' : Fd) (r : SendResult) :
    ((step s (.send fd' r)).shutdown fd).mark =
      (s.shutdown fd).mark.or (s.markCall fd c (.send fd' r)) := by
  show ((s.sendData fd' r).shutdown fd).mark = _
  by_cases hfd : fd' = fd
  · subst hfd
    rw [(sendData_own hc r).1]
    unfold sendOutcome
    simp only [markCall, ne_eq, not_true_eq_false, false_or]
    have hclosing : (s.shutdown fd').closing = s.closing.find? fd' := rfl
    split_ifs
    · exact (Option.or_none).symm
    · cases r with
      | failed => rfl
      | taken count =>
        rw [hclosing]
        cases s.closing.find? fd' with
        | none =>
          dsimp only
          split_ifs <;> exact (Option.or_none).symm
        | some reason =>
          dsimp only
          split_ifs
          · rfl
          · exact (Option.or_none).symm
  · have hcall : s.markCall fd c (.send fd' r) = none := by simp [markCall, hfd]
    rw [hcall, Option.or_none]
    cases hu : s.clients.find? fd' with
    | none => rw [sendData, hu]
    | some u => rw [(sendData_other (d := u) hu r).1 (Ne.symm hfd)]

theorem markCall_idle (hl : s.Links) (hc : s.clients.find? fd = some c) :
    ((step s .idle).shutdown fd).mark = (s.shutdown fd).mark.or (s.markCall fd c .idle) := by
  show (s.checkIdleClients.shutdown fd).mark = _
  rw [checkIdleClients_shutdown hl hc, markCall]
  unfold idleOutcome
  have hclosing : (s.shutdown fd).closing = s.closing.find? fd := rfl
  rw [hclosing]
  cases s.closing.find? fd with
  | some reason =>
    dsimp only
    split_ifs
    · rfl
    · exact (Option.or_none).symm
  | none =>
    dsimp only
    cases hreg : (s.client c).isRegistered with
    | false =>
      simp only [Bool.not_false, if_true, true_and]
      split_ifs
      · rfl
      · exact (Option.or_none).symm
    | true =>
      simp only [Bool.not_true, Bool.false_eq_true, if_false, false_and, Option.or_none]
      split_ifs <;> rfl

/-- Every event but the cleanup sets the mark as its call says, if there is none yet. -/
theorem mark_step (hb : s.Base Clean) (hp : s.Polled) {e : Event} (he : Enabled s e)
    (hcleanup : e ≠ .cleanup) (hc : s.clients.find? fd = some c) :
    ((step s e).shutdown fd).mark = (s.shutdown fd).mark.or (s.markCall fd c e) := by
  cases e with
  | accept r => cases r <;> exact (Option.or_none).symm
  | recv fd' r => exact markCall_recv hc fd' r
  | line fd' =>
    obtain ⟨u, hu, hready⟩ := he
    rw [step_line hu]
    refine Eq.trans ?_ (Option.or_none).symm
    rcases shutdown_receiveLine hb hu hready with hsame | ⟨reason, hclosed⟩
    · rw [hsame]
    · rw [hclosed]
      split_ifs with hfd
      · rw [hfd, (lineReady_iff.mp hready).1]
        rfl
      · rfl
  | send fd' r => exact markCall_send hc fd' r
  | pollError fd' =>
    show ((s.markForDisconnection fd' _).shutdown fd).mark = _
    rw [shutdown_mark, markCall]
    split_ifs with hfd hfd' hfd'
    · rw [mark_marked, hfd]
    · exact absurd hfd.symm hfd'
    · exact absurd hfd'.symm hfd
    · exact (Option.or_none).symm
  | pollTimeout | tick => exact (Option.or_none).symm
  | refresh =>
    show (s.refreshPollEvents.shutdown fd).mark = _
    rw [refresh_marks hp hc, markCall]
    split_ifs
    · rfl
    · exact (Option.or_none).symm
  | cleanup => exact absurd rfl hcleanup
  | idle => exact markCall_idle hb.links hc

end calls

theorem markCalls_run {t t' : Phase × Server} {es : List Event} {fd : Fd} {c : ClientPtr}
    (ht : run.Reachable t) (hc : t.2.clients.find? fd = some c)
    (h : (connection fd c).Run t es t') :
    (t'.2.shutdown fd).mark = (t.2.shutdown fd).mark.or (markCalls fd c t es).head? := by
  induction h with
  | nil => exact (Option.or_none).symm
  | @cons t t' e es he _ ih =>
    have hmark : ((step t.2 e).shutdown fd).mark =
        (t.2.shutdown fd).mark.or (t.2.markCall fd c e) := by
      by_cases hcleanup : e = .cleanup
      · -- the connection is still there, so it had no mark
        subst hcleanup
        have hunmarked : ¬ t.2.isMarked fd = true := fun hmark => by
          have hgone : (step t.2 .cleanup).clients.find? fd = some c := he.2
          rw [show (step t.2 .cleanup).clients.find? fd = none from
            (cleanup_targets (run_base ht) fd).1.trans (if_pos hmark)] at hgone
          cases hgone
        show (t.2.cleanupDisconnected.shutdown fd).mark = _
        rw [shutdown_cleanup (run_base ht), if_neg hunmarked]
        exact (Option.or_none).symm
      · exact mark_step (run_base ht) (reachable_polled (run_reachable ht)) he.1.2 hcleanup hc
    have hrest := ih (.step ht he.1) he.2
    rw [hrest, show ((connection fd c).next t e).2 = step t.2 e from rfl, hmark, Option.or_assoc]
    congr 1
    rw [markCalls]
    cases t.2.markCall fd c e <;> rfl

/-! ## The notice -/

/-- The only reason that is told: that of the ERROR line, or else that of the first call that marked
the connection. -/
def FirstCause (fd : Fd) (c : ClientPtr) (t : Phase × Server) (es : List Event)
    (t' : Phase × Server) (reason : Bytes) : Prop :=
  (t'.2.client c).errors = [closingLine (t'.2.client c).ip reason] ∨
    (t'.2.client c).errors = [] ∧ (markCalls fd c t es).head? = some reason

/-- The disconnection of one client inside of `cleanupDisconnected`, with its QUIT notice. -/
def QuitNotice (s : Server) (fd : Fd) (c : ClientPtr) (reason : Bytes) : Prop :=
  ∃ before after mark u, s.toDisconnected.entries = before ++ (fd, mark) :: after ∧
    u = { s with toDisconnected := StdMap.empty }.disconnectAll before ∧
    s.cleanupDisconnected = (u.disconnect fd mark).disconnectAll after ∧
    u.clients.find? fd = some c ∧ (u.client c).identity = (s.client c).identity ∧
    Emits u (u.disconnect fd mark) (u.quitOutput c reason)

theorem quitNotice_cleanup {s : Server} (hb : s.Base Clean) {fd : Fd} {c : ClientPtr}
    (hc : s.clients.find? fd = some c) {reason : Bytes}
    (hcause : (s.shutdown fd).cause = some reason) (hmark : s.isMarked fd = true) :
    s.QuitNotice fd c reason := by
  obtain ⟨mark, hm⟩ := isMarked_iff.mp hmark
  obtain ⟨before, after, hsplit⟩ := List.append_of_mem (s.toDisconnected.find?_eq_some.mp hm)
  have hsorted := s.toDisconnected.sorted
  have hreasons := marked_reasons hb
  rw [hsplit] at hsorted hreasons
  have hb₀ := background_base (background_unmark hb) hb
  have hbefore : ∀ e ∈ before, Clean e.2 := fun e he => hreasons e (by simp [he])
  have hnot : fd ∉ before.map Prod.fst := by
    intro hin
    obtain ⟨e, he, hfd⟩ := List.mem_map.mp hin
    exact ((List.pairwise_append.mp hsorted).2.2 e he (fd, mark) (by simp)).ne hfd
  have hrun := background_disconnectAll hb₀ hbefore
  have hu := disconnectAll_targets hb₀ hbefore fd
  rw [if_neg hnot, if_neg hnot] at hu
  have hid := (backgrounds_record (c := c) hb₀ hrun).identity
  have hbu := backgrounds_base hrun hb₀
  generalize hdef : { s with toDisconnected := StdMap.empty }.disconnectAll before = u at hu hid hbu
  obtain ⟨huc, huclosing, -⟩ := hu
  refine ⟨before, after, mark, u, hsplit, hdef.symm, ?_, huc.trans hc, hid, ?_⟩
  · rw [cleanupDisconnected_eq, hsplit, ← hdef]
    exact List.foldl_append ..
  · have hdep := (disconnect_departure hbu.links hbu.noGhost (huc.trans hc) mark).1
    have hreason : (u.closing.find? fd).getD mark = reason := by
      have hclosing : u.closing.find? fd = (s.shutdown fd).closing := huclosing
      rw [Shutdown.cause, hm] at hcause
      rw [hclosing]
      cases hfound : (s.shutdown fd).closing with
      | none =>
        rw [hfound] at hcause
        exact Option.some.inj hcause
      | some r =>
        rw [hfound] at hcause
        exact Option.some.inj hcause
    rw [hreason] at hdep
    exact hdep.emits

theorem quit_first_cause {t₀ t : Phase × Server} (h₀ : run.Reachable t₀) {fd : Fd} {addr : Ipv4}
    (haccept : run.Enabled t₀ (.accept (.accepted fd addr))) {c : ClientPtr}
    (hnew : c = t₀.2.heap.addr t₀.2.clients.values) {es : List Event}
    (hrun : (connection fd c).Run (run.next t₀ (.accept (.accepted fd addr))) es t)
    (hmark : t.2.isMarked fd = true) :
    ∃ reason, t.2.QuitNotice fd c reason ∧
      FirstCause fd c (run.next t₀ (.accept (.accepted fd addr))) es t reason := by
  have ht₁ := System.Reachable.step h₀ haccept
  have hc₁ : (step t₀.2 (.accept (.accepted fd addr))).clients.find? fd = some c := by
    show (t₀.2.clients.insert fd _).find? fd = some c
    rw [StdMap.find?_insert_self, hnew]
  have hidle : (step t₀.2 (.accept (.accepted fd addr))).shutdown fd = .idle :=
    reachable_keyed (run_reachable h₀) fd haccept.2.2
  obtain ⟨-, ht, hc⟩ := connection_induct ht₁ hc₁ (R := fun _ => True) trivial hrun
    fun _ _ _ _ _ _ _ => trivial
  have hfirst := markCalls_run ht₁ hc₁ hrun
  rw [show ((run.next t₀ (.accept (.accepted fd addr))).2.shutdown fd) = .idle from hidle] at hfirst
  have hb := run_base ht
  cases run_told ht hc with
  | idle hsh =>
    rw [isMarked_iff, hsh] at hmark
    obtain ⟨r, hr⟩ := hmark
    cases hr
  | marked r hsh herr =>
    refine ⟨r, quitNotice_cleanup hb hc (by rw [hsh]; rfl) hmark, .inr ⟨herr, ?_⟩⟩
    rw [hsh] at hfirst
    exact hfirst.symm
  | closed r _ hcause herr =>
    exact ⟨r, quitNotice_cleanup hb hc hcause hmark, .inl herr⟩

/-- `ann` waits in a channel. -/
def annWaits : List Event := .refresh :: registers 4 (ascii "ann") ++ typed 4 (ascii "JOIN #a")

/-- What `bob` does after his connection has been accepted: he quits, and then his connection breaks. -/
def bobBreaks : List Event :=
  (registers 5 (ascii "bob")).tail ++ typed 5 (ascii "JOIN #a") ++ typed 5 (ascii "QUIT :bye") ++
    [.send 5 .failed, .pollError 5]

/-- Two calls mark `bob`, with reasons of their own, and the one of his QUIT is announced. -/
theorem quit_first_cause_bob : ∃ t₀ t, loop annWaits = some t₀ ∧
    markCalls 5 2 (run.next t₀ (.accept (.accepted 5 ⟨127, 0, 0, 1⟩))) bobBreaks =
      [ascii "Send error", ascii "Connection error"] ∧
    (t.2.client 2).errors = [ascii "ERROR :Closing Link: 127.0.0.1 (bye)"] ∧
    ∃ reason, t.2.QuitNotice 5 2 reason ∧
      FirstCause 5 2 (run.next t₀ (.accept (.accepted 5 ⟨127, 0, 0, 1⟩))) bobBreaks t reason := by
  obtain ⟨t₀, h₀, hview⟩ := Option.map_eq_some_iff.mp (by decide +kernel :
    (loop annWaits).map (fun t₀ =>
      (loopEnabled t₀ (.accept (.accepted 5 ⟨127, 0, 0, 1⟩)),
        t₀.2.heap.addr t₀.2.clients.values,
        decide (markCalls 5 2 (run.next t₀ (.accept (.accepted 5 ⟨127, 0, 0, 1⟩))) bobBreaks =
          [ascii "Send error", ascii "Connection error"]),
        ((connection 5 2).play (stays 5 2)
          (run.next t₀ (.accept (.accepted 5 ⟨127, 0, 0, 1⟩))) bobBreaks).map fun t =>
            (t.2.isMarked 5, decide ((t.2.client 2).errors =
              [ascii "ERROR :Closing Link: 127.0.0.1 (bye)"])))) =
      some (true, 2, true, some (true, true)))
  simp only [Prod.mk.injEq] at hview
  obtain ⟨hen, haddr, hcalls, hplay⟩ := hview
  obtain ⟨t, ht, hend⟩ := Option.map_eq_some_iff.mp hplay
  simp only [Prod.mk.injEq] at hend
  exact ⟨t₀, t, h₀, of_decide_eq_true hcalls, of_decide_eq_true hend.2,
    quit_first_cause (loop_reachable h₀) (loopEnabled_sound t₀ _ hen) haddr.symm
      (System.Run.of_play stays_sound ht) hend.1⟩

end Server
end FtIrc
