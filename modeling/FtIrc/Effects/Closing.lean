import FtIrc.Effects.Descriptors
import FtIrc.Effects.Loop

/-!
# Closing a link

The first entry of a connection in one of the two maps. The ERROR line tells the reason if it is an
entry of `closing`; after it the connection is only told of what others do.
-/

namespace FtIrc

/-- A line of `disconnectAfterFlush`. -/
def isErrorLine (m : Bytes) : Bool := (ascii "ERROR :Closing Link: ").isPrefixOf m

/-- The ERROR lines that a client was sent. -/
def Client.errors (c : Client) : List Bytes := c.replies.filter isErrorLine

theorem isErrorLine_closingLine (ip reason : Bytes) :
    isErrorLine (closingLine ip reason) = true := by
  rw [isErrorLine, closingLine, List.isPrefixOf_iff_prefix]
  simp only [List.append_assoc]
  exact List.prefix_append _ _

theorem Sourced.not_error {c : Client} {m : Bytes} (h : Sourced c m) : isErrorLine m = false := by
  obtain ⟨rest, rfl⟩ := h
  simp only [List.append_assoc]
  rfl

theorem ServerReply.not_error {m : Bytes} (h : ServerReply m) : isErrorLine m = false := by
  obtain ⟨code, rest, -, rfl⟩ := h
  simp only [List.append_assoc]
  rfl

theorem registrationLines_not_error (c : Client) :
    ∀ m ∈ registrationLines c, isErrorLine m = false := by
  intro m hm
  simp only [registrationLines, List.mem_cons, List.not_mem_nil, or_false] at hm
  rcases hm with rfl | rfl | rfl | rfl <;>
    simp only [IrcReply.formatReply, List.append_assoc] <;> rfl

theorem errors_append {c c' : Client} {ms : List Bytes} (h : c'.replies = c.replies ++ ms)
    (hms : ∀ m ∈ ms, isErrorLine m = false) : c'.errors = c.errors := by
  have hnone : ms.filter isErrorLine = [] :=
    List.filter_eq_nil_iff.mpr fun m hm => by simp [hms m hm]
  rw [Client.errors, h, List.filter_append, hnone, List.append_nil]
  rfl

theorem errors_closing {c c' : Client} {ip reason : Bytes}
    (h : c'.replies = c.replies ++ [closingLine ip reason]) :
    c'.errors = c.errors ++ [closingLine ip reason] := by
  rw [Client.errors, h, List.filter_append, List.filter_cons_of_pos (isErrorLine_closingLine ..)]
  rfl

namespace Server

/-! ## Lines of the connection itself -/

section lines

variable {P : Bytes → Prop} {msg : Message} {s s' : Server} {u c : ClientPtr}

theorem SpokenBy.not_error {o : Output} (h : SpokenBy s u o) :
    ∀ d, ∀ m ∈ o d, isErrorLine m = false := by
  intro d m hm
  rcases h d m hm with hm | ⟨-, hm⟩
  · exact hm.not_error
  · exact hm.not_error

theorem effects_errors (h : Effects P msg u s s') : (s'.client c).errors = (s.client c).errors := by
  induction h with
  | refl => rfl
  | tail _ hstep ih =>
    refine Eq.trans ?_ ih
    obtain ⟨o, ho, hcase⟩ := effect_emits hstep
    refine errors_append (ho.replies c) fun m hm => ?_
    rcases hcase with ⟨hspoken, -⟩ | ⟨-, -, rfl⟩
    · exact hspoken.not_error c m hm
    · unfold Output.list at hm
      split_ifs at hm
      · exact registrationLines_not_error _ m hm
      · cases hm

theorem Hears.errors (h : Hears s s' c) : (s'.client c).errors = (s.client c).errors := by
  obtain ⟨-, ms, hms, hsaid⟩ := h
  refine errors_append hms fun m hm => ?_
  obtain ⟨d, -, -, hm⟩ := hsaid m hm
  exact hm.not_error

/-- A connection that has not begun to shut down does nothing about it, is marked, or is closed with
an ERROR line that tells the reason, as its last line. -/
inductive Begins (s s' : Server) (fd : Fd) (c : ClientPtr) : Prop
  | idle (h : s'.shutdown fd = .idle) (he : (s'.client c).errors = (s.client c).errors)
  | mark (r : Bytes) (h : s'.shutdown fd = ⟨none, some r⟩)
      (he : (s'.client c).errors = (s.client c).errors)
  | close (r : Bytes) (cl : Client) (h : s'.shutdown fd = ⟨some r, none⟩)
      (hc : s'.client c = (cl.sendReply (closingLine (s.client c).ip r)).markClosing s.now)
      (he : cl.errors = (s.client c).errors)

theorem begins_receiveLine (hb : s.Base Clean) {fd : Fd} (hc : s.clients.find? fd = some c)
    (hready : s.lineReady fd c = true) : Begins s (s.receiveLine c) fd c := by
  have hidle := (lineReady_iff.mp hready).1
  have hpop : SameNetwork s (s.updClient c fun cl => cl.popLine.2) := by constructor <;> rfl
  have herr : ((s.updClient c fun cl => cl.popLine.2).client c).errors = (s.client c).errors := by
    rw [updClient_client_self]
    rfl
  rcases line_receiveLine textPred_clean hb ⟨fd, hc⟩
      (serves_clean.lines s fd c ⟨c, hc, hready⟩ hc) with heq | ⟨msg, -, hline⟩
  · rw [heq]
    exact .idle ((hpop.shutdown fd).trans hidle) herr
  · generalize s.receiveLine c = s' at hline
    cases hline with
    | effects h =>
      exact .idle (((hpop.trans (effects_network h)).shutdown fd).trans hidle)
        ((effects_errors h).trans herr)
    | @closed t reason h =>
      have hnet := hpop.trans (effects_network h)
      have hfd : (t.client c).fd = fd := by
        refine (effects_base h (pop_base hb c)).links.client_fd fd c ?_
        rw [hnet.clients]
        exact hc
      have hip : (t.client c).ip = (s.client c).ip := by
        rw [effects_ip h, updClient_client_self]
        rfl
      refine .close reason (t.client c) ?_ ?_ ?_
      · rw [shutdown_disconnectAfterFlush, hfd, if_pos rfl, hnet.shutdown, hidle]
        rfl
      · rw [disconnectAfterFlush_client, if_pos rfl, hip, hnet.now]
      · rw [effects_errors h, herr]
    | entry h =>
      obtain ⟨o, ho, hspoken⟩ := entry_emits h
      exact .idle (((hpop.trans (entry_network h)).shutdown fd).trans hidle)
        ((errors_append (ho.replies c) (hspoken.not_error c)).trans herr)

end lines

/-! ## Events -/

section events

variable {s : Server} {fd : Fd} {c : ClientPtr}

/-- What the handlers of a descriptor other than the line loop leave as it is. -/
structure Mute (s s' : Server) (c : ClientPtr) : Prop where
  replies : (s'.client c).replies = (s.client c).replies
  lines : (s'.client c).lines = (s.client c).lines
  closingSince : (s'.client c).closingSince = (s.client c).closingSince

theorem mute_of_eq {s' : Server} (h : s'.client c = s.client c) : Mute s s' c :=
  ⟨by rw [h], by rw [h], by rw [h]⟩

theorem Mute.errors {s' : Server} (h : Mute s s' c) :
    (s'.client c).errors = (s.client c).errors := by
  rw [Client.errors, h.replies]
  rfl

theorem mute_receiveChunk (s : Server) (fd : Fd) (c : ClientPtr) (r : RecvResult) :
    Mute s (s.receiveChunk fd c r).1 c := by
  cases r with
  | failed | closed => exact mute_of_eq (congrFun (mark_client s fd _) c)
  | data buffer =>
    simp only [receiveChunk]
    split_ifs
    · exact mute_of_eq rfl
    · refine ⟨?_, ?_, ?_⟩ <;> rw [mark_client, updClient_client_self] <;> rfl
    · refine ⟨?_, ?_, ?_⟩ <;> rw [updClient_client_self] <;> rfl

theorem mute_sendData (hc : s.clients.find? fd = some c) (r : SendResult) :
    Mute s (s.sendData fd r) c := by
  have hclient := (sendData_own hc r).2
  refine ⟨?_, ?_, ?_⟩ <;> rw [hclient] <;> cases r <;> rfl

/-- Only lines of the connection and the idle check enter it in `closing`. -/
theorem closing_step (hb : s.Base Clean) {e : Event} (he : Enabled s e) (hline : e ≠ .line fd)
    (hidle : e ≠ .idle) : ((step s e).shutdown fd).closing = none ∨
      ((step s e).shutdown fd).closing = (s.shutdown fd).closing := by
  have hmark : ∀ (t : Server) fd' r,
      ((t.markForDisconnection fd' r).shutdown fd).closing = (t.shutdown fd).closing := by
    intro t fd' r
    rw [shutdown_mark]
    split_ifs with h
    · rw [h]
      rfl
    · rfl
  cases e with
  | accept r => cases r <;> exact .inr rfl
  | recv fd' r =>
    right
    simp only [step]
    split
    · rfl
    · cases r with
      | failed | closed => exact hmark s fd' _
      | data buffer =>
        simp only [receiveChunk]
        split_ifs
        · rfl
        · exact hmark _ fd' _
        · rfl
  | line fd' =>
    right
    obtain ⟨u, hu, hready⟩ := he
    have hfd : fd ≠ fd' := fun h => hline (by rw [h])
    rw [step_line hu]
    rcases shutdown_receiveLine hb hu hready with hsame | ⟨reason, hclosed⟩
    · rw [hsame]
    · rw [hclosed, if_neg hfd]
  | send fd' r =>
    show ((s.sendData fd' r).shutdown fd).closing = none ∨
      ((s.sendData fd' r).shutdown fd).closing = (s.shutdown fd).closing
    cases hu : s.clients.find? fd' with
    | none =>
      rw [sendData, hu]
      exact .inr rfl
    | some u =>
      by_cases hfd : fd = fd'
      · subst hfd
        rw [(sendData_own hu r).1]
        exact sendOutcome_closing r _ _
      · rw [(sendData_other (d := u) hu r).1 hfd]
        exact .inr rfl
  | pollError fd' => exact .inr (hmark s fd' _)
  | pollTimeout | tick => exact .inr rfl
  | refresh =>
    right
    show (s.refreshPollEvents.shutdown fd).closing = _
    rcases shutdown_refreshPollEvents s fd with h | ⟨r, h⟩ <;> rw [h]
    rfl
  | cleanup =>
    show (s.cleanupDisconnected.shutdown fd).closing = none ∨
      (s.cleanupDisconnected.shutdown fd).closing = (s.shutdown fd).closing
    rw [shutdown_cleanup hb]
    split_ifs
    · exact .inl rfl
    · exact .inr rfl
  | idle => exact absurd rfl hidle

theorem begins_of_closing {s' : Server} (he : (s'.client c).errors = (s.client c).errors)
    (h : (s'.shutdown fd).closing = none) : Begins s s' fd c := by
  generalize hsh : s'.shutdown fd = sh at h
  obtain ⟨closing, mark⟩ := sh
  obtain rfl : closing = none := h
  cases mark with
  | none => exact .idle hsh he
  | some r => exact .mark r hsh he

theorem begins_idle (hl : s.Links) (hc : s.clients.find? fd = some c)
    (hsh : s.shutdown fd = .idle) : Begins s s.checkIdleClients fd c := by
  have hshutdown := checkIdleClients_shutdown hl hc
  have hclient := checkIdleClients_client hl hc
  rw [hsh, idleOutcome] at hshutdown hclient
  dsimp only [Shutdown.idle] at hshutdown hclient
  split_ifs at hshutdown hclient
  · exact .mark _ hshutdown (by rw [hclient])
  · exact .idle hshutdown (by rw [hclient])
  · exact .close _ (s.client c) hshutdown hclient rfl
  · refine .idle hshutdown ?_
    rw [hclient]
    exact @errors_append _ _ [ascii "PING :ircserv"] rfl (by decide)
  · exact .idle hshutdown (by rw [hclient])

/-- The step with which a shutdown begins. -/
theorem begins_step (hb : s.Base Clean) {e : Event} (he : Enabled s e)
    (hc : s.clients.find? fd = some c) (hc' : (step s e).clients.find? fd = some c)
    (hsh : s.shutdown fd = .idle) : Begins s (step s e) fd c := by
  by_cases hline : e = .line fd
  · subst hline
    rw [step_line hc]
    exact begins_receiveLine hb hc (lineReady_of_enabled he hc)
  by_cases hidle : e = .idle
  · subst hidle
    exact begins_idle hb.links hc hsh
  have hclosing : ((step s e).shutdown fd).closing = none := by
    rcases closing_step hb he hline hidle with h | h
    · exact h
    · rw [h, hsh]
      rfl
  refine begins_of_closing ?_ hclosing
  by_cases hown : OfDescriptor fd e
  · cases hown with
    | recv r =>
      simp only [step, hc]
      exact (mute_receiveChunk s fd c r).errors
    | line => exact absurd rfl hline
    | send r => exact (mute_sendData hc r).errors
    | pollError => exact (mute_of_eq (congrFun (mark_client s fd _) c)).errors
  · exact (hears_step hb he hc hc' hown hidle).errors

/-! ## After the beginning -/

/-- No line of the connection is taken, and what it is sent comes from others. -/
structure Muted (s s' : Server) (c : ClientPtr) : Prop where
  lines : (s'.client c).lines = (s.client c).lines
  closingSince : (s'.client c).closingSince = (s.client c).closingSince
  said : ∃ ms, (s'.client c).replies = (s.client c).replies ++ ms ∧
    ∀ m ∈ ms, ∃ d, d ≠ c ∧ s.LiveClient d ∧ Sourced (s.client d) m

theorem Mute.muted {s' : Server} (h : Mute s s' c) : Muted s s' c :=
  ⟨h.lines, h.closingSince, [], by rw [h.replies, List.append_nil], fun _ hm => by cases hm⟩

theorem Hears.muted {s' : Server} (h : Hears s s' c) : Muted s s' c :=
  ⟨congrArg Wire.lines h.1, congrArg Wire.closingSince h.1, h.2⟩

theorem Muted.errors {s' : Server} (h : Muted s s' c) :
    (s'.client c).errors = (s.client c).errors := by
  obtain ⟨ms, hms, hsaid⟩ := h.said
  refine errors_append hms fun m hm => ?_
  obtain ⟨d, -, -, hm⟩ := hsaid m hm
  exact hm.not_error

theorem receiveChunk_sent (s : Server) (fd : Fd) (c : ClientPtr) (r : RecvResult) :
    ((s.receiveChunk fd c r).1.client c).sent = (s.client c).sent := by
  cases r with
  | failed | closed => rw [receiveChunk, mark_client]
  | data buffer =>
    simp only [receiveChunk]
    split_ifs
    · rfl
    · rw [mark_client, updClient_client_self]
      rfl
    · rw [updClient_client_self]
      rfl

theorem muted_step {t : Phase × Server} (h : run.Reachable t) {e : Event}
    (he : run.Enabled t e) (hc : t.2.clients.find? fd = some c)
    (hc' : (step t.2 e).clients.find? fd = some c) (hbegun : (t.2.shutdown fd).Begun) :
    e ≠ .line fd ∧ Muted t.2 (step t.2 e) c ∧ ((∀ r, e ≠ .send fd r) →
      ((step t.2 e).client c).sent = (t.2.client c).sent) := by
  have hb := run_base h
  have hline : e ≠ .line fd := by
    rintro rfl
    exact absurd (lineReady_iff.mp (lineReady_of_enabled he.2 hc)).1
      (fun hidle => Shutdown.not_begun_iff.mpr hidle hbegun)
  refine ⟨hline, ?_⟩
  by_cases hidle : e = .idle
  · subst hidle
    have hmarks := idle_unmarked h (after_idle he.1)
    have hmark : (t.2.shutdown fd).mark = none := by
      rw [Server.shutdown, hmarks]
      rfl
    have hclient := checkIdleClients_client hb.links hc
    cases hclosing : (t.2.shutdown fd).closing with
    | none => exact absurd hbegun (by simp [Shutdown.Begun, hclosing, hmark])
    | some r =>
      rw [idleOutcome, hclosing] at hclient
      exact ⟨(hears_of_eq hclient).muted, fun _ => congrArg Client.sent hclient⟩
  by_cases hown : OfDescriptor fd e
  · cases hown with
    | recv r =>
      simp only [step, hc]
      exact ⟨(mute_receiveChunk t.2 fd c r).muted, fun _ => receiveChunk_sent t.2 fd c r⟩
    | line => exact absurd rfl hline
    | send r => exact ⟨(mute_sendData hc r).muted, fun hsend => absurd rfl (hsend r)⟩
    | pollError =>
      have hsame := congrFun (mark_client t.2 fd (ascii "Connection error")) c
      exact ⟨(mute_of_eq hsame).muted, fun _ => congrArg Client.sent hsame⟩
  · have hears := hears_step hb he.2 hc hc' hown hidle
    exact ⟨hears.muted, fun _ => congrArg Wire.sent hears.1⟩

theorem muted_run {t t' : Phase × Server} {es : List Event} {fd : Fd} {c : ClientPtr}
    (ht : run.Reachable t) (hc : t.2.clients.find? fd = some c)
    (hbegun : (t.2.shutdown fd).Begun) (h : (connection fd c).Run t es t') :
    (∀ e ∈ es, e ≠ .line fd) ∧ (t'.2.client c).lines = (t.2.client c).lines ∧
      (t'.2.client c).errors = (t.2.client c).errors := by
  induction h with
  | nil => exact ⟨List.forall_mem_nil _, rfl, rfl⟩
  | @cons t t' e es he _ ih =>
    obtain ⟨hline, hmuted, -⟩ := muted_step ht he.1 hc he.2 hbegun
    have hnext : ((step t.2 e).shutdown fd).Begun := (run_shutdown ht he.1 hc he.2).begun hbegun
    obtain ⟨hrest, hlines, herrors⟩ := ih (.step ht he.1) he.2 hnext
    refine ⟨fun f hf => ?_, hlines.trans hmuted.lines, herrors.trans hmuted.errors⟩
    rcases List.mem_cons.mp hf with rfl | hf
    · exact hline
    · exact hrest f hf

/-! ## What the client is told -/

/-- The ERROR lines of a connection and its shutdown agree. -/
inductive Told (s : Server) (fd : Fd) (c : ClientPtr) : Prop
  | idle (h : s.shutdown fd = .idle) (he : (s.client c).errors = [])
  | marked (r : Bytes) (h : s.shutdown fd = ⟨none, some r⟩) (he : (s.client c).errors = [])
  | closed (r : Bytes) (h : (s.shutdown fd).Begun) (hcause : (s.shutdown fd).cause = some r)
      (he : (s.client c).errors = [closingLine (s.client c).ip r])

theorem Told.step {t : Phase × Server} (h : run.Reachable t) {e : Event} (he : run.Enabled t e)
    (hc : t.2.clients.find? fd = some c) (hc' : (step t.2 e).clients.find? fd = some c)
    (htold : Told t.2 fd c) : Told (step t.2 e) fd c := by
  have hb := run_base h
  have hip := step_ip hb ⟨fd, hc⟩ he.2
  have hsh := run_shutdown h he hc hc'
  cases htold with
  | idle hidle herr =>
    cases begins_step hb he.2 hc hc' hidle with
    | idle h' he' => exact .idle h' (he'.trans herr)
    | mark r h' he' => exact .marked r h' (he'.trans herr)
    | close r cl h' hclient herrors =>
      refine .closed r ?_ ?_ ?_
      · rw [h']
        exact .inl (by simp)
      · rw [h']
        rfl
      · rw [hip, hclient]
        rw [errors_closing (c := cl) rfl, herrors, herr]
        rfl
  | marked r hmark herr =>
    have hbegun : (t.2.shutdown fd).Begun := by
      rw [hmark]
      exact .inr (by simp)
    refine .marked r ((hsh.mark_eq (by rw [hmark])).trans hmark) ?_
    exact (muted_step h he hc hc' hbegun).2.1.errors.trans herr
  | closed r hbegun hcause herr =>
    refine .closed r (hsh.begun hbegun) ((hsh.cause hbegun).trans hcause) ?_
    rw [(muted_step h he hc hc' hbegun).2.1.errors, herr, hip]

theorem run_told {t : Phase × Server} (h : run.Reachable t) (hc : t.2.clients.find? fd = some c) :
    Told t.2 fd c := by
  refine System.Reachable.invariant (I := fun t : Phase × Server => ∀ fd c,
    t.2.clients.find? fd = some c → Told t.2 fd c) (fun t ht fd c hc => ?_)
    (fun t e ht ih he fd c hc => ?_) h fd c hc
  · obtain ⟨-, fd', password, heap, now, -, -, hinit⟩ := ht
    rw [hinit] at hc
    simp [init] at hc
  · have hb := run_base ht
    rcases step_find hb he.2 hc with hold | ⟨addr, rfl, rfl⟩
    · exact (ih fd c hold).step ht he hold hc
    · refine .idle (reachable_keyed (run_reachable ht) fd he.2.2) ?_
      show ((t.2.acceptNewClient (.accepted fd addr)).client _).errors = []
      rw [accept_client, if_pos rfl]
      rfl

end events

end Server
end FtIrc
