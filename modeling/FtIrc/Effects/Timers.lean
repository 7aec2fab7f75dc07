import FtIrc.Effects.Closing
import FtIrc.Effects.Delivery

/-!
# Signs of life

The times that the idle check compares with the clock, and whether a PING has been sent. Data of the
connection and its PONG lines set them back; nothing that others do changes them.
-/

namespace FtIrc

/-- The times of a connection that the idle check reads, and its latch. -/
structure Timers where
  connectedAt : Time
  lastActivity : Time
  pingSent : Bool

def Client.timers (c : Client) : Timers := ⟨c.connectedAt, c.lastActivity, c.pingSent⟩

/-- A sign of life. -/
def Timers.alive (t : Timers) (now : Time) : Timers := ⟨t.connectedAt, now, false⟩

/-- The line is a PONG. -/
def isPong (raw : Bytes) : Bool :=
  (spliter raw).any fun msg => Server.findCommand msg.command = some .pong

/-- The reason in a line, if it is a QUIT. -/
def quitOf (raw : Bytes) : Option Bytes := (spliter raw).bind Message.quit

namespace Server

def SameTimers (s s' : Server) (d : ClientPtr) : Prop := (s'.client d).timers = (s.client d).timers

section lines

variable {P : Bytes → Prop} {msg : Message} {u d : ClientPtr} {s s' : Server}

theorem sameTimers_of_sameClient (h : SameClient (s.client d) (s'.client d)) :
    SameTimers s s' d := by
  unfold SameTimers
  rw [h]
  rfl

/-- A PONG is the only line that is a sign of life beyond its arrival. -/
theorem effect_timers (h : Effect P msg u s s')
    (hpong : d = u → findCommand msg.command ≠ some .pong) : SameTimers s s' d := by
  have hupd : ∀ f : Client → Client, (f (s.client u)).timers = (s.client u).timers →
      SameTimers s (s.updClient u f) d := by
    intro f hf
    unfold SameTimers
    rw [updClient_client]
    split_ifs with hd
    · rw [hf, hd]
    · rfl
  have hleave : ∀ p c, SameTimers s (s.leave p c) d := fun p c =>
    sameTimers_of_sameClient (leave_sameClient s p c d)
  cases h with
  | reply | talk | announce | mode | operator | topic => rfl
  | @invite p c =>
    show (((s.invite p c).client d).sendAll _).timers = _
    rw [invite_client]
    split_ifs with hd
    · rw [hd]
      rfl
    · rfl
  | part => exact hleave _ _
  | kick => exact hleave _ _
  | rename | register => exact hupd _ rfl
  | nickname | user | pass => exact hupd _ rfl
  | pong hcmd =>
    have hd : d ≠ u := fun hd => hpong hd hcmd
    unfold SameTimers
    rw [updClient_client_of_ne _ _ _ _ hd]

theorem effects_timers (h : Effects P msg u s s')
    (hpong : d = u → findCommand msg.command ≠ some .pong) : SameTimers s s' d := by
  induction h with
  | refl => rfl
  | tail _ hstep ih => exact (effect_timers hstep hpong).trans ih

theorem letIn_timers (s : Server) {p : ChannelPtr} (hm : u ∉ (s.channel p).members) :
    SameTimers s (s.letIn p u) d := by
  unfold SameTimers
  rw [letIn_eq]
  show (((s.enter p u).client d).sendAll _).timers = _
  rw [enter_client s hm]
  split_ifs with hd
  · rw [hd]
    rfl
  · rfl

theorem entry_timers (h : Entry P msg u s s') : SameTimers s s' d := by
  cases h with
  | join _ _ _ _ _ hm => exact letIn_timers s hm
  | @create name =>
    exact letIn_timers (s.newChannel name) (by simp [newChannel_channel, Channel.new])

theorem disconnectAfterFlush_timers (s : Server) (c d : ClientPtr) (reason : Bytes) :
    SameTimers s (s.disconnectAfterFlush c reason) d := by
  unfold SameTimers
  rw [disconnectAfterFlush_client]
  split_ifs with hd
  · rw [hd]
    rfl
  · rfl

theorem line_timers (h : Line P msg u s s')
    (hpong : d = u → findCommand msg.command ≠ some .pong) : SameTimers s s' d := by
  cases h with
  | effects h => exact effects_timers h hpong
  | @closed t reason h =>
    exact (disconnectAfterFlush_timers t u d reason).trans (effects_timers h hpong)
  | entry h => exact entry_timers h

theorem isPong_of_spliter {raw : Bytes} (hmsg : spliter raw = some msg) :
    isPong raw = true ↔ findCommand msg.command = some .pong := by
  simp [isPong, hmsg]

theorem popped_timers (s : Server) (u d : ClientPtr) : SameTimers s (s.popped u) d := by
  unfold SameTimers
  rw [popped, updClient_client]
  split_ifs with hd
  · rw [hd]
    rfl
  · rfl

theorem dispatch_pong (hcmd : findCommand msg.command = some .pong) :
    s.dispatch u msg = s.updClient u (·.updateLastActivity s.now) := by
  simp [dispatch, hcmd, needLogin, execute, executePong]

/-- A round of the line loop is a sign of life of its client if the line is a PONG. -/
theorem receiveLine_timers (hb : s.Base Clean) {fd : Fd} (hu : s.clients.find? fd = some u)
    (hready : s.lineReady fd u = true) (d : ClientPtr) : ((s.receiveLine u).client d).timers =
      if d = u ∧ isPong (s.nextLine u) = true then (s.client d).timers.alive s.now
      else (s.client d).timers := by
  have hpop := popped_timers s u d
  rcases line_receiveLine textPred_clean hb ⟨fd, hu⟩
      (serves_clean.lines s fd u ⟨u, hu, hready⟩ hu) with heq | ⟨msg, hmsg, hrun⟩
  · cases hmsg : spliter (s.nextLine u) with
    | none =>
      rw [heq, if_neg (by simp [isPong, hmsg])]
      exact hpop
    | some msg =>
      by_cases hpong : d = u ∧ isPong (s.nextLine u) = true
      · rw [if_pos hpong, receiveLine_dispatch hmsg,
          dispatch_pong ((isPong_of_spliter hmsg).mp hpong.2), ← hpop, hpong.1,
          updClient_client_self]
        rfl
      · rw [heq, if_neg hpong]
        exact hpop
  · have hiff := isPong_of_spliter hmsg
    by_cases hpong : d = u ∧ isPong (s.nextLine u) = true
    · rw [if_pos hpong, receiveLine_dispatch hmsg, dispatch_pong (hiff.mp hpong.2), ← hpop,
        hpong.1, updClient_client_self]
      rfl
    · rw [if_neg hpong]
      exact (line_timers hrun fun hd hcmd => hpong ⟨hd, hiff.mpr hcmd⟩).trans hpop

end lines

/-! ## Departures -/

section departures

variable {P : Bytes → Prop} {s s' : Server}

theorem Departure.timers {c : ClientPtr} {cause : Bytes} (h : Departure s c cause s')
    (d : ClientPtr) : SameTimers s s' d := by
  by_cases hd : d = c
  · rw [hd]
    exact sameTimers_of_sameClient h.self
  · unfold SameTimers
    rw [h.client d hd]
    rfl

theorem disconnectAll_timers (hb : s.Base P) {targets : List (Fd × Bytes)}
    (ht : ∀ e ∈ targets, P e.2) (d : ClientPtr) : SameTimers s (s.disconnectAll targets) d := by
  induction targets generalizing s with
  | nil => rfl
  | cons e es ih =>
    have hrun := background_disconnect hb e.1 (ht e List.mem_cons_self)
    have htail := ih (backgrounds_base hrun hb) fun e' he' => ht e' (List.mem_cons_of_mem _ he')
    refine Eq.trans htail ?_
    cases hfind : s.clients.find? e.1 with
    | none => rw [disconnect_none s hfind e.2]
    | some c => exact (disconnect_departure hb.links hb.noGhost hfind e.2).1.timers d

theorem cleanup_timers (hb : s.Base P) (d : ClientPtr) : SameTimers s s.cleanupDisconnected d :=
  disconnectAll_timers (background_base (background_unmark hb) hb) (marked_reasons hb) d

end departures

/-! ## Events -/

/-- The connection is heard: data of it arrives, or a PONG of it is run. -/
def heard (s : Server) (fd : Fd) (c : ClientPtr) : Event → Bool
  | .recv fd' (.data _) => fd' = fd
  | .line fd' => fd' = fd && isPong (s.nextLine c)
  | _ => false

section events

variable {s : Server} {fd : Fd} {c : ClientPtr}

theorem receiveChunk_timers (hclosing : s.closing.contains fd = false) (buffer : Bytes) :
    ((s.receiveChunk fd c (.data buffer)).1.client c).timers =
      (s.client c).timers.alive s.now := by
  simp only [receiveChunk, hclosing, Bool.false_eq_true, if_false]
  split_ifs
  · rw [mark_client, updClient_client_self]
    rfl
  · rw [updClient_client_self]
    rfl

theorem sendClient_timers (r : SendResult) (cl : Client) :
    (sendClient r cl).timers = cl.timers := by
  cases r <;> rfl

/-- Outside of the idle check, the timers of a connection follow its signs of life. -/
theorem timers_step (hb : s.Base Clean) {e : Event} (he : Enabled s e)
    (hc : s.clients.find? fd = some c) (hidle : e ≠ .idle)
    (hdata : ∀ buffer, e = .recv fd (.data buffer) → s.closing.contains fd = false) :
    ((step s e).client c).timers =
      if s.heard fd c e = true then (s.client c).timers.alive s.now else (s.client c).timers := by
  have hne : ∀ {fd' u}, s.clients.find? fd' = some u → fd' ≠ fd → c ≠ u := by
    intro fd' u hu hfd hcu
    have hown := hb.links.client_fd _ _ hu
    rw [← hcu, hb.links.client_fd _ _ hc] at hown
    exact hfd hown.symm
  cases e with
  | accept r =>
    cases r with
    | failed | blocking => rfl
    | accepted fd' addr =>
      show ((s.acceptNewClient (.accepted fd' addr)).client c).timers = (s.client c).timers
      rw [accept_client, if_neg]
      intro hfresh
      exact s.heap.fresh _ (hfresh ▸ (liveClient_iff_mem s _).mp ⟨fd, hc⟩)
  | recv fd' r =>
    by_cases hfd : fd' = fd
    · subst hfd
      simp only [step, hc]
      cases r with
      | failed | closed => exact congrArg Client.timers (congrFun (mark_client s fd' _) c)
      | data buffer =>
        rw [if_pos (by simp [heard])]
        exact receiveChunk_timers (hdata buffer rfl) buffer
    · have hnot : s.heard fd c (.recv fd' r) = false := by
        cases r <;> simp [heard, hfd]
      rw [hnot, if_neg (by decide)]
      simp only [step]
      split
      · rfl
      · rename_i u hu
        rw [receiveChunk_client_other s fd' (hne hu hfd) r]
  | line fd' =>
    obtain ⟨u, hu, hready⟩ := he
    rw [step_line hu, receiveLine_timers hb hu hready]
    by_cases hfd : fd' = fd
    · subst hfd
      obtain rfl : c = u := Option.some.inj (hc.symm.trans hu)
      simp [heard]
    · simp [heard, hfd, hne hu hfd]
  | send fd' r =>
    show ((s.sendData fd' r).client c).timers = (s.client c).timers
    by_cases hfd : fd' = fd
    · subst hfd
      rw [(sendData_own hc r).2, sendClient_timers]
    · cases hu : s.clients.find? fd' with
      | none => rw [sendData, hu]
      | some u => rw [(@sendData_other s fd' fd u c hu r).2 (hne hu hfd)]
  | pollError fd' => exact congrArg Client.timers (congrFun (mark_client s fd' _) c)
  | pollTimeout | tick => rfl
  | refresh => exact congrArg Client.timers (congrFun (refreshPollEvents_client s) c)
  | cleanup => exact cleanup_timers hb c
  | idle => exact absurd rfl hidle

/-- Only data of the connection and rounds of its line loop change its read buffer. -/
theorem readBuffer_step (hb : s.Base Clean) {e : Event} (he : Enabled s e)
    (hc : s.clients.find? fd = some c) (hc' : (step s e).clients.find? fd = some c)
    (hdata : ∀ buffer, e ≠ .recv fd (.data buffer)) (hline : e ≠ .line fd) :
    ((step s e).client c).readBuffer = (s.client c).readBuffer := by
  by_cases hidle : e = .idle
  · subst hidle
    show (s.checkIdleClients.client c).readBuffer = _
    rw [checkIdleClients_client hb.links hc]
    unfold idleOutcome
    split
    · rfl
    · split_ifs <;> rfl
  by_cases hown : OfDescriptor fd e
  · cases hown with
    | recv r =>
      simp only [step, hc]
      cases r with
      | failed | closed => exact congrArg Client.readBuffer (congrFun (mark_client s fd _) c)
      | data buffer => exact absurd rfl (hdata buffer)
    | line => exact absurd rfl hline
    | send r =>
      show ((s.sendData fd r).client c).readBuffer = _
      rw [(sendData_own hc r).2]
      cases r <;> rfl
    | pollError => exact congrArg Client.readBuffer (congrFun (mark_client s fd _) c)
  · exact congrArg Wire.readBuffer (hears_step hb he hc hc' hown hidle).1

/-- A connection without a line to take stays so as long as no data of it arrives. -/
theorem lineReady_step (hb : s.Base Clean) {e : Event} (he : Enabled s e)
    (hc : s.clients.find? fd = some c) (hc' : (step s e).clients.find? fd = some c)
    (hdata : ∀ buffer, e ≠ .recv fd (.data buffer)) (hready : s.lineReady fd c = false) :
    e ≠ .line fd ∧ (step s e).lineReady fd c = false := by
  have hline : e ≠ .line fd := by
    rintro rfl
    exact absurd (lineReady_of_enabled he hc) (by simp [hready])
  refine ⟨hline, ?_⟩
  have hbuffer := readBuffer_step hb he hc hc' hdata hline
  have hbegun := step_begun hb he hc (by rw [hc']; rfl)
  rw [Bool.eq_false_iff] at hready ⊢
  intro hready'
  obtain ⟨hidle', hcomplete⟩ := lineReady_iff.mp hready'
  refine hready (lineReady_iff.mpr ⟨?_, ?_⟩)
  · by_contra hidle
    have hbegan : (s.shutdown fd).Begun := by
      by_contra hnot
      exact hidle (Shutdown.not_begun_iff.mp hnot)
    exact Shutdown.not_begun_iff.mpr hidle' (hbegun hbegan)
  · rw [Client.hasCompleteLine, ← hbuffer]
    exact hcomplete

end events

end Server
end FtIrc
