import FtIrc.Effects.Timers
import FtIrc.Properties.Causes

/-!
# Liveness of connections

Silence is counted from the last sign of life. The idle check asks a silent connection once, and gives
it up when the answer does not come.
-/

namespace FtIrc
namespace Server

/-- The moment at which the connection was last heard, if that was `since` before the events. -/
def lastHeard (fd : Fd) (c : ClientPtr) (since : Time) : Phase × Server → List Event → Time
  | _, [] => since
  | t, e :: es =>
    lastHeard fd c (if t.2.heard fd c e = true then t.2.now else since) (run.next t e) es

/-- The idle check sends a PING to the client. -/
def Pinged (s : Server) (c : ClientPtr) : Prop :=
  (s.checkIdleClients.client c).replies = (s.client c).replies ++ [ascii "PING :ircserv"]

/-- The connection as `receiveData` serves it: while it has lines to take, nothing but time passes
between them. -/
def attended (fd : Fd) (c : ClientPtr) : System (Phase × Server) Event :=
  (connection fd c).restrict fun t e =>
    t.2.lineReady fd c = true → e = .line fd ∨ ∃ now, e = .tick now

/-! ## Timers along a run -/

section timers

variable {fd : Fd} {c : ClientPtr}

theorem idleOutcome_timers (now : Time) (cl : Client) : let cl' := (idleOutcome now .idle cl).2
    cl'.connectedAt = cl.connectedAt ∧ cl'.lastActivity = cl.lastActivity := by
  unfold idleOutcome
  dsimp only [Shutdown.idle]
  split_ifs <;> exact ⟨rfl, rfl⟩

theorem idle_of_step {t : Phase × Server} (ht : run.Reachable t) {e : Event}
    (he : run.Enabled t e) (hc : t.2.clients.find? fd = some c)
    (hc' : (step t.2 e).clients.find? fd = some c) (hidle : (step t.2 e).shutdown fd = .idle) :
    t.2.shutdown fd = .idle := by
  by_contra hne
  have hbegun : (t.2.shutdown fd).Begun := by
    by_contra hnot
    exact hne (Shutdown.not_begun_iff.mp hnot)
  exact Shutdown.not_begun_iff.mpr hidle ((run_shutdown ht he hc hc').begun hbegun)

theorem closing_of_idle {s : Server} (h : s.shutdown fd = .idle) :
    s.closing.contains fd = false := by
  have hclosing : s.closing.find? fd = none := congrArg Shutdown.closing h
  simp [StdMap.contains, hclosing]

/-- As long as a connection does not shut down, its times are those of its acceptance and of its last
sign of life. -/
theorem timers_run {t t' : Phase × Server} {es : List Event} (ht : run.Reachable t)
    (hc : t.2.clients.find? fd = some c) (h : (connection fd c).Run t es t')
    (hidle : t'.2.shutdown fd = .idle) : (t'.2.client c).connectedAt = (t.2.client c).connectedAt ∧
      (t'.2.client c).lastActivity = lastHeard fd c (t.2.client c).lastActivity t es := by
  induction h with
  | nil => exact ⟨rfl, rfl⟩
  | @cons t t' e es he hrest ih =>
    have hnext := System.Reachable.step ht he.1
    obtain ⟨hconnected, hactivity⟩ := ih hnext he.2 hidle
    have hidle₁ : (step t.2 e).shutdown fd = .idle := by
      by_contra hne
      have hbegun : ((step t.2 e).shutdown fd).Begun := by
        by_contra hnot
        exact hne (Shutdown.not_begun_iff.mp hnot)
      exact Shutdown.not_begun_iff.mpr hidle
        (Shutdown.begun_of_steps (connection_steps hnext he.2 hrest) hbegun).1
    have hidle₀ := idle_of_step ht he.1 hc he.2 hidle₁
    have hone : ((step t.2 e).client c).connectedAt = (t.2.client c).connectedAt ∧
        ((step t.2 e).client c).lastActivity =
          if t.2.heard fd c e = true then t.2.now else (t.2.client c).lastActivity := by
      by_cases hcheck : e = .idle
      · subst hcheck
        have hclient : (step t.2 .idle).client c = _ :=
          checkIdleClients_client (run_base ht).links hc
        rw [hclient, hidle₀]
        exact idleOutcome_timers _ _
      · have htimers := timers_step (run_base ht) he.1.2 hc hcheck
          fun _ _ => closing_of_idle hidle₀
        split_ifs at htimers ⊢ with hheard
        · exact ⟨congrArg Timers.connectedAt htimers, congrArg Timers.lastActivity htimers⟩
        · exact ⟨congrArg Timers.connectedAt htimers, congrArg Timers.lastActivity htimers⟩
    refine ⟨hconnected.trans hone.1, hactivity.trans ?_⟩
    show lastHeard fd c ((step t.2 e).client c).lastActivity (run.next t e) es = _
    rw [hone.2]
    rfl

end timers

/-! ## The PING -/

section ping

variable {s : Server} {fd : Fd} {c : ClientPtr}

/-- What the idle check has found when it sends a PING, and what it leaves. -/
theorem pinged_cases (hl : s.Links) (hc : s.clients.find? fd = some c) (h : s.Pinged c) :
    ((s.client c).isRegistered = true ∧ s.closing.find? fd = none ∧
      timeoutSeconds / 2 < (s.client c).getIdleTime s.now ∧
      (s.client c).getIdleTime s.now ≤ timeoutSeconds ∧ (s.client c).pingSent = false) ∧
      (s.checkIdleClients.client c).pingSent = true := by
  have hclient := checkIdleClients_client hl hc
  have hclosing : (s.shutdown fd).closing = s.closing.find? fd := rfl
  have hsilent : ∀ {cl : Client}, cl.replies ≠ cl.replies ++ [ascii "PING :ircserv"] := by
    intro cl heq
    have hlength := congrArg List.length heq
    simp at hlength
  rw [Pinged, hclient] at h
  rw [hclient]
  unfold idleOutcome at h ⊢
  rw [hclosing] at h ⊢
  cases hfind : s.closing.find? fd with
  | some reason =>
    rw [hfind] at h
    exact absurd h hsilent
  | none =>
    rw [hfind] at h
    dsimp only at h ⊢
    split_ifs at h ⊢ with hreg hlate hlong hask
    · exact absurd h hsilent
    · exact absurd h hsilent
    · -- the last line is the ERROR line
      have hlast : [closingLine (s.client c).ip (ascii "Ping timeout")] =
          [ascii "PING :ircserv"] := List.append_cancel_left h
      have herror := isErrorLine_closingLine (s.client c).ip (ascii "Ping timeout")
      rw [(List.cons.inj hlast).1] at herror
      exact absurd herror (by decide)
    · exact ⟨⟨by simpa using hreg, rfl, hask.1, not_lt.mp hlong, hask.2⟩, rfl⟩
    · exact absurd h hsilent

theorem idleOutcome_pingSent {now : Time} {sh : Shutdown Bytes} {cl : Client}
    (h : cl.pingSent = true) : (idleOutcome now sh cl).2.pingSent = true := by
  unfold idleOutcome
  split
  · exact h
  · split_ifs <;> first | exact h | rfl

/-- Without data of the connection, a PING that was sent is remembered. -/
theorem pingSent_run {t t' : Phase × Server} {es : List Event} (ht : run.Reachable t)
    (hc : t.2.clients.find? fd = some c) (h : (connection fd c).Run t es t')
    (hdata : ∀ buffer, .recv fd (.data buffer) ∉ es) (hready : t.2.lineReady fd c = false)
    (hping : (t.2.client c).pingSent = true) : (t'.2.client c).pingSent = true := by
  induction h with
  | nil => exact hping
  | @cons t t' e es he _ ih =>
    have hne : ∀ buffer, e ≠ .recv fd (.data buffer) := fun buffer heq =>
      hdata buffer (heq ▸ List.mem_cons_self)
    obtain ⟨hline, hready'⟩ := lineReady_step (run_base ht) he.1.2 hc he.2 hne hready
    have hping' : ((step t.2 e).client c).pingSent = true := by
      by_cases hcheck : e = .idle
      · subst hcheck
        show (t.2.checkIdleClients.client c).pingSent = true
        rw [checkIdleClients_client (run_base ht).links hc]
        exact idleOutcome_pingSent hping
      · have hheard : t.2.heard fd c e = false := by
          cases e with
          | recv fd' r =>
            cases r with
            | failed | closed => rfl
            | data buffer =>
              refine decide_eq_false fun hfd => hne buffer (by rw [hfd])
          | line fd' =>
            have hfd : fd' ≠ fd := fun hfd => hline (by rw [hfd])
            simp [heard, hfd]
          | accept | send | pollError | pollTimeout | refresh | cleanup | idle | tick => rfl
        have htimers := timers_step (run_base ht) he.1.2 hc hcheck
          fun buffer heq => absurd heq (hne buffer)
        rw [hheard, if_neg (by decide)] at htimers
        exact (congrArg Timers.pingSent htimers).trans hping
    exact ih (.step ht he.1) he.2 (fun buffer hin => hdata buffer (List.mem_cons_of_mem _ hin))
      hready' hping'

end ping

/-! ## The reasons of the idle check -/

section reasons

variable {s : Server} {fd : Fd} {c : ClientPtr} {r : Bytes}

/-- A line closes the link for want of the password, or as a QUIT. -/
theorem closing_receiveLine (hb : s.Base Clean) (hc : s.clients.find? fd = some c)
    (hready : s.lineReady fd c = true) (h : ((s.receiveLine c).shutdown fd).closing = some r) :
    r = ascii "Bad Password" ∨ quitOf (s.nextLine c) = some r := by
  have hidle := (lineReady_iff.mp hready).1
  have hpop : SameNetwork s (s.updClient c fun cl => cl.popLine.2) := by constructor <;> rfl
  have hnone : ∀ {t : Server}, SameNetwork s t → (t.shutdown fd).closing ≠ some r := by
    intro t hnet hsome
    rw [hnet.shutdown, hidle] at hsome
    cases hsome
  rcases line_receiveLine textPred_clean hb ⟨fd, hc⟩
      (serves_clean.lines s fd c ⟨c, hc, hready⟩ hc) with heq | ⟨msg, hmsg, hline⟩
  · rw [heq] at h
    exact absurd h (hnone hpop)
  · generalize s.receiveLine c = s' at hline h
    cases hline with
    | effects heffects => exact absurd h (hnone (hpop.trans (effects_network heffects)))
    | entry hentry => exact absurd h (hnone (hpop.trans (entry_network hentry)))
    | @closed t reason heffects _ hcause =>
      have hreason : reason = r := by
        rw [shutdown_disconnectAfterFlush] at h
        split_ifs at h
        · exact Option.some.inj h
        · exact absurd h (hnone (hpop.trans (effects_network heffects)))
      rw [← hreason]
      rcases hcause with hpass | hquit
      · exact .inl hpass
      · refine .inr ?_
        rw [quitOf, nextLine, hmsg]
        exact hquit

/-- The step with which a link is closed. -/
theorem closing_cause (hb : s.Base Clean) {e : Event} (he : Enabled s e)
    (hc : s.clients.find? fd = some c) (hbefore : s.closing.find? fd = none)
    (h : (step s e).closing.find? fd = some r) :
    (e = .line fd ∧ (r = ascii "Bad Password" ∨ quitOf (s.nextLine c) = some r)) ∨
      (e = .idle ∧ r = ascii "Ping timeout" ∧ (s.client c).isRegistered = true ∧
        timeoutSeconds < (s.client c).getIdleTime s.now) := by
  by_cases hline : e = .line fd
  · subst hline
    rw [step_line hc] at h
    exact .inl ⟨rfl, closing_receiveLine hb hc (lineReady_of_enabled he hc) h⟩
  by_cases hcheck : e = .idle
  · subst hcheck
    refine .inr ⟨rfl, ?_⟩
    have hsh : ((step s .idle).shutdown fd).closing = some r := h
    have hclosing : (s.shutdown fd).closing = none := hbefore
    rw [show (step s .idle).shutdown fd = _ from checkIdleClients_shutdown hb.links hc,
      idleOutcome, hclosing] at hsh
    dsimp only at hsh
    split_ifs at hsh with hreg hconnect hlong hask
    · exact absurd (hsh.symm.trans hclosing) (by simp)
    · exact absurd (hsh.symm.trans hclosing) (by simp)
    · exact ⟨(Option.some.inj hsh).symm, by simpa using hreg, hlong⟩
    · exact absurd (hsh.symm.trans hclosing) (by simp)
    · exact absurd (hsh.symm.trans hclosing) (by simp)
  · rcases closing_step hb he hline hcheck with hnone | hsame
    · exact absurd (hnone.symm.trans h) (by simp)
    · exact absurd ((hsame.symm.trans h).symm.trans hbefore) (by simp)

/-- The reason of a closed link is one of the two of the server, or the text of a QUIT. -/
def Accounted (s : Server) (fd : Fd) (c : ClientPtr) : Prop :=
  ∀ r, s.closing.find? fd = some r → r = ascii "Bad Password" ∨ r = ascii "Ping timeout" ∨
    ∃ raw ∈ (s.client c).lines, quitOf raw = some r

theorem accounted_step {t : Phase × Server} (ht : run.Reachable t) {e : Event}
    (he : run.Enabled t e) (hc : t.2.clients.find? fd = some c)
    (hc' : (step t.2 e).clients.find? fd = some c) (h : t.2.Accounted fd c) :
    (step t.2 e).Accounted fd c := by
  intro r hr
  have hb := run_base ht
  have hlines : ∀ raw ∈ (t.2.client c).lines, raw ∈ ((step t.2 e).client c).lines := by
    intro raw hraw
    by_cases hline : t.2.IsLineOf c e
    · obtain ⟨fd', rfl, hfd'⟩ := hline
      obtain rfl : fd' = fd := (hb.links.client_fd _ _ hfd').symm.trans (hb.links.client_fd _ _ hc)
      rw [step_line hc, receiveLine_lines hb hc (lineReady_of_enabled he.2 hc)]
      exact List.mem_append_left _ hraw
    · rw [(step_record hb ⟨fd, hc⟩ he.2 hline).lines]
      exact hraw
  cases hbefore : t.2.closing.find? fd with
  | some r' =>
    have hsame : r' = r := by
      have hsh := run_shutdown ht he hc hc'
      have hclosing' : ((step t.2 e).shutdown fd).closing = some r := hr
      have hkept := Shutdown.closing_of_steps (.single hsh)
        (show (t.2.shutdown fd).closing = some r' from hbefore)
      rcases hkept with hkept | hmoved
      · exact Option.some.inj (hkept.symm.trans hclosing')
      · rw [hmoved] at hclosing'
        cases hclosing'
    rw [hsame] at hbefore
    rcases h r hbefore with hpass | hping | ⟨raw, hraw, hquit⟩
    · exact .inl hpass
    · exact .inr (.inl hping)
    · exact .inr (.inr ⟨raw, hlines raw hraw, hquit⟩)
  | none =>
    rcases closing_cause hb he.2 hc hbefore hr with ⟨rfl, hpass | hquit⟩ | ⟨-, hping, -⟩
    · exact .inl hpass
    · refine .inr (.inr ⟨_, ?_, hquit⟩)
      rw [step_line hc, receiveLine_lines hb hc (lineReady_of_enabled he.2 hc)]
      exact List.mem_append_right _ (List.mem_singleton_self _)
    · exact .inr (.inl hping)

/-- The marks with the reason of the registration timer. -/
theorem registrationTimeout_call {e : Event}
    (h : s.markCall fd c e = some (ascii "Registration timeout")) :
    s.closing.find? fd = some (ascii "Registration timeout") ∨
      (e = .idle ∧ (s.client c).isRegistered = false ∧ s.closing.find? fd = none ∧
        timeoutRegistration < (s.client c).getConnectTime s.now) := by
  cases e with
  | recv fd' r =>
    simp only [markCall] at h
    split_ifs at h
    cases r with
    | failed | closed => exact absurd (Option.some.inj h) (by decide)
    | data buffer =>
      dsimp only at h
      split_ifs at h
      exact absurd (Option.some.inj h) (by decide)
  | send fd' r =>
    simp only [markCall] at h
    split_ifs at h
    cases r with
    | failed => exact absurd (Option.some.inj h) (by decide)
    | taken count =>
      dsimp only at h
      split_ifs at h
      exact .inl h
  | pollError fd' =>
    simp only [markCall] at h
    split_ifs at h
    exact absurd (Option.some.inj h) (by decide)
  | refresh =>
    simp only [markCall] at h
    split_ifs at h
    exact absurd (Option.some.inj h) (by decide)
  | idle =>
    simp only [markCall] at h
    cases hfind : s.closing.find? fd with
    | some reason =>
      rw [hfind] at h
      dsimp only at h
      split_ifs at h
      exact .inl h
    | none =>
      rw [hfind] at h
      dsimp only at h
      split_ifs at h with hlate
      exact .inr ⟨rfl, by simpa using hlate.1, rfl, hlate.2⟩
  | accept | line | pollTimeout | cleanup | tick => cases h

end reasons

/-! ## The timers of a connection -/

/-- What the idle check does for the connection that was accepted in `t₁`, after the events `es`. -/
structure Liveness (fd : Fd) (c : ClientPtr) (t₁ : Phase × Server) (es : List Event)
    (t : Phase × Server) : Prop where
  data : t.2.Pinged c → ∀ es' t', (attended fd c).Run t (.idle :: es') t' → t'.2.Pinged c →
    ∃ buffer, .recv fd (.data buffer) ∈ es'
  ping : run.Enabled t .idle → t.2.Pinged c → (t.2.client c).isRegistered = true ∧
    t.2.closing.find? fd = none ∧ 150 < t.2.now - lastHeard fd c t₁.2.now t₁ es ∧
      t.2.now - lastHeard fd c t₁.2.now t₁ es ≤ 300
  timeout : ∀ e, run.Enabled t e → t.2.closing.find? fd = none →
    (step t.2 e).closing.find? fd = some (ascii "Ping timeout") →
    (∀ raw ∈ ((step t.2 e).client c).lines, quitOf raw ≠ some (ascii "Ping timeout")) →
    e = .idle ∧ (t.2.client c).isRegistered = true ∧
      300 < t.2.now - lastHeard fd c t₁.2.now t₁ es
  registration : ∀ e, run.Enabled t e → t.2.toDisconnected.find? fd = none →
    (step t.2 e).toDisconnected.find? fd = some (ascii "Registration timeout") →
    (∀ raw ∈ (t.2.client c).lines, quitOf raw ≠ some (ascii "Registration timeout")) →
    e = .idle ∧ (t.2.client c).isRegistered = false ∧ 60 < t.2.now - t₁.2.now
  closes : run.Enabled t .idle → (t.2.client c).isRegistered = true →
    t.2.closing.find? fd = none → 300 < t.2.now - lastHeard fd c t₁.2.now t₁ es →
    (step t.2 .idle).closing.find? fd = some (ascii "Ping timeout")

/-- Outside of `closing`, nothing is marked when the idle check runs. -/
theorem idle_of_check {t : Phase × Server} (ht : run.Reachable t) (he : run.Enabled t .idle)
    {fd : Fd} (hclosing : t.2.closing.find? fd = none) : t.2.shutdown fd = .idle := by
  rw [Server.shutdown, hclosing, idle_unmarked ht (after_idle he.1)]
  rfl

theorem liveness_timers {t₀ t : Phase × Server} (h₀ : run.Reachable t₀) {fd : Fd} {addr : Ipv4}
    (haccept : run.Enabled t₀ (.accept (.accepted fd addr))) {c : ClientPtr}
    (hnew : c = t₀.2.heap.addr t₀.2.clients.values) {es : List Event}
    (hrun : (connection fd c).Run (run.next t₀ (.accept (.accepted fd addr))) es t) :
    Liveness fd c (run.next t₀ (.accept (.accepted fd addr))) es t := by
  have ht₁ := System.Reachable.step h₀ haccept
  have hclient₁ : (step t₀.2 (.accept (.accepted fd addr))).client c =
      Client.new fd (inetNtop addr) t₀.2.now := by
    show (t₀.2.acceptNewClient (.accepted fd addr)).client c = _
    rw [accept_client, if_pos hnew]
  have hc₁ : (step t₀.2 (.accept (.accepted fd addr))).clients.find? fd = some c := by
    show (t₀.2.clients.insert fd _).find? fd = some c
    rw [StdMap.find?_insert_self, hnew]
  generalize ht₁' : run.next t₀ (.accept (.accepted fd addr)) = t₁ at hrun ht₁ ⊢
  have hs₁ : step t₀.2 (.accept (.accepted fd addr)) = t₁.2 := congrArg Prod.snd ht₁'
  have hnow₁ : t₁.2.now = t₀.2.now := by
    rw [← hs₁]
    rfl
  rw [hs₁] at hclient₁ hc₁
  have hstart : t₁.2.Accounted fd c := by
    intro r hr
    have hidle : (step t₀.2 (.accept (.accepted fd addr))).shutdown fd = .idle :=
      reachable_keyed (run_reachable h₀) fd haccept.2.2
    rw [hs₁] at hidle
    have hclosing : (t₁.2.shutdown fd).closing = some r := hr
    rw [hidle] at hclosing
    cases hclosing
  obtain ⟨haccounted, ht, hc⟩ := connection_induct ht₁ hc₁ hstart hrun
    fun _ _ hu hcu he hcu' hR => accounted_step hu he hcu hcu' hR
  have hb := run_base ht
  have htimers : t.2.shutdown fd = .idle → (t.2.client c).connectedAt = t₁.2.now ∧
      (t.2.client c).lastActivity = lastHeard fd c t₁.2.now t₁ es := by
    intro hidle
    have htimes := timers_run ht₁ hc₁ hrun hidle
    rw [hclient₁] at htimes
    rw [hnow₁]
    exact htimes
  constructor
  case data =>
    intro hping es' t' hrest hping'
    by_contra hnone
    cases hrest with
    | cons he hrest =>
      obtain ⟨⟨henabled, hstays⟩, hready⟩ := he
      have hnot : t.2.lineReady fd c = false := by
        rw [Bool.eq_false_iff]
        intro h
        rcases hready h with heq | ⟨now, heq⟩ <;> cases heq
      have hnext := System.Reachable.step ht henabled
      have hnot' := (lineReady_step hb henabled.2 hc hstays (by simp) hnot).2
      have hlatched := pingSent_run hnext hstays hrest.of_restrict
        (fun buffer hin => hnone ⟨buffer, hin⟩) hnot' (pinged_cases hb.links hc hping).2
      obtain ⟨-, ht', hc'⟩ := connection_induct hnext hstays (R := fun _ => True) trivial
        hrest.of_restrict fun _ _ _ _ _ _ _ => trivial
      have hfresh := (pinged_cases (run_base ht').links hc' hping').1.2.2.2.2
      exact absurd (hlatched.symm.trans hfresh) (by decide)
  case ping =>
    intro he hping
    obtain ⟨⟨hreg, hclosing, hlong, hshort, -⟩, -⟩ := pinged_cases hb.links hc hping
    have hactivity := (htimers (idle_of_check ht he hclosing)).2
    rw [Client.getIdleTime, hactivity] at hlong hshort
    exact ⟨hreg, hclosing, hlong, hshort⟩
  case timeout =>
    intro e he hclosing hclosed hquit
    rcases closing_cause hb he.2 hc hclosing hclosed with ⟨rfl, hpass | hline⟩ | ⟨rfl, -, hreg, hlong⟩
    · exact absurd hpass (by decide)
    · refine absurd hline (hquit _ ?_)
      rw [step_line hc, receiveLine_lines hb hc (lineReady_of_enabled he.2 hc)]
      exact List.mem_append_right _ (List.mem_singleton_self _)
    · have hactivity := (htimers (idle_of_check ht he hclosing)).2
      rw [Client.getIdleTime, hactivity] at hlong
      exact ⟨rfl, hreg, hlong⟩
  case registration =>
    intro e he hmark hmarked hquit
    have hcleanup : e ≠ .cleanup := by
      rintro rfl
      rw [show (step t.2 .cleanup).toDisconnected = _ from (cleanup_targets hb fd).2.2] at hmarked
      cases hmarked
    have hcall := mark_step hb (reachable_polled (run_reachable ht)) he.2 hcleanup hc
    have hbefore : (t.2.shutdown fd).mark = none := hmark
    have hafter : ((step t.2 e).shutdown fd).mark = some (ascii "Registration timeout") := hmarked
    rw [hbefore, Option.none_or, hafter] at hcall
    rcases registrationTimeout_call hcall.symm with hclosed | ⟨rfl, hreg, hclosing, hlate⟩
    · rcases haccounted _ hclosed with hpass | hping | ⟨raw, hraw, hsaid⟩
      · exact absurd hpass (by decide)
      · exact absurd hping (by decide)
      · exact absurd hsaid (hquit raw hraw)
    · have hconnected := (htimers (idle_of_check ht he hclosing)).1
      rw [Client.getConnectTime, hconnected] at hlate
      exact ⟨rfl, hreg, hlate⟩
  case closes =>
    intro he hreg hclosing hlong
    have hidle := idle_of_check ht he hclosing
    have hclosed := checkIdleClients_shutdown hb.links hc
    rw [hidle, idleOutcome] at hclosed
    dsimp only [Shutdown.idle] at hclosed
    rw [if_neg (by simp [hreg]), Client.getIdleTime, (htimers hidle).2,
      if_pos (show timeoutSeconds < _ from hlong)] at hclosed
    exact congrArg Shutdown.closing hclosed

/-- A round of the line loop, or time that passes. -/
def inLoop (fd : Fd) : Event → Bool
  | .line fd' => fd' = fd
  | .tick _ => true
  | _ => false

/-- A test of the events of `attended`. -/
def attends (fd : Fd) (c : ClientPtr) (t : Phase × Server) (e : Event) : Bool :=
  stays fd c t e && (!t.2.lineReady fd c || inLoop fd e)

theorem attends_sound {fd : Fd} {c : ClientPtr} (t : Phase × Server) (e : Event)
    (h : attends fd c t e = true) : (attended fd c).Enabled t e := by
  rw [attends, Bool.and_eq_true] at h
  refine ⟨stays_sound t e h.1, fun hready => ?_⟩
  have hloop : inLoop fd e = true := by simpa [hready] using h.2
  cases e with
  | line fd' => exact .inl (by rw [of_decide_eq_true hloop])
  | tick now => exact .inr ⟨now, rfl⟩
  | accept | recv | send | pollError | pollTimeout | refresh | cleanup | idle =>
    cases hloop

/-- `ann` registers and is silent for 199 seconds, is asked, answers, and is silent again. -/
def annSilent : List Event := (registers 4 (ascii "ann")).tail ++ [.tick 200, .cleanup]

def annAnswers : List Event :=
  [.refresh] ++ typed 4 (ascii "PONG ircserv") ++ [.cleanup, .idle, .refresh, .tick 400, .cleanup]

theorem liveness_timers_ann : ∃ t₀ t t' : Phase × Server, loop [.refresh] = some t₀ ∧ t.2.Pinged 1 ∧ t'.2.Pinged 1 ∧
    (∃ buffer, .recv 4 (.data buffer) ∈ annAnswers) ∧
    Liveness 4 1 (run.next t₀ (.accept (.accepted 4 ⟨127, 0, 0, 1⟩))) annSilent t := by
  obtain ⟨t₀, h₀, hview⟩ := Option.map_eq_some_iff.mp (by decide +kernel :
    (loop [.refresh]).map (fun t₀ =>
      (loopEnabled t₀ (.accept (.accepted 4 ⟨127, 0, 0, 1⟩)), t₀.2.heap.addr t₀.2.clients.values,
        ((connection 4 1).play (stays 4 1)
          (run.next t₀ (.accept (.accepted 4 ⟨127, 0, 0, 1⟩))) annSilent).map fun t =>
            (decide ((t.2.checkIdleClients.client 1).replies =
              (t.2.client 1).replies ++ [ascii "PING :ircserv"]),
              ((attended 4 1).play (attends 4 1) t (.idle :: annAnswers)).map fun t' =>
                decide ((t'.2.checkIdleClients.client 1).replies =
                  (t'.2.client 1).replies ++ [ascii "PING :ircserv"])))) =
      some (true, 1, some (true, some true)))
  simp only [Prod.mk.injEq] at hview
  obtain ⟨hen, haddr, hplay⟩ := hview
  obtain ⟨t, ht, hend⟩ := Option.map_eq_some_iff.mp hplay
  simp only [Prod.mk.injEq, decide_eq_true_eq] at hend
  obtain ⟨hping, hplay'⟩ := hend
  obtain ⟨t', ht', hend'⟩ := Option.map_eq_some_iff.mp hplay'
  rw [decide_eq_true_eq] at hend'
  have hping' : t'.2.Pinged 1 := hend'
  have hlive := liveness_timers (loop_reachable h₀) (loopEnabled_sound t₀ _ hen) haddr.symm
    (System.Run.of_play stays_sound ht)
  exact ⟨t₀, t, t', h₀, hping, hping',
    hlive.data hping _ _ (System.Run.of_play attends_sound ht') hping', hlive⟩

/-- A registered client that has just been heard chooses the two reasons as the text of its QUIT. -/
theorem liveness_quit_text :
    (∃ t, loop (.refresh :: registers 4 (ascii "ann") ++
        [.recv 4 (.data (ascii "QUIT :Ping timeout\n"))]) = some t ∧ run.Enabled t (.line 4) ∧
      t.2.closing.find? 4 = none ∧ (t.2.client 1).getIdleTime t.2.now = 0 ∧
      (step t.2 (.line 4)).closing.find? 4 = some (ascii "Ping timeout")) ∧
    ∃ t, loop (.refresh :: registers 4 (ascii "ann") ++
        typed 4 (ascii "QUIT :Registration timeout")) = some t ∧
      run.Enabled t (.send 4 (.taken (t.2.client 1).writeBuffer.length)) ∧
      t.2.toDisconnected.find? 4 = none ∧ (t.2.client 1).isRegistered = true ∧
      (t.2.client 1).getConnectTime t.2.now = 0 ∧
      (step t.2 (.send 4 (.taken (t.2.client 1).writeBuffer.length))).toDisconnected.find? 4 =
        some (ascii "Registration timeout") := by
  constructor
  · obtain ⟨t, ht, hview⟩ := Option.map_eq_some_iff.mp (by decide +kernel :
      (loop (.refresh :: registers 4 (ascii "ann") ++
        [.recv 4 (.data (ascii "QUIT :Ping timeout\n"))])).map (fun t =>
          (loopEnabled t (.line 4), t.2.closing.find? 4, (t.2.client 1).getIdleTime t.2.now,
            (step t.2 (.line 4)).closing.find? 4)) =
        some (true, none, 0, some (ascii "Ping timeout")))
    simp only [Prod.mk.injEq] at hview
    obtain ⟨hen, hclosing, hidle, hclosed⟩ := hview
    exact ⟨t, ht, loopEnabled_sound t _ hen, hclosing, hidle, hclosed⟩
  · obtain ⟨t, ht, hview⟩ := Option.map_eq_some_iff.mp (by decide +kernel :
      (loop (.refresh :: registers 4 (ascii "ann") ++
        typed 4 (ascii "QUIT :Registration timeout"))).map (fun t =>
          (loopEnabled t (.send 4 (.taken (t.2.client 1).writeBuffer.length)),
            t.2.toDisconnected.find? 4, (t.2.client 1).isRegistered,
            (t.2.client 1).getConnectTime t.2.now,
            (step t.2 (.send 4 (.taken (t.2.client 1).writeBuffer.length))).toDisconnected.find? 4)) =
        some (true, none, true, 0, some (ascii "Registration timeout")))
    simp only [Prod.mk.injEq] at hview
    obtain ⟨hen, hmark, hreg, hconnected, hmarked⟩ := hview
    exact ⟨t, ht, loopEnabled_sound t _ hen, hmark, hreg, hconnected, hmarked⟩

end Server
end FtIrc
