import FtIrc.Library.Shutdown
import FtIrc.Effects.Identity

/-!
# Closing and marking

The two maps of the server record how far the shutdown of each connection has come. Every event
makes one step of each shutdown; the cleanup removes the connections that are marked.
-/

namespace FtIrc
namespace Server

def shutdown (s : Server) (fd : Fd) : Shutdown Bytes :=
  ⟨s.closing.find? fd, s.toDisconnected.find? fd⟩

section maps

variable {s s' : Server}

theorem SameNetwork.shutdown (h : SameNetwork s s') (fd : Fd) : s'.shutdown fd = s.shutdown fd := by
  rw [Server.shutdown, h.closing, h.toDisconnected]
  rfl

theorem isMarked_eq_false {fd : Fd} : s.isMarked fd = false ↔ (s.shutdown fd).mark = none := by
  simp [isMarked, StdMap.contains, Server.shutdown]

theorem isMarked_iff {fd : Fd} : s.isMarked fd = true ↔ ∃ r, (s.shutdown fd).mark = some r := by
  simp [isMarked, StdMap.contains, Server.shutdown, Option.isSome_iff_exists]

theorem begun_iff {fd : Fd} :
    (s.shutdown fd).Begun ↔ s.closing.contains fd = true ∨ s.isMarked fd = true := by
  simp [Shutdown.Begun, Server.shutdown, isMarked, StdMap.contains, Option.isSome_iff_ne_none]

theorem lineReady_iff {fd : Fd} {c : ClientPtr} :
    s.lineReady fd c = true ↔ s.shutdown fd = .idle ∧ (s.client c).hasCompleteLine = true := by
  simp only [lineReady, isMarked, StdMap.contains, Bool.and_eq_true, Bool.not_eq_true',
    Option.isSome_eq_false_iff, Option.isNone_iff_eq_none, Server.shutdown, Shutdown.idle,
    Shutdown.mk.injEq]
  constructor
  · rintro ⟨⟨hmark, hline⟩, hclosing⟩
    exact ⟨⟨hclosing, hmark⟩, hline⟩
  · rintro ⟨⟨hclosing, hmark⟩, hline⟩
    exact ⟨⟨hmark, hline⟩, hclosing⟩

/-! ## The two operations -/

theorem markForDisconnection_rest (s : Server) (fd : Fd) (reason : Bytes) :
    s.markForDisconnection fd reason =
      { s with toDisconnected := (s.markForDisconnection fd reason).toDisconnected } := by
  unfold markForDisconnection
  split_ifs <;> rfl

theorem shutdown_mark (s : Server) (fd fd' : Fd) (reason : Bytes) :
    (s.markForDisconnection fd reason).shutdown fd' =
      if fd' = fd then (s.shutdown fd).marked reason else s.shutdown fd' := by
  unfold markForDisconnection
  cases hmark : s.toDisconnected.find? fd with
  | none =>
    simp only [StdMap.contains, hmark, Option.isSome_none, Bool.false_eq_true, if_false]
    split_ifs with h
    · simp [Server.shutdown, Shutdown.marked, hmark, h]
    · simp [Server.shutdown, StdMap.find?_insert, h]
  | some r =>
    simp only [StdMap.contains, hmark, Option.isSome_some, if_true]
    split_ifs with h
    · simp [Server.shutdown, Shutdown.marked, hmark, h]
    · rfl

theorem shutdown_disconnectAfterFlush (s : Server) (c : ClientPtr) (reason : Bytes) (fd : Fd) :
    (s.disconnectAfterFlush c reason).shutdown fd =
      if fd = (s.client c).fd then ⟨some reason, (s.shutdown fd).mark⟩ else s.shutdown fd := by
  rw [disconnectAfterFlush_eq]
  simp only [Server.shutdown, emit_closing, emit_toDisconnected, updClient_closing,
    updClient_toDisconnected, StdMap.find?_insert]
  split_ifs <;> rfl

/-! ## Steps -/

theorem step_mark (s : Server) (fd fd' : Fd) (reason : Bytes) :
    Shutdown.Step (s.shutdown fd') ((s.markForDisconnection fd reason).shutdown fd') := by
  rw [shutdown_mark]
  split_ifs with h
  · rw [h]
    exact Shutdown.step_marked _ _
  · exact .same _

theorem step_receiveChunk (s : Server) (fd fd' : Fd) (c : ClientPtr) (r : RecvResult) :
    Shutdown.Step (s.shutdown fd') ((s.receiveChunk fd c r).1.shutdown fd') := by
  cases r with
  | failed | closed => exact step_mark s fd fd' _
  | data buffer =>
    simp only [receiveChunk]
    split_ifs
    · exact .same _
    · exact step_mark (s.updClient c fun cl =>
        ({ cl with readBuffer := cl.readBuffer ++ buffer }).updateLastActivity s.now) fd fd' _
    · exact .same _

/-- What `send` makes of the shutdown of its connection. -/
def sendOutcome (r : SendResult) (sh : Shutdown Bytes) (cl : Client) : Shutdown Bytes :=
  if cl.writeBuffer.isEmpty then sh
  else
    match r, sh.closing with
    | .failed, _ => sh.marked (ascii "Send error")
    | .taken count, some reason =>
      if (cl.writeBuffer.drop count).isEmpty then ⟨none, (sh.marked reason).mark⟩ else sh
    | .taken _, none => sh

/-- What `send` makes of the client. -/
def sendClient (r : SendResult) (cl : Client) : Client :=
  match r with
  | .failed => cl
  | .taken count =>
    { cl with
      writeBuffer := cl.writeBuffer.drop count
      sent := cl.sent ++ cl.writeBuffer.take count }

theorem sendClient_empty (r : SendResult) {cl : Client} (h : cl.writeBuffer = []) :
    sendClient r cl = cl := by
  cases r with
  | failed => rfl
  | taken count =>
    obtain ⟨⟩ := cl
    obtain rfl := h
    simp [sendClient]

theorem mark_client (s : Server) (fd : Fd) (reason : Bytes) :
    (s.markForDisconnection fd reason).client = s.client := by
  rw [markForDisconnection_rest]

theorem shutdown_eraseClosing (s : Server) (fd fd' : Fd) :
    Server.shutdown { s with closing := s.closing.erase fd } fd' =
      if fd' = fd then ⟨none, (s.shutdown fd').mark⟩ else s.shutdown fd' := by
  simp only [Server.shutdown, StdMap.find?_erase]
  split_ifs <;> rfl

/-- `send` is about the connection on its descriptor. -/
theorem sendData_own {fd : Fd} {c : ClientPtr} (hc : s.clients.find? fd = some c)
    (r : SendResult) :
    (s.sendData fd r).shutdown fd = sendOutcome r (s.shutdown fd) (s.client c) ∧
      (s.sendData fd r).client c = sendClient r (s.client c) := by
  simp only [sendData, hc]
  split_ifs with hempty
  · unfold sendOutcome
    rw [if_pos hempty]
    exact ⟨rfl, (sendClient_empty r (List.isEmpty_iff.mp hempty)).symm⟩
  · unfold sendOutcome
    rw [if_neg hempty]
    cases r with
    | failed => exact ⟨by rw [shutdown_mark, if_pos rfl], congrFun (mark_client s fd _) c⟩
    | taken count =>
      dsimp only
      generalize ht : (s.updClient c fun cl =>
        { cl with
          writeBuffer := cl.writeBuffer.drop count
          sent := cl.sent ++ cl.writeBuffer.take count }) = t
      have hclient : t.client c = sendClient (.taken count) (s.client c) := by
        rw [← ht, updClient_client_self]
        rfl
      have hsh : t.shutdown fd = s.shutdown fd := by
        rw [← ht]
        rfl
      have hbuffer : (t.client c).writeBuffer = (s.client c).writeBuffer.drop count := by
        rw [hclient]
        rfl
      have hclosing : (s.shutdown fd).closing = t.closing.find? fd := by
        rw [← hsh]
        rfl
      rw [hbuffer, hclosing]
      cases t.closing.find? fd with
      | none => exact ⟨hsh, hclient⟩
      | some reason =>
        dsimp only
        split_ifs
        · refine ⟨?_, ?_⟩
          · rw [shutdown_eraseClosing, if_pos rfl, shutdown_mark, if_pos rfl, hsh]
          · exact (congrFun (mark_client t fd reason) c).trans hclient
        · exact ⟨hsh, hclient⟩

theorem sendData_other {fd fd' : Fd} {c d : ClientPtr} (hc : s.clients.find? fd = some c)
    (r : SendResult) :
    (fd' ≠ fd → (s.sendData fd r).shutdown fd' = s.shutdown fd') ∧
      (d ≠ c → (s.sendData fd r).client d = s.client d) := by
  simp only [sendData, hc]
  split_ifs
  · exact ⟨fun _ => rfl, fun _ => rfl⟩
  · cases r with
    | failed =>
      exact ⟨fun h => by rw [shutdown_mark, if_neg h], fun _ => congrFun (mark_client s fd _) d⟩
    | taken count =>
      dsimp only
      generalize ht : (s.updClient c fun cl =>
        { cl with
          writeBuffer := cl.writeBuffer.drop count
          sent := cl.sent ++ cl.writeBuffer.take count }) = t
      have hsh : t.shutdown fd' = s.shutdown fd' := by
        rw [← ht]
        rfl
      have hclient : d ≠ c → t.client d = s.client d := fun hd => by
        rw [← ht, updClient_client_of_ne _ _ _ _ hd]
      cases t.closing.find? fd with
      | none => exact ⟨fun _ => hsh, hclient⟩
      | some reason =>
        dsimp only
        split_ifs
        · refine ⟨fun h => ?_, fun hd => ?_⟩
          · rw [shutdown_eraseClosing, if_neg h, shutdown_mark, if_neg h, hsh]
          · exact (congrFun (mark_client t fd reason) d).trans (hclient hd)
        · exact ⟨fun _ => hsh, hclient⟩

theorem sendData_rest (s : Server) (fd : Fd) (r : SendResult) : s.sendData fd r =
    { s with
      client := (s.sendData fd r).client, closing := (s.sendData fd r).closing
      toDisconnected := (s.sendData fd r).toDisconnected } := by
  unfold sendData
  split
  · rfl
  · split_ifs
    · rfl
    · cases r with
      | failed =>
        dsimp only
        rw [markForDisconnection_rest]
      | taken count =>
        dsimp only
        split
        · split_ifs
          · rw [markForDisconnection_rest]
            rfl
          · rfl
        · rfl

theorem step_sendOutcome (r : SendResult) {sh : Shutdown Bytes} (cl : Client)
    (h : sh.mark = none) : Shutdown.Step sh (sendOutcome r sh cl) := by
  unfold sendOutcome
  split_ifs
  · exact .same _
  · cases r with
    | failed => exact Shutdown.step_marked _ _
    | taken count =>
      obtain ⟨c, m⟩ := sh
      obtain rfl : m = none := h
      cases c with
      | none => exact .same _
      | some reason =>
        dsimp only
        split_ifs
        · exact .flush reason
        · exact .same _

theorem sendOutcome_closing (r : SendResult) (sh : Shutdown Bytes) (cl : Client) :
    (sendOutcome r sh cl).closing = none ∨ (sendOutcome r sh cl).closing = sh.closing := by
  obtain ⟨c, m⟩ := sh
  unfold sendOutcome
  split_ifs
  · exact .inr rfl
  · cases r with
    | failed => exact .inr rfl
    | taken count =>
      cases c with
      | none => exact .inl rfl
      | some reason =>
        dsimp only
        split_ifs
        · exact .inl rfl
        · exact .inr rfl

/-- A connection that still waits for its flush has output left if it had some before. -/
theorem sendOutcome_waiting {r : SendResult} {sh : Shutdown Bytes} {cl : Client}
    (hclosing : (sendOutcome r sh cl).closing ≠ none) (hmark : (sendOutcome r sh cl).mark = none) :
    sendOutcome r sh cl = sh ∧ (cl.writeBuffer ≠ [] → (sendClient r cl).writeBuffer ≠ []) := by
  obtain ⟨c, m⟩ := sh
  unfold sendOutcome at hclosing hmark ⊢
  split_ifs at hclosing hmark ⊢ with hempty
  · exact ⟨rfl, fun h => absurd (List.isEmpty_iff.mp hempty) h⟩
  · cases r with
    | failed => cases m <;> cases hmark
    | taken count =>
      cases c with
      | none => exact absurd rfl hclosing
      | some reason =>
        dsimp only at hclosing hmark ⊢
        split_ifs at hclosing hmark ⊢ with hflushed
        · exact absurd rfl hclosing
        · exact ⟨rfl, fun _ hnil => hflushed (List.isEmpty_iff.mpr hnil)⟩

theorem step_sendData (s : Server) {fd : Fd} (hmark : s.isMarked fd = false) (fd' : Fd)
    (r : SendResult) : Shutdown.Step (s.shutdown fd') ((s.sendData fd r).shutdown fd') := by
  cases hc : s.clients.find? fd with
  | none =>
    rw [sendData, hc]
    exact .same _
  | some c =>
    by_cases hfd : fd' = fd
    · rw [hfd, (sendData_own hc r).1]
      exact step_sendOutcome r _ (isMarked_eq_false.mp hmark)
    · rw [(sendData_other (d := c) hc r).1 hfd]
      exact .same _

end maps

/-! ## Refresh -/

/-- Marks, possibly several, of which the first one counts. -/
theorem shutdown_refreshRound (st : Server × List PollFd) (p : PollFd) (fd : Fd) :
    (refreshRound st p).1.shutdown fd = st.1.shutdown fd ∨
      ∃ r, (refreshRound st p).1.shutdown fd = (st.1.shutdown fd).marked r := by
  unfold refreshRound
  dsimp only
  split_ifs
  · exact .inl rfl
  · split
    · exact .inl rfl
    · split_ifs
      · rw [shutdown_mark]
        split_ifs with h
        · exact .inr ⟨_, by rw [h]⟩
        · exact .inl rfl
      · exact .inl rfl

theorem marked_marked {ρ : Type*} (s : Shutdown ρ) (r r' : ρ) :
    (s.marked r).marked r' = s.marked r := by
  obtain ⟨c, m⟩ := s
  cases m <;> rfl

theorem shutdown_refreshPollEvents (s : Server) (fd : Fd) :
    s.refreshPollEvents.shutdown fd = s.shutdown fd ∨
      ∃ r, s.refreshPollEvents.shutdown fd = (s.shutdown fd).marked r := by
  have hfold : ∀ (ps : List PollFd) (st : Server × List PollFd),
      (ps.foldl refreshRound st).1.shutdown fd = st.1.shutdown fd ∨
        ∃ r, (ps.foldl refreshRound st).1.shutdown fd = (st.1.shutdown fd).marked r := by
    intro ps
    induction ps with
    | nil => exact fun _ => .inl rfl
    | cons p ps ih =>
      intro st
      rw [List.foldl_cons]
      rcases ih (refreshRound st p) with hrest | ⟨r, hrest⟩ <;> rw [hrest] <;>
        rcases shutdown_refreshRound st p fd with hround | ⟨r', hround⟩ <;> rw [hround]
      · exact .inl rfl
      · exact .inr ⟨r', rfl⟩
      · exact .inr ⟨r, rfl⟩
      · exact .inr ⟨r', marked_marked _ _ _⟩
  exact hfold s.pollFds (s, [])

theorem step_refreshPollEvents (s : Server) (fd : Fd) :
    Shutdown.Step (s.shutdown fd) (s.refreshPollEvents.shutdown fd) := by
  rcases shutdown_refreshPollEvents s fd with h | ⟨r, h⟩ <;> rw [h]
  · exact .same _
  · exact Shutdown.step_marked _ _

/-! ## Lines -/

/-- A line closes the link of its issuer, or no link. -/
theorem shutdown_receiveLine {s : Server} (hb : s.Base Clean) {fd : Fd} {u : ClientPtr}
    (hu : s.clients.find? fd = some u) (hready : s.lineReady fd u = true) :
    (∀ fd', (s.receiveLine u).shutdown fd' = s.shutdown fd') ∨
      ∃ reason, ∀ fd', (s.receiveLine u).shutdown fd' =
        if fd' = fd then ⟨some reason, none⟩ else s.shutdown fd' := by
  have hidle := (lineReady_iff.mp hready).1
  have hpop : SameNetwork s (s.updClient u fun cl => cl.popLine.2) := by constructor <;> rfl
  rcases line_receiveLine textPred_clean hb ⟨fd, hu⟩
      (serves_clean.lines s fd u ⟨u, hu, hready⟩ hu) with heq | ⟨msg, -, hline⟩
  · rw [heq]
    exact .inl hpop.shutdown
  · generalize s.receiveLine u = s' at hline
    cases hline with
    | effects h => exact .inl (hpop.trans (effects_network h)).shutdown
    | entry h => exact .inl (hpop.trans (entry_network h)).shutdown
    | @closed t reason h =>
      have hnet := hpop.trans (effects_network h)
      have hfd : (t.client u).fd = fd := by
        refine (effects_base h (pop_base hb u)).links.client_fd fd u ?_
        rw [hnet.clients]
        exact hu
      refine .inr ⟨reason, fun fd' => ?_⟩
      rw [shutdown_disconnectAfterFlush, hfd, hnet.shutdown]
      split_ifs with h'
      · rw [h', hidle]
        rfl
      · rfl

theorem step_receiveLine {s : Server} (hb : s.Base Clean) {fd : Fd} {u : ClientPtr}
    (hu : s.clients.find? fd = some u) (hready : s.lineReady fd u = true) (fd' : Fd) :
    Shutdown.Step (s.shutdown fd') ((s.receiveLine u).shutdown fd') := by
  rcases shutdown_receiveLine hb hu hready with hsame | ⟨reason, hclosed⟩
  · rw [hsame]
    exact .same _
  · rw [hclosed]
    split_ifs with h
    · rw [h, (lineReady_iff.mp hready).1]
      exact .close reason
    · exact .same _

/-! ## Cleanup -/

theorem disconnectAll_targets {P : Bytes → Prop} {s : Server} (hs : s.Base P)
    {targets : List (Fd × Bytes)} (ht : ∀ e ∈ targets, P e.2) (fd : Fd) :
    (s.disconnectAll targets).clients.find? fd =
        (if fd ∈ targets.map Prod.fst then none else s.clients.find? fd) ∧
      (s.disconnectAll targets).closing.find? fd =
        (if fd ∈ targets.map Prod.fst then none else s.closing.find? fd) ∧
      (s.disconnectAll targets).toDisconnected = s.toDisconnected := by
  induction targets generalizing s with
  | nil => exact ⟨rfl, rfl, rfl⟩
  | cons e es ih =>
    have hrest := disconnect_rest hs.links hs.noGhost e.1 e.2
    have hb : (s.disconnect e.1 e.2).Base P :=
      backgrounds_base (background_disconnect hs e.1 (ht e List.mem_cons_self)) hs
    obtain ⟨hclients, hclosing, hmarks⟩ :=
      ih hb fun e' he' => ht e' (List.mem_cons_of_mem _ he')
    have hdc : (s.disconnect e.1 e.2).clients = s.clients.erase e.1 := by rw [hrest]
    have hdl : (s.disconnect e.1 e.2).closing = s.closing.erase e.1 := by rw [hrest]
    have hdm : (s.disconnect e.1 e.2).toDisconnected = s.toDisconnected := by rw [hrest]
    rw [hdc, StdMap.find?_erase] at hclients
    rw [hdl, StdMap.find?_erase] at hclosing
    have hcons : s.disconnectAll (e :: es) = (s.disconnect e.1 e.2).disconnectAll es := rfl
    rw [hcons, hclients, hclosing, hmarks, hdm, List.map_cons]
    by_cases hfd : fd = e.1
    · simp [hfd]
    · simp only [List.mem_cons, hfd, false_or, if_false, and_self]

theorem cleanup_targets {P : Bytes → Prop} {s : Server} (hs : s.Base P) (fd : Fd) :
    s.cleanupDisconnected.clients.find? fd =
        (if s.isMarked fd then none else s.clients.find? fd) ∧
      s.cleanupDisconnected.closing.find? fd =
        (if s.isMarked fd then none else s.closing.find? fd) ∧
      s.cleanupDisconnected.toDisconnected = StdMap.empty := by
  have hkey : fd ∈ s.toDisconnected.entries.map Prod.fst ↔ s.isMarked fd = true := by
    rw [isMarked_iff]
    simp [Server.shutdown, StdMap.find?_eq_some]
  have h := disconnectAll_targets (background_base (background_unmark hs) hs)
    (marked_reasons hs) fd
  simp only [hkey] at h
  exact h

theorem shutdown_cleanup {P : Bytes → Prop} {s : Server} (hs : s.Base P) (fd : Fd) :
    s.cleanupDisconnected.shutdown fd = if s.isMarked fd then .idle else s.shutdown fd := by
  obtain ⟨-, hclosing, hmarks⟩ := cleanup_targets hs fd
  rw [Server.shutdown, hclosing, hmarks]
  split_ifs with h
  · rfl
  · have hnone := isMarked_eq_false.mp (Bool.eq_false_iff.mpr h)
    exact congrArg (Shutdown.mk (s.closing.find? fd)) hnone.symm

/-! ## The idle check -/

/-- What the idle check makes of one connection. -/
def idleOutcome (now : Time) (sh : Shutdown Bytes) (cl : Client) : Shutdown Bytes × Client :=
  match sh.closing with
  | some reason => (if 5 < cl.getClosingTime now then sh.marked reason else sh, cl)
  | none =>
    if !cl.isRegistered then
      (if timeoutRegistration < cl.getConnectTime now then sh.marked (ascii "Registration timeout")
        else sh, cl)
    else if timeoutSeconds < cl.getIdleTime now then
      (⟨some (ascii "Ping timeout"), sh.mark⟩,
        (cl.sendReply (closingLine cl.ip (ascii "Ping timeout"))).markClosing now)
    else if timeoutSeconds / 2 < cl.getIdleTime now ∧ cl.pingSent = false then
      (sh, { cl.sendReply (ascii "PING :ircserv") with pingSent := true })
    else (sh, cl)

/-- A round of the idle check is about one connection. -/
theorem idleRound_own {s : Server} {fd : Fd} {c : ClientPtr} (hfd : (s.client c).fd = fd) :
    ((idleRound s (fd, c)).shutdown fd, (idleRound s (fd, c)).client c) =
      idleOutcome s.now (s.shutdown fd) (s.client c) := by
  unfold idleRound idleOutcome
  dsimp only
  have hclosing : (s.shutdown fd).closing = s.closing.find? fd := rfl
  rw [hclosing]
  cases s.closing.find? fd with
  | some reason =>
    dsimp only
    split_ifs
    · rw [shutdown_mark, if_pos rfl, mark_client]
    · rfl
  | none =>
    dsimp only
    split_ifs
    · rw [shutdown_mark, if_pos rfl, mark_client]
    · rfl
    · rw [shutdown_disconnectAfterFlush, if_pos hfd.symm, disconnectAfterFlush_client, if_pos rfl]
    · rw [updClient_client_self, sendReply, updClient_client_self]
      rfl
    · rfl

theorem idleRound_other {s : Server} {fd fd' : Fd} {c d : ClientPtr} (hfd : (s.client c).fd = fd)
    (hne : fd' ≠ fd) (hcd : d ≠ c) :
    (idleRound s (fd, c)).shutdown fd' = s.shutdown fd' ∧
      (idleRound s (fd, c)).client d = s.client d := by
  unfold idleRound
  dsimp only
  split
  · split_ifs
    · rw [shutdown_mark, if_neg hne, mark_client]
      exact ⟨rfl, rfl⟩
    · exact ⟨rfl, rfl⟩
  · split_ifs
    · rw [shutdown_mark, if_neg hne, mark_client]
      exact ⟨rfl, rfl⟩
    · exact ⟨rfl, rfl⟩
    · rw [shutdown_disconnectAfterFlush, hfd, if_neg hne, disconnectAfterFlush_client, if_neg hcd]
      exact ⟨rfl, rfl⟩
    · rw [updClient_client_of_ne _ _ _ _ hcd, sendReply, updClient_client_of_ne _ _ _ _ hcd]
      exact ⟨rfl, rfl⟩
    · exact ⟨rfl, rfl⟩

theorem idleRound_rest (s : Server) (e : Fd × ClientPtr) : idleRound s e =
    { s with
      client := (idleRound s e).client, closing := (idleRound s e).closing
      toDisconnected := (idleRound s e).toDisconnected } := by
  unfold idleRound
  dsimp only
  split
  · split_ifs
    · rw [markForDisconnection_rest]
    · rfl
  · split_ifs
    · rw [markForDisconnection_rest]
    · rfl
    · rw [disconnectAfterFlush_eq]
      rfl
    · rfl
    · rfl

theorem checkIdleClients_rest (s : Server) : s.checkIdleClients =
    { s with
      client := s.checkIdleClients.client, closing := s.checkIdleClients.closing
      toDisconnected := s.checkIdleClients.toDisconnected } := by
  have hfold : ∀ (es : List (Fd × ClientPtr)) (t : Server), es.foldl idleRound t =
      { t with
        client := (es.foldl idleRound t).client, closing := (es.foldl idleRound t).closing
        toDisconnected := (es.foldl idleRound t).toDisconnected } := by
    intro es
    induction es with
    | nil => exact fun _ => rfl
    | cons e es ih =>
      intro t
      rw [List.foldl_cons, ih, idleRound_rest]
  exact hfold _ s

theorem idleRound_now (s : Server) (e : Fd × ClientPtr) : (idleRound s e).now = s.now := by
  rw [idleRound_rest]

theorem idleFold_now (es : List (Fd × ClientPtr)) (s : Server) :
    (es.foldl idleRound s).now = s.now := by
  induction es generalizing s with
  | nil => rfl
  | cons e es ih => rw [List.foldl_cons, ih, idleRound_now]

/-- Rounds about other connections. -/
theorem idleFold_other {es : List (Fd × ClientPtr)} {s : Server}
    (hfds : ∀ e ∈ es, (s.client e.2).fd = e.1) (hsorted : es.Pairwise fun e e' => e.1 < e'.1)
    {fd : Fd} {d : ClientPtr} (hne : ∀ e ∈ es, fd ≠ e.1 ∧ d ≠ e.2) :
    (es.foldl idleRound s).shutdown fd = s.shutdown fd ∧
      (es.foldl idleRound s).client d = s.client d := by
  induction es generalizing s with
  | nil => exact ⟨rfl, rfl⟩
  | cons e es ih =>
    obtain ⟨hlt, hsorted⟩ := List.pairwise_cons.mp hsorted
    have hfd := hfds e List.mem_cons_self
    obtain ⟨hned, hned'⟩ := hne e List.mem_cons_self
    obtain ⟨hsh, hcl⟩ := idleRound_other hfd hned hned'
    have hnext : ∀ e' ∈ es, ((idleRound s e).client e'.2).fd = e'.1 := by
      intro e' he'
      have hfd' := hfds e' (List.mem_cons_of_mem _ he')
      have hcd : e'.2 ≠ e.2 := by
        intro heq
        rw [heq, hfd] at hfd'
        exact (hlt e' he').ne hfd'
      rw [(idleRound_other hfd (hlt e' he').ne' hcd).2]
      exact hfd'
    obtain ⟨hsh', hcl'⟩ := ih hnext hsorted fun e' he' => hne e' (List.mem_cons_of_mem _ he')
    exact ⟨hsh'.trans hsh, hcl'.trans hcl⟩

/-- The idle check treats each connection on its own. -/
theorem checkIdleClients_own {s : Server} (hl : s.Links) {fd : Fd} {c : ClientPtr}
    (hc : s.clients.find? fd = some c) :
    (s.checkIdleClients.shutdown fd, s.checkIdleClients.client c) =
      idleOutcome s.now (s.shutdown fd) (s.client c) := by
  have hfds : ∀ e ∈ s.clients.entries, (s.client e.2).fd = e.1 := fun e he =>
    hl.client_fd e.1 e.2 (s.clients.find?_eq_some.mpr he)
  obtain ⟨pre, post, hsplit⟩ := List.append_of_mem (s.clients.find?_eq_some.mp hc)
  have hsorted := s.clients.sorted
  rw [checkIdleClients]
  rw [hsplit] at hsorted hfds ⊢
  obtain ⟨hpre, hpost, hcross⟩ := List.pairwise_append.mp hsorted
  obtain ⟨hlt, hpost⟩ := List.pairwise_cons.mp hpost
  have hown : (s.client c).fd = fd := hfds (fd, c) (by simp)
  have hclient : ∀ e ∈ pre ++ post, e.1 ≠ fd → c ≠ e.2 := by
    intro e he hne heq
    have hfd := hfds e (by simp only [List.mem_append, List.mem_cons] at he ⊢; tauto)
    rw [← heq, hown] at hfd
    exact hne hfd.symm
  -- the rounds before it
  have hbefore : (pre.foldl idleRound s).shutdown fd = s.shutdown fd ∧
      (pre.foldl idleRound s).client c = s.client c :=
    idleFold_other (fun e he => hfds e (by simp [he])) hpre fun e he =>
      have hne := (hcross e he (fd, c) (by simp)).ne
      ⟨hne.symm, hclient e (by simp [he]) hne⟩
  have hnow := idleFold_now pre s
  rw [List.foldl_append, List.foldl_cons]
  generalize ht : pre.foldl idleRound s = t at hbefore hnow
  obtain ⟨hsh, hcl⟩ := hbefore
  have hround := @idleRound_own t fd c (by rw [hcl, hown])
  rw [hnow, hsh, hcl] at hround
  rw [← hround]
  -- the rounds after it
  have hafter : ∀ e ∈ post, ((idleRound t (fd, c)).client e.2).fd = e.1 := by
    intro e he
    have hne := (hlt e he).ne
    have hpast : (pre.foldl idleRound s).client e.2 = s.client e.2 := by
      refine (@idleFold_other pre s (fun e he => hfds e (by simp [he])) hpre e.1 e.2
        fun e' he' => ?_).2
      have hlt' := hcross e' he' e (by simp [he])
      refine ⟨hlt'.ne', fun heq => ?_⟩
      have hfd := hfds e (by simp [he])
      rw [heq, hfds e' (by simp [he'])] at hfd
      exact hlt'.ne hfd
    rw [(idleRound_other (s := t) (by rw [hcl, hown]) hne.symm
      (hclient e (by simp [he]) hne.symm).symm).2, ← ht, hpast]
    exact hfds e (by simp [he])
  obtain ⟨hsh', hcl'⟩ := @idleFold_other post (idleRound t (fd, c)) hafter hpost fd c
    fun e he =>
      have hne := (hlt e he).ne
      ⟨hne, hclient e (by simp [he]) hne.symm⟩
  rw [hsh', hcl']

theorem checkIdleClients_shutdown {s : Server} (hl : s.Links) {fd : Fd} {c : ClientPtr}
    (hc : s.clients.find? fd = some c) :
    s.checkIdleClients.shutdown fd = (idleOutcome s.now (s.shutdown fd) (s.client c)).1 :=
  congrArg Prod.fst (checkIdleClients_own hl hc)

theorem checkIdleClients_client {s : Server} (hl : s.Links) {fd : Fd} {c : ClientPtr}
    (hc : s.clients.find? fd = some c) :
    s.checkIdleClients.client c = (idleOutcome s.now (s.shutdown fd) (s.client c)).2 :=
  congrArg Prod.snd (checkIdleClients_own hl hc)

theorem idleOutcome_begun {now : Time} {sh : Shutdown Bytes} (cl : Client) (h : sh.Begun) :
    (idleOutcome now sh cl).1.Begun := by
  unfold idleOutcome
  split
  · split_ifs
    · exact Shutdown.begun_marked _ _
    · exact h
  · split_ifs
    · exact Shutdown.begun_marked _ _
    · exact h
    · exact .inl (by simp)
    · exact h
    · exact h

theorem step_idleOutcome {sh : Shutdown Bytes} (now : Time) (cl : Client) (h : sh.mark = none) :
    Shutdown.Step sh (idleOutcome now sh cl).1 := by
  unfold idleOutcome
  split
  · split_ifs
    · exact Shutdown.step_marked _ _
    · exact .same _
  · rename_i hclosing
    obtain ⟨c, m⟩ := sh
    obtain rfl : m = none := h
    obtain rfl : c = none := hclosing
    split_ifs
    · exact Shutdown.step_marked _ _
    · exact .same _
    · exact .close _
    · exact .same _
    · exact .same _

/-! ## Events -/

theorem step_shutdown {s : Server} (hb : s.Base Clean) {e : Event} (he : Enabled s e)
    (hcleanup : e ≠ .cleanup) (hidle : e ≠ .idle) (fd : Fd) :
    Shutdown.Step (s.shutdown fd) ((step s e).shutdown fd) := by
  cases e with
  | accept r => cases r <;> exact .same _
  | recv fd' r =>
    simp only [step]
    split
    · exact .same _
    · exact step_receiveChunk s fd' fd _ r
  | line fd' =>
    obtain ⟨u, hu, hready⟩ := he
    simp only [step, hu]
    exact step_receiveLine hb hu hready fd
  | send fd' r =>
    have hmark : s.isMarked fd' = false := by cases r <;> exact he.1
    exact step_sendData s hmark fd r
  | pollError fd' => exact step_mark s fd' fd _
  | pollTimeout | tick => exact .same _
  | refresh => exact step_refreshPollEvents s fd
  | cleanup => exact absurd rfl hcleanup
  | idle => exact absurd rfl hidle

/-- A shutdown that has begun goes on as long as the connection is there. -/
theorem step_begun {s : Server} (hb : s.Base Clean) {e : Event} (he : Enabled s e) {fd : Fd}
    {c : ClientPtr} (hc : s.clients.find? fd = some c)
    (hc' : ((step s e).clients.find? fd).isSome = true) (h : (s.shutdown fd).Begun) :
    ((step s e).shutdown fd).Begun := by
  by_cases hcleanup : e = .cleanup
  · subst hcleanup
    show (s.cleanupDisconnected.shutdown fd).Begun
    rw [shutdown_cleanup hb]
    split_ifs with hmark
    · rw [step, (cleanup_targets hb fd).1, if_pos hmark] at hc'
      cases hc'
    · exact h
  by_cases hidle : e = .idle
  · subst hidle
    show (s.checkIdleClients.shutdown fd).Begun
    rw [checkIdleClients_shutdown hb.links hc]
    exact idleOutcome_begun _ h
  · exact (step_shutdown hb he hcleanup hidle fd).begun h

end Server
end FtIrc
