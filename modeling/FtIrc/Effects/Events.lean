import FtIrc.Effects.Background

/-!
# Events as steps

Every event accepts a client, is a sequence of background steps, or takes a line from a buffer and
runs it. An invariant of the server is proved for `acceptNewClient`, `Background`, `Effect` and
`Entry`.
-/

namespace FtIrc
namespace Server

/-- The invariants that taking an event apart needs. -/
structure Base (P : Bytes → Prop) (s : Server) : Prop where
  links : s.Links
  noGhost : s.NoGhost
  reasons : s.Reasons P

section background

variable {P : Bytes → Prop} {s s' : Server}

theorem background_base (h : Background P s s') (hs : s.Base P) : s'.Base P := by
  obtain ⟨hl, hg⟩ := background_links h hs.links hs.noGhost
  refine ⟨hl, hg, ?_⟩
  cases h with
  | frame hc ht => exact ⟨hc, ht⟩
  | buffers => exact ⟨hs.reasons.closing, hs.reasons.toDisconnected⟩
  | ping => exact ⟨hs.reasons.closing, hs.reasons.toDisconnected⟩
  | close hreason =>
    refine ⟨fun fd r hr => ?_, hs.reasons.toDisconnected⟩
    rw [disconnectAfterFlush_eq] at hr
    simp only [emit_closing, updClient_closing, StdMap.find?_insert] at hr
    split_ifs at hr
    · exact Option.some.inj hr ▸ hreason
    · exact hs.reasons.closing fd r hr
  | @depart fd c reason hfd =>
    obtain ⟨-, hc, ht⟩ := disconnect_departure hs.links hs.noGhost hfd reason
    refine ⟨fun fd' r hr => ?_, fun fd' r hr => ?_⟩
    · rw [hc, StdMap.find?_erase] at hr
      split_ifs at hr
      exact hs.reasons.closing fd' r hr
    · rw [ht] at hr
      exact hs.reasons.toDisconnected fd' r hr

theorem backgrounds_base (h : Relation.ReflTransGen (Background P) s s')
    (hs : s.Base P) : s'.Base P := by
  induction h with
  | refl => exact hs
  | tail _ hstep ih => exact background_base hstep ih

/-- A background step only removes connections. -/
theorem background_find (hs : s.Base P) (h : Background P s s') {fd : Fd} {c : ClientPtr}
    (hc : s'.clients.find? fd = some c) : s.clients.find? fd = some c := by
  cases h with
  | frame | buffers | ping => exact hc
  | close =>
    rw [disconnectAfterFlush_eq] at hc
    exact hc
  | @depart fd' d reason hfd =>
    rw [(disconnect_departure hs.links hs.noGhost hfd reason).1.clients, StdMap.find?_erase] at hc
    split_ifs at hc
    exact hc

theorem backgrounds_find (hs : s.Base P) (h : Relation.ReflTransGen (Background P) s s') {fd : Fd}
    {c : ClientPtr} (hc : s'.clients.find? fd = some c) : s.clients.find? fd = some c := by
  induction h with
  | refl => exact hc
  | tail hrun hstep ih => exact ih (background_find (backgrounds_base hrun hs) hstep hc)

theorem background_password (hs : s.Base P) (h : Background P s s') :
    s'.password = s.password := by
  cases h with
  | frame | buffers | ping => rfl
  | close =>
    rw [disconnectAfterFlush_eq]
    rfl
  | @depart fd c reason =>
    rw [disconnect_rest hs.links hs.noGhost fd reason]

/-! ## Each event -/

theorem background_pollFds (hs : s.Base P) (pollFds : List PollFd) :
    Background P s { s with pollFds } :=
  .frame hs.reasons.closing hs.reasons.toDisconnected

theorem background_mark (hs : s.Base P) (fd : Fd) {reason : Bytes} (hr : P reason) :
    Relation.ReflTransGen (Background P) s (s.markForDisconnection fd reason) := by
  unfold markForDisconnection
  split_ifs
  · exact .refl
  · refine .single (.frame hs.reasons.closing fun fd' r hfind => ?_)
    rw [StdMap.find?_insert] at hfind
    split_ifs at hfind
    · rw [← Option.some.inj hfind]
      exact hr
    · exact hs.reasons.toDisconnected fd' r hfind

theorem background_recv (hP : TextPred P) (hs : s.Base P) (fd : Fd) (c : ClientPtr)
    (r : RecvResult) :
    Relation.ReflTransGen (Background P) s (s.receiveChunk fd c r).1 := by
  cases r with
  | failed => exact background_mark hs fd (hP.lit "Receive error" rfl)
  | closed => exact background_mark hs fd (hP.lit "Client disconnected" rfl)
  | data buffer =>
    simp only [receiveChunk]
    have hbuf : Background P s (s.updClient c fun cl =>
        ({ cl with readBuffer := cl.readBuffer ++ buffer }).updateLastActivity s.now) :=
      .buffers fun cl => ⟨rfl, rfl⟩
    split_ifs
    · exact .refl
    · exact .head hbuf (background_mark (background_base hbuf hs) fd
        (hP.lit "Input buffer overflow" rfl))
    · exact .single hbuf

theorem background_send (hP : TextPred P) (hs : s.Base P) (fd : Fd) (r : SendResult) :
    Relation.ReflTransGen (Background P) s (s.sendData fd r) := by
  unfold sendData
  split
  · exact .refl
  · rename_i c hc
    split_ifs
    · exact .refl
    · cases r with
      | failed => exact background_mark hs fd (hP.lit "Send error" rfl)
      | taken count =>
        dsimp only
        have hbuf : Background P s (s.updClient c fun cl =>
            { cl with
              writeBuffer := cl.writeBuffer.drop count
              sent := cl.sent ++ cl.writeBuffer.take count }) :=
          .buffers fun cl => ⟨rfl, by simp⟩
        have hb := background_base hbuf hs
        split
        · rename_i reason hreason
          split_ifs
          · have hmark := background_mark hb fd (hb.reasons.closing fd reason hreason)
            have hm := backgrounds_base hmark hb
            refine .head hbuf (hmark.tail (.frame (fun fd' r hr => ?_) hm.reasons.toDisconnected))
            rw [StdMap.find?_erase] at hr
            split_ifs at hr
            exact hm.reasons.closing fd' r hr
          · exact .single hbuf
        · exact .single hbuf

theorem background_refresh (hP : TextPred P) (hs : s.Base P) :
    Relation.ReflTransGen (Background P) s s.refreshPollEvents := by
  have hfold : ∀ (ps ps' : List PollFd) (s : Server), s.Base P →
      Relation.ReflTransGen (Background P) s (ps.foldl refreshRound (s, ps')).1 := by
    intro ps
    induction ps with
    | nil => exact fun _ _ _ => .refl
    | cons p ps ih =>
      intro ps' s hs
      have hround : Relation.ReflTransGen (Background P) s (refreshRound (s, ps') p).1 := by
        unfold refreshRound
        dsimp only
        split_ifs
        · exact .refl
        · split
          · exact .refl
          · split_ifs
            · exact background_mark hs p.fd (hP.lit "SendQ exceeded" rfl)
            · exact .refl
      exact hround.trans (ih _ _ (backgrounds_base hround hs))
  have hall := hfold s.pollFds [] s hs
  exact hall.tail (background_pollFds (backgrounds_base hall hs) _)

theorem background_disconnect (hs : s.Base P) (fd : Fd) {reason : Bytes}
    (hr : P reason) : Relation.ReflTransGen (Background P) s (s.disconnect fd reason) := by
  cases hfd : s.clients.find? fd with
  | some c =>
    refine .single (.depart hfd ?_)
    cases hc : s.closing.find? fd with
    | none => exact hr
    | some r => exact hs.reasons.closing fd r hc
  | none =>
    have hdisc : s.disconnect fd reason =
        { s with
          pollFds := (s.disconnect fd reason).pollFds
          closing := s.closing.erase fd
          toDisconnected := s.toDisconnected
          now := s.now } := by
      simp only [disconnect, hfd]
      rfl
    rw [hdisc]
    refine .single (.frame (fun fd' r hr => ?_) hs.reasons.toDisconnected)
    rw [StdMap.find?_erase] at hr
    split_ifs at hr
    exact hs.reasons.closing fd' r hr

/-- Disconnect some targets one after the other. -/
def disconnectAll (s : Server) (targets : List (Fd × Bytes)) : Server :=
  targets.foldl (fun s target => s.disconnect target.1 target.2) s

theorem cleanupDisconnected_eq (s : Server) : s.cleanupDisconnected =
    { s with toDisconnected := StdMap.empty }.disconnectAll s.toDisconnected.entries := rfl

theorem background_disconnectAll (hs : s.Base P) {targets : List (Fd × Bytes)}
    (ht : ∀ e ∈ targets, P e.2) :
    Relation.ReflTransGen (Background P) s (s.disconnectAll targets) := by
  induction targets generalizing s with
  | nil => exact .refl
  | cons e es ih =>
    have hd := background_disconnect hs e.1 (ht e List.mem_cons_self)
    exact hd.trans (ih (backgrounds_base hd hs) fun e' he' => ht e' (List.mem_cons_of_mem _ he'))

theorem background_unmark (hs : s.Base P) :
    Background P s { s with toDisconnected := StdMap.empty } :=
  .frame hs.reasons.closing (by simp)

theorem marked_reasons (hs : s.Base P) : ∀ e ∈ s.toDisconnected.entries, P e.2 :=
  fun e he => hs.reasons.toDisconnected e.1 e.2 (s.toDisconnected.find?_eq_some.mpr he)

theorem background_cleanup (hs : s.Base P) :
    Relation.ReflTransGen (Background P) s s.cleanupDisconnected :=
  .head (background_unmark hs)
    (background_disconnectAll (background_base (background_unmark hs) hs) (marked_reasons hs))

theorem background_idle (hP : TextPred P) (hs : s.Base P) :
    Relation.ReflTransGen (Background P) s s.checkIdleClients := by
  unfold checkIdleClients
  generalize s.clients.entries = es
  induction es generalizing s with
  | nil => exact .refl
  | cons e es ih =>
    have hround : Relation.ReflTransGen (Background P) s (idleRound s e) := by
      unfold idleRound
      dsimp only
      split
      · rename_i reason hreason
        split_ifs
        · exact background_mark hs _ (hs.reasons.closing _ _ hreason)
        · exact .refl
      · split_ifs
        · exact background_mark hs _ (hP.lit "Registration timeout" rfl)
        · exact .refl
        · exact .single (.close (hP.lit "Ping timeout" rfl))
        · exact .head .ping (.single (.buffers fun cl => ⟨rfl, rfl⟩))
        · exact .refl
    exact hround.trans (ih (backgrounds_base hround hs))

/-- An event that is neither a line nor a new connection. -/
theorem background_event (hP : TextPred P) (hs : s.Base P) {e : Event}
    (haccept : ∀ fd addr, e ≠ .accept (.accepted fd addr)) (hline : ∀ fd, e ≠ .line fd) :
    Relation.ReflTransGen (Background P) s (step s e) := by
  cases e with
  | accept r =>
    cases r with
    | failed => exact .single (background_pollFds hs _)
    | blocking => exact .refl
    | accepted fd addr => exact absurd rfl (haccept fd addr)
  | recv fd r =>
    simp only [step]
    split
    · exact .refl
    · exact background_recv hP hs fd _ r
  | line fd => exact absurd rfl (hline fd)
  | send fd r => exact background_send hP hs fd r
  | pollError fd => exact background_mark hs fd (hP.lit "Connection error" rfl)
  | pollTimeout => exact .single (background_pollFds hs _)
  | refresh => exact background_refresh hP hs
  | cleanup => exact background_cleanup hs
  | idle => exact background_idle hP hs
  | tick now => exact .single (.frame hs.reasons.closing hs.reasons.toDisconnected)

end background

/-! ## Lines -/

/-- The texts of the next line of `c` satisfy `P`, and so do the bytes that MODE quotes. -/
def LineTexts (P : Bytes → Prop) (s : Server) (u : ClientPtr) (raw : Bytes) : Prop :=
  ∀ msg, spliter raw = some msg → msg.Texts P ∧
    (findCommand msg.command = some .mode → ∀ b ∈ s.modeEcho u msg, P [b])

theorem line_operate {P : Bytes → Prop} (hP : TextPred P) {s : Server} (hl : s.Links)
    (hg : s.NoGhost) {u : ClientPtr} (hu : s.LiveClient u) {raw : Bytes}
    (hraw : s.LineTexts P u raw) {msg : Message} (hmsg : spliter raw = some msg) :
    Line P msg u s (s.operate u raw) := by
  obtain ⟨htexts, hecho⟩ := hraw msg hmsg
  simp only [operate, hmsg]
  exact line_dispatch hP hl hg hu htexts hecho

theorem pop_base {P : Bytes → Prop} {s : Server} (hs : s.Base P) (u : ClientPtr) :
    (s.updClient u fun cl => cl.popLine.2).Base P := by
  have hsame := sameLinks_updClient s u (fun cl => cl.popLine.2) rfl id rfl rfl
  exact ⟨hs.links.congr hsame, hs.noGhost.congr hsame.toSameMembers, hs.reasons.closing,
    hs.reasons.toDisconnected⟩

/-- The line that an event runs, with its client. -/
def lineOf (s : Server) : Event → Option (ClientPtr × Bytes)
  | .line fd => (s.clients.find? fd).map fun u => (u, Client.firstLine (s.client u).readBuffer)
  | _ => none

theorem lineOf_line {s : Server} {fd : Fd} {u : ClientPtr} (hu : s.clients.find? fd = some u) :
    s.lineOf (.line fd) = some (u, Client.firstLine (s.client u).readBuffer) := by
  simp [lineOf, hu]

/-- One round of the line loop: the line is taken out of the buffer and run. -/
theorem line_receiveLine {P : Bytes → Prop} (hP : TextPred P) {s : Server} (hs : s.Base P)
    {u : ClientPtr} (hu : s.LiveClient u)
    (hraw : s.LineTexts P u (Client.firstLine (s.client u).readBuffer)) :
    s.receiveLine u = (s.updClient u fun cl => cl.popLine.2) ∨
      ∃ msg, spliter (Client.firstLine (s.client u).readBuffer) = some msg ∧
        Line P msg u (s.updClient u fun cl => cl.popLine.2) (s.receiveLine u) := by
  have hb := pop_base hs u
  have hline : (s.client u).popLine.1 = Client.firstLine (s.client u).readBuffer := rfl
  cases hmsg : spliter (Client.firstLine (s.client u).readBuffer) with
  | none =>
    left
    unfold receiveLine
    dsimp only
    split_ifs
    · rfl
    · simp only [operate, hline, hmsg]
  | some msg =>
    refine .inr ⟨msg, rfl, ?_⟩
    have hne : (Client.firstLine (s.client u).readBuffer).isEmpty = false := by
      cases he : (Client.firstLine (s.client u).readBuffer).isEmpty with
      | false => rfl
      | true => simp [spliter, he] at hmsg
    have hrun : s.receiveLine u = (s.updClient u fun cl => cl.popLine.2).operate u
        (Client.firstLine (s.client u).readBuffer) := by
      simp [receiveLine, hline, hne]
    rw [hrun]
    exact line_operate hP hb.links hb.noGhost hu hraw hmsg

/-! ## The network under the effects of a line -/

theorem leave_rest (s : Server) (p : ChannelPtr) (c : ClientPtr) :
    s.leave p c = { s with
      channels := (s.leave p c).channels, channel := (s.leave p c).channel,
      client := (s.leave p c).client } := by
  have hdel : ∀ (t : Server) (n : Bytes), t.deleteChannel n = { t with
      channels := (t.deleteChannel n).channels, channel := (t.deleteChannel n).channel,
      client := (t.deleteChannel n).client } := by
    intro t n
    cases hf : t.channels.find? (toLower n) with
    | none => simp [deleteChannel, hf]
    | some q => rw [deleteChannel_eq t hf]
  by_cases hempty : (s.channel p).members.filter (· ≠ c) = []
  · rw [leave_eq, if_pos hempty, hdel]
    rfl
  · rw [leave_eq, if_neg hempty]
    rfl

theorem enter_rest (s : Server) (p : ChannelPtr) (c : ClientPtr) :
    s.enter p c = { s with channel := (s.enter p c).channel, client := (s.enter p c).client } := by
  have hadd : ∀ t : Server, t.addMember p c =
      { t with channel := (t.addMember p c).channel, client := (t.addMember p c).client } := by
    intro t
    unfold addMember
    split_ifs <;> rfl
  rw [enter_eq]
  split_ifs
  · rw [hadd]
    rfl
  · rw [hadd]
    rfl

/-- Nothing but clients and channels changes. -/
structure SameNetwork (s s' : Server) : Prop where
  serverFd : s'.serverFd = s.serverFd
  password : s'.password = s.password
  pollFds : s'.pollFds = s.pollFds
  clients : s'.clients = s.clients
  closing : s'.closing = s.closing
  toDisconnected : s'.toDisconnected = s.toDisconnected
  now : s'.now = s.now

theorem SameNetwork.refl (s : Server) : SameNetwork s s := by constructor <;> rfl

theorem sameNetwork_emit (s : Server) (o : Output) : SameNetwork s (s.emit o) := by
  constructor <;> rfl

theorem SameNetwork.trans {s s' t : Server} (h : SameNetwork s s') (h' : SameNetwork s' t) :
    SameNetwork s t :=
  ⟨h'.1.trans h.1, h'.2.trans h.2, h'.3.trans h.3, h'.4.trans h.4, h'.5.trans h.5, h'.6.trans h.6,
    h'.7.trans h.7⟩

theorem sameNetwork_leave (s : Server) (p : ChannelPtr) (c : ClientPtr) :
    SameNetwork s (s.leave p c) := by
  rw [leave_rest]
  constructor <;> rfl

theorem sameNetwork_letIn (s : Server) (p : ChannelPtr) (c : ClientPtr) :
    SameNetwork s (s.letIn p c) := by
  rw [letIn_eq, enter_rest]
  constructor <;> rfl

theorem effect_network {P : Bytes → Prop} {msg : Message} {u : ClientPtr} {s s' : Server}
    (h : Effect P msg u s s') : SameNetwork s s' := by
  cases h with
  | part => exact (sameNetwork_leave s _ _).trans (sameNetwork_emit _ _)
  | kick => exact (sameNetwork_leave s _ _).trans (sameNetwork_emit _ _)
  | _ => constructor <;> rfl

theorem entry_network {P : Bytes → Prop} {msg : Message} {u : ClientPtr} {s s' : Server}
    (h : Entry P msg u s s') : SameNetwork s s' := by
  cases h with
  | join => exact sameNetwork_letIn s _ _
  | @create name =>
    have hnew : SameNetwork s (s.newChannel name) := by constructor <;> rfl
    exact hnew.trans (sameNetwork_letIn _ _ _)

theorem SameNetwork.reasons {P : Bytes → Prop} {s s' : Server} (h : SameNetwork s s')
    (hr : s.Reasons P) : s'.Reasons P := by
  constructor
  · rw [h.closing]
    exact hr.closing
  · rw [h.toDisconnected]
    exact hr.toDisconnected

theorem effect_base {P : Bytes → Prop} {msg : Message} {u : ClientPtr} {s s' : Server}
    (h : Effect P msg u s s') (hs : s.Base P) : s'.Base P :=
  ⟨effect_links h hs.links, effect_noGhost h hs.links hs.noGhost,
    (effect_network h).reasons hs.reasons⟩

theorem entry_base {P : Bytes → Prop} {msg : Message} {u : ClientPtr} {s s' : Server}
    (h : Entry P msg u s s') (hs : s.Base P) (hu : s.LiveClient u) : s'.Base P :=
  ⟨entry_links h hs.links hu, entry_noGhost h hs.noGhost,
    (entry_network h).reasons hs.reasons⟩

/-! ## Invariants -/

/-- `M` is the server, possibly with fewer events, and the lines it runs have texts in `P`. -/
structure Serves (P : Bytes → Prop) (M : System Server Event) : Prop where
  init : ∀ s, M.Init s → ircserv.Init s
  next : ∀ s e, M.next s e = step s e
  enabled : ∀ s e, M.Enabled s e → Enabled s e
  lines : ∀ s fd u, M.Enabled s (.line fd) → s.clients.find? fd = some u →
    s.LineTexts P u (Client.firstLine (s.client u).readBuffer)

/-- A property kept by the steps that events are made of. -/
structure Kept (P : Bytes → Prop) (I : Server → Prop) : Prop where
  accept : ∀ {s fd addr}, s.Base P → I s → s.clients.find? fd = none →
    I (s.acceptNewClient (.accepted fd addr))
  background : ∀ {s s'}, s.Base P → I s → Background P s s' → I s'
  pop : ∀ {u s}, s.Base P → s.LiveClient u → I s → I (s.updClient u fun cl => cl.popLine.2)
  effect : ∀ {msg u s s'}, s.Base P → s.LiveClient u → I s → Effect P msg u s s' → I s'
  entry : ∀ {msg u s s'}, s.Base P → s.LiveClient u → I s → Entry P msg u s s' → I s'

section kept

variable {P : Bytes → Prop} {I : Server → Prop} {s s' : Server}

theorem Kept.backgrounds (hI : Kept P I) (hs : s.Base P) (hi : I s)
    (h : Relation.ReflTransGen (Background P) s s') : I s' := by
  induction h with
  | refl => exact hi
  | tail hrun hstep ih => exact hI.background (backgrounds_base hrun hs) ih hstep

theorem effects_base {msg : Message} {u : ClientPtr} (h : Effects P msg u s s') (hs : s.Base P) :
    s'.Base P := by
  induction h with
  | refl => exact hs
  | tail _ hstep ih => exact effect_base hstep ih

theorem effects_network {msg : Message} {u : ClientPtr} (h : Effects P msg u s s') :
    SameNetwork s s' := by
  induction h with
  | refl => exact SameNetwork.refl s
  | tail _ hstep ih => exact ih.trans (effect_network hstep)

theorem effects_clients {msg : Message} {u : ClientPtr} (h : Effects P msg u s s') :
    s'.clients = s.clients :=
  (effects_network h).clients

theorem Kept.effects (hI : Kept P I) {msg : Message} {u : ClientPtr} (hs : s.Base P)
    (hu : s.LiveClient u) (hi : I s) (h : Effects P msg u s s') : I s' := by
  induction h with
  | refl => exact hi
  | tail hrun hstep ih =>
    refine hI.effect (effects_base hrun hs) ?_ ih hstep
    rw [LiveClient, effects_clients hrun]
    exact hu

theorem Kept.line (hI : Kept P I) {msg : Message} {u : ClientPtr} (hs : s.Base P)
    (hu : s.LiveClient u) (hi : I s) (h : Line P msg u s s') : I s' := by
  cases h with
  | effects h => exact hI.effects hs hu hi h
  | closed h hP => exact hI.background (effects_base h hs) (hI.effects hs hu hi h) (.close hP)
  | entry h => exact hI.entry hs hu hi h

theorem line_base {msg : Message} {u : ClientPtr} (h : Line P msg u s s')
    (hs : s.Base P) (hu : s.LiveClient u) : s'.Base P := by
  cases h with
  | effects h => exact effects_base h hs
  | closed h hreason => exact background_base (.close hreason) (effects_base h hs)
  | entry h => exact entry_base h hs hu

theorem disconnectAfterFlush_clients (s : Server) (c : ClientPtr) (reason : Bytes) :
    (s.disconnectAfterFlush c reason).clients = s.clients := by
  rw [disconnectAfterFlush_eq]
  rfl

theorem line_clients {msg : Message} {u : ClientPtr} (h : Line P msg u s s') :
    s'.clients = s.clients := by
  cases h with
  | effects h => exact effects_clients h
  | closed h => exact (disconnectAfterFlush_clients ..).trans (effects_clients h)
  | entry h => exact (entry_network h).clients

theorem accept_base (hs : s.Base P) {fd : Fd} {addr : Ipv4} (hfd : s.clients.find? fd = none) :
    (s.acceptNewClient (.accepted fd addr)).Base P :=
  ⟨links_accept hs.links _ hfd, hs.noGhost, hs.reasons.closing, hs.reasons.toDisconnected⟩

theorem base_init (hinit : ircserv.Init s) : s.Base P := by
  obtain ⟨fd, password, heap, now, -, -, rfl⟩ := hinit
  exact ⟨links_init .., noGhost_init fd password heap now, by constructor <;> simp [init]⟩

theorem Kept.event (hI : Kept P I) (hP : TextPred P) {M : System Server Event}
    (hM : Serves P M) (hs : s.Base P) (hi : I s) {e : Event} (he : M.Enabled s e) :
    I (step s e) ∧ (step s e).Base P := by
  by_cases hline : ∃ fd, e = .line fd
  · obtain ⟨fd, rfl⟩ := hline
    obtain ⟨u, hu, -⟩ := hM.enabled _ _ he
    have hpop := hI.pop hs ⟨fd, hu⟩ hi
    have hb := pop_base hs u
    have hstep : step s (.line fd) = s.receiveLine u := by simp [step, hu]
    rw [hstep]
    rcases line_receiveLine hP hs ⟨fd, hu⟩ (hM.lines s fd u he hu) with heq | ⟨msg, -, hrun⟩
    · rw [heq]
      exact ⟨hpop, hb⟩
    · exact ⟨hI.line hb ⟨fd, hu⟩ hpop hrun, line_base hrun hb ⟨fd, hu⟩⟩
  by_cases haccept : ∃ fd addr, e = .accept (.accepted fd addr)
  · obtain ⟨fd, addr, rfl⟩ := haccept
    obtain ⟨-, hfd⟩ := hM.enabled _ _ he
    exact ⟨hI.accept hs hi hfd, accept_base hs hfd⟩
  · have hrun := background_event hP hs (fun fd addr h => haccept ⟨fd, addr, h⟩)
      fun fd h => hline ⟨fd, h⟩
    exact ⟨hI.backgrounds hs hi hrun, backgrounds_base hrun hs⟩

theorem kept_password (P : Bytes → Prop) (password : Bytes) :
    Kept P fun s => s.password = password where
  accept _ h _ := h
  background hs h hstep := (background_password hs hstep).trans h
  pop _ _ h := h
  effect _ _ h hstep := (effect_network hstep).password.trans h
  entry _ _ h hstep := (entry_network hstep).password.trans h

theorem Kept.reachable (hI : Kept P I) (hP : TextPred P) {M : System Server Event}
    (hM : Serves P M) (hinit : ∀ s, ircserv.Init s → I s) (h : M.Reachable s) :
    I s ∧ s.Base P := by
  refine System.Reachable.invariant (I := fun s => I s ∧ s.Base P)
    (fun s hs => ⟨hinit s (hM.init s hs), base_init (hM.init s hs)⟩) (fun s e _ hs he => ?_) h
  rw [hM.next]
  exact hI.event hP hM hs.2 hs.1 he

end kept

end Server
end FtIrc
