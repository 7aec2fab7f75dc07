import FtIrc.Effects.Loop
import FtIrc.Properties.Registration

/-!
# Strangers

A client that is not registered can change nothing but its own connection: it is in no channel and
invited to none, and its commands answer to itself.
-/

namespace FtIrc
namespace Server

/-- Nothing changes but the client `c` and the entries of its descriptor. -/
structure Untouched (c : ClientPtr) (fd : Fd) (s s' : Server) : Prop where
  client : ∀ d, d ≠ c → s'.client d = s.client d
  channels : s'.channels = s.channels
  channel : s'.channel = s.channel
  clients : ∀ fd', fd' ≠ fd → s'.clients.find? fd' = s.clients.find? fd'
  closing : ∀ fd', fd' ≠ fd → s'.closing.find? fd' = s.closing.find? fd'
  toDisconnected : ∀ fd', fd' ≠ fd → s'.toDisconnected.find? fd' = s.toDisconnected.find? fd'

section untouched

variable {s s' t : Server} {c : ClientPtr} {fd : Fd}

theorem Untouched.refl (c : ClientPtr) (fd : Fd) (s : Server) : Untouched c fd s s :=
  ⟨fun _ _ => rfl, rfl, rfl, fun _ _ => rfl, fun _ _ => rfl, fun _ _ => rfl⟩

theorem Untouched.trans (h : Untouched c fd s s') (h' : Untouched c fd s' t) :
    Untouched c fd s t where
  client d hd := (h'.client d hd).trans (h.client d hd)
  channels := h'.channels.trans h.channels
  channel := h'.channel.trans h.channel
  clients fd' hfd := (h'.clients fd' hfd).trans (h.clients fd' hfd)
  closing fd' hfd := (h'.closing fd' hfd).trans (h.closing fd' hfd)
  toDisconnected fd' hfd := (h'.toDisconnected fd' hfd).trans (h.toDisconnected fd' hfd)

theorem Private.untouched (h : Private c s s') (hfd : (s.client c).fd = fd) :
    Untouched c fd s s' := by
  refine ⟨h.client, ?_, ?_, fun _ _ => ?_, fun fd' hne => h.closing fd' (hfd ▸ hne), fun _ _ => ?_⟩
  all_goals rw [h.rest]

theorem untouched_updClient (s : Server) (c : ClientPtr) (fd : Fd) (f : Client → Client) :
    Untouched c fd s (s.updClient c f) :=
  ⟨fun d hd => updClient_client_of_ne s c d f hd, rfl, rfl, fun _ _ => rfl, fun _ _ => rfl,
    fun _ _ => rfl⟩

theorem untouched_mark (s : Server) (c : ClientPtr) (fd : Fd) (reason : Bytes) :
    Untouched c fd s (s.markForDisconnection fd reason) := by
  have hrest := markForDisconnection_rest s fd reason
  refine ⟨fun _ _ => ?_, ?_, ?_, fun _ _ => ?_, fun _ _ => ?_, fun fd' hfd => ?_⟩
  · rw [mark_client]
  · rw [hrest]
  · rw [hrest]
  · rw [hrest]
  · rw [hrest]
  · have hmark := congrArg Shutdown.mark (shutdown_mark s fd fd' reason)
    rwa [if_neg hfd] at hmark

/-! ## Sockets -/

theorem untouched_receiveChunk (s : Server) (c : ClientPtr) (fd : Fd) (r : RecvResult) :
    Untouched c fd s (s.receiveChunk fd c r).1 := by
  cases r with
  | failed | closed => exact untouched_mark s c fd _
  | data buffer =>
    have hupd := untouched_updClient s c fd fun cl =>
      ({ cl with readBuffer := cl.readBuffer ++ buffer }).updateLastActivity s.now
    simp only [receiveChunk]
    split_ifs
    · exact .refl c fd s
    · exact hupd.trans (untouched_mark _ c fd _)
    · exact hupd

theorem untouched_sendData (hc : s.clients.find? fd = some c) (r : SendResult) :
    Untouched c fd s (s.sendData fd r) := by
  have hrest := sendData_rest s fd r
  have hother := fun fd' d => @sendData_other s fd fd' c d hc r
  refine ⟨fun d hd => (hother fd d).2 hd, ?_, ?_, fun _ _ => ?_, fun fd' hfd => ?_,
    fun fd' hfd => ?_⟩
  · rw [hrest]
  · rw [hrest]
  · rw [hrest]
  · exact congrArg Shutdown.closing ((hother fd' c).1 hfd)
  · exact congrArg Shutdown.mark ((hother fd' c).1 hfd)

/-! ## Lines and departure -/

theorem untouched_receiveLine (hfd : (s.client c).fd = fd)
    (hreg : (s.client c).isRegistered = false) : Untouched c fd s (s.receiveLine c) := by
  have hpop := untouched_updClient s c fd fun cl => cl.popLine.2
  have hset := updClient_client_self s c fun cl => cl.popLine.2
  unfold receiveLine
  dsimp only
  split_ifs
  · exact hpop
  · refine hpop.trans ((private_operate ?_ _).untouched ?_) <;> rw [hset]
    · exact hreg
    · exact hfd

/-- An unregistered client leaves no trace in the channels. -/
theorem removeClientFromAllChannels_stranger (hl : s.Links) (hc : s.LiveClient c)
    (hreg : (s.client c).isRegistered = false) (reason : Bytes) :
    s.removeClientFromAllChannels c reason = s := by
  have hrounds : ∀ es : List (Bytes × ChannelPtr), (∀ e ∈ es, s.LiveChannel e.2) →
      es.foldl (quitRound c) (s, []) = (s, []) := by
    intro es
    induction es with
    | nil => exact fun _ => rfl
    | cons e es ih =>
      intro hes
      have hno : (s.channel e.2).isMember c = false := by
        by_contra hm
        have hin : c ∈ (s.channel e.2).members := by simpa [Channel.isMember] using hm
        have hreg' := (hl.member e.2 (hes e List.mem_cons_self) c hin).2.1
        exact absurd (hreg.symm.trans hreg') (by decide)
      have hround : quitRound c (s, []) e = (s, []) := by simp [quitRound, hno]
      rw [List.foldl_cons, hround]
      exact ih fun e' he' => hes e' (List.mem_cons_of_mem _ he')
  have hinvited : (s.client c).invitedChannels = [] := by
    apply List.eq_nil_iff_forall_not_mem.mpr
    intro p hp
    obtain ⟨hlive, hin⟩ := hl.invitation c hc p hp
    exact absurd (hreg.symm.trans (hl.invited p hlive c hin).2.1) (by decide)
  have hfold := hrounds s.channels.entries fun e he =>
    ⟨e.1, s.channels.find?_eq_some.mpr he⟩
  unfold removeClientFromAllChannels
  simp only [hreg, Bool.false_eq_true, if_false, hfold, List.foldl_nil, hinvited]

theorem untouched_disconnect (hl : s.Links) (hg : s.NoGhost) (hc : s.clients.find? fd = some c)
    (hreg : (s.client c).isRegistered = false) (reason : Bytes) :
    Untouched c fd s (s.disconnect fd reason) := by
  have hrest := disconnect_rest hl hg fd reason
  have hclosing : Links { s with closing := s.closing.erase fd } :=
    hl.congr (sameLinks_of_eq rfl rfl rfl rfl)
  have hgone := removeClientFromAllChannels_stranger (s := { s with closing := s.closing.erase fd })
    hclosing ⟨fd, hc⟩ hreg ((s.closing.find? fd).getD reason)
  have hbody : (s.disconnect fd reason).client = s.client ∧
      (s.disconnect fd reason).channels = s.channels ∧
      (s.disconnect fd reason).channel = s.channel := by
    simp only [disconnect, hc, hgone]
    exact ⟨rfl, rfl, rfl⟩
  obtain ⟨hclient, hchannels, hchannel⟩ := hbody
  refine ⟨fun d _ => by rw [hclient], hchannels, hchannel, fun fd' hfd => ?_, fun fd' hfd => ?_,
    fun fd' _ => by rw [hrest]⟩
  · rw [hrest]
    show (s.clients.erase fd).find? fd' = _
    rw [StdMap.find?_erase, if_neg hfd]
  · rw [hrest]
    show (s.closing.erase fd).find? fd' = _
    rw [StdMap.find?_erase, if_neg hfd]

theorem untouched_idleRound (hreg : (s.client c).isRegistered = false) :
    Untouched c fd s (idleRound s (fd, c)) := by
  unfold idleRound
  dsimp only
  rw [hreg]
  split
  · split_ifs
    · exact untouched_mark s c fd _
    · exact .refl c fd s
  · split_ifs
    · exact untouched_mark s c fd _
    · exact .refl c fd s
    all_goals contradiction

/-! ## Passwords -/

/-- A registered client has sent the right password. -/
theorem registered_password (h : ircserv.Reachable s) (hc : s.LiveClient c)
    (hreg : (s.client c).isRegistered = true) :
    ∃ raw ∈ (s.client c).lines, passOf raw = some s.password := by
  refine System.Reachable.invariant (I := fun s => ∀ c, s.LiveClient c →
    (s.client c).isRegistered = true → ∃ raw ∈ (s.client c).lines, passOf raw = some s.password)
    (fun s hs c hc => ?_) (fun s e hs ih he c hc hreg => ?_) h c hc hreg
  · obtain ⟨fd', password, heap, now, -, -, rfl⟩ := hs
    obtain ⟨fd, hfd⟩ := hc
    simp [init] at hfd
  · have hb := (reachable_clean hs).2
    show ∃ raw ∈ ((step s e).client c).lines, passOf raw = some (step s e).password
    rw [step_password hb he]
    by_cases hold : s.LiveClient c ∧ (s.client c).isRegistered = true
    · obtain ⟨raw, hraw, hpass⟩ := ih c hold.1 hold.2
      refine ⟨raw, ?_, hpass⟩
      by_cases hline : s.IsLineOf c e
      · obtain ⟨fd, rfl, hfd⟩ := hline
        rw [step_line hfd, receiveLine_lines hb hfd (lineReady_of_enabled he hfd)]
        exact List.mem_append_left _ hraw
      · rw [(step_record hb hold.1 he hline).lines]
        exact hraw
    · -- the client has just registered
      obtain ⟨fd, rfl, hfd, hreg₀⟩ := registers_at_line hs he hold ⟨hc, hreg⟩
      have hflag := ((reachable_identities (.step hs he)).registered c hc hreg).1
      have hpass := flag_receiveLine (reachable_pending hs hfd hreg₀) hreg₀
      change ((step s (.line fd)).client c).isPasswordVerified = true at hflag
      rw [step_line hfd] at hflag ⊢
      rw [hflag, eq_comm, decide_eq_true_eq] at hpass
      exact lastPass_mem hpass

end untouched

/-! ## All that a stranger does -/

/-- Neither the lines of `c` nor the end of its connection touch anyone. -/
structure Harmless (s : Server) (fd : Fd) (c : ClientPtr) : Prop where
  dispatch : ∀ msg, Untouched c fd s (s.dispatch c msg)
  operate : ∀ raw, Untouched c fd s (s.operate c raw)
  event : ∀ e, OfDescriptor fd e → Untouched c fd s (step s e)
  idle : Untouched c fd s (idleRound s (fd, c))
  disconnect : ∀ reason, Untouched c fd s (s.disconnect fd reason)
  cleanup : ∀ pre reason post, s.toDisconnected.entries = pre ++ (fd, reason) :: post →
    ∀ t, t = { s with toDisconnected := StdMap.empty }.disconnectAll pre →
      Untouched c fd t (t.disconnect fd reason)

theorem strangers_harmless {s : Server} (h : ircserv.Reachable s) {fd : Fd} {c : ClientPtr}
    (hc : s.clients.find? fd = some c) (hstranger : (s.client c).isRegistered = false ∨
      ∀ raw ∈ (s.client c).lines, passOf raw ≠ some s.password) : Harmless s fd c := by
  have hreg : (s.client c).isRegistered = false := by
    rcases hstranger with hreg | hnever
    · exact hreg
    · by_contra hreg
      obtain ⟨raw, hraw, hpass⟩ := registered_password h ⟨fd, hc⟩ (by simpa using hreg)
      exact hnever raw hraw hpass
  have hb := (reachable_clean h).2
  have hfd := hb.links.client_fd fd c hc
  constructor
  case dispatch => exact fun msg => (private_dispatch hreg msg).untouched hfd
  case operate => exact fun raw => (private_operate hreg raw).untouched hfd
  case event =>
    intro e he
    cases he with
    | recv r =>
      simp only [step, hc]
      exact untouched_receiveChunk s c fd r
    | line =>
      rw [step_line hc]
      exact untouched_receiveLine hfd hreg
    | send r => exact untouched_sendData hc r
    | pollError => exact untouched_mark s c fd _
  case idle => exact untouched_idleRound hreg
  case disconnect => exact untouched_disconnect hb.links hb.noGhost hc hreg
  case cleanup =>
    intro pre reason post hsplit t ht
    have hreasons := marked_reasons hb
    have hsorted := s.toDisconnected.sorted
    rw [hsplit] at hreasons hsorted
    have hpre : ∀ e ∈ pre, Clean e.2 := fun e he => hreasons e (List.mem_append_left _ he)
    -- the targets in front of it have other descriptors
    have hother : fd ∉ pre.map Prod.fst := by
      intro hin
      obtain ⟨e, he, rfl⟩ := List.mem_map.mp hin
      have hlt := (List.pairwise_append.mp hsorted).2.2 e he (e.1, reason) List.mem_cons_self
      exact absurd hlt (lt_irrefl _)
    have hclear := background_unmark hb
    have hb₀ := background_base hclear hb
    have hrun := background_disconnectAll hb₀ hpre
    have hbt := backgrounds_base hrun hb₀
    have hfind := (disconnectAll_targets hb₀ hpre fd).1
    have hsame := (backgrounds_record (c := c) hb (.head hclear hrun)).identity
    rw [← ht] at hbt hfind hsame
    rw [if_neg hother] at hfind
    exact untouched_disconnect hbt.links hbt.noGhost (hfind.trans hc)
      ((identity_fields hsame).2.2.2.2.1.trans hreg) reason

/-- The client that `corrected` leaves without a password cannot touch `ann`. -/
theorem strangers_harmless_corrected : ∃ s, session corrected = some s ∧
    s.clients.find? 4 = some 1 ∧ (s.client 2).nickname = ascii "bob" ∧ Harmless s 5 2 := by
  obtain ⟨s, hs, hview⟩ := Option.map_eq_some_iff.mp (by decide +kernel :
    (session corrected).map (fun s => (s.clients.find? 4, s.clients.find? 5,
      (s.client 2).isRegistered, (s.client 2).nickname)) = some (some 1, some 2, false, ascii "bob"))
  simp only [Prod.mk.injEq] at hview
  obtain ⟨hann, hbob, hreg, hnick⟩ := hview
  exact ⟨s, hs, hann, hnick, strangers_harmless (session_reachable hs) hbob (.inl hreg)⟩

end Server
end FtIrc
