import FtIrc.Effects.Registration
import FtIrc.Effects.Sessions

/-!
# The registration gate

A client is registered by the line after which it has a nickname, a user name and the right
password. It is welcomed at that line only, and what it registered with stays.
-/

namespace FtIrc

/-! ## The welcome -/

/-- The numbers from 001 to 004 that a client was sent. -/
def Client.welcomes (c : Client) : List Bytes :=
  (c.replies.filterMap numericOf).filter (welcomeCodes.contains ·)

/-- The line is not one of registration. -/
def Unwelcoming (m : Bytes) : Prop := ∀ code, numericOf m = some code → code ∉ welcomeCodes

theorem isReplyCode_not_welcome {code : Bytes} (h : IsReplyCode code) : code ∉ welcomeCodes := by
  rcases h with h | rfl
  · rw [isReplyNumber, Bool.and_eq_true] at h
    simpa using h.2
  · decide

theorem ServerReply.unwelcoming {m : Bytes} (h : ServerReply m) : Unwelcoming m := by
  obtain ⟨code, hcode, hnum⟩ := h.numeric
  intro code' h'
  rw [hnum] at h'
  exact Option.some.inj h' ▸ isReplyCode_not_welcome hcode

theorem unwelcoming_of_none {m : Bytes} (h : numericOf m = none) : Unwelcoming m := by
  intro code h'
  rw [h] at h'
  cases h'

theorem welcomes_append {c c' : Client} {ms : List Bytes} (h : c'.replies = c.replies ++ ms)
    (hms : ∀ m ∈ ms, Unwelcoming m) : c'.welcomes = c.welcomes := by
  have hnone : (ms.filterMap numericOf).filter (welcomeCodes.contains ·) = [] := by
    apply List.filter_eq_nil_iff.mpr
    intro code hin
    obtain ⟨m, hm, hcode⟩ := List.mem_filterMap.mp hin
    simpa using hms m hm code hcode
  rw [Client.welcomes, h, List.filterMap_append, List.filter_append, hnone, List.append_nil]
  rfl

theorem registrationLines_numbers (c : Client) :
    (registrationLines c).filterMap numericOf = welcomeCodes := by
  have hinfo : numericOf (ascii ":ircserv " ++ IrcNumeric.rplMyInfo ++ ascii " " ++ c.nickname ++
      ascii " ircserv 1.0 o itkol") = some IrcNumeric.rplMyInfo := by
    have hnum := @numericOf_server IrcNumeric.rplMyInfo
      (c.nickname ++ ascii " ircserv 1.0 o itkol") (by decide)
    simpa only [List.append_assoc] using hnum
  simp only [registrationLines, List.filterMap_cons, List.filterMap_nil, hinfo]
  rw [numericOf_formatReply (by decide), numericOf_formatReply (by decide),
    numericOf_formatReply (by decide)]
  rfl

theorem welcomes_register {c c' d : Client} (h : c'.replies = c.replies ++ registrationLines d) :
    c'.welcomes = c.welcomes ++ welcomeCodes := by
  have hall : welcomeCodes.filter (welcomeCodes.contains ·) = welcomeCodes := by decide
  rw [Client.welcomes, h, List.filterMap_append, List.filter_append, registrationLines_numbers,
    hall]
  rfl

namespace Server

/-- Registered clients were welcomed once, the others were not. -/
def Welcomed (s : Server) : Prop := ∀ c, s.LiveClient c →
  (s.client c).welcomes = if (s.client c).isRegistered then welcomeCodes else []

section welcome

variable {s s' : Server}

theorem Identities.unwelcoming (h : s.Identities) {c : ClientPtr} (hc : s.LiveClient c)
    {m : Bytes} (hm : Sourced (s.client c) m) : Unwelcoming m :=
  unwelcoming_of_none (hm.numeric (h.no_space hc))

theorem Unasked.unwelcoming (h : s.Identities) {d : ClientPtr} {m : Bytes} (hm : s.Unasked d m) :
    Unwelcoming m := by
  rcases hm with rfl | ⟨reason, rfl⟩ | ⟨c, hc, hm⟩
  · exact unwelcoming_of_none (numericOf_other (by decide))
  · exact unwelcoming_of_none (numericOf_other (by decide))
  · exact h.unwelcoming hc hm

/-- Other lines are appended. -/
theorem Welcomed.appends (h : s.Welcomed) (hlive : ∀ c, s'.LiveClient c → s.LiveClient c)
    (hreg : ∀ c, (s'.client c).isRegistered = (s.client c).isRegistered) {o : Output}
    (ho : ∀ d, (s'.client d).replies = (s.client d).replies ++ o d)
    (hout : ∀ d, ∀ m ∈ o d, Unwelcoming m) : s'.Welcomed := by
  intro c hc
  rw [welcomes_append (ho c) (hout c), hreg]
  exact h c (hlive c hc)

theorem SpokenBy.unwelcoming (hid : s.Identities) {u : ClientPtr} (hu : s.LiveClient u)
    {o : Output} (h : SpokenBy s u o) : ∀ d, ∀ m ∈ o d, Unwelcoming m := by
  intro d m hm
  rcases h d m hm with hm | ⟨-, hm⟩
  · exact hid.unwelcoming hu hm
  · exact hm.unwelcoming

theorem Welcomed.effect (h : s.Welcomed) (hid : s.Identities) {P : Bytes → Prop} {msg : Message}
    {u : ClientPtr} (hu : s.LiveClient u) (hstep : Effect P msg u s s') : s'.Welcomed := by
  have hident := effect_identified hstep
  obtain ⟨o, ho, hcase⟩ := effect_emits hstep
  rcases hcase with ⟨hspoken, hreg⟩ | ⟨hreg, hreg', rfl⟩
  · refine h.appends hident.live (fun c => ?_) ho.replies (hspoken.unwelcoming hid hu)
    by_cases hc : c = u
    · rw [hc, hreg]
    · exact (identity_fields (hident.other c hc)).2.2.2.2.1
  · intro c hc
    have hold := h c (hident.live c hc)
    have hreplies := ho.replies c
    by_cases hcu : c = u
    · subst hcu
      rw [Output.list, if_pos rfl] at hreplies
      rw [welcomes_register hreplies, hold, hreg, hreg']
      rfl
    · rw [Output.list, if_neg hcu] at hreplies
      rw [welcomes_append hreplies (by simp), hold,
        (identity_fields (hident.other c hcu)).2.2.2.2.1]

theorem Welcomed.accept (h : s.Welcomed) {fd : Fd} (addr : Ipv4)
    (hfd : s.clients.find? fd = none) : (s.acceptNewClient (.accepted fd addr)).Welcomed := by
  intro c hc
  have hlive := (liveClient_accept addr hfd c).mp hc
  rw [accept_client]
  by_cases hnew : c = s.heap.addr s.clients.values
  · rw [if_pos hnew]
    rfl
  · rw [if_neg hnew]
    exact h c (hlive.resolve_right hnew)

theorem Welcomed.pop (h : s.Welcomed) (u : ClientPtr) :
    (s.updClient u fun cl => cl.popLine.2).Welcomed := by
  have hsame := sameIdentities_updClient s u (f := fun cl => cl.popLine.2) rfl
  refine h.appends hsame.live (fun c => (identity_fields (hsame.identity c)).2.2.2.2.1)
    (o := Output.none) (fun d => ?_) fun _ _ hm => by cases hm
  rw [((sameStreams_updClient s u (f := fun cl => cl.popLine.2) rfl rfl) d).1]
  exact (List.append_nil _).symm

theorem kept_welcomed : Kept Clean fun s => s.Identities ∧ s.Welcomed where
  accept hb h hfd := ⟨h.1.accept _ hfd, h.2.accept _ hfd⟩
  background hb h hstep := by
    have hsame := background_identities hstep hb
    obtain ⟨o, ho, hout⟩ := background_appends hb hstep
    exact ⟨h.1.congr hsame, h.2.appends hsame.live
      (fun c => (identity_fields (hsame.identity c)).2.2.2.2.1) ho fun d m hm =>
        (hout d m hm).unwelcoming h.1⟩
  pop _ _ h := ⟨h.1.congr (sameIdentities_updClient _ _ rfl), h.2.pop _⟩
  effect hb hu h hstep := ⟨h.1.identified hu (effect_identified hstep), h.2.effect h.1 hu hstep⟩
  entry hb hu h hstep := by
    have hsame := entry_identities hstep
    obtain ⟨o, ho, hspoken⟩ := entry_emits hstep
    exact ⟨h.1.congr hsame, h.2.appends hsame.live
      (fun c => (identity_fields (hsame.identity c)).2.2.2.2.1) ho.replies
      (hspoken.unwelcoming h.1 hu)⟩

end welcome

/-! ## A line of an unregistered client -/

section lines

variable {s : Server} {u : ClientPtr}

/-- The line is taken out of the buffer, and then it is an attempt. -/
theorem attempted_receiveLine (hreg : (s.client u).isRegistered = false) :
    Attempted (passOf (Client.firstLine (s.client u).readBuffer)) u
      (s.updClient u fun cl => cl.popLine.2) (s.receiveLine u) := by
  have hreg' : ((s.updClient u fun cl => cl.popLine.2).client u).isRegistered = false := by
    rw [updClient_client_self]
    exact hreg
  have hline : (s.client u).popLine.1 = Client.firstLine (s.client u).readBuffer := rfl
  unfold receiveLine
  dsimp only
  rw [hline]
  split_ifs with hempty
  · have hnone : passOf (Client.firstLine (s.client u).readBuffer) = none := by
      rw [passOf, spliter, if_pos hempty]
      rfl
    rw [hnone]
    exact attempted_idle hreg' rfl rfl
  · unfold operate passOf
    cases spliter (Client.firstLine (s.client u).readBuffer) with
    | none => exact attempted_idle hreg' rfl rfl
    | some msg => exact (attempt_dispatch hreg').attempted hreg'

/-- The flag says whether the last password was right, and a client that gave both names is closed
already. -/
structure Pending (s : Server) (fd : Fd) (c : ClientPtr) : Prop where
  flag : (s.client c).isPasswordVerified = decide (lastPass (s.client c).lines = some s.password)
  half : (s.client c).nickname ≠ [] → (s.client c).username ≠ [] →
    (s.client c).isPasswordVerified = false ∧ (s.shutdown fd).Begun

/-- The password of a line decides as `checkPassword` does. -/
theorem flag_append {password : Bytes} {flag : Bool} {lines : List Bytes} (raw : Bytes)
    (h : flag = decide (lastPass lines = some password)) :
    ((passOf raw).map fun p => password == p).getD flag =
      decide (lastPass (lines ++ [raw]) = some password) := by
  rw [lastPass_append]
  cases passOf raw with
  | none => exact h
  | some p =>
    show (password == p) = decide (some p = some password)
    rw [Bool.eq_iff_iff, beq_iff_eq, decide_eq_true_eq, Option.some.injEq, eq_comm]

/-- What a line makes of the password flag. -/
theorem flag_receiveLine {fd : Fd} (h : s.Pending fd u)
    (hreg : (s.client u).isRegistered = false) :
    ((s.receiveLine u).client u).isPasswordVerified =
      decide (lastPass ((s.receiveLine u).client u).lines = some s.password) := by
  have hline := attempted_receiveLine hreg
  rw [hline.flag, hline.lines, updClient_client_self]
  exact flag_append _ h.flag

theorem Pending.receiveLine {fd : Fd} (h : s.Pending fd u) (hfd : (s.client u).fd = fd)
    (hreg : (s.client u).isRegistered = false) (hidle : s.shutdown fd = .idle)
    (hpassword : (s.receiveLine u).password = s.password)
    (hreg' : ((s.receiveLine u).client u).isRegistered = false) :
    (s.receiveLine u).Pending fd u := by
  have hline := attempted_receiveLine hreg
  have hset := updClient_client_self s u fun cl => cl.popLine.2
  refine ⟨by rw [hpassword, flag_receiveLine h hreg], fun hn hu => ?_⟩
  rcases hline.half hreg' hn hu with ⟨hn, hu⟩ | ⟨hflag, hbegun⟩
  · -- the names were there before, so the link was closing
    rw [hset] at hn hu
    obtain ⟨-, hbegun⟩ := h.half hn hu
    exact absurd hbegun (Shutdown.not_begun_iff.mpr hidle)
  · rw [hset] at hbegun
    exact ⟨hflag, hfd ▸ hbegun⟩

end lines

/-! ## Registered clients -/

/-- A registered client stays registered with what it registered with. -/
structure KeepsRegistration (c c' : Client) : Prop where
  isRegistered : c'.isRegistered = true
  username : c'.username = c.username
  realname : c'.realname = c.realname
  isPasswordVerified : c'.isPasswordVerified = c.isPasswordVerified

theorem KeepsRegistration.trans {c c' c'' : Client} (h : KeepsRegistration c c')
    (h' : KeepsRegistration c' c'') : KeepsRegistration c c'' :=
  ⟨h'.1, h'.2.trans h.2, h'.3.trans h.3, h'.4.trans h.4⟩

theorem keepsRegistration_of_identity {c c' : Client} (h : c'.identity = c.identity)
    (hreg : c.isRegistered = true) : KeepsRegistration c c' := by
  obtain ⟨-, -, huser, hreal, hreg', hflag⟩ := identity_fields h
  exact ⟨hreg'.trans hreg, huser, hreal, hflag⟩

section registered

variable {s s' : Server} {c : ClientPtr}

theorem Identified.keeps {msg : Message} (h : Identified msg c s s')
    (hreg : (s.client c).isRegistered = true) :
    KeepsRegistration (s.client c) (s'.client c) := by
  have hself := h.self
  generalize hid : (s'.client c).identity = id at hself
  cases hself with
  | same => exact keepsRegistration_of_identity hid hreg
  | nickname =>
    exact ⟨(congrArg Identity.isRegistered hid).trans hreg, congrArg Identity.username hid,
      congrArg Identity.realname hid, congrArg Identity.isPasswordVerified hid⟩
  | user hreg' | pass _ _ hreg' | register hreg' => exact absurd (hreg'.symm.trans hreg) (by decide)

theorem line_keeps {P : Bytes → Prop} {msg : Message} (h : Line P msg c s s')
    (hreg : (s.client c).isRegistered = true) :
    KeepsRegistration (s.client c) (s'.client c) := by
  have heffects : ∀ {t}, Effects P msg c s t → KeepsRegistration (s.client c) (t.client c) := by
    intro t h
    induction h with
    | refl => exact keepsRegistration_of_identity rfl hreg
    | tail _ hstep ih => exact ih.trans ((effect_identified hstep).keeps ih.isRegistered)
  cases h with
  | effects h => exact heffects h
  | @closed t reason h =>
    have hsame := (sameIdentities_disconnectAfterFlush t c reason).identity c
    exact (heffects h).trans (keepsRegistration_of_identity hsame (heffects h).isRegistered)
  | entry h => exact keepsRegistration_of_identity ((entry_identities h).identity c) hreg

theorem step_keeps (hb : s.Base Clean) (hc : s.LiveClient c) {e : Event} (he : Enabled s e)
    (hreg : (s.client c).isRegistered = true) :
    KeepsRegistration (s.client c) ((step s e).client c) := by
  by_cases hline : s.IsLineOf c e
  · obtain ⟨fd, rfl, hfd⟩ := hline
    have hpop : KeepsRegistration (s.client c)
        ((s.updClient c fun cl => cl.popLine.2).client c) := by
      rw [updClient_client_self]
      exact keepsRegistration_of_identity rfl hreg
    rw [step_line hfd]
    rcases line_receiveLine textPred_clean hb ⟨fd, hfd⟩
        (serves_clean.lines s fd c he hfd) with heq | ⟨msg, -, hrun⟩
    · rw [heq]
      exact hpop
    · exact hpop.trans (line_keeps hrun hpop.isRegistered)
  · exact keepsRegistration_of_identity (step_record hb hc he hline).identity hreg

end registered

/-! ## Reachable states -/

section reachable

variable {s : Server} {fd : Fd} {c : ClientPtr}

theorem pending_step (hb : s.Base Clean) (h : ∀ fd c, s.clients.find? fd = some c →
      (s.client c).isRegistered = false → s.Pending fd c) {e : Event} (he : Enabled s e)
    (hc : (step s e).clients.find? fd = some c)
    (hreg : ((step s e).client c).isRegistered = false) : (step s e).Pending fd c := by
  have hpassword := step_password hb he
  rcases step_find hb he hc with hold | ⟨addr, rfl, rfl⟩
  · have hreg₀ : (s.client c).isRegistered = false := by
      by_contra hreg₀
      have hkeep := step_keeps hb ⟨fd, hold⟩ he (by simpa using hreg₀)
      exact absurd (hreg.symm.trans hkeep.isRegistered) (by decide)
    have hpending := h fd c hold hreg₀
    by_cases hline : s.IsLineOf c e
    · obtain ⟨fd', rfl, hfd'⟩ := hline
      obtain rfl : fd' = fd := by
        rw [← hb.links.client_fd fd' c hfd', hb.links.client_fd fd c hold]
      have hready := lineReady_of_enabled he hfd'
      rw [step_line hfd'] at hreg hpassword ⊢
      exact hpending.receiveLine (hb.links.client_fd fd' c hold) hreg₀ (lineReady_iff.mp hready).1
        hpassword hreg
    · have hrecord := step_record hb ⟨fd, hold⟩ he hline
      obtain ⟨-, hnick, huser, -, -, hflag⟩ := identity_fields hrecord.identity
      refine ⟨by rw [hflag, hrecord.lines, hpassword, hpending.flag], fun hn hu => ?_⟩
      rw [hnick] at hn
      rw [huser] at hu
      obtain ⟨hfalse, hbegun⟩ := hpending.half hn hu
      exact ⟨hflag.trans hfalse, step_begun hb he hold (by rw [hc]; rfl) hbegun⟩
  · have hnew : (step s (.accept (.accepted fd addr))).client (s.heap.addr s.clients.values) =
        Client.new fd (inetNtop addr) s.now := by
      show (s.acceptNewClient (.accepted fd addr)).client _ = _
      rw [accept_client, if_pos rfl]
    refine ⟨by rw [hnew]; rfl, fun hn => ?_⟩
    rw [hnew] at hn
    exact absurd rfl hn

theorem reachable_pending (h : ircserv.Reachable s) (hc : s.clients.find? fd = some c)
    (hreg : (s.client c).isRegistered = false) : s.Pending fd c := by
  have hall : ∀ fd c, s.clients.find? fd = some c → (s.client c).isRegistered = false →
      s.Pending fd c := by
    refine System.Reachable.invariant (I := fun s => ∀ fd c, s.clients.find? fd = some c →
      (s.client c).isRegistered = false → s.Pending fd c) (fun s hs fd c hc => ?_)
      (fun s e hs ih he fd c hc hreg => ?_) h
    · obtain ⟨fd', password, heap, now, -, -, rfl⟩ := hs
      simp [init] at hc
    · exact pending_step (reachable_clean hs).2 ih he hc hreg
  exact hall fd c hc hreg

theorem reachable_welcomed (h : ircserv.Reachable s) : s.Welcomed := by
  refine (kept_welcomed.reachable textPred_clean serves_clean (fun s hs => ?_) h).1.2
  refine ⟨identities_init hs, fun c hc => ?_⟩
  obtain ⟨fd', password, heap, now, -, -, rfl⟩ := hs
  obtain ⟨fd, hfd⟩ := hc
  simp [init] at hfd

/-- A client becomes registered at one of its own lines. -/
theorem registers_at_line (hs : ircserv.Reachable s) {e : Event} (he : Enabled s e)
    (hold : ¬ (s.LiveClient c ∧ (s.client c).isRegistered = true))
    (hnew : (step s e).LiveClient c ∧ ((step s e).client c).isRegistered = true) :
    ∃ fd, e = .line fd ∧ s.clients.find? fd = some c ∧ (s.client c).isRegistered = false := by
  have hb := (reachable_clean hs).2
  obtain ⟨⟨fd, hfd⟩, hreg⟩ := hnew
  rcases step_find hb he hfd with hc | ⟨addr, rfl, rfl⟩
  · have hreg₀ : (s.client c).isRegistered = false := by
      by_contra hne
      exact hold ⟨⟨fd, hc⟩, by simpa using hne⟩
    by_contra hno
    have hline : ¬ s.IsLineOf c e := by
      intro ⟨fd', he', hfd'⟩
      exact hno ⟨fd', he', hfd', hreg₀⟩
    have hsame := (identity_fields (step_record hb ⟨fd, hc⟩ he hline).identity).2.2.2.2.1
    exact absurd (hreg.symm.trans (hsame.trans hreg₀)) (by decide)
  · have hclient : (step s (.accept (.accepted fd addr))).client (s.heap.addr s.clients.values) =
        Client.new fd (inetNtop addr) s.now := by
      show (s.acceptNewClient (.accepted fd addr)).client _ = _
      rw [accept_client, if_pos rfl]
    rw [hclient] at hreg
    cases hreg

/-- As long as it is connected, a registered client keeps its registration. -/
theorem run_keeps (hs : ircserv.Reachable s) {t : Server} {es : List Event}
    (h : ircserv.Run s es t) (hall : ∀ es₃ es₄ t', es = es₃ ++ es₄ → ircserv.Run s es₃ t' →
      t'.LiveClient c ∧ (t'.client c).isRegistered = true) :
    KeepsRegistration (s.client c) (t.client c) := by
  induction h with
  | nil s => exact keepsRegistration_of_identity rfl (hall [] [] s rfl (.nil s)).2
  | @cons s t e es he _ ih =>
    obtain ⟨hc, hreg⟩ := hall [] (e :: es) s rfl (.nil s)
    have hstep := step_keeps (reachable_clean hs).2 hc he hreg
    refine hstep.trans (ih (.step hs he) fun es₃ es₄ t' hsplit hrun => ?_)
    exact hall (e :: es₃) es₄ t' (by rw [hsplit]; rfl) (.cons he hrun)

end reachable

/-- The step `e` at which `c` became registered, after the events `es₁`, and the events since. -/
structure RegisteredAt (s₀ : Server) (es₁ : List Event) (e : Event) (es₂ : List Event) (t : Server)
    (c : ClientPtr) : Prop where
  run : ircserv.Run s₀ es₁ t
  enabled : Enabled t e
  before : t.LiveClient c ∧ (t.client c).isRegistered = false ∧ (t.client c).welcomes = []
  password : lastPass ((step t e).client c).lines = some s₀.password
  welcome : ((step t e).client c).replies =
    (t.client c).replies ++ registrationLines ((step t e).client c)
  since : ∀ es₃ es₄ t', es₂ = es₃ ++ es₄ → ircserv.Run (step t e) es₃ t' → t'.LiveClient c ∧
    KeepsRegistration ((step t e).client c) (t'.client c) ∧ (t'.client c).welcomes = welcomeCodes

/-- What holds of a client after the events `es`, whether it is registered or not. -/
structure RegistrationGate (s₀ : Server) (es : List Event) (s : Server) (c : ClientPtr) : Prop where
  complete : (s.client c).isRegistered = true → (s.client c).isPasswordVerified = true ∧
    isValidNickname (s.client c).nickname = true ∧ (s.client c).nickname ≠ [] ∧
    (s.client c).username ≠ [] ∧ byte '@' ∉ (s.client c).username
  history : (s.client c).isRegistered = true →
    ∃ es₁ e es₂ t, es = es₁ ++ e :: es₂ ∧ RegisteredAt s₀ es₁ e es₂ t c
  kept : (s.client c).isRegistered = true → ∀ e, Enabled s e →
    KeepsRegistration (s.client c) ((step s e).client c)
  unwelcomed : (s.client c).isRegistered = false → (s.client c).welcomes = []
  half : (s.client c).isRegistered = false → (s.client c).nickname ≠ [] →
    (s.client c).username ≠ [] → (s.client c).isPasswordVerified = false ∧
      ∃ fd, s.clients.find? fd = some c ∧ (s.closing.contains fd = true ∨ s.isMarked fd = true)

theorem run_password {s t : Server} {es : List Event} (hs : ircserv.Reachable s)
    (h : ircserv.Run s es t) : t.password = s.password :=
  h.induct hs (R := fun t => t.password = s.password) rfl fun _ _ ht ih he =>
    (step_password (reachable_clean ht).2 he).trans ih

theorem registered_at {s₀ s : Server} {es : List Event} (h₀ : ircserv.Init s₀)
    (h : ircserv.Run s₀ es s) {c : ClientPtr} (hc : s.LiveClient c)
    (hreg : (s.client c).isRegistered = true) :
    ∃ es₁ e es₂ t, es = es₁ ++ e :: es₂ ∧ RegisteredAt s₀ es₁ e es₂ t c := by
  have hnone : ¬ (s₀.LiveClient c ∧ (s₀.client c).isRegistered = true) := by
    obtain ⟨fd, password, heap, now, -, -, rfl⟩ := h₀
    intro ⟨⟨fd', hfd'⟩, _⟩
    simp [init] at hfd'
  obtain ⟨es₁, e, es₂, t, hsplit, hrun, he, hflip, hsince⟩ := h.exists_last_flip
    (P := fun t => t.LiveClient c ∧ (t.client c).isRegistered = true) hnone ⟨hc, hreg⟩
  have ht : ircserv.Reachable t := hrun.reachable (.init h₀)
  have hnext : ircserv.Reachable (step t e) := .step ht he
  have hnow := hsince [] es₂ (step t e) rfl (.nil _)
  obtain ⟨fd, rfl, hfd, hreg₀⟩ := registers_at_line ht he hflip hnow
  have hpending := reachable_pending ht hfd hreg₀
  have hattempt := attempted_receiveLine hreg₀
  refine ⟨es₁, .line fd, es₂, t, hsplit, hrun, he, ⟨⟨fd, hfd⟩, hreg₀, ?_⟩, ?_, ?_, ?_⟩
  · rw [reachable_welcomed ht c ⟨fd, hfd⟩, hreg₀]
    rfl
  · -- the flag is set now, and it tells of the last password
    have hflag := ((reachable_identities hnext).registered c hnow.1 hnow.2).1
    have hpass := flag_receiveLine hpending hreg₀
    rw [step_line hfd] at hflag ⊢
    rw [hflag, eq_comm, decide_eq_true_eq] at hpass
    rw [hpass, run_password (.init h₀) hrun]
  · have hreg' := hnow.2
    rw [step_line hfd] at hreg' ⊢
    have hwelcome := hattempt.welcome hreg'
    rw [updClient_client_self] at hwelcome
    exact hwelcome
  · intro es₃ es₄ t' hsplit' hrun'
    obtain ⟨hlive, hreg'⟩ := hsince es₃ es₄ t' hsplit' hrun'
    refine ⟨hlive, run_keeps hnext hrun' fun es₅ es₆ t'' hsplit'' hrun'' => ?_, ?_⟩
    · exact hsince es₅ (es₆ ++ es₄) t'' (by rw [hsplit', hsplit'', List.append_assoc]) hrun''
    · rw [reachable_welcomed (hrun'.reachable hnext) c hlive, hreg']
      rfl

theorem registration_gate {s₀ s : Server} {es : List Event} (h₀ : ircserv.Init s₀)
    (h : ircserv.Run s₀ es s) {c : ClientPtr} (hc : s.LiveClient c) :
    RegistrationGate s₀ es s c := by
  have hs : ircserv.Reachable s := h.reachable (.init h₀)
  have hid := reachable_identities hs
  constructor
  case complete =>
    intro hreg
    obtain ⟨hflag, hnick, huser⟩ := hid.registered c hc hreg
    exact ⟨hflag, hid.nickname c hc hnick, hnick, huser, (hid.username c hc).1⟩
  case history => exact registered_at h₀ h hc
  case kept => exact fun hreg e he => step_keeps (reachable_clean hs).2 hc he hreg
  case unwelcomed =>
    intro hreg
    rw [reachable_welcomed hs c hc, hreg]
    rfl
  case half =>
    intro hreg hn hu
    obtain ⟨fd, hfd⟩ := hc
    obtain ⟨hflag, hbegun⟩ := (reachable_pending hs hfd hreg).half hn hu
    exact ⟨hflag, fd, hfd, begun_iff.mp hbegun⟩

/-- `ann` corrects the password before her last name, and the client on descriptor 5 gives none. -/
def corrected : List Event :=
  .accept (.accepted 4 ⟨127, 0, 0, 1⟩) :: typed 4 (ascii "PASS wrong") ++
    typed 4 (ascii "USER ann 0 * :Ann") ++ typed 4 (ascii "PASS secret") ++
    typed 4 (ascii "NICK ann") ++ .accept (.accepted 5 ⟨127, 0, 0, 1⟩) ::
    typed 5 (ascii "NICK bob") ++ typed 5 (ascii "USER bob 0 * :Bob")

theorem registration_gate_corrected : ∃ s, session corrected = some s ∧
    (s.client 1).isRegistered = true ∧ (s.client 2).isRegistered = false ∧
    (s.client 2).username = ascii "bob" ∧ RegistrationGate started corrected s 1 ∧
    RegistrationGate started corrected s 2 := by
  obtain ⟨s, hs, hview⟩ := Option.map_eq_some_iff.mp (by decide +kernel :
    (session corrected).map (fun s => ((s.client 1).isRegistered, (s.client 2).isRegistered,
      (s.client 2).username, s.clients.find? 4, s.clients.find? 5)) =
        some (true, false, ascii "bob", some 1, some 2))
  simp only [Prod.mk.injEq] at hview
  obtain ⟨hann, hbob, hname, hfd, hfd'⟩ := hview
  exact ⟨s, hs, hann, hbob, hname, registration_gate started_init (session_run hs) ⟨4, hfd⟩,
    registration_gate started_init (session_run hs) ⟨5, hfd'⟩⟩

end Server
end FtIrc
