import FtIrc.Effects.Events

/-!
# Stored texts and sent lines

A property of texts that the lines received satisfy holds of every stored string and of every line
sent. `Clean` lines are all the server ever reads, so every line sent is `Clean`.
-/

namespace FtIrc

theorem textPred_clean : TextPred Clean where
  printable h b hb := by
    have hrange := h b hb
    rw [UInt8.le_iff_toNat_le, UInt8.lt_iff_toNat_lt] at hrange
    have h32 : (32 : UInt8).toNat = 32 := rfl
    refine ⟨?_, ?_, ?_⟩ <;> rintro rfl <;> revert hrange <;> decide
  append hs ht b hb := (List.mem_append.mp hb).elim (hs b) (ht b)
  output {m} hm b hb := by
    unfold outputLine at hb
    split_ifs at hb
    · exact hm b hb
    · exact hm b (List.mem_of_mem_take hb)
  truncate {t} ht b hb := by
    unfold truncateUtf8 at hb
    split_ifs at hb
    · exact ht b hb
    · exact ht b (List.mem_of_mem_take hb)

theorem textPred_validUtf8 : TextPred ValidUtf8 where
  printable := Printable.validUtf8
  append := ValidUtf8.append
  output := validUtf8_outputLine
  truncate h := validUtf8_truncateUtf8 h 300

theorem firstLine_no_lf (buffer : Bytes) : (10 : Byte) ∉ Client.firstLine buffer := by
  have htake : (10 : Byte) ∉ buffer.takeWhile (· ≠ 10) := by
    intro h
    simpa using List.mem_takeWhile_imp h
  unfold Client.firstLine
  dsimp only
  split_ifs
  · exact fun h => htake (List.mem_of_mem_dropLast h)
  · exact htake

/-- All lines of an output have a property. -/
def Output.Satisfies (P : Bytes → Prop) (o : Output) : Prop := ∀ d, ∀ m ∈ o d, P m

namespace Output

variable {P : Bytes → Prop}

theorem satisfies_one {c : ClientPtr} {m : Bytes} (h : P m) : (one c m).Satisfies P := by
  intro d x hx
  unfold one at hx
  split_ifs at hx
  · rwa [List.mem_singleton.mp hx]
  · cases hx

theorem satisfies_all {cs : List ClientPtr} {m : Bytes} (h : P m) : (all cs m).Satisfies P :=
  fun _ _ hx => (List.eq_of_mem_replicate hx).symm ▸ h

theorem satisfies_list {c : ClientPtr} {ms : List Bytes} (h : ∀ m ∈ ms, P m) :
    (list c ms).Satisfies P := by
  intro d x hx
  unfold list at hx
  split_ifs at hx
  · exact h x hx
  · cases hx

theorem Satisfies.append {o o' : Output} (h : o.Satisfies P) (h' : o'.Satisfies P) :
    (o.append o').Satisfies P :=
  fun d x hx => (List.mem_append.mp hx).elim (h d x) (h' d x)

theorem satisfies_once {c : ClientPtr} {cs : List ClientPtr} {m : Bytes} (h : P m) :
    (Server.outputOnce c cs m).Satisfies P := by
  intro d x hx
  unfold Server.outputOnce at hx
  split_ifs at hx
  · rwa [List.mem_singleton.mp hx]
  · cases hx

end Output

namespace Server

theorem modeEcho_mem {s : Server} {u : ClientPtr} {msg : Message} {b : Byte}
    (hb : b ∈ s.modeEcho u msg) : ∃ x ∈ msg.parameter, b ∈ x := by
  unfold modeEcho at hb
  split at hb
  · rename_i name sign flags rest hparam
    refine ⟨sign :: flags, by simp [hparam], ?_⟩
    split at hb
    · cases hb
    · split_ifs at hb
      · rw [List.mem_singleton.mp hb]
        exact List.mem_cons_self
      · exact List.mem_of_mem_filter hb
      · cases hb
  · cases hb

theorem serves_clean : Serves Clean ircserv where
  init _ h := h
  next _ _ := rfl
  enabled _ _ h := h
  lines s fd u _ _ msg hmsg := by
    have htexts := texts_clean hmsg (firstLine_no_lf _)
    refine ⟨htexts, fun _ b hb => ?_⟩
    obtain ⟨x, hx, hbx⟩ := modeEcho_mem hb
    intro b' hb'
    rw [List.mem_singleton.mp hb']
    exact htexts.parameter x hx b hbx

/-! ## The stored strings -/

/-- The texts of `s'` are those of `s`. -/
structure SameTexts (s s' : Server) : Prop where
  client : ∀ c, (s'.client c).nickname = (s.client c).nickname ∧
    (s'.client c).username = (s.client c).username ∧ (s'.client c).ip = (s.client c).ip
  channel : ∀ p, (s'.channel p).name = (s.channel p).name ∧
    (s'.channel p).topic = (s.channel p).topic ∧ (s'.channel p).key = (s.channel p).key

section texts

variable {P : Bytes → Prop} {s s' : Server}

theorem Texts.congr (h : s.Texts P) (hs : SameTexts s s') : s'.Texts P where
  nickname c := (hs.client c).1 ▸ h.nickname c
  username c := (hs.client c).2.1 ▸ h.username c
  ip c := (hs.client c).2.2 ▸ h.ip c
  name p := (hs.channel p).1 ▸ h.name p
  topic p := (hs.channel p).2.1 ▸ h.topic p
  key p := (hs.channel p).2.2 ▸ h.key p

theorem Texts.emit (h : s.Texts P) (o : Output) : (s.emit o).Texts P :=
  ⟨h.nickname, h.username, h.ip, h.name, h.topic, h.key⟩

theorem Texts.updClient (h : s.Texts P) (u : ClientPtr) {f : Client → Client}
    (hn : P (f (s.client u)).nickname) (hu : P (f (s.client u)).username)
    (hi : P (f (s.client u)).ip) : (s.updClient u f).Texts P := by
  refine ⟨fun c => ?_, fun c => ?_, fun c => ?_, h.name, h.topic, h.key⟩ <;>
    · rw [updClient_client]
      split_ifs
      · assumption
      · first | exact h.nickname c | exact h.username c | exact h.ip c

theorem Texts.updChannel (h : s.Texts P) (p : ChannelPtr) {f : Channel → Channel}
    (hn : P (f (s.channel p)).name) (ht : P (f (s.channel p)).topic)
    (hk : P (f (s.channel p)).key) : (s.updChannel p f).Texts P := by
  refine ⟨h.nickname, h.username, h.ip, fun q => ?_, fun q => ?_, fun q => ?_⟩ <;>
    · rw [updChannel_channel]
      split_ifs
      · assumption
      · first | exact h.name q | exact h.topic q | exact h.key q

theorem Texts.leave (h : s.Texts P) (p : ChannelPtr) (c : ClientPtr) : (s.leave p c).Texts P := by
  refine h.congr ⟨fun d => ?_, fun q => ?_⟩
  · rw [leave_sameClient s p c d]
    exact ⟨rfl, rfl, rfl⟩
  · rw [leave_channel]
    split_ifs with hq
    · subst hq; exact ⟨rfl, rfl, rfl⟩
    · exact ⟨rfl, rfl, rfl⟩

theorem Texts.enter (h : s.Texts P) {p : ChannelPtr} {c : ClientPtr}
    (hm : c ∉ (s.channel p).members) : (s.enter p c).Texts P := by
  refine h.congr ⟨fun d => ?_, fun q => ?_⟩
  · rw [enter_client s hm]
    split_ifs with hd
    · subst hd; exact ⟨rfl, rfl, rfl⟩
    · exact ⟨rfl, rfl, rfl⟩
  · rw [enter_channel s hm]
    by_cases hq : q = p
    · rw [if_pos hq, hq]
      exact ⟨rfl, rfl, rfl⟩
    · rw [if_neg hq]
      exact ⟨rfl, rfl, rfl⟩

theorem Texts.newChannel (hP : TextPred P) (h : s.Texts P) {name : Bytes} (hn : P name) :
    (s.newChannel name).Texts P := by
  refine ⟨h.nickname, h.username, h.ip, fun q => ?_, fun q => ?_, fun q => ?_⟩ <;>
    · rw [newChannel_channel]
      split_ifs
      · first | exact hn | exact hP.nil
      · first | exact h.name q | exact h.topic q | exact h.key q

theorem printable_inetNtop (addr : Ipv4) : Printable (inetNtop addr) := by
  have hdec : ∀ n, Printable (decimal n) := fun n => printable_of_digits (decimal_digits n)
  have hdot : Printable (ascii ".") := printable_of_all rfl
  exact (((((hdec _).append hdot).append (hdec _)).append hdot).append (hdec _)).append hdot
    |>.append (hdec _)

theorem Departure.sameTexts {c : ClientPtr} {cause : Bytes} (h : Departure s c cause s') :
    SameTexts s s' := by
  refine ⟨fun d => ?_, fun p => ?_⟩
  · by_cases hd : d = c
    · subst hd
      rw [h.self]
      exact ⟨rfl, rfl, rfl⟩
    · rw [h.client d hd]
      exact ⟨rfl, rfl, rfl⟩
  · rw [h.settings p]
    exact ⟨rfl, rfl, rfl⟩

theorem accept_texts (hP : TextPred P) (ht : s.Texts P) (fd : Fd) (addr : Ipv4) :
    (s.acceptNewClient (.accepted fd addr)).Texts P := by
  refine ⟨fun c => ?_, fun c => ?_, fun c => ?_, ht.name, ht.topic, ht.key⟩ <;>
    rw [accept_client] <;> split_ifs
  · exact hP.nil
  · exact ht.nickname c
  · exact hP.nil
  · exact ht.username c
  · exact hP.printable (printable_inetNtop addr)
  · exact ht.ip c

theorem background_texts (h : Background P s s') (hb : s.Base P)
    (ht : s.Texts P) : s'.Texts P := by
  cases h with
  | frame => exact ⟨ht.nickname, ht.username, ht.ip, ht.name, ht.topic, ht.key⟩
  | @buffers c f hf =>
    have hc := (hf (s.client c)).1
    refine ht.updClient c ?_ ?_ ?_ <;> rw [hc]
    · exact ht.nickname c
    · exact ht.username c
    · exact ht.ip c
  | ping =>
    rw [sendReply_eq_emit]
    exact ht.emit _
  | @close c reason =>
    rw [disconnectAfterFlush_eq]
    have hclosing : Texts P { s with closing := s.closing.insert (s.client c).fd reason } :=
      ⟨ht.nickname, ht.username, ht.ip, ht.name, ht.topic, ht.key⟩
    exact (hclosing.updClient c (ht.nickname c) (ht.username c) (ht.ip c)).emit _
  | @depart fd c reason hfd =>
    exact ht.congr (disconnect_departure hb.links hb.noGhost hfd reason).1.sameTexts

theorem effect_texts (hP : TextPred P) {msg : Message} {u : ClientPtr} (h : Effect P msg u s s')
    (ht : s.Texts P) : s'.Texts P := by
  cases h with
  | reply => exact ht.emit _
  | talk => exact ht.emit _
  | announce => exact ht.emit _
  | @mode p f hp hop hf =>
    refine ht.updChannel p ?_ ?_ ?_
    · rw [hf.rest]; exact ht.name p
    · rw [hf.rest]; exact ht.topic p
    · rcases hf.key with hk | hk | hk
      · exact hk ▸ ht.key p
      · exact hk ▸ hP.nil
      · exact hk.2
  | @operator p enable t =>
    refine (ht.updChannel p ?_ ?_ ?_).emit _ <;> unfold Channel.setModeOperator <;> split_ifs
    all_goals first | exact ht.name p | exact ht.topic p | exact ht.key p
  | @topic p t hp hu hop hlen hPt => exact (ht.updChannel p (ht.name p) hPt (ht.key p)).emit _
  | @invite p d =>
    refine Texts.emit (ht.congr ⟨fun e => ?_, fun q => ?_⟩) _
    · exact invite_sameIdentity p d e
    · rw [invite_channel]
      split_ifs with hq
      · subst hq; exact ⟨rfl, rfl, rfl⟩
      · exact ⟨rfl, rfl, rfl⟩
  | part => exact (ht.leave _ _).emit _
  | kick => exact (ht.leave _ _).emit _
  | rename hreg hn hne hPn => exact (ht.updClient u hPn (ht.username u) (ht.ip u)).emit _
  | nickname hreg hn hPn => exact ht.updClient u hPn (ht.username u) (ht.ip u)
  | user hreg hne hat hspace hPu => exact ht.updClient u (ht.nickname u) hPu (ht.ip u)
  | pass => exact ht.updClient u (ht.nickname u) (ht.username u) (ht.ip u)
  | register => exact (ht.updClient u (ht.nickname u) (ht.username u) (ht.ip u)).emit _
  | pong => exact ht.updClient u (ht.nickname u) (ht.username u) (ht.ip u)

theorem entry_texts (hP : TextPred P) {msg : Message} {u : ClientPtr} (h : Entry P msg u s s')
    (ht : s.Texts P) : s'.Texts P := by
  cases h with
  | join _ _ _ _ _ hm =>
    rw [letIn_eq]
    exact (ht.enter hm).emit _
  | create hreg hname hk hPn =>
    rw [letIn_eq]
    exact ((ht.newChannel hP hPn).enter (by simp [newChannel_channel, Channel.new])).emit _

/-! ## The sent lines -/

/-- Every message given to `sendReply` has the property. -/
def Replies (P : Bytes → Prop) (s : Server) : Prop := ∀ c, ∀ m ∈ (s.client c).replies, P m

theorem Replies.congr (h : s.Replies P) (hs : ∀ c, (s'.client c).replies = (s.client c).replies) :
    s'.Replies P := fun c => hs c ▸ h c

theorem Replies.emit (h : s.Replies P) {o : Output} (ho : o.Satisfies P) : (s.emit o).Replies P := by
  intro c m hm
  rw [emit_client, Client.sendAll_replies] at hm
  exact (List.mem_append.mp hm).elim (h c m) (ho c m)

theorem Replies.updClient (h : s.Replies P) (u : ClientPtr) {f : Client → Client}
    (hf : (f (s.client u)).replies = (s.client u).replies) : (s.updClient u f).Replies P := by
  refine h.congr fun c => ?_
  rw [updClient_client]
  split_ifs with hc
  · rw [hf, hc]
  · rfl

theorem leave_replies (s : Server) (p : ChannelPtr) (c d : ClientPtr) :
    ((s.leave p c).client d).replies = (s.client d).replies := by
  rw [leave_sameClient s p c d]

theorem enter_replies (s : Server) {p : ChannelPtr} {c : ClientPtr}
    (hm : c ∉ (s.channel p).members) (d : ClientPtr) :
    ((s.enter p c).client d).replies = (s.client d).replies := by
  rw [enter_client s hm]
  split_ifs with hd
  · rw [hd]
  · rfl

theorem satisfies_quit (hP : TextPred P) (ht : s.Texts P) (c : ClientPtr) {cause : Bytes}
    (hc : P cause) : (s.quitOutput c cause).Satisfies P := by
  unfold quitOutput
  split_ifs
  · exact Output.satisfies_once (ht.command hP c (printable_of_all rfl)
      (hP.append (hP.lit ":" rfl) hc))
  · exact fun d x hx => by cases hx

theorem closingLine_texts (hP : TextPred P) {ip reason : Bytes} (hi : P ip) (hr : P reason) :
    P (closingLine ip reason) :=
  hP.append (hP.append (hP.append (hP.append (hP.lit "ERROR :Closing Link: " rfl) hi)
    (hP.lit " (" rfl)) hr) (hP.lit ")" rfl)

theorem accept_replies (hr : s.Replies P) (fd : Fd) (addr : Ipv4) :
    (s.acceptNewClient (.accepted fd addr)).Replies P := by
  intro c m hm
  rw [accept_client] at hm
  split_ifs at hm
  · cases hm
  · exact hr c m hm

theorem background_replies (hP : TextPred P) (h : Background P s s') (hb : s.Base P)
    (ht : s.Texts P) (hr : s.Replies P) : s'.Replies P := by
  cases h with
  | frame => exact hr
  | @buffers c f hf => exact hr.updClient c (by rw [(hf (s.client c)).1])
  | ping =>
    rw [sendReply_eq_emit]
    exact hr.emit (Output.satisfies_one (hP.lit "PING :ircserv" rfl))
  | @close c reason hPr =>
    rw [disconnectAfterFlush_eq]
    have hclosing : Replies P { s with closing := s.closing.insert (s.client c).fd reason } := hr
    exact (hclosing.updClient c rfl).emit (Output.satisfies_one
      (closingLine_texts hP (ht.ip c) hPr))
  | @depart fd c reason hfd hPr =>
    have hdep := (disconnect_departure hb.links hb.noGhost hfd reason).1
    intro d m hm
    by_cases hd : d = c
    · subst hd
      rw [hdep.self] at hm
      exact hr d m hm
    · rw [hdep.client d hd] at hm
      exact (List.mem_append.mp hm).elim (hr d m) (satisfies_quit hP ht c hPr d m)

theorem registrationLines_texts (hP : TextPred P) {c : Client} (hn : P c.nickname)
    (hu : P c.username) (hi : P c.ip) : ∀ m ∈ registrationLines c, P m := by
  have hwelcome := hP.append (hP.append (hP.append (hP.append (hP.append
    (hP.lit "Welcome to the ircserv Network, " rfl) hn) (hP.lit "!" rfl)) hu) (hP.lit "@" rfl)) hi
  simp only [registrationLines, List.mem_cons, List.not_mem_nil, or_false]
  rintro m (rfl | rfl | rfl | rfl)
  · exact hP.formatReply (hP.lit "001" rfl) hn hwelcome
  · exact hP.formatReply (hP.lit "002" rfl) hn (hP.lit "Your host is ircserv, running version 1.0" rfl)
  · exact hP.formatReply (hP.lit "003" rfl) hn (hP.lit "This server was created for ircserv" rfl)
  · exact hP.append (hP.append (hP.append (hP.append (hP.lit ":ircserv " rfl) (hP.lit "004" rfl))
      (hP.lit " " rfl)) hn) (hP.lit " ircserv 1.0 o itkol" rfl)

theorem effect_replies (hP : TextPred P) {msg : Message} {u : ClientPtr} (h : Effect P msg u s s')
    (ht : s.Texts P) (hr : s.Replies P) : s'.Replies P := by
  have hspace := hP.lit " " rfl
  have hcolon := hP.lit " :" rfl
  cases h with
  | reply hm hPm => exact hr.emit (Output.satisfies_one (hPm ht))
  | talk hreg hout =>
    refine hr.emit fun d m hm => ?_
    obtain ⟨rest, -, hrest, rfl⟩ := hout d m hm
    exact ht.command hP u (printable_of_all rfl) (hrest ht)
  | @announce p applied args hp hop hne happlied hlim hargs hlen hPa =>
    have hPapplied : P applied := by
      refine hP.printable fun b hb => ?_
      have hmode : Printable modeBytes := printable_of_all rfl
      exact hmode b (happlied b hb)
    exact hr.emit (Output.satisfies_all (ht.command hP u (printable_of_all rfl)
      (hP.append (hP.append (hP.append (ht.name p) hspace) hPapplied) hPa)))
  | mode => exact hr
  | @operator p enable t =>
    have hsign : P (if enable then ascii "+o" else ascii "-o") := by
      split_ifs
      · exact hP.lit "+o" rfl
      · exact hP.lit "-o" rfl
    have hrc : Replies P (s.updChannel p (·.setModeOperator enable t)) := hr
    exact hrc.emit (Output.satisfies_all (ht.command hP u (printable_of_all rfl)
      (hP.append (hP.append (hP.append (hP.append (ht.name p) hspace) hsign) hspace)
        (ht.nickname t))))
  | @topic p t hp hu hop hlen hPt =>
    have hrc : Replies P (s.updChannel p fun ch => { ch with topic := t }) := hr
    exact hrc.emit (Output.satisfies_all (ht.command hP u (printable_of_all rfl)
      (hP.append (hP.append (ht.name p) hcolon) hPt)))
  | @invite p d =>
    have hri : Replies P (s.invite p d) := hr.congr fun e => by
      rw [invite_client]
      split_ifs with he
      · rw [he]; rfl
      · rfl
    refine hri.emit ((Output.satisfies_one (hP.makeReply _ (ht.nickname u) ?_)).append
      (Output.satisfies_one (ht.command hP u (printable_of_all rfl) ?_)))
    · exact hP.append (hP.append (ht.name p) hspace) (ht.nickname d)
    · exact hP.append (hP.append (ht.nickname d) hspace) (ht.name p)
  | @part p reason hp hu hPr =>
    have hrl : Replies P (s.leave p u) := hr.congr (leave_replies s p u)
    exact hrl.emit (Output.satisfies_all (ht.command hP u (printable_of_all rfl)
      (hP.append (hP.append (ht.name p) hcolon) (hPr ht))))
  | @kick p t reason hp hop hmem hPr =>
    have hrl : Replies P (s.leave p t) := hr.congr (leave_replies s p t)
    exact hrl.emit (Output.satisfies_all (hP.append (hP.append (ht.command hP u
      (printable_of_all rfl) (hP.append (hP.append (ht.name p) hspace) (ht.nickname t))) hcolon)
      (hPr ht)))
  | @rename n hreg hn hne hPn =>
    have hnotice := hP.nickNotice (ht.nickname u) hPn (ht.username u) (ht.ip u)
    exact (hr.updClient u rfl).emit
      ((Output.satisfies_one hnotice).append (Output.satisfies_once hnotice))
  | nickname => exact hr.updClient u rfl
  | user => exact hr.updClient u rfl
  | pass => exact hr.updClient u rfl
  | register =>
    exact (hr.updClient u rfl).emit (Output.satisfies_list
      (registrationLines_texts hP (ht.nickname u) (ht.username u) (ht.ip u)))
  | pong => exact hr.updClient u rfl

theorem packNames_texts (hP : TextPred P) {header : Bytes} (hh : P header) (limit : Nat)
    {entries : List Bytes} (he : ∀ e ∈ entries, P e) : ∀ m ∈ packNames header limit entries, P m := by
  have hfold : ∀ (es : List Bytes) (st : List Bytes × Bytes), (∀ e ∈ es, P e) →
      (∀ m ∈ st.1, P m) → P st.2 →
      (∀ m ∈ (es.foldl (packRound header limit) st).1, P m) ∧
        P (es.foldl (packRound header limit) st).2 := by
    intro es
    induction es with
    | nil => exact fun st _ h1 h2 => ⟨h1, h2⟩
    | cons e es ih =>
      intro st hes h1 h2
      have hPe := hes e List.mem_cons_self
      refine ih _ (fun e' he' => hes e' (List.mem_cons_of_mem _ he')) ?_ ?_
      · unfold packRound
        split_ifs
        · intro m hm
          rcases List.mem_append.mp hm with hm | hm
          · exact h1 m hm
          · rw [List.mem_singleton.mp hm]
            exact hP.append hh h2
        · exact h1
        · exact h1
      · unfold packRound
        split_ifs
        · exact hPe
        · exact hP.append (hP.append h2 (hP.lit " " rfl)) hPe
        · exact hP.append h2 hPe
  obtain ⟨h1, h2⟩ := hfold entries ([], []) he (by simp) hP.nil
  unfold packNames
  dsimp only
  split_ifs
  · intro m hm
    rcases List.mem_append.mp hm with hm | hm
    · exact h1 m hm
    · rw [List.mem_singleton.mp hm]
      exact hP.append hh h2
  · exact h1

theorem letInOutput_texts (hP : TextPred P) (ht : s.Texts P) (p : ChannelPtr) (u : ClientPtr) :
    ((Output.all (s.channel p).members (joinNotice (s.client u) (s.channel p).name)).append
      (Output.list u (s.welcomeLines p u))).Satisfies P := by
  have hname := ht.name p
  refine (Output.satisfies_all (ht.command hP u (printable_of_all rfl) hname)).append
    (Output.satisfies_list fun m hm => ?_)
  simp only [welcomeLines, List.mem_append, List.mem_singleton] at hm
  rcases hm with (rfl | hm) | rfl
  · unfold topicLine
    split_ifs
    · exact hP.makeReply _ (ht.nickname u) (hP.append hname (hP.lit " :No topic is set" rfl))
    · exact hP.makeReply _ (ht.nickname u) (hP.append (hP.append hname (hP.lit " :" rfl)) (ht.topic p))
  · refine packNames_texts hP ?_ _ (fun e he => ?_) m hm
    · exact hP.makeReply _ (ht.nickname u) (hP.append (hP.append (hP.lit "= " rfl) hname)
        (hP.lit " :" rfl))
    · obtain ⟨d, -, rfl⟩ := List.mem_map.mp he
      unfold namesEntry
      split_ifs
      · exact hP.append (hP.lit "@" rfl) (ht.nickname d)
      · exact hP.append hP.nil (ht.nickname d)
  · exact hP.makeReply _ (ht.nickname u) (hP.append hname (hP.lit " :End of /NAMES list" rfl))

theorem letIn_replies (hP : TextPred P) (ht : s.Texts P) (hr : s.Replies P) {p : ChannelPtr}
    {u : ClientPtr} (hm : u ∉ (s.channel p).members) : (s.letIn p u).Replies P := by
  rw [letIn_eq]
  have hre : (s.enter p u).Replies P := hr.congr (enter_replies s hm)
  exact hre.emit (letInOutput_texts hP (ht.enter hm) p u)

theorem entry_replies (hP : TextPred P) {msg : Message} {u : ClientPtr} (h : Entry P msg u s s')
    (ht : s.Texts P) (hr : s.Replies P) : s'.Replies P := by
  cases h with
  | join _ _ _ _ _ hm => exact letIn_replies hP ht hr hm
  | create hreg hname hk hPn =>
    exact letIn_replies hP (ht.newChannel hP hPn) hr (by simp [newChannel_channel, Channel.new])

/-- The stored strings and the sent lines have the property. -/
structure Wording (P : Bytes → Prop) (s : Server) : Prop where
  texts : s.Texts P
  replies : s.Replies P

theorem kept_wording (hP : TextPred P) : Kept P (Wording P) where
  accept _ hw _ := ⟨accept_texts hP hw.texts _ _, accept_replies hw.replies _ _⟩
  background hb hw h := ⟨background_texts h hb hw.texts, background_replies hP h hb hw.texts hw.replies⟩
  pop {u _} _ _ hw := ⟨hw.texts.updClient u (hw.texts.nickname u) (hw.texts.username u)
    (hw.texts.ip u), hw.replies.updClient u rfl⟩
  effect _ _ hw h := ⟨effect_texts hP h hw.texts, effect_replies hP h hw.texts hw.replies⟩
  entry _ _ hw h := ⟨entry_texts hP h hw.texts, entry_replies hP h hw.texts hw.replies⟩

theorem wording_init (hP : TextPred P) {s : Server} (h : ircserv.Init s) : s.Wording P := by
  obtain ⟨fd, password, heap, now, -, -, rfl⟩ := h
  exact ⟨⟨fun _ => hP.nil, fun _ => hP.nil, fun _ => hP.nil, fun _ => hP.nil, fun _ => hP.nil,
    fun _ => hP.nil⟩, fun c m hm => by cases hm⟩

end texts

/-- Every reachable state is consistent, and its strings contain no line end. -/
theorem reachable_clean {s : Server} (h : ircserv.Reachable s) : s.Wording Clean ∧ s.Base Clean :=
  (kept_wording textPred_clean).reachable textPred_clean serves_clean
    (fun _ => wording_init textPred_clean) h

end Server
end FtIrc
