import FtIrc.Effects.Effect
import FtIrc.Mode.Passes
import FtIrc.State.Parse

/-!
# Lines as effects

Every command but MODE, taken apart into the effects of its issuer.
-/

namespace FtIrc

theorem printable_of_isNumeral {code : Bytes} (h : isNumeral code = true) : Printable code := by
  simp only [isNumeral, Bool.and_eq_true, List.all_eq_true] at h
  exact printable_of_digits h.2

theorem printable_of_isReplyNumber {code : Bytes} (h : isReplyNumber code = true) :
    Printable code := by
  rw [isReplyNumber, Bool.and_eq_true] at h
  exact printable_of_isNumeral h.1

theorem isNumeral_code (code : Nat) :
    isNumeral ((if code < 100 then ascii "0" else []) ++ (if code < 10 then ascii "0" else []) ++
      decimal code) = true := by
  have hzero : ∀ c : Prop, [Decidable c] → (if c then ascii "0" else []).all isDigit = true := by
    intro c _
    split_ifs <;> rfl
  have hdec : (decimal code).all isDigit = true := List.all_eq_true.mpr (decimal_digits code)
  simp [isNumeral, hzero, hdec, decimal_ne_nil]

theorem isReplyNumber_decimal {code : Nat} (h : 100 ≤ code) :
    isReplyNumber (decimal code) = true := by
  have hnum := isNumeral_code code
  simp only [if_neg (show ¬ code < 100 by omega), if_neg (show ¬ code < 10 by omega),
    List.nil_append] at hnum
  have hwelcome : decimal code ∉ welcomeCodes := by
    intro hin
    have hsmall : ∀ c ∈ welcomeCodes, atoi c < 100 := by decide
    have hlt := hsmall _ hin
    rw [atoi_decimal] at hlt
    omega
  simp [isReplyNumber, hnum, hwelcome]

theorem serverReply_makeReply {code : Nat} (h : 100 ≤ code) (nick rest : Bytes) :
    ServerReply (makeReply code nick rest) := by
  refine ⟨decimal code, nick ++ ascii " " ++ rest, .inl (isReplyNumber_decimal h), ?_⟩
  simp only [makeReply, if_neg (show ¬ code < 100 by omega), if_neg (show ¬ code < 10 by omega),
    List.nil_append, ← List.append_assoc]
  rfl

theorem serverReply_formatReply {code : Bytes} (target trailing : Bytes)
    (hc : isReplyNumber code = true) : ServerReply (IrcReply.formatReply code target trailing) :=
  ⟨code, target ++ ascii " :" ++ trailing, .inl hc, by
    simp only [IrcReply.formatReply, List.append_assoc]⟩

theorem serverReply_formatReplyWithParameter {code : Bytes} (target parameter trailing : Bytes)
    (hc : isReplyNumber code = true) :
    ServerReply (IrcReply.formatReplyWithParameter code target parameter trailing) :=
  ⟨code, target ++ ascii " " ++ parameter ++ ascii " :" ++ trailing, .inl hc, by
    simp only [IrcReply.formatReplyWithParameter, List.append_assoc]⟩

theorem serverReply_pong (param : Bytes) :
    ServerReply (ascii ":ircserv PONG ircserv :" ++ param) := by
  refine ⟨ascii "PONG", ascii "ircserv :" ++ param, .inr rfl, ?_⟩
  have hlit : ascii ":ircserv PONG ircserv :" =
      ascii ":ircserv " ++ ascii "PONG" ++ ascii " " ++ ascii "ircserv :" := rfl
  rw [hlit]
  simp only [List.append_assoc]

namespace Server

section lines

variable {P : Bytes → Prop} (hP : TextPred P) {msg : Message} {u : ClientPtr} {s : Server}

theorem effects_send {m : Bytes} (hm : ServerReply m) (hPm : s.Texts P → P m) :
    Effects P msg u s (s.sendReply u m) := by
  rw [sendReply_eq_emit]
  exact .single (.reply hm hPm)

include hP

theorem effects_sendOne {code : Nat} {rest : Bytes} (hcode : 100 ≤ code)
    (hr : s.Texts P → P rest) :
    Effects P msg u s (s.sendToOne u (makeReply code (s.client u).nickname rest)) :=
  effects_send (serverReply_makeReply hcode ..) fun h => hP.makeReply code (h.nickname u) (hr h)

theorem effects_replyTo {code : Nat} {rest : Bytes} (hcode : 100 ≤ code)
    (hr : s.Texts P → P rest) :
    Effects P msg u s (s.replyTo u code rest) :=
  effects_send (serverReply_makeReply hcode ..) fun h => hP.makeReply code (h.targetname hP u) (hr h)

theorem effects_replyWith {code trailing : Bytes} (hc : isReplyNumber code = true) (hr : P trailing) :
    Effects P msg u s (s.replyWith u code trailing) :=
  effects_send (serverReply_formatReply _ _ hc) fun h =>
    hP.formatReply (hP.printable (printable_of_isReplyNumber hc)) (h.targetname hP u) hr

theorem effects_replyWithParameter {code parameter trailing : Bytes}
    (hc : isReplyNumber code = true)
    (hp : P parameter) (hr : P trailing) :
    Effects P msg u s (s.replyWithParameter u code parameter trailing) :=
  effects_send (serverReply_formatReplyWithParameter _ _ _ hc) fun h =>
    hP.formatReplyWithParameter (hP.printable (printable_of_isReplyNumber hc)) (h.targetname hP u) hp hr

theorem effects_notOnChannel (p : ChannelPtr) : Effects P msg u s (s.notOnChannel p u) :=
  effects_sendOne hP (by decide) fun h =>
    hP.append (h.name p) (hP.lit " :You're not on that channel" rfl)

theorem effects_chanOPrivsNeeded (p : ChannelPtr) : Effects P msg u s (s.chanOPrivsNeeded p u) :=
  effects_sendOne hP (by decide) fun h =>
    hP.append (h.name p) (hP.lit " :You're not channel operator" rfl)

omit hP in
theorem updClient_self {f : Client → Client} (hf : f (s.client u) = s.client u) :
    s.updClient u f = s := by
  refine ext_client rfl fun d => ?_
  rw [updClient_client, hf]
  split_ifs with h
  · rw [h]
  · rfl

/-! ## Registration -/

omit hP in
theorem tryCompleteRegistration_eq : s.tryCompleteRegistration u =
    if (s.client u).isRegistered = false ∧ (s.client u).isPasswordVerified = true ∧
        (s.client u).nickname ≠ [] ∧ (s.client u).username ≠ [] then
      (s.updClient u fun cl => { cl with isRegistered := true }).emit
        (Output.list u (registrationLines (s.client u)))
    else s := by
  unfold tryCompleteRegistration
  simp only [Bool.and_eq_true, Bool.not_eq_true', List.isEmpty_eq_false_iff, and_assoc]
  split_ifs with h
  · simp only [sendReply_eq_emit, emit_emit, updClient_client_self]
    congr 1
    funext d
    by_cases hd : d = u <;> simp [Output.append, Output.one, Output.list, hd, registrationLines]
  · rfl

omit hP in
theorem effects_tryComplete : Effects P msg u s (s.tryCompleteRegistration u) := by
  rw [tryCompleteRegistration_eq]
  split_ifs with h
  · exact .single (.register h.1 h.2.1 h.2.2.1 h.2.2.2)
  · exact .refl

theorem line_finishRegistration {t : Server} (h : Effects P msg u s t) :
    Line P msg u s (t.finishRegistration u) := by
  have htry := h.trans effects_tryComplete
  unfold finishRegistration
  dsimp only
  split_ifs
  · refine .closed (htry.trans (effects_send (serverReply_formatReply _ _ rfl) fun _ => ?_))
      (hP.lit "Bad Password" rfl) (.inl rfl)
    exact hP.formatReply (hP.lit "464" rfl) (hP.lit "*" rfl) (hP.lit "Password incorrect" rfl)
  · exact .effects htry

omit hP in
theorem parameter_headD {msg : Message} (hm : msg.Texts P) (h0 : P []) :
    P (msg.parameter.headD []) := by
  have hin := hm.parameter
  cases hp : msg.parameter with
  | nil => exact h0
  | cons x xs => exact hin x (by simp [hp])

theorem line_executeNick (hcmd : findCommand msg.command = some .nick) (hm : msg.Texts P) :
    Line P msg u s (s.executeNick u msg) := by
  have hn := parameter_headD hm hP.nil
  unfold executeNick
  dsimp only
  split_ifs with hempty hvalid htaken hreg hsame
  · exact .effects (effects_replyWith hP rfl (hP.lit "No nickname given" rfl))
  · exact .effects (effects_replyWithParameter hP rfl hn (hP.lit "Erroneous nickname" rfl))
  · exact .effects (effects_replyWithParameter hP rfl hn (hP.lit "Nickname is already in use" rfl))
  · rw [updClient_self (by rw [← hsame])]
    exact .effects .refl
  · have hfree : s.NicknameFree u (msg.parameter.headD []) :=
      ⟨by simpa using hvalid, by simpa using htaken⟩
    have hnb : (s.updClient u fun cl =>
        { cl with nickname := msg.parameter.headD [] }).neighbours u = s.neighbours u := by
      simp [neighbours]
    rw [broadcastNickChange_eq, hnb, updClient_client_self]
    exact .effects (.single (.rename hreg hfree (fun h => hsame h.symm) hn hcmd))
  · have hfree : s.NicknameFree u (msg.parameter.headD []) :=
      ⟨by simpa using hvalid, by simpa using htaken⟩
    exact line_finishRegistration hP (.single (.nickname (by simpa using hreg) hfree hn))

theorem effects_executePass (hcmd : findCommand msg.command = some .pass) :
    Effects P msg u s (s.executePass u msg) := by
  unfold executePass
  dsimp only
  split_ifs with hempty hreg
  · exact effects_replyWithParameter hP rfl
      (hP.lit "PASS" rfl) (hP.lit "Not enough parameters" rfl)
  · exact effects_replyWith hP rfl
      (hP.lit "You may not reregister" rfl)
  · exact .head (.pass hcmd (by simpa using hempty) (by simpa using hreg)) effects_tryComplete

theorem effects_executePing (hm : msg.Texts P) :
    Effects P msg u s (s.executePing u msg) := by
  unfold executePing
  dsimp only
  split_ifs with hempty
  · exact effects_replyWith hP rfl
      (hP.lit "No origin specified" rfl)
  · exact effects_send (serverReply_pong _) fun _ =>
      hP.append (hP.lit ":ircserv PONG ircserv :" rfl) (parameter_headD hm hP.nil)

omit hP in
theorem effects_executePong (hcmd : findCommand msg.command = some .pong) :
    Effects P msg u s (s.executePong u msg) :=
  .single (.pong hcmd)

theorem line_executeQuit (hcmd : findCommand msg.command = some .quit) (hm : msg.Texts P) :
    Line P msg u s (s.executeQuit u msg) := by
  unfold executeQuit
  dsimp only
  cases hempty : (msg.parameter.headD []).isEmpty with
  | true =>
    refine .closed .refl (hP.lit "Client Quit" rfl) (.inr ?_)
    rw [Message.quit, if_pos hcmd, hempty]
    rfl
  | false =>
    refine .closed .refl (parameter_headD hm hP.nil) (.inr ?_)
    rw [Message.quit, if_pos hcmd, hempty]
    rfl

theorem line_executeUser (hm : msg.Texts P) : Line P msg u s (s.executeUser u msg) := by
  have hneed : Line P msg u s (s.replyWithParameter u IrcNumeric.errNeedMoreParams (ascii "USER")
      (ascii "Not enough parameters")) :=
    .effects (effects_replyWithParameter hP rfl
      (hP.lit "USER" rfl) (hP.lit "Not enough parameters" rfl))
  unfold executeUser
  dsimp only
  split_ifs with hshort hreg hat
  · exact hneed
  · exact .effects (effects_replyWith hP rfl (hP.lit "You may not reregister" rfl))
  · exact hneed
  · simp only [Bool.or_eq_true, decide_eq_true_eq, not_or, not_lt, List.isEmpty_iff] at hshort
    obtain ⟨hlen, hne⟩ := hshort
    have hspace : byte ' ' ∉ msg.parameter.headD [] := by
      refine hm.middle _ ?_
      match hp : msg.parameter, hlen with
      | a :: b :: rest, _ => simp
    exact line_finishRegistration hP (.single (.user (by simpa using hreg) hne
      (by simpa using hat) hspace (parameter_headD hm hP.nil)))

/-! ## Lookups -/

omit hP in
theorem findClient_some {nick : Bytes} {t : ClientPtr} (h : s.findClientByNickname nick = some t) :
    s.LiveClient t ∧ (s.client t).isRegistered = true ∧
      toLower (s.client t).nickname = toLower nick := by
  have hp := List.find?_some h
  simp only [Bool.and_eq_true, beq_iff_eq] at hp
  exact ⟨(liveClient_iff_mem s t).mpr (List.mem_of_find?_eq_some h), hp⟩

omit hP in
theorem findChannel_some (hl : s.Links) {name : Bytes} {p : ChannelPtr}
    (h : s.findChannel name = some p) :
    s.LiveChannel p ∧ toLower name = toLower (s.channel p).name :=
  ⟨⟨_, h⟩, (hl.channel_key _ p h).symm⟩

/-! ## Channel commands -/

omit hP in
theorem makeCommand_congr {c c' : Client} (hn : c.nickname = c'.nickname)
    (hu : c.username = c'.username) (hi : c.ip = c'.ip) (cmd rest : Bytes) :
    makeCommand c cmd rest = makeCommand c' cmd rest := by
  simp [makeCommand, hn, hu, hi]

omit hP in
theorem invite_sameIdentity (p : ChannelPtr) (d e : ClientPtr) :
    ((s.invite p d).client e).nickname = (s.client e).nickname ∧
      ((s.invite p d).client e).username = (s.client e).username ∧
      ((s.invite p d).client e).ip = (s.client e).ip := by
  rw [invite_client]
  split_ifs with he
  · rw [he]
    exact ⟨rfl, rfl, rfl⟩
  · exact ⟨rfl, rfl, rfl⟩

theorem effects_handleInvite {p : ChannelPtr} {d : ClientPtr} {nick name : Bytes}
    {rest : List Bytes} (hcmd : findCommand msg.command = some .invite)
    (hparam : msg.parameter = nick :: name :: rest)
    (hnick : s.findClientByNickname nick = some d) (hname : s.findChannel name = some p)
    (hp : s.LiveChannel p) (hd : s.LiveClient d) (hreg : (s.client d).isRegistered = true) :
    Effects P msg u s (s.handleInvite p u d) := by
  unfold handleInvite
  dsimp only
  split_ifs with hm hop hi hon
  · exact effects_notOnChannel hP p
  · exact effects_chanOPrivsNeeded hP p
  · exact .refl
  · exact effects_sendOne hP (by decide) fun h => hP.append (hP.append (hP.append (h.nickname d)
      (hP.lit " " rfl)) (h.name p))
      (hP.lit " :is already on channel" rfl)
  · have hid := invite_sameIdentity (s := s) p d u
    have hnotice : makeCommand ((s.invite p d).client u) (ascii "INVITE")
        ((s.client d).nickname ++ ascii " " ++ (s.channel p).name) =
        inviteNotice (s.client u) (s.client d) (s.channel p).name :=
      makeCommand_congr hid.1 hid.2.1 hid.2.2 _ _
    change Effects P msg u s (((s.invite p d).sendToOne u _).sendToOne d
      (makeCommand (((s.invite p d).sendToOne u _).client u) _ _))
    rw [sendOne_eq_emit, sendOne_eq_emit, emit_emit, emit_client, Client.makeCommand_sendAll,
      hnotice]
    refine .single (.invite hcmd hparam hnick hname hp ?_ (fun hio => ?_) hd hreg ?_ ?_)
    · simpa [Channel.isMember] using hm
    · simpa [hio, Channel.isOperator] using hop
    · simpa [Channel.isMember] using hon
    · simpa [Channel.isInvited] using hi

theorem effects_executeInvite (hcmd : findCommand msg.command = some .invite) (hl : s.Links)
    (hm : msg.Texts P) :
    Effects P msg u s (s.executeInvite u msg) := by
  unfold executeInvite
  split
  · rename_i nick name rest hparam
    have hnick : P nick := hm.parameter nick (by simp [hparam])
    have hname : P name := hm.parameter name (by simp [hparam])
    split
    · exact effects_replyTo hP (by decide) fun _ =>
        hP.append hnick (hP.lit " :No such nick/channel" rfl)
    · rename_i target htarget
      split
      · exact effects_replyTo hP (by decide) fun _ =>
          hP.append hname (hP.lit " :No such channel" rfl)
      · rename_i p hp
        obtain ⟨hlive, hreg, -⟩ := findClient_some htarget
        exact effects_handleInvite hP hcmd hparam htarget hp (findChannel_some hl hp).1 hlive hreg
  · exact effects_replyTo hP (by decide) fun _ => hP.lit "INVITE :Not enough parameters" rfl

theorem effects_part (hg : s.NoGhost) {p : ChannelPtr} (hp : s.LiveChannel p)
    {name message : Bytes} (hname : toLower name = toLower (s.channel p).name)
    (hmsg : P message) :
    Effects P msg u s (let t := s.handlePart p u message
      if (t.channel p).isEmpty then t.deleteChannel name else t) := by
  by_cases hm : (s.channel p).isMember u = true
  · rw [handlePart_leave s p u message name hm hname]
    refine .single (.part hp (by simpa [Channel.isMember] using hm) fun h => ?_)
    split_ifs
    · exact hmsg
    · exact h.nickname u
  · have hpart : s.handlePart p u message = s.notOnChannel p u := by simp [handlePart, hm]
    have hne : ((s.notOnChannel p u).channel p).isEmpty = false := by
      have := hg p hp
      simpa [notOnChannel, sendOne_eq_emit, Channel.isEmpty] using this
    simp only [hpart, hne, Bool.false_eq_true, if_false]
    exact effects_notOnChannel hP p

theorem effects_executePart (hl : s.Links) (hg : s.NoGhost) (hm : msg.Texts P) :
    Effects P msg u s (s.executePart u msg) := by
  unfold executePart
  split
  · exact effects_replyTo hP (by decide) fun _ => hP.lit "PART :Not enough parameters" rfl
  · rename_i name rest hparam
    split
    · exact effects_replyTo hP (by decide) fun _ => hP.append (hm.parameter name (by simp [hparam]))
        (hP.lit " :No such channel" rfl)
    · rename_i p hp
      obtain ⟨hlive, hname⟩ := findChannel_some hl hp
      refine effects_part hP hg hlive hname ?_
      cases rest with
      | nil => exact hP.nil
      | cons x xs => exact hm.parameter x (by simp [hparam])

theorem effects_executeKick (hl : s.Links) (hg : s.NoGhost) (hm : msg.Texts P) :
    Effects P msg u s (s.executeKick u msg) := by
  unfold executeKick
  split
  · rename_i name nick rest hparam
    have hnick : P nick := hm.parameter nick (by simp [hparam])
    have hname : P name := hm.parameter name (by simp [hparam])
    split
    · exact effects_replyTo hP (by decide) fun _ =>
        hP.append hname (hP.lit " :No such channel" rfl)
    · rename_i p hp
      obtain ⟨hlive, hlow⟩ := findChannel_some hl hp
      split
      · dsimp only
        split_ifs
        · exact effects_replyTo hP (by decide) fun h =>
            hP.append (h.name p) (hP.lit " :You're not on that channel" rfl)
        · exact effects_replyTo hP (by decide) fun h =>
            hP.append (h.name p) (hP.lit " :You're not channel operator" rfl)
        · exact effects_replyTo hP (by decide) fun _ => hP.append (hP.append (hP.append hnick
            (hP.lit " " rfl)) hname)
            (hP.lit " :They aren't on that channel" rfl)
      · rename_i target htarget
        by_cases hok : (s.channel p).isMember u = true ∧ (s.channel p).isOperator u = true ∧
            (s.channel p).isMember target = true
        · rw [handleKick_leave s p u target _ name hok.1 hok.2.1 hok.2.2 hlow]
          refine .single (.kick hlive (by simpa [Channel.isOperator] using hok.2.1)
            (by simpa [Channel.isMember] using hok.2.2) fun h => ?_)
          split_ifs
          · cases rest with
            | nil => exact hP.nil
            | cons x xs => exact hm.parameter x (by simp [hparam])
          · exact h.nickname u
        · -- only an error is sent, so the channel still has its members
          have hemit : ∃ m, ServerReply m ∧ (s.Texts P → P m) ∧
              s.handleKick p u target (rest.headD []) = s.emit (Output.one u m) := by
            unfold handleKick
            dsimp only
            split_ifs with h1 h2 h3
            · exact ⟨_, serverReply_makeReply (by decide) .., fun h => hP.makeReply _ (h.nickname u)
                (hP.append (h.name p) (hP.lit " :You're not on that channel" rfl)),
                sendOne_eq_emit ..⟩
            · exact ⟨_, serverReply_makeReply (by decide) .., fun h => hP.makeReply _ (h.nickname u)
                (hP.append (h.name p) (hP.lit " :You're not channel operator" rfl)),
                sendOne_eq_emit ..⟩
            · exact ⟨_, serverReply_makeReply (by decide) .., fun h => hP.makeReply _ (h.nickname u)
                (hP.append (hP.append (hP.append (h.nickname target)
                  (hP.lit " " rfl)) (h.name p))
                  (hP.lit " :They aren't on that channel" rfl)),
                sendOne_eq_emit ..⟩
            all_goals exact absurd ⟨by simpa using h1, by simpa using h2, by simpa using h3⟩ hok
          obtain ⟨m, hsr, hPm, he⟩ := hemit
          have hne : ((s.emit (Output.one u m)).channel p).isEmpty = false := by
            have := hg p hlive
            simpa [Channel.isEmpty] using this
          simp only [he, hne, Bool.false_eq_true, if_false]
          exact .single (.reply hsr hPm)
  · exact effects_replyTo hP (by decide) fun _ => hP.lit "KICK :Not enough parameters" rfl

omit hP in
theorem text_ne_nil (target text : Bytes) : target ++ ascii " :" ++ text ≠ [] := by
  intro h
  have hlit := (List.append_eq_nil_iff.mp (List.append_eq_nil_iff.mp h).1).2
  exact absurd hlit (by decide)

theorem effects_executePrivmsg (hreg : (s.client u).isRegistered = true)
    (hm : msg.Texts P) : Effects P msg u s (s.executePrivmsg u msg) := by
  have hr := parameter_headD hm hP.nil
  have hc : P (msg.parameter.getD 1 []) := by
    rw [List.getD_eq_getElem?_getD]
    cases hx : msg.parameter[1]? with
    | none => exact hP.nil
    | some x => exact hm.parameter x (List.mem_of_getElem? hx)
  unfold executePrivmsg
  dsimp only
  split_ifs
  · exact effects_replyTo hP (by decide) fun _ =>
      hP.lit ":No recipient given (PRIVMSG)" rfl
  · exact effects_replyTo hP (by decide) fun _ => hP.lit ":No text to send" rfl
  · split
    · split
      · exact effects_replyTo hP (by decide) fun _ =>
          hP.append hr (hP.lit " :No such nick/channel" rfl)
      · rename_i d hd
        unfold handlePersonalPrivmsg
        rw [sendReply_eq_emit]
        refine .single (.talk hreg fun e m hmem => ?_)
        unfold Output.one at hmem
        split_ifs at hmem
        · exact ⟨_, text_ne_nil _ _, fun h => hP.append (hP.append (h.nickname d)
            (hP.lit " :" rfl)) hc, List.mem_singleton.mp hmem⟩
        · cases hmem
    · rename_i p hp
      unfold handleChannelPrivmsg
      dsimp only
      split_ifs
      · exact effects_sendOne hP (by decide) fun h =>
          hP.append (h.name p) (hP.lit " :Cannot send to channel" rfl)
      · rw [sendToAllExcept_eq_emit]
        refine .single (.talk hreg fun e m hmem => ?_)
        exact ⟨_, text_ne_nil _ _, fun h => hP.append (hP.append (h.name p)
          (hP.lit " :" rfl)) hc, List.eq_of_mem_replicate hmem⟩

theorem effects_executeTopic (hl : s.Links) (hm : msg.Texts P) :
    Effects P msg u s (s.executeTopic u msg) := by
  unfold executeTopic
  split
  · exact effects_replyTo hP (by decide) fun _ => hP.lit "TOPIC :Not enough parameters" rfl
  · rename_i name rest hparam
    split
    · exact effects_replyTo hP (by decide) fun _ => hP.append (hm.parameter name (by simp [hparam]))
        (hP.lit " :No such channel" rfl)
    · rename_i p hp
      obtain ⟨hlive, -⟩ := findChannel_some hl hp
      have ht : P (rest.headD []) := by
        cases rest with
        | nil => exact hP.nil
        | cons x xs => exact hm.parameter x (by simp [hparam])
      unfold handleTopic
      dsimp only
      split_ifs with hmem hhas hop
      · exact effects_notOnChannel hP p
      · rw [sendTopic_eq]
        refine .single (.reply ?_ fun h => ?_)
        · unfold topicLine
          split_ifs <;> exact serverReply_makeReply (by decide) ..
        · unfold topicLine
          split_ifs
          · exact hP.makeReply _ (h.nickname u) (hP.append (h.name p)
              (hP.lit " :No topic is set" rfl))
          · exact hP.makeReply _ (h.nickname u) (hP.append (hP.append (h.name p)
              (hP.lit " :" rfl)) (h.topic p))
      · exact effects_chanOPrivsNeeded hP p
      · rw [sendToAll_eq_emit, updChannel_channel_self]
        refine .single (.topic hlive ?_ (fun hto => ?_) ?_ (hP.truncate ht))
        · simpa [Channel.isMember] using hmem
        · simpa [hto, Channel.isOperator] using hop
        · exact truncateUtf8_length_le _ 300

/-! ## JOIN -/

/-- One round of `JOIN 0`: a PART with the nickname as its reason. -/
def Parts (u : ClientPtr) (s s' : Server) : Prop :=
  ∃ p, s.LiveChannel p ∧ u ∈ (s.channel p).members ∧
    s' = (s.leave p u).emit (Output.all (s.channel p).members
      (partNotice (s.client u) (s.channel p).name (s.client u).nickname))

omit hP in
/-- The channels of `JOIN 0` are left one by one; leaving one does not change the entries of the
others. -/
theorem partFold_parts (es : List (Bytes × ChannelPtr)) (hl : s.Links) (hu : s.LiveClient u)
    (hes : ∀ e ∈ es, (s.client u).joinedChannels.find? e.1 = some e.2)
    (hnd : (es.map Prod.fst).Nodup) :
    Relation.ReflTransGen (Parts u) s (es.foldl (partRound u) s) := by
  induction es generalizing s with
  | nil => exact .refl
  | cons e es ih =>
    obtain ⟨hp, hname, hmem⟩ := hl.joined u hu _ _ (hes e List.mem_cons_self)
    have hround : partRound u s e = (s.leave e.2 u).emit (Output.all (s.channel e.2).members
        (partNotice (s.client u) (s.channel e.2).name (s.client u).nickname)) :=
      handlePart_leave s e.2 u [] e.1 (by simpa [Channel.isMember] using hmem) (by rw [hname])
    have hlinks : (partRound u s e).Links := by
      rw [hround]
      exact (links_leave hl hp u).congr (sameLinks_emit _ _)
    have hlive : (partRound u s e).LiveClient u := by
      rw [hround]
      simpa [LiveClient] using hu
    rw [List.map_cons, List.nodup_cons] at hnd
    refine .head ⟨e.2, hp, hmem, hround⟩ (ih hlinks hlive (fun e' he' => ?_) hnd.2)
    rw [hround, emit_client, Client.sendAll_joinedChannels, leave_joinedChannels, if_pos rfl, hname,
      StdMap.find?_erase, if_neg]
    · exact hes e' (List.mem_cons_of_mem _ he')
    · intro he
      exact hnd.1 (he ▸ List.mem_map_of_mem he')

omit hP in
theorem effects_parts {t : Server} (h : Relation.ReflTransGen (Parts u) s t) :
    Effects P msg u s t := by
  refine Relation.ReflTransGen.mono (fun a b hstep => ?_) _ _ h
  obtain ⟨p, hp, hmem, rfl⟩ := hstep
  exact .part hp hmem fun h => h.nickname u

omit hP in
theorem keys_nodup (m : StdMap Bytes ChannelPtr) : (m.entries.map Prod.fst).Nodup := by
  rw [List.Nodup, List.pairwise_map]
  exact m.sorted.imp fun h => h.ne

theorem line_handleJoin {p : ChannelPtr} {name : Bytes} {rest : List Bytes}
    (hcmd : findCommand msg.command = some .join) (hparam : msg.parameter = name :: rest)
    (hname : s.findChannel name = some p) (hreg : (s.client u).isRegistered = true)
    (hp : s.LiveChannel p) : Line P msg u s (s.handleJoin p u (rest.headD [])) := by
  unfold handleJoin
  dsimp only
  split_ifs with hm hk hi hf
  · exact .effects .refl
  · exact .effects (effects_sendOne hP (by decide) fun h =>
      hP.append (h.name p) (hP.lit " :Cannot join channel (+k)" rfl))
  · exact .effects (effects_sendOne hP (by decide) fun h =>
      hP.append (h.name p) (hP.lit " :Cannot join channel (+i)" rfl))
  · exact .effects (effects_sendOne hP (by decide) fun h =>
      hP.append (h.name p) (hP.lit " :Cannot join channel (+l)" rfl))
  · refine .entry (.join hcmd hparam hname hp hreg ?_ ?_ ?_ ?_)
    · simpa [Channel.isMember] using hm
    · simpa [Channel.checkKey, or_iff_not_imp_left] using hk
    · simpa [Channel.isInvited] using hi
    · simpa using hf

omit hP in
/-- A new channel lets everyone in. -/
theorem handleJoin_newChannel (name key : Bytes) :
    (s.newChannel name).handleJoin (s.heap.addr s.channels.values) u key =
      (s.newChannel name).letIn (s.heap.addr s.channels.values) u := by
  have hch : (s.newChannel name).channel (s.heap.addr s.channels.values) = Channel.new name := by
    simp [newChannel_channel]
  simp [handleJoin, hch, Channel.new, Channel.isMember, Channel.isFull]

omit hP in
theorem findOrCreateChannel_eq (name : Bytes) : s.findOrCreateChannel name =
    match s.channels.find? (toLower name) with
    | some p => (s, p)
    | none => (s.newChannel name, s.heap.addr s.channels.values) := by
  unfold findOrCreateChannel findChannel
  dsimp only
  rw [toLower_toLower]
  cases s.channels.find? (toLower name) <;> rfl

theorem line_executeJoin (hcmd : findCommand msg.command = some .join) (hl : s.Links)
    (hu : s.LiveClient u) (hreg : (s.client u).isRegistered = true) (hm : msg.Texts P) :
    Line P msg u s (s.executeJoin u msg) := by
  unfold executeJoin
  split
  · exact .effects (effects_replyTo hP (by decide) fun _ => hP.lit "JOIN :Not enough parameters" rfl)
  · rename_i name rest hparam
    have hname : P name := hm.parameter name (by simp [hparam])
    split_ifs with h0 hvalid
    · exact .effects (effects_parts (partFold_parts _ hl hu
        (fun e he => (s.client u).joinedChannels.find?_eq_some.mpr he) (keys_nodup _)))
    · exact .effects (effects_replyTo hP (by decide) fun _ =>
        hP.append hname (hP.lit " :Bad Channel Mask" rfl))
    · dsimp only
      rw [findOrCreateChannel_eq]
      cases hfind : s.channels.find? (toLower name) with
      | some p => exact line_handleJoin hP hcmd hparam hfind hreg ⟨_, hfind⟩
      | none =>
        dsimp only
        rw [handleJoin_newChannel]
        exact .entry (.create hreg (by simpa using hvalid) hfind hname)

end lines
end Server
end FtIrc
