import FtIrc.Effects.Wording

/-!
# Identities

Who a client is: its names, its address and how far its registration has come. Only five effects
change an identity, and only that of the issuer, so valid and unique nicknames are an invariant.
-/

namespace FtIrc

/-- The part of a client that registration is about. -/
structure Identity where
  ip : Bytes
  nickname : Bytes
  username : Bytes
  realname : Bytes
  isRegistered : Bool
  isPasswordVerified : Bool

def Client.identity (c : Client) : Identity where
  ip := c.ip
  nickname := c.nickname
  username := c.username
  realname := c.realname
  isRegistered := c.isRegistered
  isPasswordVerified := c.isPasswordVerified

/-- The fields of an identity, read off an equality of identities. -/
theorem identity_fields {c c' : Client} (h : c'.identity = c.identity) :
    c'.ip = c.ip ∧ c'.nickname = c.nickname ∧ c'.username = c.username ∧
      c'.realname = c.realname ∧ c'.isRegistered = c.isRegistered ∧
      c'.isPasswordVerified = c.isPasswordVerified :=
  ⟨congrArg Identity.ip h, congrArg Identity.nickname h, congrArg Identity.username h,
    congrArg Identity.realname h, congrArg Identity.isRegistered h,
    congrArg Identity.isPasswordVerified h⟩

namespace Server

/-- `s'` has no new clients, and the identities of `s`. -/
structure SameIdentities (s s' : Server) : Prop where
  live : ∀ c, s'.LiveClient c → s.LiveClient c
  identity : ∀ c, (s'.client c).identity = (s.client c).identity

section same

variable {s s' : Server}

theorem SameIdentities.trans {t : Server} (h : SameIdentities s s') (h' : SameIdentities s' t) :
    SameIdentities s t where
  live c hc := h.live c (h'.live c hc)
  identity c := (h'.identity c).trans (h.identity c)

theorem sameIdentities_emit (s : Server) (o : Output) : SameIdentities s (s.emit o) :=
  ⟨fun _ => id, fun _ => rfl⟩

theorem sameIdentities_updClient (s : Server) (u : ClientPtr) {f : Client → Client}
    (hf : (f (s.client u)).identity = (s.client u).identity) :
    SameIdentities s (s.updClient u f) := by
  refine ⟨fun _ => id, fun c => ?_⟩
  rw [updClient_client]
  split_ifs with hc
  · rw [hf, hc]
  · rfl

theorem sameIdentities_updChannel (s : Server) (p : ChannelPtr) (f : Channel → Channel) :
    SameIdentities s (s.updChannel p f) :=
  ⟨fun _ => id, fun _ => rfl⟩

theorem sameIdentities_invite (s : Server) (p : ChannelPtr) (d : ClientPtr) :
    SameIdentities s (s.invite p d) := by
  refine ⟨fun _ => id, fun c => ?_⟩
  rw [invite_client]
  split_ifs with hc
  · rw [hc]
    rfl
  · rfl

theorem sameIdentities_leave (s : Server) (p : ChannelPtr) (c : ClientPtr) :
    SameIdentities s (s.leave p c) := by
  refine ⟨fun d hd => ?_, fun d => ?_⟩
  · simpa [LiveClient] using hd
  · rw [leave_sameClient s p c d]
    rfl

theorem sameIdentities_letIn (s : Server) {p : ChannelPtr} {c : ClientPtr}
    (hm : c ∉ (s.channel p).members) : SameIdentities s (s.letIn p c) := by
  rw [letIn_eq]
  refine SameIdentities.trans ⟨fun d hd => ?_, fun d => ?_⟩ (sameIdentities_emit _ _)
  · simpa [LiveClient] using hd
  · rw [enter_client s hm]
    split_ifs with hd
    · rw [hd]
      rfl
    · rfl

theorem sameIdentities_disconnectAfterFlush (s : Server) (c : ClientPtr) (reason : Bytes) :
    SameIdentities s (s.disconnectAfterFlush c reason) := by
  rw [disconnectAfterFlush_eq]
  have hclosing : SameIdentities s { s with closing := s.closing.insert (s.client c).fd reason } :=
    ⟨fun _ => id, fun _ => rfl⟩
  exact (hclosing.trans (sameIdentities_updClient _ c rfl)).trans (sameIdentities_emit _ _)

theorem Departure.sameIdentities {c : ClientPtr} {cause : Bytes} (h : Departure s c cause s') :
    SameIdentities s s' := by
  refine ⟨fun d hd => ?_, fun d => ?_⟩
  · obtain ⟨fd, hfd⟩ := hd
    rw [h.clients, StdMap.find?_erase] at hfd
    split_ifs at hfd
    exact ⟨fd, hfd⟩
  · by_cases hd : d = c
    · subst hd
      rw [h.self]
      rfl
    · rw [h.client d hd]
      rfl

theorem background_identities {P : Bytes → Prop} (h : Background P s s') (hb : s.Base P) :
    SameIdentities s s' := by
  cases h with
  | frame => exact ⟨fun _ => id, fun _ => rfl⟩
  | @buffers c f hf =>
    refine sameIdentities_updClient s c ?_
    rw [(hf (s.client c)).1]
    rfl
  | ping =>
    rw [sendReply_eq_emit]
    exact sameIdentities_emit s _
  | close => exact sameIdentities_disconnectAfterFlush s _ _
  | @depart fd c reason hfd =>
    exact (disconnect_departure hb.links hb.noGhost hfd reason).1.sameIdentities

theorem entry_identities {P : Bytes → Prop} {msg : Message} {u : ClientPtr}
    (h : Entry P msg u s s') : SameIdentities s s' := by
  cases h with
  | join _ _ _ _ _ hm => exact sameIdentities_letIn s hm
  | @create name =>
    have hnew : SameIdentities s (s.newChannel name) := ⟨fun _ => id, fun _ => rfl⟩
    exact hnew.trans (sameIdentities_letIn _ (by simp [newChannel_channel, Channel.new]))

end same

/-! ## Effects -/

/-- What the identity of the issuer of the line `msg` can become in one effect. -/
inductive IdentityChange (msg : Message) (s : Server) (u : ClientPtr) : Identity → Prop
  | same : IdentityChange msg s u (s.client u).identity
  | nickname {n : Bytes} (hn : s.NicknameFree u n) :
      IdentityChange msg s u { (s.client u).identity with nickname := n }
  | user {username realname : Bytes} (hreg : (s.client u).isRegistered = false)
      (hat : byte '@' ∉ username) (hspace : byte ' ' ∉ username) :
      IdentityChange msg s u { (s.client u).identity with username, realname }
  | pass (hcmd : findCommand msg.command = some .pass) (hne : msg.parameter.headD [] ≠ [])
      (hreg : (s.client u).isRegistered = false) :
      IdentityChange msg s u { (s.client u).identity with
        isPasswordVerified := s.checkPassword (msg.parameter.headD []) }
  | register (hreg : (s.client u).isRegistered = false)
      (hpass : (s.client u).isPasswordVerified = true) (hn : (s.client u).nickname ≠ [])
      (hu : (s.client u).username ≠ []) :
      IdentityChange msg s u { (s.client u).identity with isRegistered := true }

/-- The identity of `u` in `s'` is a change of that in `s`, and all others are kept. -/
structure Identified (msg : Message) (u : ClientPtr) (s s' : Server) : Prop where
  live : ∀ c, s'.LiveClient c → s.LiveClient c
  other : ∀ c, c ≠ u → (s'.client c).identity = (s.client c).identity
  self : IdentityChange msg s u (s'.client u).identity

section effects

variable {msg : Message} {u : ClientPtr} {s s' : Server}

theorem SameIdentities.identified (h : SameIdentities s s') : Identified msg u s s' where
  live := h.live
  other c _ := h.identity c
  self := h.identity u ▸ .same

theorem identified_updClient {f : Client → Client}
    (hf : IdentityChange msg s u (f (s.client u)).identity) :
    Identified msg u s (s.updClient u f) where
  live _ := id
  other c hc := by rw [updClient_client_of_ne s u c f hc]
  self := by
    rw [updClient_client_self]
    exact hf

theorem Identified.emit (h : Identified msg u s s') (o : Output) : Identified msg u s (s'.emit o) :=
  ⟨h.live, h.other, h.self⟩

theorem Identified.ip (h : Identified msg u s s') (c : ClientPtr) :
    (s'.client c).ip = (s.client c).ip := by
  by_cases hc : c = u
  · subst hc
    have hself := h.self
    generalize hid : (s'.client c).identity = id at hself
    cases hself <;> exact congrArg Identity.ip hid
  · exact (identity_fields (h.other c hc)).1

theorem effect_identified {P : Bytes → Prop} (h : Effect P msg u s s') : Identified msg u s s' := by
  cases h with
  | reply | talk | announce => exact (sameIdentities_emit s _).identified
  | mode => exact (sameIdentities_updChannel s _ _).identified
  | operator => exact (sameIdentities_updChannel s _ _).identified.emit _
  | topic => exact (sameIdentities_updChannel s _ _).identified.emit _
  | invite => exact (sameIdentities_invite s _ _).identified.emit _
  | part | kick => exact (sameIdentities_leave s _ _).identified.emit _
  | rename hreg hn => exact (identified_updClient (.nickname hn)).emit _
  | nickname hreg hn => exact identified_updClient (.nickname hn)
  | user hreg hne hat hspace => exact identified_updClient (.user hreg hat hspace)
  | pass hcmd hne hreg => exact identified_updClient (.pass hcmd hne hreg)
  | register hreg hpass hn hu => exact (identified_updClient (.register hreg hpass hn hu)).emit _
  | pong => exact identified_updClient .same

theorem effects_ip {P : Bytes → Prop} (h : Effects P msg u s s') (c : ClientPtr) :
    (s'.client c).ip = (s.client c).ip := by
  induction h with
  | refl => rfl
  | tail _ hstep ih => exact ((effect_identified hstep).ip c).trans ih

theorem line_ip {P : Bytes → Prop} (h : Line P msg u s s') (c : ClientPtr) :
    (s'.client c).ip = (s.client c).ip := by
  cases h with
  | effects h => exact effects_ip h c
  | @closed t reason h =>
    have hsame := (sameIdentities_disconnectAfterFlush t u reason).identity c
    exact (identity_fields hsame).1.trans (effects_ip h c)
  | entry h => exact (identity_fields ((entry_identities h).identity c)).1

end effects

/-! ## The invariant -/

/-- Connected clients have valid and distinct nicknames, and registered clients are complete. -/
structure Identities (s : Server) : Prop where
  nickname : ∀ c, s.LiveClient c → (s.client c).nickname ≠ [] →
    isValidNickname (s.client c).nickname = true
  unique : ∀ c d, s.LiveClient c → s.LiveClient d → (s.client c).nickname ≠ [] →
    toLower (s.client c).nickname = toLower (s.client d).nickname → c = d
  username : ∀ c, s.LiveClient c →
    byte '@' ∉ (s.client c).username ∧ byte ' ' ∉ (s.client c).username
  registered : ∀ c, s.LiveClient c → (s.client c).isRegistered = true →
    (s.client c).isPasswordVerified = true ∧ (s.client c).nickname ≠ [] ∧
      (s.client c).username ≠ []
  ip : ∀ c, s.LiveClient c → ∃ addr, (s.client c).ip = inetNtop addr

section invariant

variable {s s' : Server}

theorem Identities.congr (h : s.Identities) (hs : SameIdentities s s') : s'.Identities := by
  have hf := fun c => identity_fields (hs.identity c)
  constructor
  case nickname =>
    intro c hc
    rw [(hf c).2.1]
    exact h.nickname c (hs.live c hc)
  case unique =>
    intro c d hc hd
    rw [(hf c).2.1, (hf d).2.1]
    exact h.unique c d (hs.live c hc) (hs.live d hd)
  case username =>
    intro c hc
    rw [(hf c).2.2.1]
    exact h.username c (hs.live c hc)
  case registered =>
    intro c hc
    rw [(hf c).2.1, (hf c).2.2.1, (hf c).2.2.2.2.1, (hf c).2.2.2.2.2]
    exact h.registered c (hs.live c hc)
  case ip =>
    intro c hc
    rw [(hf c).1]
    exact h.ip c (hs.live c hc)

theorem toLower_ne_nil {n : Bytes} (h : n ≠ []) : toLower n ≠ [] := by
  simpa [toLower] using h

theorem nicknameFree_ne_nil {c : ClientPtr} {n : Bytes} (h : s.NicknameFree c n) : n ≠ [] := by
  rintro rfl
  simpa [isValidNickname] using h.1

theorem nicknameFree_unique {u c : ClientPtr} {n : Bytes} (h : s.NicknameFree u n)
    (hc : s.LiveClient c) (heq : toLower (s.client c).nickname = toLower n) : c = u := by
  have htaken := h.2
  simp only [isNicknameTaken, List.any_eq_false, Bool.and_eq_true, decide_eq_true_eq, beq_iff_eq,
    not_and] at htaken
  by_contra hne
  exact htaken c ((liveClient_iff_mem s c).mp hc) hne heq

/-- One identity is changed: what has to be checked of the new one. -/
theorem Identities.change (h : s.Identities) {u : ClientPtr} (hu : s.LiveClient u)
    (hlive : ∀ c, s'.LiveClient c → s.LiveClient c)
    (hother : ∀ c, c ≠ u → (s'.client c).identity = (s.client c).identity)
    (hip : (s'.client u).ip = (s.client u).ip)
    (hnick : (s'.client u).nickname = (s.client u).nickname ∨
      s.NicknameFree u (s'.client u).nickname)
    (hname : byte '@' ∉ (s'.client u).username ∧ byte ' ' ∉ (s'.client u).username)
    (hreg : (s'.client u).isRegistered = true → (s'.client u).isPasswordVerified = true ∧
      (s'.client u).nickname ≠ [] ∧ (s'.client u).username ≠ []) : s'.Identities := by
  have hf := fun c hc => identity_fields (hother c hc)
  constructor
  case nickname =>
    intro c hc hne
    by_cases hcu : c = u
    · subst hcu
      rcases hnick with hsame | hfree
      · rw [hsame] at hne ⊢
        exact h.nickname c hu hne
      · exact hfree.1
    · rw [(hf c hcu).2.1] at hne ⊢
      exact h.nickname c (hlive c hc) hne
  case unique =>
    intro c d hc hd hne heq
    by_cases hcu : c = u <;> by_cases hdu : d = u
    · exact hcu.trans hdu.symm
    · subst hcu
      rw [(hf d hdu).2.1] at heq
      rcases hnick with hsame | hfree
      · rw [hsame] at hne heq
        exact h.unique c d hu (hlive d hd) hne heq
      · exact (nicknameFree_unique hfree (hlive d hd) heq.symm).symm
    · subst hdu
      rw [(hf c hcu).2.1] at heq hne
      rcases hnick with hsame | hfree
      · rw [hsame] at heq
        exact h.unique c d (hlive c hc) hu hne heq
      · exact nicknameFree_unique hfree (hlive c hc) heq
    · rw [(hf c hcu).2.1, (hf d hdu).2.1] at heq
      rw [(hf c hcu).2.1] at hne
      exact h.unique c d (hlive c hc) (hlive d hd) hne heq
  case username =>
    intro c hc
    by_cases hcu : c = u
    · exact hcu ▸ hname
    · rw [(hf c hcu).2.2.1]
      exact h.username c (hlive c hc)
  case registered =>
    intro c hc
    by_cases hcu : c = u
    · exact hcu ▸ hreg
    · rw [(hf c hcu).2.1, (hf c hcu).2.2.1, (hf c hcu).2.2.2.2.1, (hf c hcu).2.2.2.2.2]
      exact h.registered c (hlive c hc)
  case ip =>
    intro c hc
    by_cases hcu : c = u
    · subst hcu
      rw [hip]
      exact h.ip c hu
    · rw [(hf c hcu).1]
      exact h.ip c (hlive c hc)

theorem Identities.identified (h : s.Identities) {msg : Message} {u : ClientPtr}
    (hu : s.LiveClient u) (hi : Identified msg u s s') : s'.Identities := by
  have hold := h.username u hu
  have hself := hi.self
  generalize hid : (s'.client u).identity = id at hself
  have hf : (s'.client u).ip = id.ip ∧ (s'.client u).nickname = id.nickname ∧
      (s'.client u).username = id.username ∧ (s'.client u).isRegistered = id.isRegistered ∧
      (s'.client u).isPasswordVerified = id.isPasswordVerified := by
    rw [← hid]
    exact ⟨rfl, rfl, rfl, rfl, rfl⟩
  have hchange := @Identities.change _ s' h u hu hi.live hi.other
  rw [hf.1, hf.2.1, hf.2.2.1, hf.2.2.2.1, hf.2.2.2.2] at hchange
  cases hself with
  | same => exact hchange rfl (.inl rfl) hold (h.registered u hu)
  | nickname hn =>
    refine hchange rfl (.inr hn) hold fun hr => ?_
    obtain ⟨hpass, -, huser⟩ := h.registered u hu hr
    exact ⟨hpass, nicknameFree_ne_nil hn, huser⟩
  | user hreg hat hspace =>
    refine hchange rfl (.inl rfl) ⟨hat, hspace⟩ fun hr => ?_
    exact absurd (hreg.symm.trans hr) (by decide)
  | pass hcmd hne hreg =>
    refine hchange rfl (.inl rfl) hold fun hr => ?_
    exact absurd (hreg.symm.trans hr) (by decide)
  | register hreg hpass hn huser => exact hchange rfl (.inl rfl) hold fun _ => ⟨hpass, hn, huser⟩

theorem Identities.accept (h : s.Identities) {fd : Fd} (addr : Ipv4)
    (hfd : s.clients.find? fd = none) :
    (s.acceptNewClient (.accepted fd addr)).Identities := by
  have hlive := liveClient_accept (s := s) addr hfd
  have hclient := accept_client s fd addr
  constructor
  case nickname =>
    intro c hc hne
    rw [hclient] at hne ⊢
    split_ifs at hne ⊢ with hnew
    · exact absurd rfl hne
    · exact h.nickname c (((hlive c).mp hc).resolve_right hnew) hne
  case unique =>
    intro c d hc hd hne heq
    rw [hclient] at hne heq
    split_ifs at hne heq with hnew
    · exact absurd rfl hne
    · rw [hclient] at heq
      split_ifs at heq with hnew'
      · exact absurd heq (toLower_ne_nil hne)
      · exact h.unique c d (((hlive c).mp hc).resolve_right hnew)
          (((hlive d).mp hd).resolve_right hnew') hne heq
  case username =>
    intro c hc
    rw [hclient]
    split_ifs with hnew
    · exact ⟨by simp [Client.new], by simp [Client.new]⟩
    · exact h.username c (((hlive c).mp hc).resolve_right hnew)
  case registered =>
    intro c hc
    rw [hclient]
    split_ifs with hnew
    · intro hr
      cases hr
    · exact h.registered c (((hlive c).mp hc).resolve_right hnew)
  case ip =>
    intro c hc
    rw [hclient]
    split_ifs with hnew
    · exact ⟨addr, rfl⟩
    · exact h.ip c (((hlive c).mp hc).resolve_right hnew)

theorem kept_identities (P : Bytes → Prop) : Kept P Identities where
  accept _ h hfd := h.accept _ hfd
  background hb h hstep := h.congr (background_identities hstep hb)
  pop _ _ h := h.congr (sameIdentities_updClient _ _ rfl)
  effect _ hu h hstep := h.identified hu (effect_identified hstep)
  entry _ _ h hstep := h.congr (entry_identities hstep)

theorem identities_init (h : ircserv.Init s) : s.Identities := by
  obtain ⟨fd, password, heap, now, -, -, rfl⟩ := h
  have hnone : ∀ c, ¬ (init fd password heap now).LiveClient c := by
    rintro c ⟨k, hk⟩
    simp [init] at hk
  constructor
  case unique => exact fun c _ hc => absurd hc (hnone c)
  all_goals exact fun c hc => absurd hc (hnone c)

theorem reachable_identities (h : ircserv.Reachable s) : s.Identities :=
  ((kept_identities Clean).reachable textPred_clean serves_clean (fun _ => identities_init) h).1

end invariant

end Server
end FtIrc
