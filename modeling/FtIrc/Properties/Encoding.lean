import FtIrc.Effects.Sessions

/-!
# Valid UTF-8 in, valid UTF-8 out

The cuts never split a character, and replies quote whole words of a line. The exception is the
unknown-mode error of MODE, which quotes a single byte.
-/

namespace FtIrc
namespace Server

/-- The line that an event runs is valid UTF-8. -/
def Utf8Lines (s : Server) (e : Event) : Prop := ∀ x ∈ s.lineOf e, ValidUtf8 x.2

/-- A MODE line does not make the server quote a byte above ASCII. -/
def AsciiModes (s : Server) (e : Event) : Prop :=
  ∀ x ∈ s.lineOf e, ∀ msg ∈ spliter x.2, findCommand msg.command = some .mode →
    ∀ b ∈ s.modeEcho x.1 msg, b < 128

theorem serves_validUtf8 :
    Serves ValidUtf8 ((ircserv.restrict Utf8Lines).restrict AsciiModes) where
  init _ h := h
  next _ _ := rfl
  enabled _ _ h := h.1.1
  lines s fd u he hu msg hmsg := by
    have hline := lineOf_line hu
    refine ⟨texts_validUtf8 hmsg (he.1.2 _ hline), fun hcmd b hb => validUtf8_ascii ?_⟩
    simpa using he.2 _ hline msg hmsg hcmd b hb

theorem replies_validUtf8 {s : Server}
    (h : ((ircserv.restrict Utf8Lines).restrict AsciiModes).Reachable s) (c : ClientPtr) :
    ∀ m ∈ (s.client c).replies, ValidUtf8 (outputLine m) := by
  obtain ⟨hwording, -⟩ := (kept_wording textPred_validUtf8).reachable textPred_validUtf8
    serves_validUtf8 (fun _ => wording_init textPred_validUtf8) h
  exact fun m hm => validUtf8_outputLine (hwording.replies c m hm)

/-! ## Evaluation -/

def isAscii (s : Bytes) : Bool := s.all fun b => Nat.blt b.toNat 128

theorem isAscii_iff {s : Bytes} : isAscii s = true ↔ ∀ b ∈ s, b < 128 := by
  simp [isAscii, UInt8.lt_iff_toNat_lt]

/-- A test of `Utf8Lines`: the line is ASCII or one that is known to be valid. -/
def utf8Lines (known : Bytes) (s : Server) (e : Event) : Bool :=
  s.enabled e && (s.lineOf e).all fun x => isAscii x.2 || x.2 == known

/-- A test of `AsciiModes`. -/
def asciiModes (s : Server) (e : Event) : Bool :=
  (s.lineOf e).all fun x => (spliter x.2).all fun msg => isAscii (s.modeEcho x.1 msg)

theorem utf8Lines_sound {known : Bytes} (hknown : ValidUtf8 known) (s : Server) (e : Event)
    (h : utf8Lines known s e = true) : (ircserv.restrict Utf8Lines).Enabled s e := by
  rw [utf8Lines, Bool.and_eq_true] at h
  refine ⟨enabled_sound s e h.1, fun x hx => ?_⟩
  have htest := h.2
  rw [Option.mem_def.mp hx, Option.all_some, Bool.or_eq_true] at htest
  rcases htest with hall | heq
  · exact validUtf8_ascii (isAscii_iff.mp hall)
  · rw [beq_iff_eq.mp heq]
    exact hknown

theorem asciiModes_sound (s : Server) (e : Event) (h : asciiModes s e = true) :
    AsciiModes s e := by
  intro x hx msg hmsg _
  rw [asciiModes, Option.mem_def.mp hx, Option.all_some, Option.mem_def.mp hmsg,
    Option.all_some] at h
  exact isAscii_iff.mp h

/-- A test of both. -/
def utf8Session (known : Bytes) (s : Server) (e : Event) : Bool :=
  utf8Lines known s e && asciiModes s e

theorem utf8Session_sound {known : Bytes} (hknown : ValidUtf8 known) (s : Server) (e : Event)
    (h : utf8Session known s e = true) :
    ((ircserv.restrict Utf8Lines).restrict AsciiModes).Enabled s e := by
  rw [utf8Session, Bool.and_eq_true] at h
  exact ⟨utf8Lines_sound hknown s e h.1, asciiModes_sound s e h.2⟩

theorem replies_validUtf8_accented : ∃ s m,
    ((ircserv.restrict Utf8Lines).restrict AsciiModes).Run started
      (annAndBob ++ typed 4 (ascii "PRIVMSG bob :é")) s ∧
      m ∈ (s.client 2).replies ∧ m.contains 0xC3 = true ∧ ValidUtf8 (outputLine m) := by
  obtain ⟨s, hs, hview⟩ := Option.map_eq_some_iff.mp (by decide +kernel :
    (System.play ((ircserv.restrict Utf8Lines).restrict AsciiModes)
      (utf8Session (ascii "PRIVMSG bob :é")) started
      (annAndBob ++ typed 4 (ascii "PRIVMSG bob :é"))).map
      (fun s => (s.client 2).replies.find? (·.contains 0xC3)) =
        some (some (ascii ":ann!ann@127.0.0.1 PRIVMSG bob :é")))
  have hrun := System.Run.of_play (utf8Session_sound (validUtf8_literal "PRIVMSG bob :é")) hs
  have hmem := List.mem_of_find?_eq_some hview
  exact ⟨s, _, hrun, hmem, by decide +kernel,
    replies_validUtf8 (hrun.reachable (.init started_init)) 2 _ hmem⟩

/-- An operator asks for the mode `é`, and is told about its first byte. -/
theorem unknown_mode_splits_character : ∃ s m,
    (ircserv.restrict Utf8Lines).Reachable s ∧ m ∈ (s.client 1).replies ∧
      ¬ ValidUtf8 (outputLine m) := by
  obtain ⟨s, hs, hview⟩ := Option.map_eq_some_iff.mp (by decide +kernel :
    ((ircserv.restrict Utf8Lines).play (utf8Lines (ascii "MODE #a +é")) started
      (registers 4 (ascii "ann") ++ typed 4 (ascii "JOIN #a") ++ typed 4 (ascii "MODE #a +é"))).map
      (fun s => (s.client 1).replies.find? (·.contains 0xC3)) =
        some (some (ascii ":ircserv 472 ann" ++ 32 :: 0xC3 :: 32 ::
          ascii ":is unknown mode char to me for #a")))
  have hrun := System.Run.of_play (utf8Lines_sound (validUtf8_literal "MODE #a +é")) hs
  refine ⟨s, _, hrun.reachable (.init started_init), List.mem_of_find?_eq_some hview, ?_⟩
  exact not_validUtf8_lone (by decide) (by decide) (by decide)

end Server
end FtIrc
