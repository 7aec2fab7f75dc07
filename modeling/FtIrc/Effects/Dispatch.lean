import FtIrc.Effects.ModeLines

/-!
# Every line is a sequence of effects or an entry

`line_dispatch` takes apart whatever a parsed line does.
-/

namespace FtIrc
namespace Server

open FilterLoop (isModeFlag)

/-- The bytes that the unknown-mode errors of a MODE line quote one at a time. -/
def modeEcho (s : Server) (u : ClientPtr) (msg : Message) : Bytes :=
  match msg.parameter with
  | name :: (sign :: flags) :: _ =>
    match s.findChannel name with
    | none => []
    | some p =>
      if (s.channel p).isOperator u then
        if sign ≠ byte '+' ∧ sign ≠ byte '-' then [sign]
        else (sign :: flags).filter fun b => b ≠ byte '+' ∧ b ≠ byte '-' ∧ isModeFlag b = false
      else []
  | _ => []

variable {P : Bytes → Prop} (hP : TextPred P) {msg : Message} {u : ClientPtr} {s : Server}

include hP

theorem effects_executeMode (hl : s.Links) (hm : msg.Texts P)
    (hecho : ∀ b ∈ s.modeEcho u msg, P [b]) :
    Effects P msg u s (s.executeMode u msg) := by
  have hneed : Effects P msg u s
      (s.replyTo u Numeric.errNeedMoreParams (ascii "MODE :Not enough parameters")) :=
    effects_replyTo hP (by decide) fun _ => hP.lit "MODE :Not enough parameters" rfl
  unfold executeMode
  split
  · exact hneed
  · exact hneed
  · rename_i first rest params hparam
    split_ifs with hfirst
    · exact .refl
    · have hname : P (first :: rest) := hm.parameter _ (by simp [hparam])
      split
      · exact effects_replyTo hP (by decide) fun _ => hP.append hname (hP.lit " :No such channel" rfl)
      · rename_i p hp
        have hlive := (findChannel_some hl hp).1
        dsimp only
        split
        · -- the modes are asked for
          unfold handleMode
          simp only [List.isEmpty_nil, if_true]
          split_ifs
          · exact effects_notOnChannel hP p
          · refine effects_sendOne hP (by decide) fun h => ?_
            have hflag : ∀ (c : Prop) [Decidable c] (f : String), allPrintable (ascii f) = true →
                P (if c then ascii f else []) := by
              intro c _ f hf
              split_ifs
              · exact hP.lit f hf
              · exact hP.nil
            have hspace := hP.lit " " rfl
            unfold Channel.buildModeString
            dsimp only
            refine hP.append (hP.append (h.name p) hspace) (hP.append (hP.append (hP.append
              (hP.append (hP.append (hP.lit "+" rfl) (hflag _ "i" rfl)) (hflag _ "t" rfl))
              (hflag _ "k" rfl)) (hflag _ "l" rfl)) (hP.append ?_ ?_))
            · split_ifs
              · exact hP.append hspace (h.key p)
              · exact hP.nil
            · split_ifs
              · exact hP.append hspace (hP.decimal _)
              · exact hP.nil
        · rename_i sign flags hflags
          obtain ⟨tail, rfl⟩ : ∃ tail, params = (sign :: flags) :: tail := by
            cases params with
            | nil => cases hflags
            | cons x tail => exact ⟨tail, by rw [← hflags]; rfl⟩
          split_ifs with hop hsign
          · exact effects_replyTo hP (by decide) fun h =>
              hP.append (h.name p) (hP.lit " :You're not channel operator" rfl)
          · have hb : P [sign] := hecho sign (by
              simp only [modeEcho, hparam, hp, if_pos hsign]
              simpa using hop)
            exact effects_replyTo hP (by decide) fun h =>
              hP.append (hP.append hb (hP.lit " :is unknown mode char to me for " rfl)) (h.name p)
          · refine effects_applyModes hP hlive ?_ ?_ (fun x hx => ?_) fun b hb h1 h2 h3 => ?_
            · exact or_iff_not_imp_left.mpr fun h1 => by_contra fun h2 => hsign ⟨h1, h2⟩
            · simp [hparam]
            · refine hm.parameter x ?_
              rw [hparam]
              exact List.mem_cons_of_mem _ (List.mem_cons_of_mem _ hx)
            · refine hecho b ?_
              have hop' : (s.channel p).isOperator u = true := by simpa using hop
              simp only [modeEcho, hparam, hp, if_neg hsign, hop', if_true]
              exact List.mem_filter.mpr ⟨hb, by simp [h1, h2, h3]⟩

theorem line_dispatch (hl : s.Links) (hg : s.NoGhost) (hu : s.LiveClient u)
    (hm : msg.Texts P)
    (hecho : findCommand msg.command = some .mode → ∀ b ∈ s.modeEcho u msg, P [b]) :
    Line P msg u s (s.dispatch u msg) := by
  unfold dispatch
  split
  · exact .effects (effects_replyWithParameter hP rfl hm.command (hP.lit "Unknown command" rfl))
  · rename_i cmd hcmd
    split_ifs with hlogin
    · exact .effects (effects_send (serverReply_formatReply _ _ rfl) fun _ =>
        hP.formatReply (hP.lit "451" rfl) (hP.lit "*" rfl)
          (hP.lit "You have not registered" rfl))
    · have hreg : needLogin cmd = true → (s.client u).isRegistered = true := by
        simpa using hlogin
      cases cmd with
      | nick => exact line_executeNick hP hcmd hm
      | pass => exact .effects (effects_executePass hP hcmd)
      | ping => exact .effects (effects_executePing hP hm)
      | pong => exact .effects (effects_executePong hcmd)
      | quit => exact line_executeQuit hP hcmd hm
      | user => exact line_executeUser hP hm
      | invite => exact .effects (effects_executeInvite hP hcmd hl hm)
      | join => exact line_executeJoin hP hcmd hl hu (hreg rfl) hm
      | kick => exact .effects (effects_executeKick hP hl hg hm)
      | mode => exact .effects (effects_executeMode hP hl hm (hecho hcmd))
      | part => exact .effects (effects_executePart hP hl hg hm)
      | privmsg => exact .effects (effects_executePrivmsg hP (hreg rfl) hm)
      | topic => exact .effects (effects_executeTopic hP hl hm)

end Server
end FtIrc
