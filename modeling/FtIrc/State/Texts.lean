import FtIrc.State.Handlers

/-!
# Properties of texts

A property of byte strings that literals have and that concatenation and the two cuts keep passes
from the stored strings to every line built of them.
-/

namespace FtIrc

structure TextPred (P : Bytes → Prop) : Prop where
  printable : ∀ {s}, Printable s → P s
  append : ∀ {s t}, P s → P t → P (s ++ t)
  output : ∀ {m}, P m → P (outputLine m)
  truncate : ∀ {t}, P t → P (truncateUtf8 t 300)

namespace TextPred

variable {P : Bytes → Prop} (h : TextPred P)

include h

theorem nil : P [] := h.printable (by simp [Printable])

theorem lit (s : String) (hs : allPrintable (ascii s) = true) : P (ascii s) :=
  h.printable (printable_of_all hs)

theorem decimal (n : Nat) : P (decimal n) := h.printable (printable_of_digits (decimal_digits n))

theorem makeReply (code : Nat) {nick rest : Bytes} (hn : P nick) (hr : P rest) :
    P (makeReply code nick rest) := by
  have h0 : ∀ c : Prop, [Decidable c] → P (if c then ascii "0" else []) := by
    intro c _
    split_ifs
    · exact h.lit "0" rfl
    · exact h.nil
  have hcmd := h.append (h.append (h0 (code < 100)) (h0 (code < 10))) (h.decimal code)
  have hspace := h.lit " " rfl
  exact h.append (h.append (h.append (h.append (h.append (h.append (h.append
    (h.lit ":" rfl) (h.lit "ircserv" rfl)) hspace) hcmd) hspace) hn)
    hspace) hr

theorem formatReply {code target trailing : Bytes} (hc : P code) (ht : P target)
    (hr : P trailing) : P (IrcReply.formatReply code target trailing) :=
  h.append (h.append (h.append (h.append (h.append (h.lit ":ircserv " rfl) hc)
    (h.lit " " rfl)) ht) (h.lit " :" rfl)) hr

theorem formatReplyWithParameter {code target parameter trailing : Bytes} (hc : P code)
    (ht : P target) (hp : P parameter) (hr : P trailing) :
    P (IrcReply.formatReplyWithParameter code target parameter trailing) := by
  have hspace := h.lit " " rfl
  exact h.append (h.append (h.append (h.append (h.append (h.append (h.append
    (h.lit ":ircserv " rfl) hc) hspace) ht) hspace) hp)
    (h.lit " :" rfl)) hr

theorem makeCommand {c : Client} {cmd rest : Bytes} (hn : P c.nickname) (hu : P c.username)
    (hi : P c.ip) (hc : P cmd) (hr : P rest) : P (makeCommand c cmd rest) := by
  have hspace := h.lit " " rfl
  have hsource := h.append (h.append (h.append (h.append hn (h.lit "!" rfl)) hu)
    (h.lit "@" rfl)) hi
  have hhead := h.append (h.append (h.append (h.lit ":" rfl) hsource) hspace) hc
  unfold FtIrc.makeCommand
  dsimp only
  split_ifs
  · exact hhead
  · exact h.append (h.append hhead hspace) hr

theorem nickNotice {old newer user host : Bytes} (ho : P old) (hn : P newer) (hu : P user)
    (hh : P host) : P (nickNotice old newer user host) :=
  h.append (h.append (h.append (h.append (h.append (h.append (h.append
    (h.lit ":" rfl) ho) (h.lit "!" rfl)) hu)
    (h.lit "@" rfl)) hh) (h.lit " NICK :" rfl)) hn

end TextPred

namespace Server

/-- The stored strings that lines are built of. -/
structure Texts (P : Bytes → Prop) (s : Server) : Prop where
  nickname : ∀ c, P (s.client c).nickname
  username : ∀ c, P (s.client c).username
  ip : ∀ c, P (s.client c).ip
  name : ∀ p, P (s.channel p).name
  topic : ∀ p, P (s.channel p).topic
  key : ∀ p, P (s.channel p).key

theorem Texts.command {P : Bytes → Prop} (hP : TextPred P) {s : Server} (h : s.Texts P)
    (c : ClientPtr) {cmd rest : Bytes} (hc : Printable cmd) (hr : P rest) :
    P (makeCommand (s.client c) cmd rest) :=
  hP.makeCommand (h.nickname c) (h.username c) (h.ip c) (hP.printable hc) hr

theorem Texts.targetname {P : Bytes → Prop} (hP : TextPred P) {s : Server} (h : s.Texts P)
    (c : ClientPtr) : P (IrcReply.targetname (s.client c)) := by
  unfold IrcReply.targetname
  split_ifs
  · exact h.nickname c
  · exact hP.lit "*" rfl

end Server
end FtIrc
