import FtIrc.State.Parse
import FtIrc.State.Handlers

/-!
# Numeric replies

The second word of a line that the server sends in its own name. Lines that pass on what a client
does start with the name of the client, and have none.
-/

namespace FtIrc

/-- The word after `:ircserv `. -/
def numericOf (m : Bytes) : Option Bytes :=
  if (ascii ":ircserv ").isPrefixOf m then some (token (m.drop 9)) else none

theorem token_append {word rest : Bytes} (h : byte ' ' ∉ word) :
    token (word ++ byte ' ' :: rest) = word := by
  have hword : ∀ b ∈ word, decide (b ≠ byte ' ') = true := by
    intro b hb
    rw [decide_eq_true_eq]
    rintro rfl
    exact h hb
  rw [token, List.takeWhile_append_of_pos hword]
  simp

theorem numericOf_server {code rest : Bytes} (h : byte ' ' ∉ code) :
    numericOf (ascii ":ircserv " ++ code ++ ascii " " ++ rest) = some code := by
  have hprefix : (ascii ":ircserv ").isPrefixOf
      (ascii ":ircserv " ++ code ++ ascii " " ++ rest) = true := by
    rw [List.isPrefixOf_iff_prefix, List.append_assoc, List.append_assoc]
    exact List.prefix_append _ _
  have hdrop : (ascii ":ircserv " ++ code ++ ascii " " ++ rest).drop 9 = code ++ byte ' ' :: rest := by
    have hlen : (ascii ":ircserv ").length = 9 := rfl
    rw [List.append_assoc, List.append_assoc, List.drop_append_of_le_length hlen.ge]
    rfl
  rw [numericOf, if_pos hprefix, hdrop, token_append h]

/-- The nickname of a client is followed by `!`, and the greeting of the server has none. -/
theorem numericOf_sourced {nick rest : Bytes} (h : byte ' ' ∉ nick) :
    numericOf (ascii ":" ++ nick ++ ascii "!" ++ rest) = none := by
  rw [numericOf, if_neg]
  rw [List.isPrefixOf_iff_prefix]
  intro hprefix
  have hnick : ascii "ircserv " <+: nick ++ byte '!' :: rest := by
    have htail : ascii ":" ++ nick ++ ascii "!" ++ rest = byte ':' :: (nick ++ byte '!' :: rest) := by
      simp only [List.append_assoc]
      rfl
    rw [htail] at hprefix
    exact (List.cons_prefix_cons.mp hprefix).2
  have hbang : nick ++ [byte '!'] <+: nick ++ byte '!' :: rest :=
    ⟨rest, by simp⟩
  rcases List.prefix_or_prefix_of_prefix hnick hbang with hin | hin
  · have hspace : byte ' ' ∈ nick ++ [byte '!'] := hin.subset (by decide)
    rcases List.mem_append.mp hspace with hmem | hmem
    · exact h hmem
    · exact absurd hmem (by decide)
  · have hmem : byte '!' ∈ ascii "ircserv " := hin.subset (by simp)
    exact absurd hmem (by decide)

theorem numericOf_other {b : Byte} {rest : Bytes} (h : b ≠ byte ':') :
    numericOf (b :: rest) = none := by
  rw [numericOf, if_neg]
  rw [List.isPrefixOf_iff_prefix]
  intro hprefix
  exact h (List.cons_prefix_cons.mp hprefix).1.symm

theorem numericOf_makeReply {code : Nat} (h : 100 ≤ code) (nick rest : Bytes) :
    numericOf (makeReply code nick rest) = some (decimal code) := by
  have hspace : byte ' ' ∉ decimal code := by
    intro hin
    exact absurd (decimal_digits code _ hin) (by decide)
  have hform : makeReply code nick rest =
      ascii ":ircserv " ++ decimal code ++ ascii " " ++ (nick ++ ascii " " ++ rest) := by
    simp only [makeReply, if_neg (show ¬ code < 100 by omega), if_neg (show ¬ code < 10 by omega),
      List.nil_append, ← List.append_assoc]
    rfl
  rw [hform, numericOf_server hspace]

theorem makeReply_append (code : Nat) (nick rest t : Bytes) :
    makeReply code nick rest ++ t = makeReply code nick (rest ++ t) := by
  simp only [makeReply, List.append_assoc]

theorem numericOf_formatReply {code : Bytes} (h : byte ' ' ∉ code) (target trailing : Bytes) :
    numericOf (IrcReply.formatReply code target trailing) = some code := by
  have hnum := @numericOf_server code (target ++ (ascii " :" ++ trailing)) h
  simpa only [IrcReply.formatReply, List.append_assoc] using hnum

end FtIrc
