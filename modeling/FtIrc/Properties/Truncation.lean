import FtIrc.Library.Utf8Prefix
import FtIrc.State.Cuts

/-!
# The longest text that fits

The three cuts keep all of a valid text that fits into the limit, and stay inside of any other text.
-/

namespace FtIrc

/-- The loop of `backUp` with its reads checked: `none` for a read outside of the string. -/
def readBackUp (s : Bytes) : Nat → Nat → Option Nat
  | 0, cut => some cut
  | back + 1, cut =>
    (s[cut]?).bind fun b => if isContinuation b then readBackUp s back (cut - 1) else some cut

/-- The loop of `backUpAll` with its reads checked. -/
def readBackUpAll (s : Bytes) : Nat → Option Nat
  | 0 => some 0
  | cut + 1 =>
    (s[cut + 1]?).bind fun b => if isContinuation b then readBackUpAll s cut else some (cut + 1)

/-- A cut to at most `n` bytes. -/
structure CutTo (s : Bytes) (n : Nat) (t : Bytes) : Prop where
  isPrefix : t <+: s
  length_le : t.length ≤ n

theorem readBackUp_eq {s : Bytes} {cut : Nat} (hcut : cut < s.length) (steps : Nat) :
    readBackUp s steps cut = some (backUp s steps cut) := by
  induction steps generalizing cut with
  | zero => rfl
  | succ steps ih =>
    rw [readBackUp, backUp, List.getElem?_eq_getElem hcut, Option.bind_some,
      List.getD_eq_getElem _ _ hcut]
    split
    · exact ih (by omega)
    · rfl

theorem readBackUpAll_eq {s : Bytes} {cut : Nat} (hcut : cut < s.length) :
    readBackUpAll s cut = some (backUpAll s cut) := by
  induction cut with
  | zero => rfl
  | succ cut ih =>
    rw [readBackUpAll, backUpAll, List.getElem?_eq_getElem hcut, Option.bind_some,
      List.getD_eq_getElem _ _ hcut]
    split
    · exact ih (by omega)
    · rfl

/-- Each step goes back by one byte. -/
theorem le_backUp (s : Bytes) (steps cut : Nat) : cut - steps ≤ backUp s steps cut := by
  induction steps generalizing cut with
  | zero => exact le_rfl
  | succ steps ih =>
    rw [backUp]
    split
    · exact le_trans (by omega) (ih (cut - 1))
    · omega

theorem cutInput_eq_outputLine (s : Bytes) : cutInput s = outputLine s := by
  unfold cutInput outputLine
  split_ifs <;> first | rfl | omega

theorem longestValid_truncate {s : Bytes} (hs : ValidUtf8 s) (n : Nat) :
    LongestValid s n (truncateUtf8 s n) := by
  unfold truncateUtf8
  split_ifs with h
  · exact longestValid_self hs h
  · obtain ⟨k, -, hkn, hstart, hcont⟩ := hs.boundary_near (n := n) (by omega)
    rw [backUpAll_eq hkn hstart hcont]
    exact longestValid_take hs (by omega) hkn hstart hcont

/-- On a valid text three steps back are as good as any number. -/
theorem truncate_eq_outputLine {s : Bytes} (hs : ValidUtf8 s) :
    truncateUtf8 s 510 = outputLine s := by
  unfold truncateUtf8 outputLine
  split_ifs with h
  · rfl
  · rw [(validUtf8_take_backUp hs (n := 510) (by omega)).2]

theorem cutTo_truncate (s : Bytes) (n : Nat) : CutTo s n (truncateUtf8 s n) := by
  refine ⟨?_, truncateUtf8_length_le s n⟩
  unfold truncateUtf8
  split_ifs
  · exact List.prefix_rfl
  · exact List.take_prefix _ _

theorem cutTo_outputLine (s : Bytes) : CutTo s 510 (outputLine s) := by
  refine ⟨?_, outputLine_length_le s⟩
  unfold outputLine
  split_ifs
  · exact List.prefix_rfl
  · exact List.take_prefix _ _

theorem le_length_outputLine {s : Bytes} (h : 510 < s.length) : 507 ≤ (outputLine s).length := by
  have hback := le_backUp s 3 510
  unfold outputLine
  rw [if_neg (by omega), List.length_take]
  omega

/-- A valid text is cut to its longest valid prefix by all three copies alike. Any text is cut to a
prefix within the limit, the loops read inside of it, and the two copies with a fixed limit give up
at most three bytes. -/
theorem truncation_maximal :
    (∀ s, ValidUtf8 s → LongestValid s 510 (cutInput s) ∧ LongestValid s 510 (outputLine s) ∧
      (∀ n, LongestValid s n (truncateUtf8 s n)) ∧
      truncateUtf8 s 510 = cutInput s ∧ truncateUtf8 s 510 = outputLine s) ∧
    (∀ s, CutTo s 510 (cutInput s) ∧ CutTo s 510 (outputLine s) ∧
      ∀ n, CutTo s n (truncateUtf8 s n)) ∧
    (∀ s n, n < s.length → readBackUp s 3 n = some (backUp s 3 n) ∧
      readBackUpAll s n = some (backUpAll s n)) ∧
    ∀ s, 510 < s.length → 507 ≤ (cutInput s).length ∧ 507 ≤ (outputLine s).length := by
  refine ⟨fun s hs => ?_, fun s => ?_, fun s n hn => ?_, fun s hlen => ?_⟩
  · have hlongest := longestValid_truncate hs 510
    rw [cutInput_eq_outputLine, truncate_eq_outputLine hs]
    rw [truncate_eq_outputLine hs] at hlongest
    exact ⟨hlongest, hlongest, longestValid_truncate hs, rfl, rfl⟩
  · rw [cutInput_eq_outputLine]
    exact ⟨cutTo_outputLine s, cutTo_outputLine s, cutTo_truncate s⟩
  · exact ⟨readBackUp_eq hn 3, readBackUpAll_eq hn⟩
  · rw [cutInput_eq_outputLine]
    exact ⟨le_length_outputLine hlen, le_length_outputLine hlen⟩

/-- One ASCII byte in front of characters of three bytes: the limit falls inside of a character. -/
theorem truncation_maximal_hangul :
    LongestValid (ascii (String.ofList ('a' :: List.replicate 200 '한'))) 510
      ((ascii (String.ofList ('a' :: List.replicate 200 '한'))).take 508) := by
  have hcut : truncateUtf8 (ascii (String.ofList ('a' :: List.replicate 200 '한'))) 510 =
      (ascii (String.ofList ('a' :: List.replicate 200 '한'))).take 508 := by
    decide +kernel
  rw [← hcut]
  exact (truncation_maximal.1 _ (validUtf8_literal _)).2.2.1 510

end FtIrc
