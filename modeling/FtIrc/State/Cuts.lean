import FtIrc.Model.Client
import FtIrc.Model.Message

/-!
# The three cuts

`sendReply`, `spliter` and `handleTopic` cut a text at a byte limit and step back to the start of
a character. On a valid string the start is at most three bytes back, so all three stop there.
-/

namespace FtIrc

theorem backUp_le (s : Bytes) (steps cut : Nat) : backUp s steps cut ≤ cut := by
  induction steps generalizing cut with
  | zero => exact le_rfl
  | succ steps ih =>
    rw [backUp]
    split
    · exact (ih _).trans (Nat.sub_le _ _)
    · exact le_rfl

theorem backUpAll_le (s : Bytes) (cut : Nat) : backUpAll s cut ≤ cut := by
  induction cut with
  | zero => exact le_rfl
  | succ cut ih =>
    rw [backUpAll]
    split
    · exact ih.trans (Nat.le_succ _)
    · exact le_rfl

theorem truncateUtf8_length_le (s : Bytes) (n : Nat) : (truncateUtf8 s n).length ≤ n := by
  unfold truncateUtf8
  split_ifs with h
  · exact h
  · exact (List.length_take_le _ _).trans (backUpAll_le s n)

theorem outputLine_length_le (m : Bytes) : (outputLine m).length ≤ 510 := by
  unfold outputLine
  split_ifs with h
  · exact h
  · exact (List.length_take_le _ _).trans (backUp_le m 3 510)

/-! ## Cuts of a valid string -/

/-- Stepping back reaches a start that is within the number of steps. -/
theorem backUp_eq {s : Bytes} {k steps cut : Nat} (hk : k ≤ steps)
    (hstart : isContinuation (s.getD (cut - k) 0) = false)
    (hcont : ∀ j < k, isContinuation (s.getD (cut - j) 0) = true) :
    backUp s steps cut = cut - k := by
  induction k generalizing steps cut with
  | zero =>
    cases steps with
    | zero => rfl
    | succ steps =>
      rw [backUp, if_neg (by simpa using hstart)]
      rfl
  | succ k ih =>
    cases steps with
    | zero => omega
    | succ steps =>
      rw [backUp, if_pos (by simpa using hcont 0 (by omega))]
      have hsub : cut - 1 - k = cut - (k + 1) := by omega
      rw [← hsub]
      refine ih (by omega) (by rwa [hsub]) fun j hj => ?_
      have hj' : cut - 1 - j = cut - (j + 1) := by omega
      rw [hj']
      exact hcont (j + 1) (by omega)

/-- Stepping back all the way stops at the same start. -/
theorem backUpAll_eq {s : Bytes} {k cut : Nat} (hk : k ≤ cut)
    (hstart : isContinuation (s.getD (cut - k) 0) = false)
    (hcont : ∀ j < k, isContinuation (s.getD (cut - j) 0) = true) :
    backUpAll s cut = cut - k := by
  induction k generalizing cut with
  | zero =>
    cases cut with
    | zero => rfl
    | succ cut =>
      rw [backUpAll, if_neg (by simpa using hstart)]
      rfl
  | succ k ih =>
    cases cut with
    | zero => omega
    | succ cut =>
      rw [backUpAll, if_pos (by simpa using hcont 0 (by omega))]
      have hsub : cut - k = cut + 1 - (k + 1) := by omega
      rw [← hsub]
      refine ih (by omega) (by rwa [hsub]) fun j hj => ?_
      have hj' : cut - j = cut + 1 - (j + 1) := by omega
      rw [hj']
      exact hcont (j + 1) (by omega)

/-- A valid string cut where the loops stop is valid. -/
theorem validUtf8_take_backUp {s : Bytes} (hs : ValidUtf8 s) {n : Nat} (hn : n < s.length) :
    ValidUtf8 (s.take (backUp s 3 n)) ∧ backUpAll s n = backUp s 3 n := by
  obtain ⟨k, hk3, hkn, hstart, hcont⟩ := hs.boundary_near hn
  rw [backUp_eq hk3 hstart hcont, backUpAll_eq hkn hstart hcont]
  refine ⟨(hs.split fun h => ?_).1, rfl⟩
  rwa [List.getD_eq_getElem _ _ h] at hstart

theorem validUtf8_outputLine {m : Bytes} (hm : ValidUtf8 m) : ValidUtf8 (outputLine m) := by
  unfold outputLine
  split_ifs with h
  · exact hm
  · exact (validUtf8_take_backUp hm (by omega)).1

theorem validUtf8_truncateUtf8 {s : Bytes} (hs : ValidUtf8 s) (n : Nat) :
    ValidUtf8 (truncateUtf8 s n) := by
  unfold truncateUtf8
  split_ifs with h
  · exact hs
  · obtain ⟨hv, he⟩ := validUtf8_take_backUp hs (n := n) (by omega)
    rwa [he]

theorem validUtf8_cutInput {raw : Bytes} (hr : ValidUtf8 raw) : ValidUtf8 (cutInput raw) := by
  unfold cutInput
  split_ifs with h
  · exact (validUtf8_take_backUp hr (by omega)).1
  · exact hr

end FtIrc
