import Mathlib.Data.List.DropRight
import Mathlib.Data.List.SplitOn
import Mathlib.Tactic.Common

/-!
# Lines of a stream

A stream that arrives in pieces is cut at the separators. Its lines end with a separator each; what
comes after the last separator is kept until more arrives.
-/

namespace FtIrc

variable {α : Type*} [DecidableEq α] {sep : α}

/-- The lines that end with a separator. -/
def terminated (sep : α) (w : List α) : List (List α) := (w.splitOn sep).dropLast

/-- What comes after the last separator. -/
def remainder (sep : α) (w : List α) : List α := w.rtakeWhile (· ≠ sep)

theorem terminated_of_not_mem {w : List α} (h : sep ∉ w) : terminated sep w = [] := by
  rw [terminated, List.splitOn_eq_singleton h]
  rfl

theorem remainder_of_not_mem {w : List α} (h : sep ∉ w) : remainder sep w = w := by
  rw [remainder, List.rtakeWhile_eq_self_iff]
  intro b hb
  exact decide_eq_true fun heq => h (heq ▸ hb)

theorem terminated_cons {l : List α} (h : sep ∉ l) (w : List α) :
    terminated sep (l ++ sep :: w) = l :: terminated sep w := by
  have hne : w.splitOn sep ≠ [] := List.splitOn_ne_nil sep w
  rw [terminated, List.splitOn_append_cons_self_of_not_mem h, List.dropLast_cons_of_ne_nil hne]
  rfl

theorem remainder_cons (l w : List α) : remainder sep (l ++ sep :: w) = remainder sep w := by
  simp only [remainder, List.rtakeWhile, List.reverse_append, List.reverse_cons, List.append_assoc,
    List.singleton_append, List.takeWhile_append]
  split_ifs with hall
  · rw [(List.takeWhile_prefix _).eq_of_length hall, List.takeWhile_cons_of_neg (by simp),
      List.append_nil]
  · rfl

theorem sep_not_mem_remainder (sep : α) (w : List α) : sep ∉ remainder sep w := by
  intro h
  have hne := List.mem_rtakeWhile_imp (p := fun b => decide (b ≠ sep)) h
  exact of_decide_eq_true hne rfl

theorem remainder_suffix (sep : α) (w : List α) : remainder sep w <:+ w := List.rtakeWhile_suffix _ _

/-- A stream is a line and the rest of the stream, or has no line. -/
theorem stream_induction (sep : α) {P : List α → Prop} (rest : ∀ w, sep ∉ w → P w)
    (line : ∀ l w, sep ∉ l → P w → P (l ++ sep :: w)) (w : List α) : P w := by
  induction hn : w.length using Nat.strong_induction_on generalizing w with
  | _ n ih =>
    by_cases hmem : sep ∈ w
    · obtain ⟨l, w', rfl, hl⟩ := List.eq_append_cons_of_mem hmem
      refine line l w' hl (ih w'.length ?_ w' rfl)
      rw [← hn, List.length_append, List.length_cons]
      omega
    · exact rest w hmem

/-- A cut does not matter: the lines after it begin with what was kept. -/
theorem stream_append (sep : α) (v w : List α) :
    terminated sep (v ++ w) = terminated sep v ++ terminated sep (remainder sep v ++ w) ∧
      remainder sep (v ++ w) = remainder sep (remainder sep v ++ w) := by
  induction v using stream_induction sep with
  | rest v hv =>
    rw [terminated_of_not_mem hv, remainder_of_not_mem hv]
    exact ⟨rfl, rfl⟩
  | line l v hl ih =>
    rw [List.append_assoc, List.cons_append, terminated_cons hl, terminated_cons hl,
      remainder_cons, remainder_cons, ih.1, ih.2]
    exact ⟨rfl, rfl⟩

end FtIrc
