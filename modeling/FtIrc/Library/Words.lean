import Mathlib.Tactic.Common

/-!
# Words on lines

Words are joined into a line with one separator between them, and a list of words is packed into
groups whose lines stay within a limit.
-/

namespace FtIrc

variable {α : Type*}

/-- The words with one separator between them. -/
def joinWords (sep : α) : List (List α) → List α
  | [] => []
  | w :: ws => w ++ (ws.map (sep :: ·)).flatten

theorem joinWords_concat (sep : α) {ws : List (List α)} (hne : ws ≠ []) (w : List α) :
    joinWords sep (ws ++ [w]) = joinWords sep ws ++ sep :: w := by
  cases ws with
  | nil => exact absurd rfl hne
  | cons v vs => simp [joinWords]

theorem joinWords_ne_nil (sep : α) {ws : List (List α)} (hne : ws ≠ []) (hw : ∀ w ∈ ws, w ≠ []) :
    joinWords sep ws ≠ [] := by
  cases ws with
  | nil => exact absurd rfl hne
  | cons v vs => simp [joinWords, hw v]

/-- Splitting at the separator gives the words back. -/
theorem splitOn_joinWords [DecidableEq α] {sep : α} {ws : List (List α)} (hne : ws ≠ [])
    (hsep : ∀ w ∈ ws, sep ∉ w) : (joinWords sep ws).splitOn sep = ws := by
  cases ws with
  | nil => exact absurd rfl hne
  | cons v vs =>
    show (v ++ (vs.map (sep :: ·)).flatten).splitOn sep = v :: vs
    clear hne
    induction vs generalizing v with
    | nil =>
      simp only [List.map_nil, List.flatten_nil, List.append_nil]
      exact List.splitOn_eq_singleton (hsep v (by simp))
    | cons u us ih =>
      rw [List.map_cons, List.flatten_cons, List.cons_append,
        List.splitOn_append_cons_self_of_not_mem (hsep v (by simp)),
        ih u fun w hw => hsep w (List.mem_cons_of_mem _ hw)]

/-- The words, in order, in groups that are not empty and fit on a line. -/
structure Packed (sep : α) (limit : Nat) (words : List (List α))
    (groups : List (List (List α))) : Prop where
  flatten : groups.flatten = words
  nonempty : ∀ g ∈ groups, g ≠ []
  length_le : ∀ g ∈ groups, (joinWords sep g).length ≤ limit

namespace Packed

variable {sep : α} {limit : Nat} {words : List (List α)} {groups : List (List (List α))}

theorem nil : Packed sep limit [] [] := ⟨rfl, by simp, by simp⟩

/-- A word that opens a new line. -/
theorem open_line (h : Packed sep limit words groups) {w : List α} (hw : w.length ≤ limit) :
    Packed sep limit (words ++ [w]) (groups ++ [[w]]) := by
  refine ⟨by simp [h.flatten], fun g hg => ?_, fun g hg => ?_⟩
  · rcases List.mem_append.mp hg with hg | hg
    · exact h.nonempty g hg
    · simp [List.mem_singleton.mp hg]
  · rcases List.mem_append.mp hg with hg | hg
    · exact h.length_le g hg
    · simpa [List.mem_singleton.mp hg, joinWords] using hw

/-- A word that still fits on the last line. -/
theorem extend {g : List (List α)} (h : Packed sep limit words (groups ++ [g])) {w : List α}
    (hw : (joinWords sep g).length + 1 + w.length ≤ limit) :
    Packed sep limit (words ++ [w]) (groups ++ [g ++ [w]]) := by
  have hne : g ≠ [] := h.nonempty g (by simp)
  have hflat := h.flatten
  refine ⟨by simp [← hflat], fun g' hg => ?_, fun g' hg => ?_⟩
  · rcases List.mem_append.mp hg with hg | hg
    · exact h.nonempty g' (List.mem_append_left _ hg)
    · simp [List.mem_singleton.mp hg]
  · rcases List.mem_append.mp hg with hg | hg
    · exact h.length_le g' (List.mem_append_left _ hg)
    · rw [List.mem_singleton.mp hg, joinWords_concat sep hne, List.length_append,
        List.length_cons]
      omega

end Packed

end FtIrc
