import Mathlib.Logic.Basic
import Mathlib.Data.List.Basic

/-!
# Event-driven systems

A system reacts to events of its environment. An enabled event has one outcome, so a run is
determined by its events. Invariants are proved once per event and hold in every reachable state.
-/

namespace FtIrc

structure System (σ ε : Type*) where
  Init : σ → Prop
  Enabled : σ → ε → Prop
  next : σ → ε → σ

namespace System

variable {σ ε : Type*}

inductive Reachable (M : System σ ε) : σ → Prop
  | init {s : σ} : M.Init s → Reachable M s
  | step {s : σ} {e : ε} : Reachable M s → M.Enabled s e → Reachable M (M.next s e)

/-- `Run s es s'`: the enabled events `es` lead from `s` to `s'`. -/
inductive Run (M : System σ ε) : σ → List ε → σ → Prop
  | nil (s : σ) : Run M s [] s
  | cons {s s' : σ} {e : ε} {es : List ε} :
      M.Enabled s e → Run M (M.next s e) es s' → Run M s (e :: es) s'

/-- The outcome of some events, as long as a test lets each of them happen. -/
def play (M : System σ ε) (test : σ → ε → Bool) : σ → List ε → Option σ
  | s, [] => some s
  | s, e :: es => if test s e then M.play test (M.next s e) es else none

/-- The same system with fewer events enabled. -/
def restrict (M : System σ ε) (G : σ → ε → Prop) : System σ ε where
  Init := M.Init
  Enabled s e := M.Enabled s e ∧ G s e
  next := M.next

variable {M : System σ ε}

/-- An invariant: true initially, and kept by each enabled event of a reachable state. -/
theorem Reachable.invariant {I : σ → Prop} (hinit : ∀ s, M.Init s → I s)
    (hstep : ∀ s e, M.Reachable s → I s → M.Enabled s e → I (M.next s e)) {s : σ}
    (h : M.Reachable s) : I s := by
  induction h with
  | init h => exact hinit _ h
  | step hr he ih => exact hstep _ _ hr ih he

theorem Run.of_restrict {G : σ → ε → Prop} {s s' : σ} {es : List ε}
    (h : (M.restrict G).Run s es s') : M.Run s es s' := by
  induction h with
  | nil s => exact .nil s
  | cons he _ ih => exact .cons he.1 ih

theorem Run.reachable {s s' : σ} {es : List ε} (h : M.Run s es s') (hs : M.Reachable s) :
    M.Reachable s' := by
  induction h with
  | nil => exact hs
  | cons he _ ih => exact ih (.step hs he)

theorem Run.of_play {test : σ → ε → Bool} (htest : ∀ s e, test s e = true → M.Enabled s e)
    {s s' : σ} {es : List ε} (h : M.play test s es = some s') : M.Run s es s' := by
  induction es generalizing s with
  | nil =>
    rw [← Option.some.inj h]
    exact .nil s
  | cons e es ih =>
    rw [play] at h
    split_ifs at h with he
    exact .cons (htest s e he) (ih h)

/-- A relation between the start and the current state, kept by each step, holds of a run. -/
theorem Run.induct {R : σ → Prop} {s s' : σ} {es : List ε} (h : M.Run s es s')
    (hr : M.Reachable s) (hs : R s)
    (hstep : ∀ t e, M.Reachable t → R t → M.Enabled t e → R (M.next t e)) : R s' := by
  induction h with
  | nil => exact hs
  | cons he _ ih => exact ih (.step hr he) (hstep _ _ hr hs he)

/-- A property false at the start of a run and true at its end becomes true at one of its steps. -/
theorem Run.exists_flip {P : σ → Prop} {s s' : σ} {es : List ε} (h : M.Run s es s')
    (hs : ¬ P s) (hs' : P s') :
    ∃ es₁ e es₂ t, es = es₁ ++ e :: es₂ ∧ M.Run s es₁ t ∧ M.Enabled t e ∧ ¬ P t ∧
      P (M.next t e) ∧ M.Run (M.next t e) es₂ s' := by
  induction h with
  | nil => exact absurd hs' hs
  | @cons s s' e es he hrest ih =>
    by_cases hP : P (M.next s e)
    · exact ⟨[], e, es, s, rfl, .nil s, he, hs, hP, hrest⟩
    · obtain ⟨es₁, f, es₂, t, rfl, hrun, hen, ht, ht', htail⟩ := ih hP hs'
      exact ⟨e :: es₁, f, es₂, t, rfl, .cons he hrun, hen, ht, ht', htail⟩

/-- A property true at the end of a run holds all along, or becomes true for good at some step. -/
theorem Run.always_or_last_flip {P : σ → Prop} {s s' : σ} {es : List ε} (h : M.Run s es s')
    (hs' : P s') : (∀ es₃ es₄ t, es = es₃ ++ es₄ → M.Run s es₃ t → P t) ∨
      ∃ es₁ e es₂ t, es = es₁ ++ e :: es₂ ∧ M.Run s es₁ t ∧ M.Enabled t e ∧ ¬ P t ∧
        ∀ es₃ es₄ t', es₂ = es₃ ++ es₄ → M.Run (M.next t e) es₃ t' → P t' := by
  induction h with
  | nil s =>
    left
    intro es₃ es₄ t hsplit hrun
    obtain ⟨rfl, -⟩ := List.append_eq_nil_iff.mp hsplit.symm
    cases hrun
    exact hs'
  | @cons s s' e es he hrest ih =>
    rcases ih hs' with hall | ⟨es₁, f, es₂, t, rfl, hrun, hen, ht, hall⟩
    · by_cases hP : P s
      · left
        intro es₃ es₄ t hsplit hrun
        cases hrun with
        | nil => exact hP
        | cons he hrun =>
          rw [List.cons_append, List.cons.injEq] at hsplit
          obtain ⟨rfl, htail⟩ := hsplit
          exact hall _ es₄ t htail hrun
      · exact .inr ⟨[], e, es, s, rfl, .nil s, he, hP, hall⟩
    · exact .inr ⟨e :: es₁, f, es₂, t, rfl, .cons he hrun, hen, ht, hall⟩

/-- The step of a run after which a property that fails at its start holds for good. -/
theorem Run.exists_last_flip {P : σ → Prop} {s s' : σ} {es : List ε} (h : M.Run s es s')
    (hs : ¬ P s) (hs' : P s') :
    ∃ es₁ e es₂ t, es = es₁ ++ e :: es₂ ∧ M.Run s es₁ t ∧ M.Enabled t e ∧ ¬ P t ∧
      ∀ es₃ es₄ t', es₂ = es₃ ++ es₄ → M.Run (M.next t e) es₃ t' → P t' := by
  rcases h.always_or_last_flip hs' with hall | hflip
  · exact absurd (hall [] es s rfl (.nil s)) hs
  · exact hflip

end System
end FtIrc
