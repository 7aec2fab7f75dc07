import Mathlib.Logic.Relation

/-!
# Shutdown in two stages

A connection can be told to close once its output is flushed, and it can be marked for removal.
Each stage keeps a reason. A shutdown begins once, and the reason it begins with is the one that
remains.
-/

namespace FtIrc

structure Shutdown (ρ : Type*) where
  closing : Option ρ
  mark : Option ρ

namespace Shutdown

variable {ρ : Type*}

/-- Nothing has begun. -/
def idle : Shutdown ρ := ⟨none, none⟩

def Begun (s : Shutdown ρ) : Prop := s.closing ≠ none ∨ s.mark ≠ none

/-- The reason that is announced: that of the first stage if there is one. -/
def cause (s : Shutdown ρ) : Option ρ := s.closing.or s.mark

/-- A mark is only set once. -/
def marked (s : Shutdown ρ) (r : ρ) : Shutdown ρ := { s with mark := s.mark.or (some r) }

inductive Step : Shutdown ρ → Shutdown ρ → Prop
  | same (s : Shutdown ρ) : Step s s
  | close (r : ρ) : Step idle ⟨some r, none⟩
  | mark (c : Option ρ) (r : ρ) : Step ⟨c, none⟩ ⟨c, some r⟩
  | flush (r : ρ) : Step ⟨some r, none⟩ ⟨none, some r⟩

variable {s s' : Shutdown ρ}

theorem step_marked (s : Shutdown ρ) (r : ρ) : Step s (s.marked r) := by
  obtain ⟨c, m⟩ := s
  cases m with
  | none => exact .mark c r
  | some m => exact .same _

theorem marked_mark (s : Shutdown ρ) (r : ρ) : (s.marked r).mark ≠ none := by
  obtain ⟨c, m⟩ := s
  cases m <;> simp [marked]

theorem begun_marked (s : Shutdown ρ) (r : ρ) : (s.marked r).Begun := .inr (s.marked_mark r)

theorem not_begun_iff : ¬ s.Begun ↔ s = idle := by
  obtain ⟨c, m⟩ := s
  simp [Begun, idle]

theorem Step.begun (h : Step s s') (hs : s.Begun) : s'.Begun := by
  cases h with
  | same => exact hs
  | close r => exact absurd hs (by simp [Begun, idle])
  | mark c r => exact .inr (by simp)
  | flush r => exact .inr (by simp)

/-- The reason that the shutdown began with remains. -/
theorem Step.cause (h : Step s s') (hs : s.Begun) : s'.cause = s.cause := by
  cases h with
  | same => rfl
  | close r => exact absurd hs (by simp [Begun, idle])
  | mark c r =>
    cases c with
    | none => exact absurd hs (by simp [Begun])
    | some c => rfl
  | flush r => rfl

/-- A mark is never removed or replaced. -/
theorem Step.mark_eq (h : Step s s') {r : ρ} (hs : s.mark = some r) : s' = s := by
  cases h with
  | same => rfl
  | close r' => cases hs
  | mark c r' => cases hs
  | flush r' => cases hs

/-- The first stage is only entered when nothing has begun, and only left for the mark. -/
theorem Step.closing (h : Step s s') (hs : s.Begun) :
    s'.closing = s.closing ∨ (s'.closing = none ∧ s'.mark = s.closing ∧ s.mark = none) := by
  cases h with
  | same | mark => exact .inl rfl
  | close r => exact absurd hs (by simp [Begun, idle])
  | flush r => exact .inr ⟨rfl, rfl, rfl⟩

/-- A reason of the first stage stays there or moves to the mark. -/
theorem closing_of_steps {r : ρ} (h : Relation.ReflTransGen Step s s') (hs : s.closing = some r) :
    s'.closing = some r ∨ s' = ⟨none, some r⟩ := by
  induction h with
  | refl => exact .inl hs
  | tail _ hstep ih =>
    rcases ih with hclosing | hmark
    · cases hstep with
      | same | mark => exact .inl hclosing
      | close => cases hclosing
      | flush r' => exact .inr (congrArg (Shutdown.mk none) hclosing)
    · exact .inr ((hstep.mark_eq (by rw [hmark])).trans hmark)

theorem mark_of_steps {r : ρ} (h : Relation.ReflTransGen Step s s') (hs : s.mark = some r) :
    s' = s := by
  induction h with
  | refl => rfl
  | tail _ hstep ih => exact (hstep.mark_eq (by rw [ih]; exact hs)).trans ih

theorem begun_of_steps (h : Relation.ReflTransGen Step s s') (hs : s.Begun) :
    s'.Begun ∧ s'.cause = s.cause := by
  induction h with
  | refl => exact ⟨hs, rfl⟩
  | tail _ hstep ih => exact ⟨hstep.begun ih.1, (hstep.cause ih.1).trans ih.2⟩

end Shutdown
end FtIrc
