import Mathlib.Data.List.Basic

/-!
# Replaying a record

A record has symbols and a list of arguments. A symbol takes the arguments that it needs from the
front of the list, so the record of a process can be extended at its end. A loop that keeps an index
into the arguments is observed by what it puts out in each round.
-/

namespace FtIrc

/-- A reader of symbols that may fail, over a state and the arguments that are left. -/
abbrev Reader (σ γ α : Type*) := γ → σ × List α → Option (σ × List α)

namespace Reader

variable {σ γ α : Type*}

def replay (R : Reader σ γ α) (symbols : List γ) (st : σ × List α) : Option (σ × List α) :=
  symbols.foldlM (fun st c => R c st) st

/-- What a symbol does not take stays where it is. -/
def Local (R : Reader σ γ α) : Prop := ∀ c s args s' rest, R c (s, args) = some (s', rest) →
  ∀ more, R c (s, args ++ more) = some (s', rest ++ more)

variable {R : Reader σ γ α} {symbols : List γ} {s s' s'' : σ} {args rest : List α}

theorem replay_nil (st : σ × List α) : R.replay [] st = some st := rfl

theorem replay_cons (c : γ) (st : σ × List α) :
    R.replay (c :: symbols) st = (R c st).bind (R.replay symbols) := rfl

theorem replay_append (symbols' : List γ) (st : σ × List α) :
    R.replay (symbols ++ symbols') st = (R.replay symbols st).bind (R.replay symbols') :=
  List.foldlM_append

theorem replay_more (hlocal : R.Local) (h : R.replay symbols (s, args) = some (s', rest))
    (more : List α) : R.replay symbols (s, args ++ more) = some (s', rest ++ more) := by
  induction symbols generalizing s args with
  | nil =>
    obtain ⟨rfl, rfl⟩ := Prod.mk.inj (Option.some.inj h)
    rfl
  | cons c symbols ih =>
    rw [replay_cons] at h ⊢
    obtain ⟨⟨t, left⟩, hstep, hrest⟩ := Option.bind_eq_some_iff.mp h
    rw [hlocal c s args t left hstep more]
    exact ih hrest

/-- One more symbol, with the arguments that it takes. -/
theorem replay_snoc (hlocal : R.Local) (h : R.replay symbols (s, args) = some (s', []))
    {c : γ} {more : List α} (hc : R c (s', more) = some (s'', [])) :
    R.replay (symbols ++ [c]) (s, args ++ more) = some (s'', []) := by
  rw [replay_append, replay_more hlocal h more, List.nil_append, Option.bind_some, replay_cons, hc]
  rfl

end Reader

/-! ## Observing a loop -/

section trace

variable {σ α β : Type*}

end trace
end FtIrc
