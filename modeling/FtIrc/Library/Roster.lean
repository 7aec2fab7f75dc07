import FtIrc.Library.Rooms

/-!
# Rosters and notices

The roster of a room names its members and its operators. An observer who is told of each change by
a notice can follow the roster: every operation on a room is matched by one notice, as long as
nobody in the room has the name of the user it is about.
-/

namespace FtIrc

@[ext] structure Roster (N : Type*) where
  members : Finset N
  operators : Finset N

/-- What is announced about the users of a room, by their names. -/
inductive Notice (N : Type*)
  | joined (n : N)
  | left (n : N)
  | renamed (n n' : N)
  | raised (n : N)
  | lowered (n : N)
  deriving DecidableEq

namespace Roster

variable {N : Type*} [DecidableEq N]

def replace (ns : Finset N) (n n' : N) : Finset N :=
  if n ∈ ns then insert n' (ns.erase n) else ns

/-- What an observer makes of a notice. -/
def hear (r : Roster N) : Notice N → Roster N
  | .joined n => { r with members := insert n r.members }
  | .left n => ⟨r.members.erase n, r.operators.erase n⟩
  | .renamed n n' => ⟨replace r.members n n', replace r.operators n n'⟩
  | .raised n => { r with operators := insert n r.operators }
  | .lowered n => { r with operators := r.operators.erase n }

end Roster

section images

variable {U N : Type*} [DecidableEq U] [DecidableEq N] {f : U → N} {v : U} {vs : Finset U}

/-- Only `v` has its name among `vs`. -/
def NameIsFree (f : U → N) (v : U) (vs : Finset U) : Prop := ∀ w ∈ vs, f w = f v → w = v

theorem image_erase_free (hv : NameIsFree f v vs) :
    (vs.erase v).image f = (vs.image f).erase (f v) := by
  ext n
  simp only [Finset.mem_image, Finset.mem_erase]
  constructor
  · intro ⟨w, ⟨hne, hw⟩, hn⟩
    refine ⟨?_, w, hw, hn⟩
    intro h
    exact hne (hv w hw (hn.trans h))
  · intro ⟨hne, w, hw, hn⟩
    refine ⟨w, ⟨?_, hw⟩, hn⟩
    intro h
    exact hne (hn ▸ congrArg f h)

theorem image_update_free (hv : NameIsFree f v vs) (n : N) :
    vs.image (Function.update f v n) = Roster.replace (vs.image f) (f v) n := by
  have hrest : ∀ ws : Finset U, v ∉ ws → ws.image (Function.update f v n) = ws.image f := by
    intro ws hws
    apply Finset.image_congr
    intro w hw
    apply Function.update_of_ne
    intro h
    exact hws (h ▸ hw)
  unfold Roster.replace
  by_cases hmem : v ∈ vs
  · rw [if_pos (Finset.mem_image_of_mem f hmem), ← image_erase_free hv]
    rw [← hrest _ (Finset.notMem_erase v vs)]
    conv_lhs => rw [← Finset.insert_erase hmem]
    rw [Finset.image_insert, Function.update_self]
  · have hout : f v ∉ vs.image f := by
      intro h
      obtain ⟨w, hw, hn⟩ := Finset.mem_image.mp h
      exact hmem (hv w hw hn ▸ hw)
    rw [if_neg hout, hrest vs hmem]

end images

namespace Room

variable {U K T N : Type*} [DecidableEq U] [DecidableEq N]

def roster (r : Room U K T) (name : U → N) : Roster N where
  members := r.members.image name
  operators := r.operators.image name

variable {r : Room U K T} {name : U → N} {v : U}

theorem roster_letIn : (r.letIn v).roster name = (r.roster name).hear (.joined (name v)) := by
  apply Roster.ext
  · exact Finset.image_insert name v r.members
  · rfl

theorem roster_without (hops : r.operators ⊆ r.members) (hv : NameIsFree name v r.members) :
    (r.without v).roster name = (r.roster name).hear (.left (name v)) := by
  apply Roster.ext
  · exact image_erase_free hv
  · apply image_erase_free
    intro w hw
    exact hv w (hops hw)

theorem roster_forget (hops : r.operators ⊆ r.members) (hv : NameIsFree name v r.members) :
    (r.forget v).roster name = (r.roster name).hear (.left (name v)) :=
  roster_without hops hv

theorem roster_raise : ({ r with operators := insert v r.operators } : Room U K T).roster name =
    (r.roster name).hear (.raised (name v)) := by
  apply Roster.ext
  · rfl
  · exact Finset.image_insert name v r.operators

theorem roster_lower (hops : r.operators ⊆ r.members) (hv : NameIsFree name v r.members) :
    ({ r with operators := r.operators.erase v } : Room U K T).roster name =
      (r.roster name).hear (.lowered (name v)) := by
  apply Roster.ext
  · rfl
  · apply image_erase_free
    intro w hw
    exact hv w (hops hw)

theorem roster_rename (hops : r.operators ⊆ r.members) (hv : NameIsFree name v r.members) (n : N) :
    r.roster (Function.update name v n) = (r.roster name).hear (.renamed (name v) n) := by
  apply Roster.ext
  · exact image_update_free hv n
  · apply image_update_free
    intro w hw
    exact hv w (hops hw)

/-- Who is not in the room cannot leave it. -/
theorem roster_forget_of_notMem (hops : r.operators ⊆ r.members) (hv : v ∉ r.members) :
    (r.forget v).roster name = r.roster name := by
  apply Roster.ext
  · exact congrArg (Finset.image name) (Finset.erase_eq_of_notMem hv)
  · exact congrArg (Finset.image name) (Finset.erase_eq_of_notMem fun h => hv (hops h))

end Room
end FtIrc
