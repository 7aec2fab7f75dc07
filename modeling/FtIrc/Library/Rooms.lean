import Mathlib

/-!
# Rooms with operators

A network is a table of rooms. A room has members, some of them operators, invited users, modes
and a topic. `Room.Act` lists what a user does inside a room and which right each act needs, and
`Net.Enter` how a user comes in. Who can change what is proved here once, for any users, names,
keys and topics.
-/

namespace FtIrc

structure Modes (K : Type*) where
  inviteOnly : Bool
  topicByOpOnly : Bool
  key : Option K
  limit : Option ℕ

@[ext] structure Room (U K T : Type*) where
  members : Finset U
  operators : Finset U
  invited : Finset U
  modes : Modes K
  topic : T

namespace Room

variable {U K T : Type*} [DecidableEq U]

/-- A new room belongs to the user who opens it. -/
def founded [Inhabited T] (u : U) : Room U K T where
  members := {u}
  operators := {u}
  invited := ∅
  modes := ⟨false, false, none, none⟩
  topic := default

def without (r : Room U K T) (v : U) : Room U K T :=
  { r with members := r.members.erase v, operators := r.operators.erase v }

/-- The room when `v` is gone from the network. -/
def forget (r : Room U K T) (v : U) : Room U K T :=
  { r.without v with invited := r.invited.erase v }

/-- An invitation is used up. -/
def letIn (r : Room U K T) (u : U) : Room U K T :=
  { r with members := insert u r.members, invited := r.invited.erase u }

/-- What the user `u` may do inside a room. -/
inductive Act (u : U) : Room U K T → Room U K T → Prop
  | modes {r : Room U K T} (hop : u ∈ r.operators) (m : Modes K) : Act u r { r with modes := m }
  | promote {r : Room U K T} {v : U} (hop : u ∈ r.operators) (hv : v ∈ r.members) :
      Act u r { r with operators := insert v r.operators }
  | demote {r : Room U K T} (hop : u ∈ r.operators) (v : U) :
      Act u r { r with operators := r.operators.erase v }
  | topic {r : Room U K T} (hu : u ∈ r.members)
      (hop : r.modes.topicByOpOnly = true → u ∈ r.operators) (t : T) :
      Act u r { r with topic := t }
  | invite {r : Room U K T} {v : U} (hu : u ∈ r.members)
      (hop : r.modes.inviteOnly = true → u ∈ r.operators) (hv : v ∉ r.members) :
      Act u r { r with invited := insert v r.invited }
  | leave {r : Room U K T} (hu : u ∈ r.members) : Act u r (r.without u)
  | expel {r : Room U K T} {v : U} (hop : u ∈ r.operators) (hv : v ∈ r.members) :
      Act u r (r.without v)

/-- The room lets `u` in, who offers a key. -/
structure Admits (r : Room U K T) (u : U) (offered : Option K) : Prop where
  outside : u ∉ r.members
  key : r.modes.key = none ∨ r.modes.key = offered
  invited : r.modes.inviteOnly = true → u ∈ r.invited
  limit : ∀ l, r.modes.limit = some l → r.members.card < l

/-- Several users are gone, in whatever order they left. -/
theorem foldl_forget (vs : List U) (r : Room U K T) :
    vs.foldl forget r = { r with
      members := r.members \ vs.toFinset
      operators := r.operators \ vs.toFinset
      invited := r.invited \ vs.toFinset } := by
  induction vs generalizing r with
  | nil => simp
  | cons v vs ih =>
    have hset : ∀ x : Finset U, x.erase v \ vs.toFinset = x \ (v :: vs).toFinset := by
      intro x
      ext c
      simp only [Finset.mem_sdiff, Finset.mem_erase, List.toFinset_cons, Finset.mem_insert]
      tauto
    rw [List.foldl_cons, ih]
    exact Room.ext (hset _) (hset _) (hset _) rfl rfl

/-! ## Rights -/

/-- Each difference between `r` and `r'` is one that `u` had the right to make in `r`. -/
structure Authority (u : U) (r r' : Room U K T) : Prop where
  modes : r'.modes ≠ r.modes → u ∈ r.operators
  promoted : ∀ v ∈ r'.operators, v ∉ r.operators → u ∈ r.operators
  demoted : ∀ v ∈ r.operators, v ∉ r'.operators → v = u ∨ u ∈ r.operators
  expelled : ∀ v ∈ r.members, v ∉ r'.members → v = u ∨ u ∈ r.operators
  topic : r'.topic ≠ r.topic →
    u ∈ r.members ∧ (r.modes.topicByOpOnly = true → u ∈ r.operators)
  invited : ∀ v ∈ r'.invited, v ∉ r.invited →
    u ∈ r.members ∧ (r.modes.inviteOnly = true → u ∈ r.operators)
  members : r'.members ⊆ r.members
  invitations : r.invited ⊆ r'.invited

namespace Authority

variable {u : U} {r r' r'' : Room U K T}

omit [DecidableEq U] in
theorem refl (u : U) (r : Room U K T) : Authority u r r where
  modes h := absurd rfl h
  promoted _ hv hn := absurd hv hn
  demoted _ hv hn := absurd hv hn
  expelled _ hv hn := absurd hv hn
  topic h := absurd rfl h
  invited _ hv hn := absurd hv hn
  members := Finset.Subset.refl _
  invitations := Finset.Subset.refl _

/-- Nobody makes himself an operator. -/
theorem operator (h : Authority u r r') (hu : u ∈ r'.operators) : u ∈ r.operators := by
  by_contra hn
  exact hn (h.promoted u hu hn)

/-- A right that depends on a mode was there before the mode was changed. -/
theorem right {m : Modes K → Bool} (h : Authority u r r')
    (hright : m r'.modes = true → u ∈ r'.operators) (hm : m r.modes = true) :
    u ∈ r.operators := by
  by_cases heq : r'.modes = r.modes
  · apply h.operator
    apply hright
    rw [heq, hm]
  · exact h.modes heq

theorem trans (h : Authority u r r') (h' : Authority u r' r'') : Authority u r r'' where
  modes hne := by
    by_cases heq : r'.modes = r.modes
    · apply h.operator
      apply h'.modes
      rwa [heq]
    · exact h.modes heq
  promoted v hv hn := by
    by_cases hmid : v ∈ r'.operators
    · exact h.promoted v hmid hn
    · exact h.operator (h'.promoted v hv hmid)
  demoted v hv hn := by
    by_cases hmid : v ∈ r'.operators
    · exact (h'.demoted v hmid hn).imp id h.operator
    · exact h.demoted v hv hmid
  expelled v hv hn := by
    by_cases hmid : v ∈ r'.members
    · exact (h'.expelled v hmid hn).imp id h.operator
    · exact h.expelled v hv hmid
  topic hne := by
    by_cases heq : r'.topic = r.topic
    · have hnew := h'.topic (by rwa [heq])
      exact ⟨h.members hnew.1, h.right hnew.2⟩
    · exact h.topic heq
  invited v hv hn := by
    by_cases hmid : v ∈ r'.invited
    · exact h.invited v hmid hn
    · have hnew := h'.invited v hv hmid
      exact ⟨h.members hnew.1, h.right hnew.2⟩
  members := h'.members.trans h.members
  invitations := h.invitations.trans h'.invitations

end Authority

theorem Act.authority {u : U} {r r' : Room U K T} (h : Act u r r') : Authority u r r' := by
  cases h with
  | modes hop => constructor <;> simp +contextual [hop]
  | promote hop => constructor <;> simp +contextual [hop]
  | demote hop => constructor <;> simp +contextual [hop]
  | topic hu hop => constructor <;> simp +contextual [hu, hop]
  | invite hu hop => constructor <;> simp +contextual [hu, hop]
  | leave hu => constructor <;> simp +contextual [without, Finset.erase_subset]
  | expel hop => constructor <;> simp +contextual [without, hop, Finset.erase_subset]

/-! ## Rooms that nobody governs -/

/-- What becomes of a room without operators: its modes stay, and with them the topic and the
circle of its users where the modes protect these. -/
structure Frozen (r r' : Room U K T) : Prop where
  operators : r'.operators = ∅
  modes : r'.modes = r.modes
  topic : r.modes.topicByOpOnly = true → r'.topic = r.topic
  circle : r.modes.inviteOnly = true → r'.members ∪ r'.invited ⊆ r.members ∪ r.invited

namespace Frozen

variable {u : U} {r r' r'' : Room U K T}

theorem refl (hop : r.operators = ∅) : Frozen r r :=
  ⟨hop, rfl, fun _ => rfl, fun _ => Finset.Subset.refl _⟩

theorem trans (h : Frozen r r') (h' : Frozen r' r'') : Frozen r r'' where
  operators := h'.operators
  modes := h'.modes.trans h.modes
  topic ht := (h'.topic (h.modes ▸ ht)).trans (h.topic ht)
  circle hi := (h'.circle (h.modes ▸ hi)).trans (h.circle hi)

end Frozen

theorem Authority.frozen {u : U} {r r' : Room U K T} (h : Authority u r r')
    (hop : r.operators = ∅) : Frozen r r' := by
  have hu : u ∉ r.operators := by simp [hop]
  constructor
  · apply Finset.eq_empty_of_forall_notMem
    intro v hv
    exact hu (h.promoted v hv (by simp [hop]))
  · by_contra hne
    exact hu (h.modes hne)
  · intro ht
    by_contra hne
    exact hu ((h.topic hne).2 ht)
  · intro hi
    apply Finset.union_subset_union h.members
    intro v hv
    by_contra hn
    exact hu ((h.invited v hv hn).2 hi)

theorem Admits.frozen {u : U} {r : Room U K T} {offered : Option K} (h : r.Admits u offered)
    (hop : r.operators = ∅) : Frozen r (r.letIn u) := by
  constructor
  · exact hop
  · rfl
  · intro _
    rfl
  · intro hi v hv
    have hu := h.invited hi
    simp only [letIn, Finset.mem_union, Finset.mem_insert, Finset.mem_erase] at hv ⊢
    rcases hv with (rfl | hv) | ⟨-, hv⟩
    · exact .inr hu
    · exact .inl hv
    · exact .inr hv

theorem forget_frozen {r : Room U K T} (hop : r.operators = ∅) (v : U) :
    Frozen r (r.forget v) := by
  constructor
  · simp [forget, without, hop]
  · rfl
  · intro _
    rfl
  · intro _
    exact Finset.union_subset_union (Finset.erase_subset _ _) (Finset.erase_subset _ _)

end Room

/-- The rooms of a network under their names. -/
abbrev Net (N U K T : Type*) := N → Option (Room U K T)

namespace Net

open Relation

variable {N U K T : Type*} [DecidableEq U]

/-- The network when `v` is gone. -/
def depart (n : Net N U K T) (v : U) : Net N U K T := fun k =>
  (n k).bind fun r => if (r.forget v).members = ∅ then none else some (r.forget v)

theorem depart_eq_some {n : Net N U K T} {k : N} {v : U} {r' : Room U K T}
    (h : n.depart v k = some r') : ∃ r, n k = some r ∧ r' = r.forget v := by
  obtain ⟨r, hr, hif⟩ := Option.bind_eq_some_iff.mp h
  split_ifs at hif
  exact ⟨r, hr, (Option.some.inj hif).symm⟩

/-- Users that leave the network are removed from the rooms, which are otherwise left alone. -/
theorem departs_eq_some {vs : List U} {n : Net N U K T} {k : N} {r' : Room U K T}
    (h : vs.foldl depart n k = some r') : ∃ r, n k = some r ∧ r' = vs.foldl Room.forget r := by
  induction vs generalizing n with
  | nil => exact ⟨r', h, rfl⟩
  | cons v vs ih =>
    obtain ⟨r₁, hr₁, rfl⟩ := ih h
    obtain ⟨r, hr, rfl⟩ := depart_eq_some hr₁
    exact ⟨r, hr, rfl⟩

theorem departs_frozen {vs : List U} {r : Room U K T} (hop : r.operators = ∅) :
    r.Frozen (vs.foldl Room.forget r) := by
  induction vs generalizing r with
  | nil => exact .refl hop
  | cons v vs ih =>
    have hfirst := Room.forget_frozen hop v
    exact hfirst.trans (ih hfirst.operators)

variable [DecidableEq N]

/-- Store a room; a room without members is closed. -/
def put (n : Net N U K T) (k : N) (r : Room U K T) : Net N U K T :=
  Function.update n k (if r.members = ∅ then none else some r)

/-- An act of `u` in one of the rooms. -/
inductive Act (u : U) : Net N U K T → Net N U K T → Prop
  | inside {n : Net N U K T} {k : N} {r r' : Room U K T} (hk : n k = some r)
      (h : Room.Act u r r') : Act u n (n.put k r')

/-- A room found after a room has been stored is that room, or it was there before. -/
theorem put_eq_some {n : Net N U K T} {k q : N} {r r' : Room U K T} (h : n.put k r q = some r') :
    (q = k ∧ r' = r) ∨ n q = some r' := by
  by_cases hq : q = k
  · subst hq
    simp only [put, Function.update_self] at h
    split_ifs at h
    exact .inl ⟨rfl, (Option.some.inj h).symm⟩
  · rw [put, Function.update_of_ne hq] at h
    exact .inr h

/-- Acts never open a room, and what they change in one that stays they had the right to. -/
theorem acts_authority {n n' : Net N U K T} {u : U} {k : N} {r' : Room U K T}
    (h : ReflTransGen (Act u) n n') (hk : n' k = some r') :
    ∃ r, n k = some r ∧ Room.Authority u r r' := by
  induction h generalizing r' with
  | refl => exact ⟨r', hk, .refl u r'⟩
  | tail _ hact ih =>
    cases hact with
    | inside hq hroom =>
      rcases put_eq_some hk with ⟨rfl, rfl⟩ | hk
      · obtain ⟨r, hr, hauth⟩ := ih hq
        exact ⟨r, hr, hauth.trans hroom.authority⟩
      · exact ih hk

variable [Inhabited T]

/-- `u` enters a room, or opens one. -/
inductive Enter (u : U) (offered : Option K) (n : Net N U K T) : Net N U K T → Prop
  | join {k : N} {r : Room U K T} (hk : n k = some r) (h : r.Admits u offered) :
      Enter u offered n (n.put k (r.letIn u))
  | found {k : N} (hk : n k = none) : Enter u offered n (n.put k (Room.founded u))

/-- What a user does in one go: acts in rooms, or the entry into one. -/
inductive Line (u : U) (offered : Option K) (n : Net N U K T) : Net N U K T → Prop
  | acts {n' : Net N U K T} (h : ReflTransGen (Act u) n n') : Line u offered n n'
  | enter {n' : Net N U K T} (h : Enter u offered n n') : Line u offered n n'

section rights

variable {n n' : Net N U K T} {u : U} {k : N} {r r' : Room U K T} {offered : Option K}

/-- A room that stays open was changed with the rights of `u`, or by letting `u` in. -/
theorem Line.authority (h : Line u offered n n') (hk : n k = some r) (hk' : n' k = some r') :
    Room.Authority u r r' ∨ (r.Admits u offered ∧ r' = r.letIn u) := by
  have hsame : n k = some r' → Room.Authority u r r' := by
    intro heq
    obtain rfl := Option.some.inj (heq.symm.trans hk)
    exact .refl u _
  cases h with
  | acts h =>
    obtain ⟨r₀, hr₀, hauth⟩ := acts_authority h hk'
    obtain rfl : r₀ = r := Option.some.inj (hr₀.symm.trans hk)
    exact .inl hauth
  | enter h =>
    cases h with
    | join hq hadm =>
      rcases put_eq_some hk' with ⟨rfl, rfl⟩ | heq
      · obtain rfl := Option.some.inj (hq.symm.trans hk)
        exact .inr ⟨hadm, rfl⟩
      · exact .inl (hsame heq)
    | found hq =>
      rcases put_eq_some hk' with ⟨rfl, -⟩ | heq
      · exact absurd (hq.symm.trans hk) (by simp)
      · exact .inl (hsame heq)

/-- To enter invites nobody. -/
theorem Enter.invited (h : Enter u offered n n') (hk' : n' k = some r') {v : U}
    (hv : v ∈ r'.invited) : ∃ r, n k = some r ∧ v ∈ r.invited := by
  cases h with
  | join hq =>
    rcases put_eq_some hk' with ⟨rfl, rfl⟩ | hold
    · exact ⟨_, hq, Finset.mem_of_mem_erase hv⟩
    · exact ⟨r', hold, hv⟩
  | found =>
    rcases put_eq_some hk' with ⟨-, rfl⟩ | hold
    · exact absurd hv (Finset.notMem_empty v)
    · exact ⟨r', hold, hv⟩

theorem Line.frozen (h : Line u offered n n') (hk : n k = some r) (hk' : n' k = some r')
    (hop : r.operators = ∅) : r.Frozen r' := by
  rcases h.authority hk hk' with hauth | ⟨hadm, rfl⟩
  · exact hauth.frozen hop
  · exact hadm.frozen hop

/-- A room that is opened belongs to `u`. -/
theorem Line.founded (h : Line u offered n n') (hk : n k = none) (hk' : n' k = some r') :
    r' = Room.founded u := by
  have hnone : ∀ {r₀ : Room U K T}, n k ≠ some r₀ := by simp [hk]
  cases h with
  | acts h =>
    obtain ⟨r₀, hr₀, -⟩ := acts_authority h hk'
    exact absurd hr₀ hnone
  | enter h =>
    cases h with
    | join hq hadm =>
      rcases put_eq_some hk' with ⟨rfl, -⟩ | heq
      · exact absurd hq hnone
      · exact absurd heq hnone
    | found hq =>
      rcases put_eq_some hk' with ⟨-, rfl⟩ | heq
      · rfl
      · exact absurd heq hnone

end rights

end Net
end FtIrc
