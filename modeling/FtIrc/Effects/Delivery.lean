import FtIrc.Effects.Emission

/-!
# The command of a line

A round of the line loop takes the line out of the read buffer and runs its command. What a command
sends to a set of clients, and nothing else, is a delivery.
-/

namespace FtIrc
namespace Server

/-- The state after the first line has been taken out of the read buffer. -/
def popped (s : Server) (c : ClientPtr) : Server := s.updClient c fun cl => cl.popLine.2

/-- The next line of the client. -/
def nextLine (s : Server) (c : ClientPtr) : Bytes := Client.firstLine (s.client c).readBuffer

section popped

variable (s : Server) (c : ClientPtr)

theorem sameIdentities_popped : SameIdentities s (s.popped c) := sameIdentities_updClient s c rfl

theorem sameStreams_popped : SameStreams s (s.popped c) := sameStreams_updClient s c rfl rfl

theorem popped_fields (d : ClientPtr) :
    ((s.popped c).client d).nickname = (s.client d).nickname ∧
      ((s.popped c).client d).isRegistered = (s.client d).isRegistered := by
  have hid := identity_fields ((sameIdentities_popped s c).identity d)
  exact ⟨hid.2.1, hid.2.2.2.2.1⟩

end popped

/-- A line that parses is dispatched after it has been taken out of the buffer. -/
theorem receiveLine_dispatch {s : Server} {c : ClientPtr} {msg : Message}
    (hmsg : spliter (s.nextLine c) = some msg) :
    s.receiveLine c = (s.popped c).dispatch c msg := by
  have hne : (s.nextLine c).isEmpty = false := by
    cases he : (s.nextLine c).isEmpty with
    | false => rfl
    | true => simp [spliter, he] at hmsg
  have hline : (s.client c).popLine.1 = s.nextLine c := rfl
  simp only [receiveLine, hline, hne, operate, hmsg]
  rfl

/-- One line to each of the recipients is all that happens. -/
def Delivery (s s' : Server) (m : Bytes) (recipient : ClientPtr → Prop) : Prop :=
  ∃ o : Output, s' = s.emit o ∧ (∀ d, recipient d → o d = [m]) ∧ ∀ d, ¬ recipient d → o d = []

section delivery

variable {s : Server} {c : ClientPtr} {m : Bytes}

theorem delivery_one (s : Server) (c : ClientPtr) (m : Bytes) :
    Delivery s (s.emit (Output.one c m)) m (· = c) :=
  ⟨_, rfl, fun _ hd => if_pos hd, fun _ hd => if_neg hd⟩

theorem delivery_all {cs : List ClientPtr} (hnd : cs.Nodup) (s : Server) (m : Bytes) :
    Delivery s (s.emit (Output.all cs m)) m (· ∈ cs) := by
  refine ⟨_, rfl, fun d hd => ?_, fun d hd => ?_⟩
  · rw [Output.all, List.count_eq_one_of_mem hnd hd]
    rfl
  · rw [Output.all, List.count_eq_zero_of_not_mem hd]
    rfl

theorem Delivery.congr {s s' : Server} {S S' : ClientPtr → Prop} (h : Delivery s s' m S)
    (hS : ∀ d, S d ↔ S' d) : Delivery s s' m S' := by
  obtain ⟨o, ho, htold, hrest⟩ := h
  exact ⟨o, ho, fun d hd => htold d ((hS d).mpr hd), fun d hd => hrest d fun h => hd ((hS d).mp h)⟩

end delivery

end Server
end FtIrc
