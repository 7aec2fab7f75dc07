import FtIrc.Effects.Identity

/-!
# Sessions

`receiveData` is a run of events, and sessions of typed lines are runs that can be evaluated.
-/

namespace FtIrc
namespace Server

theorem reachable_step {s : Server} {e : Event} (hs : ircserv.Reachable s) (he : Enabled s e) :
    ircserv.Reachable (step s e) :=
  .step hs he

theorem run_step {s s' : Server} {e : Event} {es : List Event} (he : Enabled s e)
    (h : ircserv.Run (step s e) es s') : ircserv.Run s (e :: es) s' :=
  .cons he h

/-! ## The line loop of `receiveData` -/

theorem markForDisconnection_clients (s : Server) (fd : Fd) (reason : Bytes) :
    (s.markForDisconnection fd reason).clients = s.clients := by
  unfold markForDisconnection
  split_ifs <;> rfl

theorem receiveLines_run (n : Nat) {s : Server} (hs : ircserv.Reachable s) {fd : Fd}
    {c : ClientPtr} (hc : s.clients.find? fd = some c) :
    ∃ k, ircserv.Run s (List.replicate k (.line fd)) (receiveLines n s fd c) := by
  induction n generalizing s with
  | zero => exact ⟨0, .nil s⟩
  | succ n ih =>
    rw [receiveLines]
    split_ifs with hready
    · have hen : Enabled s (.line fd) := ⟨c, hc, hready⟩
      have hstep : step s (.line fd) = s.receiveLine c := by simp [step, hc]
      have hnext : ircserv.Reachable (s.receiveLine c) := by
        rw [← hstep]
        exact reachable_step hs hen
      have hclients : (s.receiveLine c).clients = s.clients := by
        obtain ⟨-, hb⟩ := reachable_clean hs
        rcases line_receiveLine textPred_clean hb ⟨fd, hc⟩ (serves_clean.lines s fd c hen hc) with
          heq | ⟨msg, -, hline⟩
        · rw [heq]
          rfl
        · exact (line_clients hline).trans rfl
      obtain ⟨k, hk⟩ := ih hnext (by rw [hclients]; exact hc)
      exact ⟨k + 1, run_step hen (by rwa [hstep])⟩
    · exact ⟨0, .nil s⟩

/-- One `recv` with its line loop is a `recv` event and then line events. -/
theorem receiveData_run {s : Server} (hs : ircserv.Reachable s) {fd : Fd} {r : RecvResult}
    (he : Enabled s (.recv fd r)) :
    ∃ k, ircserv.Run s (.recv fd r :: List.replicate k (.line fd)) (s.receiveData fd r) := by
  obtain ⟨c, hc⟩ : ∃ c, s.clients.find? fd = some c := by
    cases r with
    | data => exact he.1
    | failed | closed => exact he
  have hstep : step s (.recv fd r) = (s.receiveChunk fd c r).1 := by simp [step, hc]
  have hnext : ircserv.Reachable (s.receiveChunk fd c r).1 := by
    rw [← hstep]
    exact reachable_step hs he
  have hclients : (s.receiveChunk fd c r).1.clients = s.clients := by
    cases r with
    | failed | closed => exact markForDisconnection_clients ..
    | data buffer =>
      simp only [receiveChunk]
      split_ifs
      · rfl
      · exact markForDisconnection_clients ..
      · rfl
  simp only [receiveData, hc]
  split_ifs
  · obtain ⟨k, hk⟩ := receiveLines_run _ hnext (by rw [hclients]; exact hc)
    exact ⟨k, run_step he (by rwa [hstep])⟩
  · refine ⟨0, run_step he ?_⟩
    rw [hstep]
    exact .nil _

/-! ## Evaluation -/

/-- A test of `Enabled`. -/
def enabled (s : Server) : Event → Bool
  | .accept (.accepted fd _) => fd ≠ s.serverFd && (s.clients.find? fd).isNone
  | .accept _ => true
  | .recv fd (.data buffer) =>
    (s.clients.find? fd).isSome && Nat.ble 1 buffer.length && Nat.ble buffer.length 1024
  | .recv fd _ => (s.clients.find? fd).isSome
  | .line fd =>
    match s.clients.find? fd with
    | some c => s.lineReady fd c
    | none => false
  | .send fd (.taken count) =>
    match s.clients.find? fd with
    | some c => !s.isMarked fd && Nat.ble count (s.client c).writeBuffer.length
    | none => false
  | .send fd .failed => !s.isMarked fd && (s.clients.find? fd).isSome
  | .pollError fd => (s.clients.find? fd).isSome
  | .tick now => decide (0 < now)
  | .pollTimeout | .refresh | .cleanup | .idle => true

theorem enabled_sound (s : Server) (e : Event) (h : s.enabled e = true) : Enabled s e := by
  cases e with
  | accept r =>
    cases r with
    | accepted => simpa [enabled, Enabled] using h
    | failed | blocking => trivial
  | recv fd r =>
    cases r with
    | data => simpa [enabled, Enabled, Option.isSome_iff_exists, and_assoc] using h
    | failed | closed => simpa [enabled, Enabled, Option.isSome_iff_exists] using h
  | line fd =>
    simp only [enabled] at h
    split at h
    · exact ⟨_, ‹_›, h⟩
    · cases h
  | send fd r =>
    cases r with
    | failed => simpa [enabled, Enabled, Option.isSome_iff_exists] using h
    | taken =>
      simp only [enabled] at h
      split at h
      · rw [Bool.and_eq_true] at h
        exact ⟨by simpa using h.1, _, ‹_›, by simpa using h.2⟩
      · cases h
  | pollError fd => simpa [enabled, Enabled, Option.isSome_iff_exists] using h
  | tick now => simpa [enabled, Enabled] using h
  | pollTimeout | refresh | cleanup | idle => trivial

/-- Addresses are handed out in increasing order. -/
def increasing : Allocator where
  addr used := used.foldr max 0 + 1
  fresh used h := by
    have hle : ∀ (xs : List Nat) (n : Nat), n ∈ xs → n ≤ xs.foldr max 0 := by
      intro xs
      induction xs with
      | nil => simp
      | cons x xs ih =>
        intro n hn
        rcases List.mem_cons.mp hn with rfl | hn
        · exact le_max_left _ _
        · exact (ih n hn).trans (le_max_right _ _)
    have hmax := hle used _ h
    omega

def started : Server := init 3 (ascii "secret") increasing 1

/-- A session of a server just started. -/
def session (es : List Event) : Option Server := ircserv.play enabled started es

theorem session_run {es : List Event} {s : Server} (h : session es = some s) :
    ircserv.Run started es s :=
  System.Run.of_play enabled_sound h

theorem started_init : ircserv.Init started := ⟨3, ascii "secret", increasing, 1, by decide, by decide, rfl⟩

theorem session_reachable {es : List Event} {s : Server} (h : session es = some s) :
    ircserv.Reachable s :=
  (session_run h).reachable (.init started_init)

/-! ## The loop in its order -/

/-- A test of the events of `run`. -/
def loopEnabled (t : Phase × Server) (e : Event) : Bool :=
  (t.1.after e).isSome && t.2.enabled e

theorem loopEnabled_sound (t : Phase × Server) (e : Event) (h : loopEnabled t e = true) :
    run.Enabled t e := by
  rw [loopEnabled, Bool.and_eq_true] at h
  exact ⟨h.1, enabled_sound t.2 e h.2⟩

/-- A session of the poll loop. -/
def loop (es : List Event) : Option (Phase × Server) :=
  run.play loopEnabled (.refresh, started) es

theorem loop_run {es : List Event} {t : Phase × Server} (h : loop es = some t) :
    run.Run (.refresh, started) es t :=
  System.Run.of_play loopEnabled_sound h

theorem loop_reachable {es : List Event} {t : Phase × Server} (h : loop es = some t) :
    run.Reachable t :=
  (loop_run h).reachable (.init ⟨rfl, started_init⟩)

/-! ## Typed lines -/

/-- A line arrives in one piece and is run. -/
def typed (fd : Fd) (line : Bytes) : List Event :=
  [.recv fd (.data (line ++ [13, 10])), .line fd]

/-- A client connects and registers. -/
def registers (fd : Fd) (nick : Bytes) : List Event :=
  .accept (.accepted fd ⟨127, 0, 0, 1⟩) :: typed fd (ascii "PASS secret") ++
    typed fd (ascii "NICK " ++ nick) ++ typed fd (ascii "USER " ++ nick ++ ascii " 0 * :" ++ nick)

/-- Two registered clients: `ann` at address 1 and `bob` at address 2. -/
def annAndBob : List Event := registers 4 (ascii "ann") ++ registers 5 (ascii "bob")

end Server
end FtIrc
