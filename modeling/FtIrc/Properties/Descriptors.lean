import FtIrc.Effects.Closing
import FtIrc.Effects.Polls
import FtIrc.Properties.Framing

/-!
# Descriptor bookkeeping

The poll list and the two maps only know connections, and a connection that is closing has output
left, so `poll` will wake up for it.
-/

namespace FtIrc
namespace Server

/-! ## Connections that close -/

theorem run_now {t : Phase × Server} (h : run.Reachable t) : 0 < t.2.now := by
  refine System.Reachable.invariant (I := fun t : Phase × Server => 0 < t.2.now)
    (fun t ht => ?_) (fun t e ht ih he => ?_) h
  · obtain ⟨-, fd, password, heap, now, -, hnow, hinit⟩ := ht
    rw [hinit]
    exact hnow
  · by_cases htick : ∃ now, e = .tick now
    · obtain ⟨now, rfl⟩ := htick
      exact he.2
    · show 0 < (step t.2 e).now
      rw [step_now (run_base ht) he.2 fun now hnow => htick ⟨now, hnow⟩]
      exact ih

theorem run_framed {t : Phase × Server} (h : run.Reachable t) : t.2.Framed :=
  ((kept_framed Clean).reachable textPred_clean serves_clean (fun _ => framed_init)
    (run_reachable h)).1

/-- What is left to be sent only shrinks by `send`. -/
theorem writeBuffer_append {s s' : Server} {c : ClientPtr} (hs : s.Framed) (hs' : s'.Framed)
    {ms : List Bytes} (hr : (s'.client c).replies = (s.client c).replies ++ ms)
    (hsent : (s'.client c).sent = (s.client c).sent) :
    (s'.client c).writeBuffer = (s.client c).writeBuffer ++ (ms.map frame).flatten := by
  have hold : (s.client c).sent ++ (s.client c).writeBuffer = _ := hs c
  have hnew : (s'.client c).sent ++ (s'.client c).writeBuffer = _ := hs' c
  rw [hr, List.map_append, List.flatten_append, ← hold, hsent, List.append_assoc] at hnew
  exact List.append_cancel_left hnew

/-- A connection that is told to close has output left and a closing time. -/
def Draining (s : Server) (fd : Fd) (c : ClientPtr) : Prop :=
  (s.shutdown fd).closing ≠ none → (s.shutdown fd).mark = none →
    (s.client c).writeBuffer ≠ [] ∧ (s.client c).closingSince ≠ 0

theorem draining_sendData {s : Server} {fd : Fd} {c : ClientPtr}
    (hc : s.clients.find? fd = some c) (h : s.Draining fd c) (r : SendResult) :
    (s.sendData fd r).Draining fd c := by
  obtain ⟨hsh, hclient⟩ := sendData_own hc r
  intro hclosing hmark
  rw [hsh] at hclosing hmark
  obtain ⟨hsame, hleft⟩ := sendOutcome_waiting hclosing hmark
  rw [hsame] at hclosing hmark
  obtain ⟨hfull, hsince⟩ := h hclosing hmark
  rw [hclient]
  refine ⟨hleft hfull, ?_⟩
  rw [← (mute_sendData hc r).closingSince, hclient] at hsince
  exact hsince

theorem draining_step {t : Phase × Server} (h : run.Reachable t) {e : Event}
    (he : run.Enabled t e) {fd : Fd} {c : ClientPtr} (hc : t.2.clients.find? fd = some c)
    (hc' : (step t.2 e).clients.find? fd = some c) (hdrain : t.2.Draining fd c) :
    (step t.2 e).Draining fd c := by
  have hb := run_base h
  by_cases hbegun : (t.2.shutdown fd).Begun
  · obtain ⟨-, hmuted, hsent⟩ := muted_step h he hc hc' hbegun
    by_cases hsend : ∃ r, e = .send fd r
    · obtain ⟨r, rfl⟩ := hsend
      exact draining_sendData hc hdrain r
    intro hclosing hmark
    have hkept := run_shutdown h he hc hc'
    have hsame : (t.2.shutdown fd).closing ≠ none ∧ (t.2.shutdown fd).mark = none := by
      constructor
      · intro hnone
        rcases hkept.closing hbegun with heq | ⟨heq, -⟩
        · exact hclosing (heq.trans hnone)
        · exact hclosing heq
      · cases hold : (t.2.shutdown fd).mark with
        | none => rfl
        | some r =>
          rw [hkept.mark_eq hold, hold] at hmark
          cases hmark
    obtain ⟨hfull, hsince⟩ := hdrain hsame.1 hsame.2
    obtain ⟨ms, hms, -⟩ := hmuted.said
    have hbuffer := writeBuffer_append (run_framed h) (run_framed (.step h he)) hms
      (hsent fun r hr => hsend ⟨r, hr⟩)
    refine ⟨fun hnil => hfull ?_, ?_⟩
    · exact (List.append_eq_nil_iff.mp (hbuffer.symm.trans hnil)).1
    · rw [hmuted.closingSince]
      exact hsince
  · intro hclosing hmark
    cases begins_step hb he.2 hc hc' (Shutdown.not_begun_iff.mp hbegun) with
    | idle hsh => exact absurd (congrArg Shutdown.closing hsh) hclosing
    | mark r hsh => exact absurd (congrArg Shutdown.closing hsh) hclosing
    | close r cl _ hclient =>
      rw [hclient]
      refine ⟨?_, (run_now h).ne'⟩
      show cl.writeBuffer ++ frame _ ≠ []
      simp [frame]

theorem run_draining {t : Phase × Server} (h : run.Reachable t) {fd : Fd} {c : ClientPtr}
    (hc : t.2.clients.find? fd = some c) : t.2.Draining fd c := by
  refine System.Reachable.invariant (I := fun t : Phase × Server => ∀ fd c,
    t.2.clients.find? fd = some c → t.2.Draining fd c) (fun t ht fd c _ => ?_)
    (fun t e ht ih he fd c hc => ?_) h fd c hc
  · obtain ⟨-, fd', password, heap, now, -, -, hinit⟩ := ht
    intro hclosing
    rw [hinit] at hclosing
    exact absurd rfl hclosing
  · rcases step_find (run_base ht) he.2 hc with hold | ⟨addr, rfl, rfl⟩
    · exact draining_step ht he hold hc (ih fd c hold)
    · intro hclosing
      exact absurd (congrArg Shutdown.closing (reachable_keyed (run_reachable ht) fd he.2.2)) hclosing

/-! ## The maps and the poll list -/

/-- What `run` can rely on between any two of its actions. -/
structure Bookkeeping (s : Server) : Prop where
  polled : ∃ fds, s.pollFds.map PollFd.fd = s.serverFd :: fds ∧ fds.Perm s.clients.keys
  server : s.serverFd ∉ s.clients.keys
  closing : ∀ fd ∈ s.closing.keys, fd ∈ s.clients.keys
  toDisconnected : ∀ fd ∈ s.toDisconnected.keys, fd ∈ s.clients.keys
  draining : ∀ fd c, s.clients.find? fd = some c → s.closing.contains fd = true →
    s.isMarked fd = false → (s.client c).writeBuffer ≠ [] ∧ (s.client c).closingSince ≠ 0
  cleaned : s.cleanupDisconnected.toDisconnected = StdMap.empty
  pollOut : ∀ fd, s.refreshPollEvents.closing.contains fd = true →
    s.refreshPollEvents.isMarked fd = false →
    ∃ p ∈ s.refreshPollEvents.pollFds, p.fd = fd ∧ p.pollOut = true
  recycled : ∀ fd addr, Enabled s (.accept (.accepted fd addr)) →
    fd ∉ (s.acceptNewClient (.accepted fd addr)).closing.keys ∧
      fd ∉ (s.acceptNewClient (.accepted fd addr)).toDisconnected.keys

theorem keyed_client {s : Server} (h : s.Keyed) {fd : Fd} (hsh : s.shutdown fd ≠ .idle) :
    fd ∈ s.clients.keys := by
  rw [StdMap.mem_keys]
  cases hfd : s.clients.find? fd with
  | none => exact absurd (h fd hfd) hsh
  | some c => exact ⟨c, rfl⟩

theorem polled_keys {s : Server} (h : s.Polled) :
    ∃ fds, s.pollFds.map PollFd.fd = s.serverFd :: fds ∧ fds.Perm s.clients.keys := by
  obtain ⟨fds, hfds, hnodup, hmem⟩ := h.listed
  refine ⟨fds, hfds, (List.perm_ext_iff_of_nodup hnodup s.clients.keys_nodup).mpr fun fd => ?_⟩
  rw [hmem, StdMap.mem_keys, Option.ne_none_iff_exists']

/-- `poll` waits until a connection that closes can be written to. -/
theorem polled_out {s : Server} (hp : s.Polled) (hk : s.Keyed)
    (hd : ∀ fd c, s.clients.find? fd = some c → s.Draining fd c) {fd : Fd}
    (hclosing : s.refreshPollEvents.closing.contains fd = true)
    (hmark : s.refreshPollEvents.isMarked fd = false) :
    ∃ p ∈ s.refreshPollEvents.pollFds, p.fd = fd ∧ p.pollOut = true := by
  have hclosing : (s.refreshPollEvents.shutdown fd).closing ≠ none :=
    Option.isSome_iff_ne_none.mp hclosing
  have hmark := isMarked_eq_false.mp hmark
  cases hc : s.clients.find? fd with
  | none =>
    rw [refresh_none hc, hk fd hc] at hclosing
    exact absurd rfl hclosing
  | some c =>
    rw [refresh_marks hp hc] at hclosing hmark
    split_ifs at hclosing hmark with hmax
    · exact absurd hmark (Shutdown.marked_mark _ _)
    have hfull := (hd fd c hc hclosing hmark).1
    obtain ⟨fds, hfds, -, hmem⟩ := hp.listed
    have hin : fd ∈ s.pollFds.map PollFd.fd := by
      rw [show s.pollFds.map PollFd.fd = _ from hfds]
      exact List.mem_cons_of_mem _ ((hmem fd).mpr (by simp [hc]))
    have hne : fd ≠ s.serverFd := fun heq => by
      rw [heq, hp.server] at hc
      cases hc
    obtain ⟨p, hpin, rfl⟩ := List.mem_map.mp hin
    rw [refreshPollEvents_pollFds]
    refine ⟨s.refreshed p, List.mem_map_of_mem hpin, refreshed_fd s p, ?_⟩
    simp [refreshed, hne, hc, exceeds, hmax, hfull]

theorem bookkeeping {t : Phase × Server} (h : run.Reachable t) : t.2.Bookkeeping := by
  have hb := run_base h
  have hkeyed := reachable_keyed (run_reachable h)
  have hpolled := reachable_polled (run_reachable h)
  have hdrain : ∀ fd c, t.2.clients.find? fd = some c → t.2.Draining fd c :=
    fun fd c hc => run_draining h hc
  constructor
  case polled => exact polled_keys hpolled
  case server =>
    rw [StdMap.mem_keys, hpolled.server]
    simp
  case closing =>
    intro fd hfd
    obtain ⟨r, hr⟩ := t.2.closing.mem_keys.mp hfd
    refine keyed_client hkeyed fun hidle => ?_
    exact absurd (hr.symm.trans (congrArg Shutdown.closing hidle)) (by simp [Shutdown.idle])
  case toDisconnected =>
    intro fd hfd
    obtain ⟨r, hr⟩ := t.2.toDisconnected.mem_keys.mp hfd
    refine keyed_client hkeyed fun hidle => ?_
    exact absurd (hr.symm.trans (congrArg Shutdown.mark hidle)) (by simp [Shutdown.idle])
  case draining =>
    intro fd c hc hclosing hmark
    refine hdrain fd c hc ?_ (isMarked_eq_false.mp hmark)
    exact Option.isSome_iff_ne_none.mp hclosing
  case cleaned => exact (cleanup_targets hb 0).2.2
  case pollOut => exact fun fd hclosing hmark => polled_out hpolled hkeyed hdrain hclosing hmark
  case recycled =>
    intro fd addr he
    have hidle := hkeyed fd he.2
    have hclosing : t.2.closing.find? fd = none := congrArg Shutdown.closing hidle
    have hmark : t.2.toDisconnected.find? fd = none := congrArg Shutdown.mark hidle
    constructor
    · show fd ∉ t.2.closing.keys
      simp [StdMap.mem_keys, hclosing]
    · show fd ∉ t.2.toDisconnected.keys
      simp [StdMap.mem_keys, hmark]

/-- `ann` quits and waits for her output to be flushed. -/
theorem bookkeeping_quit : ∃ t,
    loop (.refresh :: registers 4 (ascii "ann") ++ typed 4 (ascii "QUIT :bye")) = some t ∧
      t.2.closing.keys = [4] ∧ t.2.clients.keys = [4] ∧ t.2.Bookkeeping := by
  obtain ⟨t, ht, hview⟩ := Option.map_eq_some_iff.mp (by decide +kernel :
    (loop (.refresh :: registers 4 (ascii "ann") ++ typed 4 (ascii "QUIT :bye"))).map
      (fun t => (t.2.closing.keys, t.2.clients.keys)) = some ([4], [4]))
  obtain ⟨hclosing, hclients⟩ := Prod.mk.injEq .. ▸ hview
  exact ⟨t, ht, hclosing, hclients, bookkeeping (loop_reachable ht)⟩

end Server
end FtIrc
