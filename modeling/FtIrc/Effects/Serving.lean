import FtIrc.Effects.Timers
import FtIrc.Library.Stream
import FtIrc.State.Inputs

/-!
# Serving what has arrived

A call of `receiveData` takes all the lines that have arrived, up to one that closes the link. Which
lines are run does not depend on how they arrive.
-/

namespace FtIrc

theorem firstLine_append {l : Bytes} (h : (10 : Byte) ∉ l) (w : Bytes) :
    Client.firstLine (l ++ 10 :: w) = withoutCr l := by
  have htake : (l ++ 10 :: w).takeWhile (· ≠ (10 : Byte)) = l := by
    rw [List.takeWhile_append_of_pos, List.takeWhile_cons_of_neg (by simp), List.append_nil]
    intro b hb
    exact decide_eq_true fun heq => h (heq ▸ hb)
  rw [Client.firstLine, htake]
  rfl

theorem popLine_append {cl : Client} {l w : Bytes} (h : (10 : Byte) ∉ l)
    (hbuffer : cl.readBuffer = l ++ 10 :: w) : cl.popLine.1 = withoutCr l ∧
      cl.popLine.2 = cl.withInput ⟨w, cl.lines ++ [withoutCr l], cl.lastActivity, cl.pingSent⟩ := by
  have hfirst : Client.firstLine cl.readBuffer = withoutCr l := by rw [hbuffer, firstLine_append h]
  have hdrop : (cl.readBuffer.dropWhile (· ≠ (10 : Byte))).drop 1 = w := by
    rw [hbuffer, List.dropWhile_append_of_pos, List.dropWhile_cons_of_neg (by simp)]
    · rfl
    · intro b hb
      exact decide_eq_true fun heq => h (heq ▸ hb)
  refine ⟨hfirst, ?_⟩
  simp only [Client.popLine, hfirst, hdrop]
  rfl

namespace Server

/-- Lines that are run one after the other, up to the first one that closes the link: the state
after them, and those that were handed to the parser. -/
def serve (fd : Fd) (c : ClientPtr) (s : Server) : List Bytes → Server × List Bytes
  | [] => (s, [])
  | l :: ls =>
    if l.isEmpty then serve fd c s ls
    else if (s.operate c l).closing.contains fd then (s.operate c l, [l])
    else
      let rest := serve fd c (s.operate c l) ls
      (rest.1, l :: rest.2)

section serve

variable {fd : Fd} {c : ClientPtr} {s : Server}

theorem serve_empty {l : Bytes} (h : l.isEmpty = true) (ls : List Bytes) :
    serve fd c s (l :: ls) = serve fd c s ls := by
  rw [serve, if_pos h]

theorem serve_closing {l : Bytes} (h : l.isEmpty = false)
    (hclosing : (s.operate c l).closing.contains fd = true) (ls : List Bytes) :
    serve fd c s (l :: ls) = (s.operate c l, [l]) := by
  rw [serve, if_neg (by simp [h]), if_pos hclosing]

theorem serve_going {l : Bytes} (h : l.isEmpty = false)
    (hclosing : (s.operate c l).closing.contains fd = false) (ls : List Bytes) :
    serve fd c s (l :: ls) =
      ((serve fd c (s.operate c l) ls).1, l :: (serve fd c (s.operate c l) ls).2) := by
  rw [serve, if_neg (by simp [h]), if_neg (by simp [hclosing])]

/-- Once the link is closed, further lines do not matter. -/
theorem serve_append_closing {ls : List Bytes} (hs : s.closing.contains fd = false)
    (h : (serve fd c s ls).1.closing.contains fd = true) (ls' : List Bytes) :
    serve fd c s (ls ++ ls') = serve fd c s ls := by
  induction ls generalizing s with
  | nil => exact absurd (hs.symm.trans h) (by decide)
  | cons l ls ih =>
    rw [List.cons_append]
    cases hempty : l.isEmpty with
    | true =>
      rw [serve_empty hempty] at h ⊢
      rw [serve_empty hempty]
      exact ih hs h
    | false =>
      cases hclosing : (s.operate c l).closing.contains fd with
      | true => rw [serve_closing hempty hclosing, serve_closing hempty hclosing]
      | false =>
        rw [serve_going hempty hclosing] at h ⊢
        rw [serve_going hempty hclosing, ih hclosing h]

theorem serve_append_going {ls : List Bytes}
    (h : (serve fd c s ls).1.closing.contains fd = false) (ls' : List Bytes) :
    serve fd c s (ls ++ ls') = ((serve fd c (serve fd c s ls).1 ls').1,
      (serve fd c s ls).2 ++ (serve fd c (serve fd c s ls).1 ls').2) := by
  induction ls generalizing s with
  | nil => rfl
  | cons l ls ih =>
    rw [List.cons_append]
    cases hempty : l.isEmpty with
    | true =>
      rw [serve_empty hempty] at h ⊢
      rw [serve_empty hempty]
      exact ih h
    | false =>
      cases hclosing : (s.operate c l).closing.contains fd with
      | true =>
        rw [serve_closing hempty hclosing] at h
        exact absurd (h.symm.trans hclosing) (by decide)
      | false =>
        rw [serve_going hempty hclosing] at h ⊢
        rw [serve_going hempty hclosing, ih h]
        rfl

end serve

/-! ## The line loop -/

/-- The connection can be served. -/
structure Serving (fd : Fd) (c : ClientPtr) (s : Server) : Prop where
  reachable : ircserv.Reachable s
  clients : s.clients.find? fd = some c
  unmarked : s.isMarked fd = false

/-- `t` is what becomes of the lines `ls`, which arrive in a state like `s` with the input sides `i`,
with `rest` left over. -/
def Served (fd : Fd) (c : ClientPtr) (s : Server) (i : ClientPtr → Input) (ls : List Bytes)
    (rest : Bytes) (t : Server) : Prop :=
  ∃ j taken, t = (serve fd c s ls).1.withInputs j ∧ (j c).lines = (i c).lines ++ taken ∧
    taken.filter (fun l => !l.isEmpty) = (serve fd c s ls).2 ∧
    ((serve fd c s ls).1.closing.contains fd = false → (j c).readBuffer = rest)

section loop

variable {fd : Fd} {c : ClientPtr} {s : Server} {i : ClientPtr → Input}

theorem Serving.receiveLine {t : Server} (h : Serving fd c t) (hready : t.lineReady fd c = true) :
    Serving fd c (t.receiveLine c) := by
  have hb := (reachable_clean h.reachable).2
  refine ⟨?_, ?_, ?_⟩
  · rw [← step_line h.clients]
    exact reachable_step h.reachable ⟨c, h.clients, hready⟩
  · rw [receiveLine_clients hb h.clients hready]
    exact h.clients
  · have hmark := isMarked_eq_false.mp h.unmarked
    rw [isMarked_eq_false]
    rcases shutdown_receiveLine hb h.clients hready with hsame | ⟨reason, hclosed⟩
    · rw [hsame]
      exact hmark
    · rw [hclosed, if_pos rfl]

/-- One round of the line loop: the line is taken, and run unless it is empty. -/
theorem receiveLine_withInputs {l w : Bytes} (hl : (10 : Byte) ∉ l)
    (hbuffer : (i c).readBuffer = l ++ 10 :: w) : ∃ j, (j c).readBuffer = w ∧
      (j c).lines = (i c).lines ++ [withoutCr l] ∧ (s.withInputs i).receiveLine c =
        (if (withoutCr l).isEmpty then s else s.operate c (withoutCr l)).withInputs j := by
  obtain ⟨hline, hrest⟩ := @popLine_append ((s.withInputs i).client c) l w hl hbuffer
  have hpopped : (s.withInputs i).updClient c (fun cl => cl.popLine.2) =
      s.withInputs (Function.update i c
        ⟨w, (i c).lines ++ [withoutCr l], (i c).lastActivity, (i c).pingSent⟩) := by
    simp only [updClient, hrest]
    simp only [withInputs, Server.mk.injEq, true_and, and_true]
    funext d
    by_cases hd : d = c
    · rw [hd, Function.update_self, Function.update_self]
      rfl
    · rw [Function.update_of_ne hd, Function.update_of_ne hd]
  generalize hj : Function.update i c
    ⟨w, (i c).lines ++ [withoutCr l], (i c).lastActivity, (i c).pingSent⟩ = j at hpopped
  have hjc : j c = ⟨w, (i c).lines ++ [withoutCr l], (i c).lastActivity, (i c).pingSent⟩ := by
    rw [← hj, Function.update_self]
  unfold receiveLine
  dsimp only
  rw [hline, hpopped]
  cases (withoutCr l).isEmpty with
  | true => exact ⟨j, by rw [hjc], by rw [hjc], rfl⟩
  | false =>
    obtain ⟨j', hsame, hrun⟩ := operate_withInputs s j c (withoutCr l)
    refine ⟨j', ?_, ?_, hrun⟩
    · rw [(hsame c).1, hjc]
    · rw [(hsame c).2, hjc]

theorem lineReady_of_line {l w : Bytes} (ht : Serving fd c (s.withInputs i))
    (hclosing : s.closing.contains fd = false) (hbuffer : (i c).readBuffer = l ++ 10 :: w) :
    (s.withInputs i).lineReady fd c = true := by
  have hcomplete : ((s.withInputs i).client c).hasCompleteLine = true := by
    simp [Client.hasCompleteLine, hbuffer]
  rw [lineReady, ht.unmarked, hcomplete, withInputs_closing, hclosing]
  rfl

theorem receiveLines_of_not_ready (n : Nat) {t : Server} (h : t.lineReady fd c = false) :
    receiveLines n t fd c = t := by
  cases n with
  | zero => rfl
  | succ n => rw [receiveLines, if_neg (by simp [h])]

theorem receiveLines_served {w : Bytes} (n : Nat) (hn : w.length ≤ n)
    (hbuffer : (i c).readBuffer = w) (ht : Serving fd c (s.withInputs i))
    (hclosing : s.closing.contains fd = false) :
    Serving fd c (receiveLines n (s.withInputs i) fd c) ∧
      Served fd c s i ((terminated 10 w).map withoutCr) (remainder 10 w)
        (receiveLines n (s.withInputs i) fd c) := by
  induction w using stream_induction (10 : Byte) generalizing n s i with
  | rest w hw =>
    have hready : (s.withInputs i).lineReady fd c = false := by
      have hcomplete : ((s.withInputs i).client c).hasCompleteLine = false := by
        simpa [Client.hasCompleteLine, hbuffer] using hw
      rw [lineReady, hcomplete, Bool.and_false, Bool.false_and]
    rw [receiveLines_of_not_ready n hready, terminated_of_not_mem hw, remainder_of_not_mem hw]
    exact ⟨ht, i, [], rfl, (List.append_nil _).symm, rfl, fun _ => hbuffer⟩
  | line l w hl ih =>
    have hready := lineReady_of_line ht hclosing hbuffer
    obtain ⟨j, hrest, hlines, hround⟩ := receiveLine_withInputs (s := s) hl hbuffer
    have hnext := ht.receiveLine hready
    cases n with
    | zero => simp at hn
    | succ n =>
      rw [receiveLines, if_pos hready, terminated_cons hl, remainder_cons, List.map_cons]
      rw [hround] at hnext ⊢
      have hn' : w.length ≤ n := by
        simp only [List.length_append, List.length_cons] at hn
        omega
      cases hempty : (withoutCr l).isEmpty with
      | true =>
        rw [hempty] at hnext
        obtain ⟨hserving, j', taken, hout, htaken, hfilter, hleft⟩ :=
          ih n hn' hrest hnext hclosing
        rw [hlines] at htaken
        refine ⟨hserving, j', withoutCr l :: taken, ?_, ?_, ?_, ?_⟩
        · rw [serve_empty hempty]
          exact hout
        · rw [htaken, List.append_assoc]
          rfl
        · rw [serve_empty hempty, List.filter_cons_of_neg (by simp [hempty])]
          exact hfilter
        · rw [serve_empty hempty]
          exact hleft
      | false =>
        rw [hempty] at hnext
        simp only [Bool.false_eq_true, if_false] at hnext ⊢
        cases hclosed : (s.operate c (withoutCr l)).closing.contains fd with
        | true =>
          have hdone : ((s.operate c (withoutCr l)).withInputs j).lineReady fd c = false := by
            simp [lineReady, hclosed]
          rw [receiveLines_of_not_ready n hdone]
          refine ⟨hnext, j, [withoutCr l], ?_, hlines, ?_, fun hopen => ?_⟩
          · rw [serve_closing hempty hclosed]
          · rw [serve_closing hempty hclosed, List.filter_cons_of_pos (by simp [hempty])]
            rfl
          · rw [serve_closing hempty hclosed] at hopen
            exact absurd (hopen.symm.trans hclosed) (by decide)
        | false =>
          obtain ⟨hserving, j', taken, hout, htaken, hfilter, hleft⟩ :=
            ih n hn' hrest hnext hclosed
          rw [hlines] at htaken
          refine ⟨hserving, j', withoutCr l :: taken, ?_, ?_, ?_, ?_⟩
          · rw [serve_going hempty hclosed]
            exact hout
          · rw [htaken, List.append_assoc]
            rfl
          · rw [serve_going hempty hclosed, List.filter_cons_of_pos (by simp [hempty]), hfilter]
          · rw [serve_going hempty hclosed]
            exact hleft

end loop

end Server
end FtIrc
