import FtIrc.Effects.Serving

/-!
# Packet boundaries

A stream is run the same way however it is cut into the chunks that `recv` returns.
-/

namespace FtIrc
namespace Server

/-! ## One chunk -/

section chunk

variable {fd : Fd} {c : ClientPtr} {s : Server} {i : ClientPtr → Input} {buffer : Bytes}

/-- The state after a chunk has been put into the read buffer. -/
def arrived (s : Server) (c : ClientPtr) (buffer : Bytes) : Server :=
  s.updClient c fun cl =>
    ({ cl with readBuffer := cl.readBuffer ++ buffer }).updateLastActivity s.now

theorem arrived_readBuffer (s : Server) (c : ClientPtr) (buffer : Bytes) :
    ((s.arrived c buffer).client c).readBuffer = (s.client c).readBuffer ++ buffer := by
  rw [arrived, updClient_client_self]
  rfl

theorem arrived_shutdown (s : Server) (c : ClientPtr) (buffer : Bytes) (fd : Fd) :
    (s.arrived c buffer).shutdown fd = s.shutdown fd := rfl

/-- A chunk is too much when a long line has no end after it. -/
def Overflows (w : Bytes) : Prop := 8192 < w.length ∧ (10 : Byte) ∉ w

theorem receiveChunk_data (hclosing : s.closing.contains fd = false) (buffer : Bytes) :
    (Overflows ((s.client c).readBuffer ++ buffer) ∧
      s.receiveChunk fd c (.data buffer) = ((s.arrived c buffer).markForDisconnection fd
        (ascii "Input buffer overflow"), false)) ∨
    (¬ Overflows ((s.client c).readBuffer ++ buffer) ∧
      s.receiveChunk fd c (.data buffer) = (s.arrived c buffer, true)) := by
  have hover : (8192 < ((s.arrived c buffer).client c).readBuffer.length &&
      !((s.arrived c buffer).client c).hasCompleteLine) = true ↔
        Overflows ((s.client c).readBuffer ++ buffer) := by
    rw [Client.hasCompleteLine, arrived_readBuffer, Bool.and_eq_true, decide_eq_true_eq,
      Bool.not_eq_true', ← Bool.not_eq_true, List.contains_iff_mem]
    rfl
  simp only [receiveChunk, hclosing, Bool.false_eq_true, if_false]
  by_cases hlong : Overflows ((s.client c).readBuffer ++ buffer)
  · exact .inl ⟨hlong, if_pos (hover.mpr hlong)⟩
  · exact .inr ⟨hlong, if_neg fun h => hlong (hover.mp h)⟩

theorem receiveData_served (hsize : 1 ≤ buffer.length ∧ buffer.length ≤ 1024)
    (hs : Serving fd c (s.withInputs i)) (hclosing : s.closing.contains fd = false)
    (hfit : ¬ Overflows ((i c).readBuffer ++ buffer)) :
    Serving fd c ((s.withInputs i).receiveData fd (.data buffer)) ∧
      Served fd c s i ((terminated 10 ((i c).readBuffer ++ buffer)).map withoutCr)
        (remainder 10 ((i c).readBuffer ++ buffer))
        ((s.withInputs i).receiveData fd (.data buffer)) := by
  let j : ClientPtr → Input :=
    Function.update i c ⟨(i c).readBuffer ++ buffer, (i c).lines, s.now, false⟩
  have hj : j c = ⟨(i c).readBuffer ++ buffer, (i c).lines, s.now, false⟩ :=
    Function.update_self ..
  have harrived : (s.withInputs i).arrived c buffer = s.withInputs j := by
    simp only [arrived, updClient, withInputs, Server.mk.injEq, true_and, and_true, j]
    funext d
    by_cases hd : d = c
    · rw [hd, Function.update_self, Function.update_self]
      rfl
    · rw [Function.update_of_ne hd, Function.update_of_ne hd]
  have hchunk : (s.withInputs i).receiveChunk fd c (.data buffer) = (s.withInputs j, true) := by
    rcases @receiveChunk_data fd c (s.withInputs i) hclosing buffer with ⟨hlong, -⟩ | ⟨-, hchunk⟩
    · exact absurd hlong hfit
    · rw [hchunk, harrived]
  have hnext : Serving fd c (s.withInputs j) := by
    refine ⟨?_, hs.clients, hs.unmarked⟩
    have hstep : step (s.withInputs i) (.recv fd (.data buffer)) = s.withInputs j := by
      simp only [step, hs.clients, hchunk]
    rw [← hstep]
    exact reachable_step hs.reachable ⟨⟨c, hs.clients⟩, hsize⟩
  have hbuffer : ((s.withInputs j).client c).readBuffer = (i c).readBuffer ++ buffer := by
    rw [withInputs_client, Client.withInput_readBuffer, hj]
  have hdata : (s.withInputs i).receiveData fd (.data buffer) =
      receiveLines ((i c).readBuffer ++ buffer).length (s.withInputs j) fd c := by
    simp only [receiveData, hs.clients, hchunk, if_true]
    rw [hbuffer]
  obtain ⟨hserving, j', taken, hout, hlines, hfilter, hrest⟩ :=
    @receiveLines_served fd c s j ((i c).readBuffer ++ buffer) _ (le_refl _) (by rw [hj]) hnext
      hclosing
  rw [hj] at hlines
  rw [hdata]
  exact ⟨hserving, j', taken, hout, hlines, hfilter, hrest⟩

/-- A connection that is being closed keeps what it has. -/
theorem receiveData_closing (hc : s.clients.find? fd = some c)
    (hclosing : s.closing.contains fd = true) (buffer : Bytes) :
    s.receiveData fd (.data buffer) = s := by
  simp [receiveData, hc, receiveChunk, hclosing]

end chunk

/-! ## All chunks -/

/-- Chunks that arrive one after the other, with nothing in between. -/
def receiveChunks (s : Server) (fd : Fd) (chunks : List Bytes) : Server :=
  chunks.foldl (fun s buffer => s.receiveData fd (.data buffer)) s

/-- No stretch of more than 8192 bytes without a line feed. -/
def Bounded (w : Bytes) : Prop := ∀ v, v <:+: w → (10 : Byte) ∉ v → v.length ≤ 8192

theorem Bounded.mono {v w : Bytes} (h : Bounded w) (hv : v <:+: w) : Bounded v :=
  fun u hu => h u (hu.trans hv)

theorem receiveChunks_closing {s : Server} {fd : Fd} {c : ClientPtr}
    (hc : s.clients.find? fd = some c) (hclosing : s.closing.contains fd = true)
    (chunks : List Bytes) : s.receiveChunks fd chunks = s := by
  induction chunks with
  | nil => rfl
  | cons buffer chunks ih =>
    rw [receiveChunks, List.foldl_cons, receiveData_closing hc hclosing]
    exact ih

theorem receiveChunks_served {fd : Fd} {c : ClientPtr} {chunks : List Bytes}
    (hsize : ∀ b ∈ chunks, 1 ≤ b.length ∧ b.length ≤ 1024) {s : Server} {i : ClientPtr → Input}
    (hs : Serving fd c (s.withInputs i)) (hclosing : s.closing.contains fd = false)
    (hbuffer : (10 : Byte) ∉ (i c).readBuffer)
    (hfit : Bounded ((i c).readBuffer ++ chunks.flatten)) :
    Serving fd c ((s.withInputs i).receiveChunks fd chunks) ∧
      Served fd c s i ((terminated 10 ((i c).readBuffer ++ chunks.flatten)).map withoutCr)
        (remainder 10 ((i c).readBuffer ++ chunks.flatten))
        ((s.withInputs i).receiveChunks fd chunks) := by
  induction chunks generalizing s i with
  | nil =>
    rw [List.flatten_nil, List.append_nil, terminated_of_not_mem hbuffer,
      remainder_of_not_mem hbuffer]
    exact ⟨hs, i, [], rfl, (List.append_nil _).symm, rfl, fun _ => rfl⟩
  | cons buffer chunks ih =>
    rw [List.flatten_cons, ← List.append_assoc] at hfit ⊢
    have hlong : ¬ Overflows ((i c).readBuffer ++ buffer) := by
      intro ⟨hlength, hnot⟩
      have hle := hfit _ (List.prefix_append _ _).isInfix hnot
      omega
    obtain ⟨hserving, j, taken, hout, hlines, hfilter, hrest⟩ :=
      receiveData_served (hsize buffer List.mem_cons_self) hs hclosing hlong
    obtain ⟨hterm, hrem⟩ :=
      stream_append (10 : Byte) ((i c).readBuffer ++ buffer) chunks.flatten
    have hstep : (s.withInputs i).receiveChunks fd (buffer :: chunks) =
        ((s.withInputs i).receiveData fd (.data buffer)).receiveChunks fd chunks := rfl
    rw [hstep, hterm, hrem, List.map_append]
    rw [hout] at hserving ⊢
    generalize hw : (i c).readBuffer ++ buffer = w at *
    generalize hr : serve fd c s ((terminated 10 w).map withoutCr) = r at *
    cases hclosed : r.1.closing.contains fd with
    | true =>
      rw [receiveChunks_closing hserving.clients hclosed]
      refine ⟨hserving, j, taken, ?_, hlines, ?_, fun hopen => ?_⟩
      · rw [serve_append_closing hclosing (by rw [hr]; exact hclosed), hr]
      · rw [serve_append_closing hclosing (by rw [hr]; exact hclosed), hr]
        exact hfilter
      · rw [serve_append_closing hclosing (by rw [hr]; exact hclosed), hr] at hopen
        exact absurd (hopen.symm.trans hclosed) (by decide)
    | false =>
      have hleft := hrest hclosed
      have hclear : (10 : Byte) ∉ (j c).readBuffer := by
        rw [hleft]
        exact sep_not_mem_remainder 10 w
      have hfit' : Bounded ((j c).readBuffer ++ chunks.flatten) := by
        rw [hleft]
        obtain ⟨front, hfront⟩ := remainder_suffix (10 : Byte) w
        refine hfit.mono ⟨front, [], ?_⟩
        rw [List.append_nil, ← List.append_assoc, hfront]
      obtain ⟨hserving', j', taken', hout', hlines', hfilter', hrest'⟩ :=
        ih (fun b hb => hsize b (List.mem_cons_of_mem _ hb)) hserving hclosed hclear hfit'
      have hserve := @serve_append_going fd c s
        ((terminated 10 w).map withoutCr) (by rw [hr]; exact hclosed)
        ((terminated 10 (remainder 10 w ++ chunks.flatten)).map withoutCr)
      rw [hr] at hserve
      rw [hleft] at hout' hfilter' hrest'
      refine ⟨hserving', j', taken ++ taken', ?_, ?_, ?_, ?_⟩
      · rw [hserve]
        exact hout'
      · rw [hlines', hlines, List.append_assoc]
      · rw [hserve, List.filter_append, hfilter, hfilter']
      · rw [hserve]
        exact hrest'

/-! ## States between the calls -/

/-- The poll loop one call at a time: `receiveData` runs its line loop to the end. -/
def calls : System Server Event where
  Init := ircserv.Init
  Enabled s e := Enabled s e ∧ ∀ fd, e ≠ .line fd
  next s e :=
    match e with
    | .recv fd r => s.receiveData fd r
    | e => step s e

section calls

variable {s : Server} {fd : Fd} {c : ClientPtr}

theorem calls_next {e : Event} (h : ∀ fd r, e ≠ .recv fd r) : calls.next s e = step s e := by
  cases e with
  | recv fd r => exact absurd rfl (h fd r)
  | accept | line | send | pollError | pollTimeout | refresh | cleanup | idle | tick => rfl

theorem calls_reachable (h : calls.Reachable s) : ircserv.Reachable s := by
  induction h with
  | init h => exact .init h
  | @step s e _ he ih =>
    by_cases hrecv : ∃ fd r, e = .recv fd r
    · obtain ⟨fd, r, rfl⟩ := hrecv
      obtain ⟨k, hrun⟩ := receiveData_run ih he.1
      exact hrun.reachable ih
    · rw [calls_next fun fd r heq => hrecv ⟨fd, r, heq⟩]
      exact reachable_step ih he.1

/-- Only an `accept` makes connections. -/
theorem run_find {t : Server} {es : List Event} (h : ircserv.Run s es t)
    (hs : ircserv.Reachable s) (hes : ∀ e ∈ es, ∀ fd addr, e ≠ .accept (.accepted fd addr))
    (hc : t.clients.find? fd = some c) : s.clients.find? fd = some c := by
  induction h with
  | nil => exact hc
  | @cons s t e es he _ ih =>
    have hmid := ih (reachable_step hs he) (fun f hf => hes f (List.mem_cons_of_mem _ hf)) hc
    rcases step_find (reachable_clean hs).2 he hmid with hbefore | ⟨addr, heq, -⟩
    · exact hbefore
    · exact absurd heq (hes e List.mem_cons_self fd addr)

/-- A run in which no data of the connection arrives leaves it without a line to take. -/
theorem run_not_ready {t : Server} {es : List Event} (h : ircserv.Run s es t)
    (hs : ircserv.Reachable s) (hes : ∀ e ∈ es, ∀ fd addr, e ≠ .accept (.accepted fd addr))
    (hdata : ∀ e ∈ es, ∀ buffer, e ≠ .recv fd (.data buffer))
    (hc : t.clients.find? fd = some c) (hready : s.lineReady fd c = false) :
    t.lineReady fd c = false := by
  induction h with
  | nil => exact hready
  | @cons s t e es he hrest ih =>
    have hnext := reachable_step hs he
    have htail : ∀ f ∈ es, ∀ fd addr, f ≠ .accept (.accepted fd addr) :=
      fun f hf => hes f (List.mem_cons_of_mem _ hf)
    have hmid : (step s e).clients.find? fd = some c := run_find hrest hnext htail hc
    have hbefore := run_find (.cons he hrest) hs hes hc
    have hready' := (lineReady_step (reachable_clean hs).2 he hbefore hmid
      (hdata e List.mem_cons_self) hready).2
    exact ih hnext htail (fun f hf => hdata f (List.mem_cons_of_mem _ hf)) hc hready'

/-- No connection has a line to take. -/
def Drained (s : Server) : Prop :=
  ∀ fd c, s.clients.find? fd = some c → s.lineReady fd c = false

theorem not_ready_of_begun (h : (s.shutdown fd).Begun) : s.lineReady fd c = false := by
  rw [Bool.eq_false_iff]
  intro hready
  exact Shutdown.not_begun_iff.mpr (lineReady_iff.mp hready).1 h

theorem receiveData_not_ready (hs : ircserv.Reachable s) {r : RecvResult}
    (he : Enabled s (.recv fd r)) (hc : s.clients.find? fd = some c) :
    (s.receiveData fd r).lineReady fd c = false := by
  have hmarked : ∀ (t : Server) reason, (t.markForDisconnection fd reason).lineReady fd c = false := by
    intro t reason
    refine not_ready_of_begun ?_
    rw [shutdown_mark, if_pos rfl]
    exact Shutdown.begun_marked _ _
  cases r with
  | failed | closed =>
    simp only [receiveData, hc, receiveChunk, Bool.false_eq_true, if_false]
    exact hmarked _ _
  | data buffer =>
    cases hclosing : s.closing.contains fd with
    | true =>
      rw [receiveData_closing hc hclosing]
      refine not_ready_of_begun (.inl ?_)
      rw [StdMap.contains, Option.isSome_iff_ne_none] at hclosing
      exact hclosing
    | false =>
      rcases @receiveChunk_data fd c s hclosing buffer with ⟨-, hchunk⟩ | ⟨hfit, hchunk⟩
      · simp only [receiveData, hc, hchunk, Bool.false_eq_true, if_false]
        exact hmarked _ _
      cases hmark : s.isMarked fd with
      | true =>
        obtain ⟨reason, hreason⟩ := isMarked_iff.mp hmark
        have hready : (s.arrived c buffer).lineReady fd c = false := by
          refine not_ready_of_begun (.inr ?_)
          rw [arrived_shutdown, hreason]
          simp
        simp only [receiveData, hc, hchunk, if_true]
        rw [receiveLines_of_not_ready _ hready]
        exact hready
      | false =>
        have hserving : Serving fd c (s.withInputs s.inputs) := ⟨hs, hc, hmark⟩
        obtain ⟨-, j, taken, hout, -, -, hrest⟩ := receiveData_served he.2 hserving hclosing hfit
        rw [withInputs_inputs] at hout
        rw [hout]
        generalize serve fd c s _ = r at hrest ⊢
        cases hclosed : r.1.closing.contains fd with
        | true =>
          rw [lineReady, withInputs_closing, hclosed, Bool.not_true, Bool.and_false]
        | false =>
          have hclear := sep_not_mem_remainder (10 : Byte) ((s.inputs c).readBuffer ++ buffer)
          rw [← hrest hclosed] at hclear
          have hcomplete : ((r.1.withInputs j).client c).hasCompleteLine = false := by
            rw [← Bool.not_eq_true]
            intro hcontains
            exact hclear (List.contains_iff_mem.mp hcontains)
          rw [lineReady, hcomplete, Bool.and_false, Bool.false_and]

theorem calls_drained (h : calls.Reachable s) : s.Drained := by
  induction h with
  | init h =>
    obtain ⟨fd, password, heap, now, -, -, rfl⟩ := h
    intro fd' c hc
    simp [init] at hc
  | @step s e hs he ih =>
    have hreach := calls_reachable hs
    have hb := (reachable_clean hreach).2
    intro fd c hc
    by_cases hrecv : ∃ fd' r, e = .recv fd' r
    · obtain ⟨fd', r, rfl⟩ := hrecv
      have hdata : calls.next s (.recv fd' r) = s.receiveData fd' r := rfl
      rw [hdata] at hc ⊢
      obtain ⟨k, hrun⟩ := receiveData_run hreach he.1
      have hevents : ∀ f ∈ Event.recv fd' r :: List.replicate k (.line fd'),
          f = .recv fd' r ∨ f = .line fd' := by
        intro f hf
        rcases List.mem_cons.mp hf with heq | hin
        · exact .inl heq
        · exact .inr (List.mem_replicate.mp hin).2
      have haccept : ∀ f ∈ Event.recv fd' r :: List.replicate k (.line fd'),
          ∀ fd addr, f ≠ .accept (.accepted fd addr) := by
        intro f hf fd addr
        rcases hevents f hf with rfl | rfl <;> simp
      have hbefore := run_find hrun hreach haccept hc
      by_cases hfd : fd' = fd
      · subst hfd
        exact receiveData_not_ready hreach he.1 hbefore
      · refine run_not_ready hrun hreach haccept (fun f hf buffer => ?_) hc (ih fd c hbefore)
        rcases hevents f hf with rfl | rfl
        · simp [hfd]
        · simp
    · rw [calls_next fun fd r heq => hrecv ⟨fd, r, heq⟩] at hc ⊢
      rcases step_find hb he.1 hc with hbefore | ⟨addr, rfl, rfl⟩
      · exact (lineReady_step hb he.1 hbefore hc (fun buffer heq => hrecv ⟨_, _, heq⟩)
          (ih fd c hbefore)).2
      · have hclient : ((step s (.accept (.accepted fd addr))).client
            (s.heap.addr s.clients.values)).hasCompleteLine = false := by
          show ((s.acceptNewClient (.accepted fd addr)).client _).hasCompleteLine = false
          rw [accept_client, if_pos rfl]
          rfl
        rw [lineReady, hclient, Bool.and_false, Bool.false_and]

end calls

/-! ## Cuttings of a stream -/

/-- The lines of the client that have been handed to the parser since `s`. -/
def handed (s t : Server) (c : ClientPtr) : List Bytes :=
  ((t.client c).lines.drop (s.client c).lines.length).filter fun l => !l.isEmpty

/-- The outcome of a stream that arrives in chunks: the lines handed to the parser, and what is left
in the read buffer. -/
structure InputFraming (s : Server) (fd : Fd) (c : ClientPtr) (stream : Bytes) (t : Server) : Prop where
  handed : handed s t c = (serve fd c s
    ((terminated 10 ((s.client c).readBuffer ++ stream)).map withoutCr)).2
  unmarked : t.isMarked fd = false
  readBuffer : t.closing.contains fd = false →
    (t.client c).readBuffer = remainder 10 ((s.client c).readBuffer ++ stream)

theorem input_framing {s : Server} (h : calls.Reachable s) {fd : Fd} {c : ClientPtr}
    (hc : s.clients.find? fd = some c) (hmark : s.isMarked fd = false)
    (hclosing : s.closing.contains fd = false) {stream : Bytes}
    (hbounded : Bounded ((s.client c).readBuffer ++ stream)) {chunks : List Bytes}
    (hsize : ∀ b ∈ chunks, 1 ≤ b.length ∧ b.length ≤ 1024) (hcut : chunks.flatten = stream) :
    ∀ front back, chunks = front ++ back →
      InputFraming s fd c front.flatten (s.receiveChunks fd front) := by
  intro front back hsplit
  have hserving : Serving fd c (s.withInputs s.inputs) := ⟨calls_reachable h, hc, hmark⟩
  have hclear : (10 : Byte) ∉ (s.inputs c).readBuffer := by
    intro hline
    have hready := calls_drained h fd c hc
    have hcomplete : (s.client c).hasCompleteLine = true := List.contains_iff_mem.mpr hline
    rw [lineReady, hmark, hcomplete, hclosing] at hready
    cases hready
  have hfront : Bounded ((s.inputs c).readBuffer ++ front.flatten) := by
    refine hbounded.mono ⟨[], back.flatten, ?_⟩
    rw [← hcut, hsplit, List.flatten_append, List.nil_append, List.append_assoc]
    rfl
  obtain ⟨hserving', j, taken, hout, hlines, hfilter, hrest⟩ :=
    receiveChunks_served (fun b hb => hsize b (by rw [hsplit]; exact List.mem_append_left _ hb))
      hserving hclosing hclear hfront
  rw [withInputs_inputs] at hserving' hout
  constructor
  case handed =>
    have htaken : ((s.receiveChunks fd front).client c).lines = (s.client c).lines ++ taken := by
      rw [hout]
      exact hlines
    rw [handed, htaken, List.drop_left]
    exact hfilter
  case unmarked => exact hserving'.unmarked
  case readBuffer =>
    intro hopen
    rw [hout] at hopen ⊢
    exact hrest hopen

def Event.isLine : Event → Bool
  | .line _ => true
  | _ => false

/-- A test of the events of `calls`. -/
def called (s : Server) (e : Event) : Bool := s.enabled e && !e.isLine

theorem called_sound (s : Server) (e : Event) (h : s.called e = true) : calls.Enabled s e := by
  rw [called, Bool.and_eq_true] at h
  refine ⟨enabled_sound s e h.1, fun fd heq => ?_⟩
  rw [heq] at h
  cases h.2

/-- The end of a line is cut in two, and the third line closes the link. -/
def annChunks : List Bytes :=
  [ascii "JOIN #a\r", ascii "\nPRIVMSG #a :hi\r\n\r\nQU", ascii "IT :bye\nJOIN #b\r\nPART"]

theorem input_framing_ann : ∃ s, calls.play called started
      [.accept (.accepted 4 ⟨127, 0, 0, 1⟩),
        .recv 4 (.data (ascii "PASS secret\nNICK ann\nUSER ann 0 * :ann\n"))] = some s ∧
    handed s (s.receiveChunks 4 annChunks) 1 =
      [ascii "JOIN #a", ascii "PRIVMSG #a :hi", ascii "QUIT :bye"] ∧
    InputFraming s 4 1 annChunks.flatten (s.receiveChunks 4 annChunks) := by
  obtain ⟨s, hs, hview⟩ := Option.map_eq_some_iff.mp (by decide +kernel :
    (calls.play called started [.accept (.accepted 4 ⟨127, 0, 0, 1⟩),
      .recv 4 (.data (ascii "PASS secret\nNICK ann\nUSER ann 0 * :ann\n"))]).map (fun s =>
        (s.clients.find? 4, s.isMarked 4, s.closing.contains 4,
          decide ((s.client 1).readBuffer = []),
          decide (handed s (s.receiveChunks 4 annChunks) 1 =
            [ascii "JOIN #a", ascii "PRIVMSG #a :hi", ascii "QUIT :bye"]))) =
      some (some 1, false, false, true, true))
  simp only [Prod.mk.injEq, decide_eq_true_eq] at hview
  obtain ⟨hc, hmark, hclosing, hbuffer, hlines⟩ := hview
  have hreach : calls.Reachable s :=
    (System.Run.of_play called_sound hs).reachable (.init started_init)
  have hbounded : Bounded ((s.client 1).readBuffer ++ annChunks.flatten) := by
    intro v hv _
    rw [hbuffer] at hv
    exact hv.length_le.trans (by decide)
  exact ⟨s, hs, hlines, input_framing hreach hc hmark hclosing hbounded
    (by decide) rfl annChunks [] (List.append_nil _).symm⟩

end Server
end FtIrc
