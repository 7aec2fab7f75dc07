import FtIrc.State.Parse

/-!
# The grammar of a line

What a line of the protocol looks like, written independently of the scanner, and that `spliter`
reads back every rendered line and refuses exactly the lines outside the grammar.
-/

namespace FtIrc

/-! ## Lines as they are written -/

instance (s : Bytes) : Decidable (Clean s) :=
  inferInstanceAs (Decidable (∀ b ∈ s, b ≠ 0 ∧ b ≠ 10 ∧ b ≠ 13))

/-- A part of a line that stands between spaces. -/
structure IsWord (s : Bytes) : Prop where
  nonempty : s ≠ []
  noSpace : byte ' ' ∉ s
  clean : Clean s

/-- A part of a line that is not announced by a colon. -/
structure IsMiddle (s : Bytes) : Prop extends IsWord s where
  noColon : s.head? ≠ some (byte ':')

/-- A separator: one space and `more` further ones. -/
def gap (more : Nat) : Bytes := List.replicate (more + 1) (byte ' ')

/-- The last parameter, behind its separator and, unless it may be left out, its colon. -/
structure Trailing where
  more : Nat
  colon : Bool
  text : Bytes
  clean : Clean text
  /-- Without the colon the text has to show where it starts. -/
  bare : colon = false →
    text ≠ [] ∧ text.head? ≠ some (byte ' ') ∧ text.head? ≠ some (byte ':')

def Trailing.body (t : Trailing) : Bytes := if t.colon then byte ':' :: t.text else t.text

/-- The parts of a line; a number is that of the additional spaces of a separator. -/
structure Form where
  origin : Option (Bytes × Nat)
  command : Bytes
  middles : List (Nat × Bytes)
  trailing : Option Trailing
  isWord_origin : ∀ o ∈ origin, IsWord o.1
  isMiddle_command : IsMiddle command
  isMiddle_middles : ∀ m ∈ middles, IsMiddle m.2
  length_middles : middles.length ≤ 14
  /-- Only a fifteenth parameter is the last one without saying so. -/
  full : ∀ t ∈ trailing, t.colon = false → middles.length = 14

/-- The parameters as they are written. -/
def writeParameters (middles : List (Nat × Bytes)) (trailing : Option Trailing) : Bytes :=
  (middles.flatMap fun m => gap m.1 ++ m.2) ++
    trailing.elim [] fun t => gap t.more ++ t.body

def Form.render (f : Form) : Bytes :=
  (f.origin.elim [] fun o => byte ':' :: o.1 ++ gap o.2) ++
    (f.command ++ writeParameters f.middles f.trailing)

def Form.parameters (f : Form) : List Bytes :=
  f.middles.map Prod.snd ++ (f.trailing.map Trailing.text).toList

def Form.message (f : Form) : Message where
  existPrefix := f.origin.isSome
  msgPrefix := f.origin.elim [] Prod.fst
  command := f.command.map toupper
  parameter := f.parameters

/-! ## Scanning over the parts -/

/-- The text is over or goes on with a separator. -/
def Stops (s : Bytes) : Prop := ∀ b ∈ s.head?, b = byte ' '

/-- Nothing but spaces. -/
def Blank (s : Bytes) : Prop := ∀ b ∈ s, b = byte ' '

instance (s : Bytes) : Decidable (Blank s) := inferInstanceAs (Decidable (∀ b ∈ s, b = byte ' '))

theorem skipSpaces_append {lead s : Bytes} (h : Blank lead) :
    skipSpaces (lead ++ s) = skipSpaces s := by
  unfold skipSpaces
  rw [List.dropWhile_append_of_pos]
  intro b hb
  simpa using h b hb

theorem blank_gap (more : Nat) : Blank (gap more) := fun _ hb => List.eq_of_mem_replicate hb

theorem skipSpaces_of_head {s t : Bytes} (hne : s ≠ []) (hs : s.head? ≠ some (byte ' ')) :
    skipSpaces (s ++ t) = s ++ t := by
  cases s with
  | nil => exact absurd rfl hne
  | cons b s =>
    have hb : b ≠ byte ' ' := by simpa using hs
    simp [skipSpaces, hb]

theorem token_stops {s t : Bytes} (hs : byte ' ' ∉ s) (ht : Stops t) : token (s ++ t) = s := by
  unfold token
  rw [List.takeWhile_append_of_pos]
  · cases t with
    | nil => simp
    | cons b t =>
      obtain rfl : b = byte ' ' := ht b rfl
      simp
  · intro b hb
    have hne : b ≠ byte ' ' := fun h => hs (h ▸ hb)
    simpa using hne

theorem afterToken_stops {s t : Bytes} (hs : byte ' ' ∉ s) (ht : Stops t) :
    afterToken (s ++ t) = t := by
  have hsplit : token (s ++ t) ++ afterToken (s ++ t) = s ++ t := List.takeWhile_append_dropWhile ..
  rw [token_stops hs ht] at hsplit
  exact List.append_cancel_left hsplit

theorem stops_gap (more : Nat) (s : Bytes) : Stops (gap more ++ s) := by
  intro b hb
  simpa [gap, List.replicate_succ] using hb.symm

theorem IsWord.head {s : Bytes} (h : IsWord s) : s.head? ≠ some (byte ' ') := by
  intro hs
  exact h.noSpace (List.mem_of_head? hs)

theorem stops_writeParameters (middles : List (Nat × Bytes)) (trailing : Option Trailing) :
    Stops (writeParameters middles trailing) := by
  unfold writeParameters
  cases middles with
  | cons m ms =>
    rw [List.flatMap_cons, List.append_assoc, List.append_assoc]
    exact stops_gap _ _
  | nil =>
    cases trailing with
    | none => intro b hb; simp at hb
    | some t => exact stops_gap _ _

theorem writeParameters_eq_nil {middles : List (Nat × Bytes)} {trailing : Option Trailing} :
    writeParameters middles trailing = [] ↔ middles = [] ∧ trailing = none := by
  constructor
  · intro h
    unfold writeParameters at h
    constructor
    · cases middles with
      | nil => rfl
      | cons m ms => simp [gap, List.replicate_succ] at h
    · cases trailing with
      | none => rfl
      | some t => simp [gap, List.replicate_succ] at h
  · intro ⟨hm, ht⟩
    rw [hm, ht]
    rfl

theorem Trailing.skipSpaces_body (t : Trailing) : skipSpaces t.body = t.body := by
  unfold Trailing.body
  cases hc : t.colon with
  | true =>
    have hcolon : byte ':' ≠ byte ' ' := by decide
    simp [skipSpaces, hcolon]
  | false =>
    obtain ⟨hne, hspace, -⟩ := t.bare hc
    simpa using skipSpaces_of_head (t := []) hne hspace

/-- The last parameter is read whatever the count when it has its colon, and without the colon
when the count is used up. -/
theorem splitParameters_body (t : Trailing) {left : Nat} (hleft : t.colon = false → left = 0) :
    splitParameters left t.body = [t.text] := by
  unfold Trailing.body
  cases hc : t.colon with
  | true => cases left <;> simp [splitParameters]
  | false =>
    obtain ⟨hne, -, hcolon⟩ := t.bare hc
    obtain rfl := hleft hc
    cases htext : t.text with
    | nil => exact absurd htext hne
    | cons b text =>
      have hb : b ≠ byte ':' := by simpa [htext] using hcolon
      simp [splitParameters, hb]

/-- The parameter loop reads back what is written, `left` being what the middle parameters may
still use. -/
theorem splitParameters_writeParameters {middles : List (Nat × Bytes)}
    {trailing : Option Trailing} {left : Nat} (hm : ∀ m ∈ middles, IsMiddle m.2)
    (hleft : middles.length ≤ left)
    (hfull : ∀ t ∈ trailing, t.colon = false → middles.length = left) :
    splitParameters left (skipSpaces (writeParameters middles trailing)) =
      middles.map Prod.snd ++ (trailing.map Trailing.text).toList := by
  induction middles generalizing left with
  | nil =>
    cases trailing with
    | none => simp [writeParameters, skipSpaces, splitParameters]
    | some t =>
      have hbody := @splitParameters_body t left fun hc => (hfull t rfl hc).symm
      simpa [writeParameters, skipSpaces_append (blank_gap _), t.skipSpaces_body] using hbody
  | cons m ms ih =>
    obtain ⟨left, rfl⟩ : ∃ l, left = l + 1 := ⟨left - 1, by simp at hleft; omega⟩
    have hword := hm m (by simp)
    have hstops := stops_writeParameters ms trailing
    have hsplit : writeParameters (m :: ms) trailing =
        gap m.1 ++ (m.2 ++ writeParameters ms trailing) := by
      simp [writeParameters]
    have hrest := @ih left (fun x hx => hm x (by simp [hx])) (by simpa using hleft)
      (fun t ht hc => by simpa using hfull t ht hc)
    rw [hsplit, skipSpaces_append (blank_gap _), skipSpaces_of_head hword.nonempty hword.head]
    have hafter := afterToken_stops hword.noSpace hstops
    have htoken := token_stops hword.noSpace hstops
    obtain ⟨b, text, htext⟩ := List.exists_cons_of_ne_nil hword.nonempty
    have hb : b ≠ byte ':' := by simpa [htext] using hword.noColon
    rw [htext] at hafter htoken ⊢
    rw [List.cons_append] at hafter htoken ⊢
    rw [splitParameters, if_neg hb, hafter, htoken]
    split_ifs with hnil
    · obtain ⟨rfl, rfl⟩ := writeParameters_eq_nil.mp hnil
      simp [writeParameters, htext]
    · rw [hrest]
      simp [htext]

/-! ## The line around the scanner -/

theorem spliter_scan (raw : Bytes) :
    spliter raw =
      if raw.isEmpty then none else
      if (cutInput raw).contains 0 then none else
      if (cutInput raw).findIdx? (· = 13) ≠ none ∧
          (cutInput raw).findIdx? (· = 13) ≠ some ((cutInput raw).length - 1) then none else
      scan (if (cutInput raw).findIdx? (· = 13) = some ((cutInput raw).length - 1) then
        (cutInput raw).take ((cutInput raw).length - 1) else cutInput raw) := rfl

theorem spliter_eq_scan {line : Bytes} (hne : line ≠ []) (hlen : line.length ≤ 510) :
    spliter line =
      if 0 ∈ line ∨ 13 ∈ line.dropLast then none else scan (withoutCr line) := by
  have hcut : cutInput line = line := by
    unfold cutInput
    exact if_neg (by omega)
  have hempty : line.isEmpty = false := by simpa using hne
  obtain ⟨init, last, rfl⟩ : ∃ init last, line = init ++ [last] :=
    ⟨line.dropLast, line.getLast hne, (List.dropLast_append_getLast hne).symm⟩
  rw [spliter_scan, hempty, hcut]
  by_cases h0 : (0 : Byte) ∈ init ++ [last]
  · simp [h0]
  · have h0' : (init ++ [last]).contains 0 = false := by simpa using h0
    simp only [h0', h0, List.dropLast_concat, Bool.false_eq_true, if_false, false_or]
    by_cases hin : (13 : Byte) ∈ init
    · -- a carriage return before the last byte is found first
      obtain ⟨i, hi⟩ : ∃ i, init.findIdx? (· = 13) = some i := by
        apply Option.ne_none_iff_exists'.mp
        intro hnone
        simpa using List.findIdx?_eq_none_iff.mp hnone 13 hin
      have hlt : i < init.length := (List.findIdx?_eq_some_iff_getElem.mp hi).1
      have hidx : (init ++ [last]).findIdx? (· = 13) = some i := by
        rw [List.findIdx?_append, hi]
        rfl
      have hpos : i ≠ init.length := by omega
      simp [hidx, hin, hpos]
    · have hnone : init.findIdx? (· = 13) = none := by
        apply List.findIdx?_eq_none_iff.mpr
        intro b hb
        have hb13 : b ≠ 13 := fun h => hin (h ▸ hb)
        simpa using hb13
      by_cases hlast : last = 13
      · subst hlast
        have hidx : (init ++ [13]).findIdx? (· = 13) = some init.length := by
          rw [List.findIdx?_append, hnone]
          simp
        simp [hidx, hin, withoutCr]
      · have hidx : (init ++ [last]).findIdx? (· = 13) = none := by
          rw [List.findIdx?_append, hnone]
          simp [hlast]
        simp [hidx, hin, hlast, withoutCr]

/-! ## What the scanner accepts -/

/-- After leading spaces, a token with a colon in front, and nothing but spaces behind it. -/
def OriginOnly (s : Bytes) : Prop :=
  ∃ lead name tail, s = lead ++ byte ':' :: name ++ tail ∧
    Blank lead ∧ byte ' ' ∉ name ∧ Blank tail

theorem skipSpaces_eq_nil {s : Bytes} : skipSpaces s = [] ↔ Blank s := by
  unfold skipSpaces Blank
  rw [List.dropWhile_eq_nil_iff]
  simp

theorem takeSpaces_append (s : Bytes) :
    ∃ lead, Blank lead ∧ s = lead ++ skipSpaces s := by
  refine ⟨s.takeWhile (· = byte ' '), ?_, (List.takeWhile_append_dropWhile ..).symm⟩
  intro b hb
  simpa using List.mem_takeWhile_imp hb

theorem Blank.stops {s : Bytes} (h : Blank s) : Stops s :=
  fun b hb => h b (List.mem_of_head? hb)

theorem scan_eq_none {s : Bytes} : scan s = none ↔ Blank s ∨ OriginOnly s := by
  constructor
  · intro h
    unfold scan at h
    split at h
    · next hskip => exact .inl (skipSpaces_eq_nil.mp hskip)
    · next first rest hskip =>
      split_ifs at h with hfirst
      subst hfirst
      have hafter : Blank (afterToken rest) := by
        split at h
        · next hnil => simp [hnil, Blank]
        · split at h
          · next hblank => exact skipSpaces_eq_nil.mp hblank
          · cases h
      obtain ⟨lead, hlead, hs⟩ := takeSpaces_append s
      refine .inr ⟨lead, token rest, afterToken rest, ?_, hlead, space_not_mem_token rest, hafter⟩
      calc s = lead ++ byte ':' :: rest := by rw [← hskip]; exact hs
        _ = lead ++ byte ':' :: (token rest ++ afterToken rest) := by
          rw [show token rest ++ afterToken rest = rest from List.takeWhile_append_dropWhile ..]
        _ = lead ++ byte ':' :: token rest ++ afterToken rest := by simp
  · intro h
    rcases h with hblank | ⟨lead, name, tail, rfl, hlead, hname, htail⟩
    · unfold scan
      rw [skipSpaces_eq_nil.mpr hblank]
    · have hskip : skipSpaces (lead ++ byte ':' :: name ++ tail) = byte ':' :: (name ++ tail) := by
        have hcolon : byte ':' ≠ byte ' ' := by decide
        rw [List.append_assoc, skipSpaces_append hlead]
        simp [skipSpaces, hcolon]
      unfold scan
      rw [hskip]
      simp only [if_true, afterToken_stops hname htail.stops]
      cases tail with
      | nil => rfl
      | cons b tail => simp [skipSpaces_eq_nil.mpr htail]

theorem clean_append {s t : Bytes} (hs : Clean s) (ht : Clean t) : Clean (s ++ t) :=
  fun b hb => (List.mem_append.mp hb).elim (hs b) (ht b)

theorem clean_gap (more : Nat) : Clean (gap more) := by
  intro b hb
  rw [List.eq_of_mem_replicate hb]
  decide

theorem clean_colon {s : Bytes} (hs : Clean s) : Clean (byte ':' :: s) := by
  intro b hb
  rcases List.mem_cons.mp hb with rfl | hb
  · decide
  · exact hs b hb

theorem Trailing.clean_body (t : Trailing) : Clean t.body := by
  unfold Trailing.body
  split_ifs
  · exact clean_colon t.clean
  · exact t.clean

theorem clean_writeParameters {middles : List (Nat × Bytes)} {trailing : Option Trailing}
    (hm : ∀ m ∈ middles, IsMiddle m.2) : Clean (writeParameters middles trailing) := by
  apply clean_append
  · intro b hb
    obtain ⟨m, hmem, hb⟩ := List.mem_flatMap.mp hb
    exact clean_append (clean_gap _) (hm m hmem).clean b hb
  · cases trailing with
    | none => intro b hb; simp at hb
    | some t => exact clean_append (clean_gap _) t.clean_body

theorem Form.clean_render (f : Form) : Clean f.render := by
  apply clean_append
  · cases ho : f.origin with
    | none => intro b hb; simp at hb
    | some o =>
      exact clean_append (clean_colon (f.isWord_origin o (by simp [ho])).clean) (clean_gap _)
  · exact clean_append f.isMiddle_command.clean (clean_writeParameters f.isMiddle_middles)

theorem Form.splitCommand_render (f : Form) (existPrefix : Bool) (msgPrefix : Bytes) :
    splitCommand existPrefix msgPrefix (f.command ++ writeParameters f.middles f.trailing) =
      ⟨existPrefix, msgPrefix, f.command.map toupper, f.parameters⟩ := by
  have hstops := stops_writeParameters f.middles f.trailing
  unfold splitCommand
  rw [token_stops f.isMiddle_command.noSpace hstops,
    afterToken_stops f.isMiddle_command.noSpace hstops,
    splitParameters_writeParameters f.isMiddle_middles f.length_middles f.full]
  rfl

theorem Form.scan_render (f : Form) : scan f.render = some f.message := by
  have hcommand := f.isMiddle_command
  have hskip : skipSpaces (f.command ++ writeParameters f.middles f.trailing) =
      f.command ++ writeParameters f.middles f.trailing :=
    skipSpaces_of_head hcommand.nonempty hcommand.head
  have hmessage := f.splitCommand_render
  obtain ⟨first, rest, hfirst⟩ := List.exists_cons_of_ne_nil hcommand.nonempty
  have hcolon : first ≠ byte ':' := by simpa [hfirst] using hcommand.noColon
  unfold scan Form.render Form.message
  cases ho : f.origin with
  | none =>
    rw [Option.elim_none, List.nil_append, hskip, hfirst, List.cons_append]
    rw [hfirst, List.cons_append] at hmessage
    simp [hcolon, hmessage]
  | some o =>
    have hword := f.isWord_origin o (by simp [ho])
    have hstops := stops_gap o.2 (f.command ++ writeParameters f.middles f.trailing)
    have hne : gap o.2 ++ (f.command ++ writeParameters f.middles f.trailing) ≠ [] := by
      simp [gap, List.replicate_succ]
    have hline : byte ':' :: o.1 ++ gap o.2 ++ (f.command ++ writeParameters f.middles f.trailing) =
        byte ':' :: (o.1 ++ (gap o.2 ++ (f.command ++ writeParameters f.middles f.trailing))) := by
      simp
    have hopen : ∀ s, skipSpaces (byte ':' :: s) = byte ':' :: s := fun s =>
      skipSpaces_of_head (s := [byte ':']) (by simp) (by simp; decide)
    rw [Option.elim_some, hline, hopen]
    simp only [if_true, token_stops hword.noSpace hstops, afterToken_stops hword.noSpace hstops]
    obtain ⟨b, behind, hbehind⟩ := List.exists_cons_of_ne_nil hne
    have hbody : skipSpaces (b :: behind) =
        first :: (rest ++ writeParameters f.middles f.trailing) := by
      rw [← hbehind, skipSpaces_append (blank_gap _), hskip, hfirst, List.cons_append]
    rw [hbehind]
    rw [hfirst, List.cons_append] at hmessage
    simp [hbody, hmessage, hword.nonempty, hfirst]

/-- Parsing gives every rendered message back, and the lines it refuses are those that contain
a NUL or an inner carriage return, or in which, a final carriage return aside, no command is
left. -/
theorem spliter_grammar :
    (∀ f : Form, f.render.length ≤ 510 → spliter f.render = some f.message) ∧
      ∀ line : Bytes, line ≠ [] → line.length ≤ 510 →
        (spliter line = none ↔
          0 ∈ line ∨ 13 ∈ line.dropLast ∨ Blank (withoutCr line) ∨
            OriginOnly (withoutCr line)) := by
  constructor
  · intro f hlen
    have hne : f.render ≠ [] := by
      unfold Form.render
      simp [f.isMiddle_command.nonempty]
    have hclean := f.clean_render
    have h0 : (0 : Byte) ∉ f.render := fun h => (hclean 0 h).1 rfl
    have h13 : (13 : Byte) ∉ f.render := fun h => (hclean 13 h).2.2 rfl
    have hlast : 13 ∉ f.render.dropLast := fun h => h13 (List.mem_of_mem_dropLast h)
    have hcr : withoutCr f.render = f.render := by
      unfold withoutCr
      exact if_neg fun h => h13 (List.mem_of_getLast? h)
    rw [spliter_eq_scan hne hlen, if_neg (by simp [h0, hlast]), hcr, f.scan_render]
  · intro line hne hlen
    rw [spliter_eq_scan hne hlen]
    split_ifs with hbad
    · constructor
      · intro _
        rcases hbad with h | h
        · exact .inl h
        · exact .inr (.inl h)
      · intro _
        rfl
    · obtain ⟨h0, h13⟩ := not_or.mp hbad
      rw [scan_eq_none]
      simp only [h0, h13, false_or]

/-- `:ann  privmsg #a   :see you` -/
def greetingForm : Form where
  origin := some (ascii "ann", 1)
  command := ascii "privmsg"
  middles := [(0, ascii "#a")]
  trailing := some ⟨2, true, ascii "see you", by decide +kernel, by simp⟩
  isWord_origin := by
    simp only [Option.mem_some_iff, forall_eq']
    exact ⟨by decide, by decide, by decide +kernel⟩
  isMiddle_command := ⟨⟨by decide, by decide, by decide +kernel⟩, by decide⟩
  isMiddle_middles := by
    simp only [List.mem_singleton, forall_eq]
    exact ⟨⟨by decide, by decide, by decide +kernel⟩, by decide⟩
  length_middles := by decide
  full := by simp

theorem spliter_grammar_greeting :
    spliter (ascii ":ann  privmsg #a   :see you") =
        some ⟨true, ascii "ann", ascii "PRIVMSG", [ascii "#a", ascii "see you"]⟩ ∧
      spliter (ascii "  :ann \r") = none := by
  constructor
  · exact spliter_grammar.1 greetingForm (by decide)
  · apply (spliter_grammar.2 (ascii "  :ann \r") (by decide) (by decide)).mpr
    refine .inr (.inr (.inr ⟨ascii "  ", ascii "ann", ascii " ", ?_, ?_, ?_, ?_⟩))
    all_goals decide +kernel

end FtIrc
