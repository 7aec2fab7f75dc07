import FtIrc.State.Cuts

/-!
# What a parsed line consists of

The parts of a message are cut out of the line at spaces and after a leading colon, so a property
that these cuts keep passes from the line to its parts.
-/

namespace FtIrc

/-- A property of texts that the parts of a line inherit from the line. -/
structure PiecePred (P : Bytes → Prop) : Prop where
  token : ∀ {r}, P r → P (token r)
  afterToken : ∀ {r}, P r → P (afterToken r)
  skipSpaces : ∀ {r}, P r → P (skipSpaces r)
  tail : ∀ {r}, P (byte ':' :: r) → P r
  upper : ∀ {r}, P r → P (r.map toupper)

theorem space_not_mem_token (r : Bytes) : byte ' ' ∉ token r := by
  intro h
  simpa using List.mem_takeWhile_imp h

section parameters

variable {P : Bytes → Prop}

theorem splitParameters_pieces (hP : PiecePred P) (left : Nat) {rest : Bytes} (h : P rest) :
    ∀ x ∈ splitParameters left rest, P x := by
  induction left generalizing rest with
  | zero =>
    cases rest with
    | nil => simp [splitParameters]
    | cons c rest =>
      rw [splitParameters]
      split_ifs with hc
      · subst hc
        simpa using hP.tail h
      · simpa using h
  | succ left ih =>
    cases rest with
    | nil => simp [splitParameters]
    | cons c rest =>
      rw [splitParameters]
      split_ifs with hc
      · subst hc
        simpa using hP.tail h
      · simpa using h
      · intro x hx
        rcases List.mem_cons.mp hx with rfl | hx
        · exact hP.token h
        · exact ih (hP.skipSpaces (hP.afterToken h)) x hx

theorem splitParameters_middle (left : Nat) (rest : Bytes) :
    ∀ x ∈ (splitParameters left rest).dropLast, byte ' ' ∉ x := by
  induction left generalizing rest with
  | zero => cases rest <;> simp [splitParameters]
  | succ left ih =>
    cases rest with
    | nil => simp [splitParameters]
    | cons c rest =>
      rw [splitParameters]
      split_ifs with hc
      · simp
      · simp
      · intro x hx
        have hsub : x ∈ token (c :: rest) ::
            (splitParameters left (skipSpaces (afterToken (c :: rest)))).dropLast := by
          cases hs : splitParameters left (skipSpaces (afterToken (c :: rest))) with
          | nil => simp [hs] at hx
          | cons y ys => simpa [hs, List.dropLast_cons_of_ne_nil] using hx
        rcases List.mem_cons.mp hsub with rfl | hx
        · exact space_not_mem_token _
        · exact ih _ x hx

end parameters

/-- The line without a final carriage return. -/
def withoutCr (line : Bytes) : Bytes := if line.getLast? = some 13 then line.dropLast else line

/-- What `spliter` does with the line once a final carriage return is removed. -/
def scan (seared : Bytes) : Option Message :=
  match skipSpaces seared with
  | [] => none
  | first :: rest =>
    if first = byte ':' then
      match afterToken rest with
      | [] => none
      | after =>
        match skipSpaces after with
        | [] => none
        | body => some (splitCommand (token rest ≠ []) (token rest) body)
    else some (splitCommand false [] (first :: rest))

/-- An accepted line: without its final carriage return it contains no NUL and no carriage
return, and the message is the command part of a suffix of it. -/
theorem spliter_some {raw : Bytes} {msg : Message} (h : spliter raw = some msg) :
    ∃ seared, (0 : Byte) ∉ seared ∧ (13 : Byte) ∉ seared ∧
      (cutInput raw = seared ∨ cutInput raw = seared ++ [13]) ∧
      ((∃ body, skipSpaces seared = body ∧ msg = splitCommand false [] body) ∨
        ∃ rest, skipSpaces seared = byte ':' :: rest ∧
          msg = splitCommand (token rest ≠ []) (token rest) (skipSpaces (afterToken rest))) := by
  have hparse : ∀ seared : Bytes, scan seared = some msg →
      ((∃ body, skipSpaces seared = body ∧ msg = splitCommand false [] body) ∨
        ∃ rest, skipSpaces seared = byte ':' :: rest ∧
          msg = splitCommand (token rest ≠ []) (token rest) (skipSpaces (afterToken rest))) := by
    intro seared hs
    unfold scan at hs
    split at hs
    · cases hs
    · rename_i first rest hskip
      split_ifs at hs with hfirst
      · subst hfirst
        split at hs
        · cases hs
        · split at hs
          · cases hs
          · exact .inr ⟨rest, hskip, (Option.some.inj hs).symm⟩
      · exact .inl ⟨_, hskip, (Option.some.inj hs).symm⟩
  have hcr : ∀ s : Bytes, s.findIdx? (· = 13) = none → (13 : Byte) ∉ s := by
    intro s hs hin
    simpa using List.findIdx?_eq_none_iff.mp hs 13 hin
  unfold spliter at h
  dsimp only at h
  generalize cutInput raw = searing at h ⊢
  by_cases hend : searing.findIdx? (· = 13) = some (searing.length - 1)
  · simp only [hend, ne_eq, not_true_eq_false, and_false, if_false, if_true] at h
    split_ifs at h with h1 h2
    obtain ⟨hlt, hlast, hbefore⟩ := List.findIdx?_eq_some_iff_getElem.mp hend
    have hsplit : searing = searing.take (searing.length - 1) ++ [13] := by
      have hget : searing[searing.length - 1] = 13 := by simpa using hlast
      rw [← hget, List.take_append_getElem hlt]
      exact (List.take_of_length_le (by omega)).symm
    refine ⟨searing.take (searing.length - 1), ?_, ?_, .inr hsplit, hparse _ h⟩
    · intro hin
      exact h2 (by simpa using List.mem_of_mem_take hin)
    · intro hin
      obtain ⟨i, hi, hget⟩ := List.mem_iff_getElem.mp hin
      rw [List.length_take] at hi
      rw [List.getElem_take] at hget
      exact hbefore i (by omega) (by simpa using hget)
  · simp only [hend, ne_eq, not_false_eq_true, and_true, if_false] at h
    split_ifs at h with h1 h2 h3
    refine ⟨searing, ?_, hcr _ h3, .inl rfl, hparse _ h⟩
    intro hin
    exact h2 (by simpa using hin)

/-- The texts of a parsed line. -/
structure Message.Texts (P : Bytes → Prop) (msg : Message) : Prop where
  command : P msg.command
  parameter : ∀ x ∈ msg.parameter, P x
  /-- Only the last parameter can contain a space. -/
  middle : ∀ x ∈ msg.parameter.dropLast, byte ' ' ∉ x

theorem texts_splitCommand {P : Bytes → Prop} (hP : PiecePred P) (existPrefix : Bool)
    (msgPrefix : Bytes) {rest : Bytes} (h : P rest) :
    (splitCommand existPrefix msgPrefix rest).Texts P where
  command := hP.upper (hP.token h)
  parameter := splitParameters_pieces hP 14 (hP.skipSpaces (hP.afterToken h))
  middle := splitParameters_middle 14 _

theorem texts_spliter {P : Bytes → Prop} (hP : PiecePred P) {raw : Bytes} {msg : Message}
    (h : spliter raw = some msg)
    (hraw : ∀ seared, (0 : Byte) ∉ seared → (13 : Byte) ∉ seared →
      (cutInput raw = seared ∨ cutInput raw = seared ++ [13]) → P seared) : msg.Texts P := by
  obtain ⟨seared, h0, h13, hcut, hmsg⟩ := spliter_some h
  have hs := hP.skipSpaces (hraw seared h0 h13 hcut)
  rcases hmsg with ⟨body, hbody, rfl⟩ | ⟨rest, hrest, rfl⟩
  · exact texts_splitCommand hP _ _ (hbody ▸ hs)
  · exact texts_splitCommand hP _ _ (hP.skipSpaces (hP.afterToken (hP.tail (hrest ▸ hs))))

/-! ## Two properties of texts -/

/-- No line end and no NUL. -/
def Clean (s : Bytes) : Prop := ∀ b ∈ s, b ≠ 0 ∧ b ≠ 10 ∧ b ≠ 13

theorem piecePred_clean : PiecePred Clean where
  token h b hb := h b ((List.takeWhile_sublist _).subset hb)
  afterToken h b hb := h b ((List.dropWhile_sublist _).subset hb)
  skipSpaces h b hb := h b ((List.dropWhile_sublist _).subset hb)
  tail h b hb := h b (List.mem_cons_of_mem _ hb)
  upper h b hb := by
    obtain ⟨a, ha, rfl⟩ := List.mem_map.mp hb
    have hupper : ∀ a : Byte, a ≠ 0 ∧ a ≠ 10 ∧ a ≠ 13 →
        toupper a ≠ 0 ∧ toupper a ≠ 10 ∧ toupper a ≠ 13 := forall_byte (by decide +kernel)
    exact hupper a (h a ha)

/-- A valid string may be cut at a space. -/
theorem validUtf8_span {p : Byte → Bool} (hp : ∀ b, p b = false → b < 128) {r : Bytes}
    (hr : ValidUtf8 r) : ValidUtf8 (r.takeWhile p) ∧ ValidUtf8 (r.dropWhile p) := by
  cases hd : r.dropWhile p with
  | nil =>
    have htake : r.takeWhile p = r := by
      have happ := List.takeWhile_append_dropWhile (p := p) (l := r)
      rwa [hd, List.append_nil] at happ
    rw [htake]
    exact ⟨hr, validUtf8_nil⟩
  | cons b tl =>
    have happ := List.takeWhile_append_dropWhile (p := p) (l := r)
    rw [hd] at happ
    have hb : p b = false := by
      have hne := List.head_dropWhile_not p (l := r) (by simp [hd])
      simpa [hd] using hne
    rw [← happ] at hr
    exact ValidUtf8.of_append_cons (hp b hb) hr

theorem validUtf8_dropSpaces {r : Bytes} (hr : ValidUtf8 r) : ValidUtf8 (skipSpaces r) := by
  unfold skipSpaces
  induction r with
  | nil => simpa using hr
  | cons b r ih =>
    rw [List.dropWhile_cons]
    split_ifs with hb
    · obtain rfl : b = byte ' ' := by simpa using hb
      exact ih (hr.tail (by decide))
    · exact hr

theorem piecePred_validUtf8 : PiecePred ValidUtf8 where
  token h := (validUtf8_span (by simp; decide) h).1
  afterToken h := (validUtf8_span (by simp; decide) h).2
  skipSpaces := validUtf8_dropSpaces
  tail h := h.tail (by decide)
  upper h := h.map (forall_byte (by decide +kernel)) (forall_byte (by decide +kernel))

/-- A line in front of its line feed, parsed. -/
theorem texts_clean {raw : Bytes} {msg : Message} (h : spliter raw = some msg)
    (hlf : (10 : Byte) ∉ raw) : msg.Texts Clean := by
  refine texts_spliter piecePred_clean h fun seared h0 h13 hcut b hb => ⟨?_, ?_, ?_⟩
  · rintro rfl
    exact h0 hb
  · rintro rfl
    have hin : (10 : Byte) ∈ cutInput raw := by
      rcases hcut with hc | hc <;> simp [hc, hb]
    have hsub : cutInput raw ⊆ raw := by
      unfold cutInput
      split_ifs
      · exact List.take_subset _ _
      · exact List.Subset.refl _
    exact hlf (hsub hin)
  · rintro rfl
    exact h13 hb

theorem texts_validUtf8 {raw : Bytes} {msg : Message} (h : spliter raw = some msg)
    (hraw : ValidUtf8 raw) : msg.Texts ValidUtf8 := by
  refine texts_spliter piecePred_validUtf8 h fun seared _ _ hcut => ?_
  have hv := validUtf8_cutInput hraw
  rcases hcut with hc | hc
  · exact hc ▸ hv
  · rw [hc] at hv
    exact (ValidUtf8.of_append_cons (by decide) hv).1

end FtIrc
