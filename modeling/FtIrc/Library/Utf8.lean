import FtIrc.Library.Bytes

/-!
# UTF-8 byte strings

A byte string is valid UTF-8 when it is the encoding of a list of Unicode scalar values. A
position of a valid string is a character boundary exactly when the byte there is not a
continuation byte, and a boundary is never more than three bytes back.
-/

namespace FtIrc

def ValidUtf8 (s : Bytes) : Prop := ∃ cs : List Char, s = cs.flatMap String.utf8EncodeChar

/-- The byte has the form `10xxxxxx`. -/
def isContinuation (b : Byte) : Bool := b &&& 0xC0 == 0x80

theorem lt_128_not_continuation : ∀ b : Byte, b < 128 → isContinuation b = false :=
  forall_byte (by decide +kernel)

/-- The shape of one encoded character: an ASCII byte alone, or a byte above ASCII that is not a
continuation, followed by one to three continuation bytes. -/
structure EncodedChar (b : Byte) (tl : Bytes) : Prop where
  head : isContinuation b = false
  tail : ∀ t ∈ tl, isContinuation t = true
  length_le : tl.length ≤ 3
  single : b < 128 ↔ tl = []

private theorem continuation_byte :
    ∀ x : Byte, isContinuation (x &&& 0x3f ||| 0x80) = true :=
  forall_byte (by decide +kernel)

private theorem two_head : ∀ x : Byte, isContinuation (x &&& 0x1f ||| 0xc0) = false ∧
    ¬ (x &&& 0x1f ||| 0xc0) < 128 :=
  forall_byte (by decide +kernel)

private theorem three_head : ∀ x : Byte, isContinuation (x &&& 0x0f ||| 0xe0) = false ∧
    ¬ (x &&& 0x0f ||| 0xe0) < 128 :=
  forall_byte (by decide +kernel)

private theorem four_head : ∀ x : Byte, isContinuation (x &&& 0x07 ||| 0xf0) = false ∧
    ¬ (x &&& 0x07 ||| 0xf0) < 128 :=
  forall_byte (by decide +kernel)

theorem encodeChar_shape (c : Char) :
    ∃ b tl, String.utf8EncodeChar c = b :: tl ∧ EncodedChar b tl := by
  rcases c.utf8Size_eq with h | h | h | h
  · refine ⟨c.val.toUInt8, [], String.utf8EncodeChar_eq_singleton h, ?_⟩
    have hc : c.val.toNat ≤ 127 := by
      simpa [Char.utf8Size_eq_one_iff, UInt32.le_iff_toNat_le] using h
    have hb : c.val.toUInt8 < 128 := by
      rw [UInt8.lt_iff_toNat_lt]
      simp only [UInt32.toNat_toUInt8]
      have : (128 : UInt8).toNat = 128 := rfl
      omega
    exact ⟨lt_128_not_continuation _ hb, by simp, by simp, iff_of_true hb rfl⟩
  · refine ⟨_, _, String.utf8EncodeChar_eq_cons_cons h, (two_head _).1, ?_, by simp, ?_⟩
    · simp [continuation_byte]
    · simp only [(two_head _).2, reduceCtorEq]
  · refine ⟨_, _, String.utf8EncodeChar_eq_cons_cons_cons h, (three_head _).1, ?_, by simp, ?_⟩
    · simp [continuation_byte]
    · simp only [(three_head _).2, reduceCtorEq]
  · refine ⟨_, _, String.utf8EncodeChar_eq_cons_cons_cons_cons h, (four_head _).1, ?_, by simp, ?_⟩
    · simp [continuation_byte]
    · simp only [(four_head _).2, reduceCtorEq]

theorem validUtf8_nil : ValidUtf8 [] := ⟨[], rfl⟩

theorem ValidUtf8.append {s t : Bytes} (hs : ValidUtf8 s) (ht : ValidUtf8 t) :
    ValidUtf8 (s ++ t) := by
  obtain ⟨cs, rfl⟩ := hs
  obtain ⟨ds, rfl⟩ := ht
  exact ⟨cs ++ ds, by simp⟩

theorem validUtf8_encodeChar (c : Char) : ValidUtf8 (String.utf8EncodeChar c) := ⟨[c], by simp⟩

theorem validUtf8_ascii {s : Bytes} (h : ∀ b ∈ s, b < 128) : ValidUtf8 s := by
  induction s with
  | nil => exact validUtf8_nil
  | cons b s ih =>
    have hb : b.toNat < 128 := UInt8.lt_iff_toNat_lt.mp (h b List.mem_cons_self)
    have hone : ValidUtf8 [b] := by
      refine ⟨[Char.ofNat b.toNat], ?_⟩
      have hv : (Char.ofNat b.toNat).val.toNat = b.toNat := by
        have hvalid : b.toNat.isValidChar := Or.inl (by omega)
        simp [Char.ofNat, hvalid, Char.ofNatAux]
      have hsize : (Char.ofNat b.toNat).utf8Size = 1 := by
        rw [Char.utf8Size_eq_one_iff, UInt32.le_iff_toNat_le, hv]
        exact Nat.le_of_lt_succ hb
      rw [List.flatMap_singleton, String.utf8EncodeChar_eq_singleton hsize]
      congr 1
      apply UInt8.toNat_inj.mp
      rw [UInt32.toNat_toUInt8, hv]
      omega
    exact hone.append (ih fun x hx => h x (List.mem_cons_of_mem _ hx))

theorem Printable.validUtf8 {s : Bytes} (h : Printable s) : ValidUtf8 s :=
  validUtf8_ascii fun b hb => (h b hb).2.trans (by decide)

/-- Cutting a valid string in front of a byte that is not a continuation leaves valid parts. -/
theorem ValidUtf8.split {s : Bytes} (hs : ValidUtf8 s) {n : Nat}
    (hn : ∀ h : n < s.length, isContinuation s[n] = false) :
    ValidUtf8 (s.take n) ∧ ValidUtf8 (s.drop n) := by
  obtain ⟨cs, rfl⟩ := hs
  induction cs generalizing n with
  | nil => simp [validUtf8_nil]
  | cons c cs ih =>
    obtain ⟨b, tl, hc, hshape⟩ := encodeChar_shape c
    have hrest : ValidUtf8 (cs.flatMap String.utf8EncodeChar) := ⟨cs, rfl⟩
    have hcv : ValidUtf8 (b :: tl) := hc ▸ validUtf8_encodeChar c
    simp only [List.flatMap_cons, hc] at hn ⊢
    by_cases hlt : n < (b :: tl).length
    · -- inside the first character only its start is a boundary
      have hzero : n = 0 := by
        by_contra hne
        obtain ⟨m, rfl⟩ := Nat.exists_eq_succ_of_ne_zero hne
        have hm : m < tl.length := by simpa using hlt
        have hf := hn (by simp; omega)
        rw [List.getElem_append_left hlt, List.getElem_cons_succ,
          hshape.tail _ (List.getElem_mem hm)] at hf
        exact Bool.noConfusion hf
      subst hzero
      exact ⟨by simpa using validUtf8_nil, by simpa using hcv.append hrest⟩
    · have hle : (b :: tl).length ≤ n := Nat.le_of_not_lt hlt
      have hsub := ih (n := n - (b :: tl).length) fun h => by
        have hf := hn (by rw [List.length_append]; omega)
        rwa [List.getElem_append_right hle] at hf
      rw [List.take_append, List.drop_append, List.take_of_length_le hle,
        List.drop_eq_nil_of_le hle, List.nil_append]
      exact ⟨hcv.append hsub.1, hsub.2⟩

/-- From any position of a valid string a boundary is at most three bytes back. -/
theorem ValidUtf8.boundary_near {s : Bytes} (hs : ValidUtf8 s) {n : Nat} (hn : n < s.length) :
    ∃ k, k ≤ 3 ∧ k ≤ n ∧ isContinuation (s.getD (n - k) 0) = false ∧
      ∀ j < k, isContinuation (s.getD (n - j) 0) = true := by
  obtain ⟨cs, rfl⟩ := hs
  induction cs generalizing n with
  | nil => simp at hn
  | cons c cs ih =>
    obtain ⟨b, tl, hc, hshape⟩ := encodeChar_shape c
    simp only [List.flatMap_cons, hc] at hn ⊢
    by_cases hlt : n < (b :: tl).length
    · have hlen := hshape.length_le
      refine ⟨n, by simp at hlt; omega, le_rfl, ?_, ?_⟩
      · simpa using hshape.head
      · intro j hj
        obtain ⟨m, hm⟩ : ∃ m, n - j = m + 1 := ⟨n - j - 1, by omega⟩
        have hmt : m < tl.length := by simp at hlt; omega
        rw [hm, List.getD_append _ _ _ _ (by simpa using hmt), List.getD_cons_succ,
          List.getD_eq_getElem _ _ hmt]
        exact hshape.tail _ (List.getElem_mem hmt)
    · have hle : (b :: tl).length ≤ n := Nat.le_of_not_lt hlt
      have hr : n - (b :: tl).length < (cs.flatMap String.utf8EncodeChar).length := by
        rw [List.length_append] at hn
        omega
      obtain ⟨k, hk3, hkn, hstart, hcont⟩ := ih hr
      refine ⟨k, hk3, by omega, ?_, ?_⟩
      · rw [List.getD_append_right _ _ _ _ (by omega), Nat.sub_right_comm]
        exact hstart
      · intro j hj
        rw [List.getD_append_right _ _ _ _ (by omega), Nat.sub_right_comm]
        exact hcont j hj

/-- A valid string may be cut before an ASCII byte. -/
theorem ValidUtf8.of_append_cons {l r : Bytes} {b : Byte} (hb : b < 128)
    (h : ValidUtf8 (l ++ b :: r)) : ValidUtf8 l ∧ ValidUtf8 (b :: r) := by
  have hsplit := h.split (n := l.length) fun _ => by
    rw [List.getElem_append_right le_rfl]
    simpa using lt_128_not_continuation b hb
  simpa using hsplit

/-- An ASCII byte at the front of a valid string is a character of its own. -/
theorem ValidUtf8.tail {r : Bytes} {b : Byte} (hb : b < 128) (h : ValidUtf8 (b :: r)) :
    ValidUtf8 r := by
  obtain ⟨cs, hcs⟩ := h
  cases cs with
  | nil => simp at hcs
  | cons c cs =>
    obtain ⟨b', tl, hc, hshape⟩ := encodeChar_shape c
    rw [List.flatMap_cons, hc, List.cons_append, List.cons.injEq] at hcs
    obtain ⟨rfl, rfl⟩ := hcs
    rw [hshape.single.mp hb]
    exact ⟨cs, rfl⟩

/-- A byte above ASCII is never alone between two ASCII bytes. -/
theorem not_validUtf8_lone {l r : Bytes} {x b y : Byte} (hx : x < 128) (hb : ¬ b < 128)
    (hy : y < 128) : ¬ ValidUtf8 (l ++ x :: b :: y :: r) := by
  intro h
  have hafter : ValidUtf8 (b :: y :: r) := (h.of_append_cons hx).2.tail hx
  have hone : ValidUtf8 [b] := (ValidUtf8.of_append_cons (l := [b]) hy hafter).1
  obtain ⟨cs, hcs⟩ := hone
  cases cs with
  | nil => simp at hcs
  | cons c cs =>
    obtain ⟨b', tl, hc, hshape⟩ := encodeChar_shape c
    simp only [List.flatMap_cons, hc, List.cons_append, List.cons.injEq, List.nil_eq,
      List.append_eq_nil_iff] at hcs
    obtain ⟨rfl, rfl, -⟩ := hcs
    exact hb (hshape.single.mpr rfl)

/-- A literal is valid. -/
theorem validUtf8_literal (s : String) : ValidUtf8 (ascii s) := by
  obtain ⟨cs, hcs⟩ := s.isValidUTF8
  refine ⟨cs, ?_⟩
  change s.toByteArray.data.toList = _
  rw [hcs, List.utf8Encode]
  simp

/-- A map of bytes that permutes ASCII and fixes the rest keeps a string valid. -/
theorem ValidUtf8.map {s : Bytes} (hs : ValidUtf8 s) {f : Byte → Byte}
    (hlow : ∀ b, b < 128 → f b < 128) (hhigh : ∀ b, ¬ b < 128 → f b = b) :
    ValidUtf8 (s.map f) := by
  obtain ⟨cs, rfl⟩ := hs
  induction cs with
  | nil => exact validUtf8_nil
  | cons c cs ih =>
    obtain ⟨b, tl, hc, hshape⟩ := encodeChar_shape c
    rw [List.flatMap_cons, List.map_append]
    refine ValidUtf8.append ?_ ih
    by_cases hb : b < 128
    · rw [hc, hshape.single.mp hb]
      exact validUtf8_ascii (by simpa using hlow b hb)
    · have hfix : (b :: tl).map f = b :: tl := by
        refine (List.map_congr_left fun x hx => ?_).trans (List.map_id _)
        rcases List.mem_cons.mp hx with rfl | hx
        · exact hhigh _ hb
        · refine hhigh x fun hlt => ?_
          exact Bool.noConfusion ((hshape.tail x hx).symm.trans (lt_128_not_continuation x hlt))
      rw [hc, hfix, ← hc]
      exact validUtf8_encodeChar c

end FtIrc
