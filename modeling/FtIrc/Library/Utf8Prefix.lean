import FtIrc.Library.Utf8

/-!
# Valid prefixes

The encoding is prefix free, so what follows a valid prefix of a valid string is valid. The longest
valid prefix within a limit ends at the last character boundary.
-/

namespace FtIrc

/-- `t` is the longest valid prefix of `s` of at most `n` bytes. -/
structure LongestValid (s : Bytes) (n : Nat) (t : Bytes) : Prop where
  isPrefix : t <+: s
  length_le : t.length ≤ n
  valid : ValidUtf8 t
  longest : ∀ u, u <+: s → u.length ≤ n → ValidUtf8 u → u <+: t

theorem encodeChar_append_cancel {c d : Char} {s t : Bytes}
    (h : String.utf8EncodeChar c ++ s = String.utf8EncodeChar d ++ t) : c = d ∧ s = t := by
  have hc := @ByteArray.utf8DecodeChar?_utf8EncodeChar_append s.toByteArray c
  have hd := @ByteArray.utf8DecodeChar?_utf8EncodeChar_append t.toByteArray d
  rw [← List.toByteArray_append] at hc hd
  rw [h, hd] at hc
  obtain rfl := Option.some.inj hc
  exact ⟨rfl, List.append_cancel_left h⟩

/-- What follows a valid prefix of a valid string. -/
theorem ValidUtf8.of_append {u r : Bytes} (hu : ValidUtf8 u) (hs : ValidUtf8 (u ++ r)) :
    ValidUtf8 r := by
  obtain ⟨cs, rfl⟩ := hu
  induction cs with
  | nil => exact hs
  | cons c cs ih =>
    obtain ⟨ds, hds⟩ := hs
    rw [List.flatMap_cons, List.append_assoc] at hds
    cases ds with
    | nil =>
      obtain ⟨b, tl, hc, -⟩ := encodeChar_shape c
      simp [hc] at hds
    | cons d ds =>
      rw [List.flatMap_cons] at hds
      exact ih ⟨ds, (encodeChar_append_cancel hds).2⟩

theorem ValidUtf8.head_not_continuation {b : Byte} {r : Bytes} (h : ValidUtf8 (b :: r)) :
    isContinuation b = false := by
  obtain ⟨cs, hcs⟩ := h
  cases cs with
  | nil => simp at hcs
  | cons c cs =>
    obtain ⟨b', tl, hc, hshape⟩ := encodeChar_shape c
    rw [List.flatMap_cons, hc, List.cons_append, List.cons.injEq] at hcs
    rw [hcs.1]
    exact hshape.head

/-- A valid prefix ends at a boundary. -/
theorem ValidUtf8.prefix_boundary {s u : Bytes} (hs : ValidUtf8 s) (hu : ValidUtf8 u)
    (hfront : u <+: s) (hlt : u.length < s.length) :
    isContinuation (s.getD u.length 0) = false := by
  obtain ⟨r, rfl⟩ := hfront
  have hr := hu.of_append hs
  cases r with
  | nil => simp at hlt
  | cons b r =>
    rw [List.getD_append_right _ _ _ _ le_rfl, Nat.sub_self]
    exact hr.head_not_continuation

theorem longestValid_self {s : Bytes} (hs : ValidUtf8 s) {n : Nat} (hn : s.length ≤ n) :
    LongestValid s n s :=
  ⟨List.prefix_rfl, hn, hs, fun _ hu _ _ => hu⟩

/-- The last boundary that is at most `n`, found by going back over continuation bytes. -/
theorem longestValid_take {s : Bytes} (hs : ValidUtf8 s) {n k : Nat} (hn : n < s.length)
    (hk : k ≤ n) (hstart : isContinuation (s.getD (n - k) 0) = false)
    (hcont : ∀ j < k, isContinuation (s.getD (n - j) 0) = true) :
    LongestValid s n (s.take (n - k)) := by
  have hlen : (s.take (n - k)).length = n - k := by
    rw [List.length_take]
    omega
  refine ⟨List.take_prefix _ _, by omega, (hs.split fun h => ?_).1, fun u hu hun hv => ?_⟩
  · rwa [List.getD_eq_getElem _ _ h] at hstart
  · have hle : u.length ≤ n - k := by
      by_contra hgt
      have hboundary := hs.prefix_boundary hv hu (by omega)
      have hinside := hcont (n - u.length) (by omega)
      rw [show n - (n - u.length) = u.length from by omega, hboundary] at hinside
      cases hinside
    exact List.prefix_of_prefix_length_le hu (List.take_prefix _ _) (by omega)

end FtIrc
