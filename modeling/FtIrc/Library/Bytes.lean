import Mathlib

/-!
# Byte strings

`std::string` is a list of bytes. Literals are written as Lean strings of ASCII characters.
-/

namespace FtIrc

abbrev Byte := UInt8

abbrev Bytes := List Byte

instance instLinearOrderByte : LinearOrder UInt8 where
  le_refl a := UInt8.le_refl a
  le_trans _ _ _ := UInt8.le_trans
  le_antisymm _ _ := UInt8.le_antisymm
  le_total := UInt8.le_total
  lt_iff_le_not_ge a b := by
    simp only [UInt8.lt_iff_toNat_lt, UInt8.le_iff_toNat_le]
    omega
  toDecidableLE := inferInstance

/-- The byte of an ASCII character. -/
def byte (c : Char) : Byte := UInt8.ofNat c.toNat

/-- The bytes of an ASCII literal. -/
def ascii (s : String) : Bytes := s.toUTF8.data.toList

/-- Printable ASCII: every literal of a message is made of these bytes. -/
def Printable (s : Bytes) : Prop := ∀ b ∈ s, 32 ≤ b ∧ b < 127

/-- `Printable` as a computation on numbers, which `rfl` evaluates on literals. -/
def allPrintable (s : Bytes) : Bool := s.all fun b => Nat.ble 32 b.toNat && Nat.blt b.toNat 127

theorem printable_of_all {s : Bytes} (h : allPrintable s = true) : Printable s := by
  intro b hb
  have hb := List.all_eq_true.mp h b hb
  simp only [Bool.and_eq_true, Nat.ble_eq, Nat.blt_eq] at hb
  rwa [UInt8.le_iff_toNat_le, UInt8.lt_iff_toNat_lt]

theorem Printable.append {s t : Bytes} (hs : Printable s) (ht : Printable t) :
    Printable (s ++ t) := by
  intro b hb
  exact (List.mem_append.mp hb).elim (hs b) (ht b)

/-- `c & 0xC0 == 0x80` for all 256 values, and other facts about one byte, by enumeration. -/
theorem forall_byte {p : Byte → Prop} (h : ∀ n : Fin 256, p (UInt8.ofFin n)) (b : Byte) : p b := by
  have hb := h b.toFin
  simpa using hb

/-! ## Decimal numbers -/

/-- Decimal rendering of a nonnegative integer. -/
def decimal (n : Nat) : Bytes := (Nat.toDigits 10 n).map byte

def isDigit (b : Byte) : Bool := 48 ≤ b && b ≤ 57

/-- The value of a string of decimal digits. -/
def atoi (s : Bytes) : Nat := s.foldl (fun n b => 10 * n + (b.toNat - 48)) 0

theorem byte_toNat {c : Char} (h : c.toNat < 256) : (byte c).toNat = c.toNat := by
  simp [byte, Nat.mod_eq_of_lt h]

theorem isDigit_toNat {c : Char} (h : c.isDigit) : 48 ≤ c.toNat ∧ c.toNat ≤ 57 := by
  simpa [Char.isDigit, UInt32.le_iff_toNat_le] using h

theorem decimal_digits (n : Nat) : ∀ b ∈ decimal n, isDigit b := by
  intro b hb
  obtain ⟨c, hc, rfl⟩ := List.mem_map.mp hb
  have hd := isDigit_toNat (Nat.isDigit_of_mem_toDigits (by decide) (by decide) hc)
  have hn := byte_toNat (c := c) (by omega)
  simp only [isDigit, Bool.and_eq_true, decide_eq_true_eq, UInt8.le_iff_toNat_le, hn]
  exact hd

theorem decimal_ne_nil (n : Nat) : decimal n ≠ [] := by
  simp [decimal]

theorem decimal_length_le {n k : Nat} (hk : 0 < k) (h : n < 10 ^ k) : (decimal n).length ≤ k := by
  simpa [decimal] using (Nat.length_toDigits_le_iff (by decide) hk).mpr h

theorem atoi_decimal (n : Nat) : atoi (decimal n) = n := by
  have hfold : ∀ (cs : List Char) (acc : Nat), (∀ c ∈ cs, c.isDigit) →
      (cs.map byte).foldl (fun n b => 10 * n + (b.toNat - 48)) acc = Nat.ofDigitChars 10 cs acc := by
    intro cs
    induction cs with
    | nil => intro acc _; simp
    | cons c cs ih =>
      intro acc h
      have hc := isDigit_toNat (h c List.mem_cons_self)
      rw [List.map_cons, List.foldl_cons, ih _ fun d hd => h d (List.mem_cons_of_mem _ hd),
        byte_toNat (by omega), Nat.ofDigitChars_cons]
      rfl
  rw [atoi, decimal, hfold _ _ fun c hc => Nat.isDigit_of_mem_toDigits (by decide) (by decide) hc,
    Nat.ofDigitChars_toDigits (by decide) (by decide)]

theorem printable_of_digits {s : Bytes} (h : ∀ b ∈ s, isDigit b) : Printable s := by
  intro b hb
  have hd := h b hb
  simp only [isDigit, Bool.and_eq_true, decide_eq_true_eq, UInt8.le_iff_toNat_le] at hd
  simp only [UInt8.le_iff_toNat_le, UInt8.lt_iff_toNat_lt]
  have h48 : (48 : UInt8).toNat = 48 := rfl
  have h57 : (57 : UInt8).toNat = 57 := rfl
  have h32 : (32 : UInt8).toNat = 32 := rfl
  have h127 : (127 : UInt8).toNat = 127 := rfl
  omega

end FtIrc
