import Mathlib.Algebra.Group.Nat.Defs
import SyncAudit.Number.Digits

/-!
# Decimal numerals read back

The digits of a decimal numeral denote the number that it was made from, with zeros in front of
them or without. A run of digits is told from what follows by the first character that is none.
-/
namespace SyncAudit

theorem isDigit_iff {c : Char} : isDigit c = true ↔ 48 ≤ c.toNat ∧ c.toNat ≤ 57 := by
  unfold isDigit
  rw [Bool.and_eq_true, decide_eq_true_iff, decide_eq_true_iff]
  rfl

theorem digitValue_of_isDigit {c : Char} (h : isDigit c = true) : digitValue c = c.toNat - 48 := by
  have hc := isDigit_iff.mp h
  have hlower : ¬ 'a' ≤ c := by
    intro hle
    have h97 : 97 ≤ c.toNat := hle
    omega
  have hupper : ¬ 'A' ≤ c := by
    intro hle
    have h65 : 65 ≤ c.toNat := hle
    omega
  simp [digitValue, hlower, hupper]

/-- On digits alone the value of a numeral is the library's. -/
theorem ofDigits_eq_ofDigitChars {ds : List Char} (h : ∀ c ∈ ds, isDigit c = true) (n : Nat) :
    ds.foldl (fun n c => 10 * n + digitValue c) n = Nat.ofDigitChars 10 ds n := by
  induction ds generalizing n with
  | nil => rfl
  | cons c rest ih =>
    obtain ⟨hc, hrest⟩ := List.forall_mem_cons.mp h
    rw [List.foldl_cons, digitValue_of_isDigit hc, ih hrest]
    rfl

theorem isDigit_of_mem_decimal {n : Nat} {c : Char} (h : c ∈ decimal n) : isDigit c = true := by
  have hc : c.isDigit = true := Nat.isDigit_of_mem_toDigits (by decide) (by decide) h
  rw [isDigit_iff]
  simpa [Char.isDigit, UInt32.le_iff_toNat_le] using hc

theorem decimal_ne_nil (n : Nat) : decimal n ≠ [] :=
  Nat.toDigits_ne_nil

/-- A decimal numeral denotes its number. -/
theorem ofDigits_decimal (n : Nat) : ofDigits 10 (decimal n) = n := by
  rw [ofDigits, ofDigits_eq_ofDigitChars fun _ => isDigit_of_mem_decimal]
  exact Nat.ofDigitChars_ten_toDigits

/-- The numeral of a number other than zero does not start with a zero. -/
theorem head_decimal {n : Nat} (hn : 0 < n) : (decimal n).head? ≠ some '0' := by
  induction n using Nat.strongRecOn with
  | ind n ih =>
    by_cases hsmall : n < 10
    · have hdigit : ∀ n, n < 10 → 0 < n → n.digitChar ≠ '0' := by decide
      rw [decimal, Nat.toDigits_of_lt_base hsmall]
      simpa using hdigit n hsmall hn
    · rw [decimal, Nat.toDigits_of_base_le (by decide) (by omega),
        List.head?_append, List.head?_eq_some_head Nat.toDigits_ne_nil, Option.some_or,
        ← List.head?_eq_some_head Nat.toDigits_ne_nil]
      exact ih (n / 10) (by omega) (by omega)

theorem length_decimal_le {n width : Nat} (hwidth : 0 < width) (h : n < 10 ^ width) :
    (decimal n).length ≤ width :=
  (Nat.length_toDigits_le_iff (by decide) hwidth).mpr h

/-! ## Numerals of a fixed width -/

theorem isDigit_of_mem_padded {width n : Nat} {c : Char} (h : c ∈ padded width n) :
    isDigit c = true := by
  rcases List.mem_append.mp h with h | h
  · obtain ⟨-, rfl⟩ := List.mem_replicate.mp h
    decide
  · exact isDigit_of_mem_decimal h

theorem length_padded {width n : Nat} (hwidth : 0 < width) (h : n < 10 ^ width) :
    (padded width n).length = width := by
  have hle := length_decimal_le hwidth h
  simp only [padded, List.length_append, List.length_replicate]
  omega

theorem ofDigits_zeros (count : Nat) (ds : List Char) :
    ofDigits 10 (List.replicate count '0' ++ ds) = ofDigits 10 ds := by
  induction count with
  | zero => rfl
  | succ count ih =>
    rw [List.replicate_succ, List.cons_append, ofDigits, List.foldl_cons]
    exact ih

theorem ofDigits_padded (width n : Nat) : ofDigits 10 (padded width n) = n := by
  rw [padded, ofDigits_zeros, ofDigits_decimal]

/-! ## Digits and what follows them -/

/-- A text that does not start with a digit. -/
def NoDigitAhead (rest : List Char) : Prop :=
  ∀ c, rest.head? = some c → isDigit c = false

theorem takeWhile_digits {ds rest : List Char} (hds : ∀ c ∈ ds, isDigit c = true)
    (hrest : NoDigitAhead rest) : (ds ++ rest).takeWhile isDigit = ds := by
  rw [List.takeWhile_append_of_pos hds]
  cases rest with
  | nil => simp
  | cons c rest => simp [hrest c rfl]

theorem dropWhile_digits {ds rest : List Char} (hds : ∀ c ∈ ds, isDigit c = true)
    (hrest : NoDigitAhead rest) : (ds ++ rest).dropWhile isDigit = rest := by
  rw [List.dropWhile_append_of_pos hds]
  cases rest with
  | nil => rfl
  | cons c rest => simp [hrest c rfl]

end SyncAudit
