import SyncAudit.Json.Printer
import SyncAudit.Json.Reader

/-!
# Strings in JSON text

What is written for a character is read as that character, be it written as it is, by a letter or by
its number. So a written string is read up to its closing quote, whatever it holds, and its text
has no control characters in it.
-/
namespace SyncAudit.Json

theorem readChars_plain {c : Char} (hquote : c ≠ '"') (hback : c ≠ '\\') (hc : ¬ c.toNat < 0x20)
    (rest : List Char) :
    readChars (c :: rest) = (readChars rest).map fun (s, rest) => (c :: s, rest) := by
  rw [readChars]
  · simp [hc, hback]
  all_goals simp_all

theorem readChars_letter {c e : Char} (hu : c ≠ 'u') (he : escaped? c = some e)
    (rest : List Char) :
    readChars ('\\' :: c :: rest) = (readChars rest).map fun (s, rest) => (e :: s, rest) := by
  rw [readChars]
  · simp [he]
  all_goals simp_all

theorem readChars_number {a b c d : Char} {n : Nat} (h : unit? a b c d = some n)
    (hn : n < 0xD800) (rest : List Char) :
    readChars ('\\' :: 'u' :: a :: b :: c :: d :: rest) =
      (readChars rest).map fun (s, rest) => (Char.ofNat n :: s, rest) := by
  have hhigh : ¬ (0xD800 ≤ n ∧ n < 0xDC00) := by omega
  have hlow : ¬ (0xDC00 ≤ n ∧ n < 0xE000) := by omega
  rw [readChars, h]
  simp only [hhigh, hlow, if_false]

/-- The two digits that end the escape of a control character. -/
def controlDigits (n : Nat) : List Char :=
  List.replicate (2 - (Nat.toDigits 16 n).length) '0' ++ Nat.toDigits 16 n

theorem controlDigits_spec : ∀ n < 0x20,
    controlDigits n = [(n / 16).digitChar, (n % 16).digitChar] ∧
      unit? '0' '0' (n / 16).digitChar (n % 16).digitChar = some n ∧
      0x20 ≤ (n / 16).digitChar.toNat ∧ 0x20 ≤ (n % 16).digitChar.toNat := by
  decide

/-- A character is written by a letter, by its number or as it is. -/
theorem escapeChar_cases (c : Char) :
    (∃ e, e ≠ 'u' ∧ 0x20 ≤ e.toNat ∧ escaped? e = some c ∧ escapeChar c = ['\\', e]) ∨
      (c.toNat < 0x20 ∧ escapeChar c = ['\\', 'u', '0', '0'] ++ controlDigits c.toNat) ∨
      (c ≠ '"' ∧ c ≠ '\\' ∧ ¬ c.toNat < 0x20 ∧ escapeChar c = [c]) := by
  unfold escapeChar
  split
  case isTrue h => exact .inl ⟨'"', by decide, by decide, by simp [h, escaped?], rfl⟩
  split
  case isTrue h => exact .inl ⟨'\\', by decide, by decide, by simp [h, escaped?], rfl⟩
  split
  case isTrue h => exact .inl ⟨'b', by decide, by decide, by simp [h, escaped?], rfl⟩
  split
  case isTrue h => exact .inl ⟨'t', by decide, by decide, by simp [h, escaped?], rfl⟩
  split
  case isTrue h => exact .inl ⟨'n', by decide, by decide, by simp [h, escaped?], rfl⟩
  split
  case isTrue h => exact .inl ⟨'f', by decide, by decide, by simp [h, escaped?], rfl⟩
  split
  case isTrue h => exact .inl ⟨'r', by decide, by decide, by simp [h, escaped?], rfl⟩
  split
  case isTrue h => exact .inr (.inl ⟨h, by simp [controlDigits]⟩)
  case isFalse hquote hback _ _ _ _ _ h => exact .inr (.inr ⟨hquote, hback, h, rfl⟩)

/-- What is written for a character is read as that character. -/
theorem readChars_escapeChar (c : Char) (rest : List Char) :
    readChars (escapeChar c ++ rest) = (readChars rest).map fun (s, rest) => (c :: s, rest) := by
  rcases escapeChar_cases c with
    ⟨e, hu, -, he, hc⟩ | ⟨hcontrol, hc⟩ | ⟨hquote, hback, hplain, hc⟩
  · rw [hc]
    exact readChars_letter hu he rest
  · obtain ⟨hdigits, hunit, -⟩ := controlDigits_spec c.toNat hcontrol
    rw [hc, hdigits]
    exact (readChars_number hunit (by omega) rest).trans (by rw [Char.ofNat_toNat])
  · rw [hc]
    exact readChars_plain hquote hback hplain rest

/-- A written string is read up to its closing quote. -/
theorem readChars_escaped (cs rest : List Char) :
    readChars (cs.flatMap escapeChar ++ '"' :: rest) = some (cs, rest) := by
  induction cs with
  | nil => simp [readChars]
  | cons c more ih =>
    rw [List.flatMap_cons, List.append_assoc, readChars_escapeChar, ih]
    rfl

/-! ## No control characters -/

/-- A text without control characters, line breaks among them. -/
def Printable (cs : List Char) : Prop :=
  ∀ c ∈ cs, 0x20 ≤ c.toNat

@[simp] theorem printable_nil : Printable [] := by
  simp [Printable]

@[simp] theorem printable_cons {c : Char} {cs : List Char} :
    Printable (c :: cs) ↔ 0x20 ≤ c.toNat ∧ Printable cs :=
  List.forall_mem_cons

@[simp] theorem printable_append {cs ds : List Char} :
    Printable (cs ++ ds) ↔ Printable cs ∧ Printable ds :=
  List.forall_mem_append

theorem printable_escapeChar (c : Char) : Printable (escapeChar c) := by
  rcases escapeChar_cases c with ⟨e, -, he, -, hc⟩ | ⟨hcontrol, hc⟩ | ⟨-, -, hplain, hc⟩
  · rw [hc]
    simp [he]
  · obtain ⟨hdigits, -, hhigh, hlow⟩ := controlDigits_spec c.toNat hcontrol
    rw [hc, hdigits]
    simp [hhigh, hlow]
  · rw [hc]
    simp [Nat.le_of_not_lt hplain]

theorem printable_stringText (s : String) : Printable (stringText s) := by
  have hinside : Printable (s.toList.flatMap escapeChar) := by
    intro d hd
    obtain ⟨c, -, hd⟩ := List.mem_flatMap.mp hd
    exact printable_escapeChar c d hd
  simp [stringText, hinside]

end SyncAudit.Json
