import Mathlib.Algebra.Group.Nat.Defs
import SyncAudit.Proofs.Number.Numeral
import SyncAudit.Timestamp.Reader

/-!
# Moments read back

The text of a moment in a year of four digits is read as that moment, whatever the length of its
fraction. Years outside this range are written with a sign and are not considered here.
-/
namespace SyncAudit.Timestamp

open Text (isBlank)

variable {rest : List Char}

theorem isBlank_eq_false_of_isDigit {c : Char} (h : isDigit c = true) : isBlank c = false := by
  have hc := isDigit_iff.mp h
  simp only [isBlank, Text.inRanges, Text.blankRanges, List.any_cons, List.any_nil,
    Bool.or_false, Bool.or_eq_false_iff, Bool.and_eq_false_iff, decide_eq_false_iff_not]
  omega

theorem skipBlank_cons {c : Char} (hc : isBlank c = false) : skipBlank (c :: rest) = c :: rest := by
  rw [skipBlank, List.dropWhile_cons_of_neg (by simp [hc])]

theorem skipBlank_digits {ds : List Char} (hne : ds ≠ []) (hds : ∀ c ∈ ds, isDigit c = true)
    (rest : List Char) : skipBlank (ds ++ rest) = ds ++ rest := by
  obtain ⟨c, ds, rfl⟩ := List.exists_cons_of_ne_nil hne
  exact skipBlank_cons (isBlank_eq_false_of_isDigit (hds c List.mem_cons_self))

/-- A run of digits is read whole if no digit follows it within the width. -/
theorem readNumber_digits {width : Nat} {ds : List Char} (hne : ds ≠ [])
    (hds : ∀ c ∈ ds, isDigit c = true) (hwidth : ds.length ≤ width)
    (hrest : NoDigitAhead (rest.take (width - ds.length)))
    (hbound : ofDigits 10 ds ≤ maxNumber) :
    readNumber width (ds ++ rest) = .ok (ofDigits 10 ds, rest) := by
  have htake : ((ds ++ rest).take width).takeWhile isDigit = ds := by
    rw [List.take_append, List.take_of_length_le hwidth]
    exact takeWhile_digits hds hrest
  have hempty : ds.isEmpty = false := by simpa using hne
  have hfits : ¬ maxNumber < ofDigits 10 ds := by omega
  rw [readNumber]
  · simp only [htake, hempty, hfits, if_false, List.drop_left, Bool.false_eq_true]
  · simp [hne]

theorem padded_ne_nil (width n : Nat) : padded width n ≠ [] := by
  simp [padded, decimal_ne_nil]

/-- A numeral of at most nine digits is read as its number, up to its last digit. -/
theorem readNumber_padded {width k n : Nat} (hk : 0 < k) (hn : n < 10 ^ k) (hnine : k ≤ 9)
    (hwidth : k ≤ width) (hrest : NoDigitAhead (rest.take (width - k))) :
    readNumber width (padded k n ++ rest) = .ok (n, rest) := by
  have hlength := length_padded hk hn
  have hbound : n ≤ maxNumber := by
    have hpow : 10 ^ k ≤ 10 ^ 9 := Nat.pow_le_pow_right (by decide) hnine
    have hmax : 10 ^ 9 ≤ maxNumber := by decide
    omega
  have hread := readNumber_digits (padded_ne_nil k n) (fun _ => isDigit_of_mem_padded)
    (by omega) (hlength ▸ hrest) (by rwa [ofDigits_padded])
  rwa [ofDigits_padded] at hread

theorem noDigitAhead_nil : NoDigitAhead [] := by
  simp [NoDigitAhead]

theorem noDigitAhead_take {c : Char} (hc : isDigit c = false) (k : Nat) :
    NoDigitAhead ((c :: rest).take k) := by
  cases k with
  | zero => exact noDigitAhead_nil
  | succ k => simpa [NoDigitAhead] using hc

theorem readField_padded {width low high n : Nat} (hwidth : 0 < width) (hnine : width ≤ 9)
    (hn : n < 10 ^ width) (hlow : low ≤ n) (hhigh : n ≤ high) :
    readField width low high (padded width n ++ rest) = .ok (n, rest) := by
  have hnumber : readNumber width (padded width n ++ rest) = .ok (n, rest) :=
    readNumber_padded hwidth hn hnine (Nat.le_refl width) (by simp [NoDigitAhead])
  rw [readField, skipBlank_digits (padded_ne_nil width n) (fun _ => isDigit_of_mem_padded),
    hnumber]
  exact if_pos ⟨hlow, hhigh⟩

theorem readSeparator_cons {c : Char} (hc : isBlank c = false) :
    readSeparator c (c :: rest) = .ok rest := by
  rw [readSeparator, skipBlank_cons hc]
  exact if_pos rfl

theorem readYear_yearText {year : Int} (hlow : 0 ≤ year) (hhigh : year ≤ 9999) :
    readYear (yearText year ++ rest) = .ok (year, rest) := by
  have hnumber : readNumber 4 (padded 4 year.natAbs ++ rest) = .ok (year.natAbs, rest) :=
    readNumber_padded (by decide) (by omega) (by decide) (Nat.le_refl 4) (by simp [NoDigitAhead])
  have hyear : (year.natAbs : Int) = year := Int.natAbs_of_nonneg hlow
  obtain ⟨c, ds, hc⟩ := List.exists_cons_of_ne_nil (padded_ne_nil 4 year.natAbs)
  have hdigit : isDigit c = true := isDigit_of_mem_padded (hc ▸ List.mem_cons_self)
  have hne : ∀ sign, isDigit sign = false → c ≠ sign := by
    rintro sign hsign rfl
    simp [hdigit] at hsign
  have hbounds : -2147483648 ≤ year ∧ year ≤ 2147483647 := by omega
  -- a digit stands first, so the year is not taken for one with a sign
  rw [yearText, if_pos ⟨hlow, hhigh⟩, readYear,
    skipBlank_digits (padded_ne_nil _ _) (fun _ => isDigit_of_mem_padded)]
  rw [hc, List.cons_append] at hnumber ⊢
  split
  case h_1 h => exact absurd (List.cons.inj h).1 (hne '-' (by decide))
  case h_2 h => exact absurd (List.cons.inj h).1 (hne '+' (by decide))
  case h_3 =>
    rw [hnumber]
    simp only [Except.map, hyear]
    exact if_pos hbounds

theorem daysInMonth_le (year : Int) (month : Nat) : daysInMonth year month ≤ 31 := by
  unfold daysInMonth
  repeat' split
  all_goals omega

/-- The text of a date. -/
def dateText (d : Date) : List Char :=
  yearText d.year ++ '-' :: padded 2 d.month ++ '-' :: padded 2 d.day

theorem readDate_dateText {d : Date} (hd : d.Valid) (hlow : 0 ≤ d.year) (hhigh : d.year ≤ 9999) :
    readDate (dateText d ++ rest) = .ok (d, rest) := by
  obtain ⟨-, -, hmonth, hmonth', hday, hday'⟩ := hd
  have hdays := daysInMonth_le d.year d.month
  have hdash : isBlank '-' = false := by decide
  have hfield : ∀ {n high : Nat} {rest : List Char}, 1 ≤ n → n ≤ high → high < 100 →
      readField 2 1 high (padded 2 n ++ rest) = .ok (n, rest) := fun hn hn' hhigh =>
    readField_padded (by decide) (by decide) (by omega) hn hn'
  simp only [dateText, List.append_assoc, List.cons_append, readDate, bind, Except.bind,
    readYear_yearText hlow hhigh, readSeparator_cons hdash,
    hfield hmonth hmonth' (by decide), hfield hday (Nat.le_trans hday' hdays) (by decide)]

theorem readFraction_padded {k n : Nat} (hk : 0 < k) (hn : n < 10 ^ k) (hnine : k ≤ 9) {c : Char}
    (hc : isDigit c = false) :
    readFraction ('.' :: padded k n ++ c :: rest) = .ok (n * Nat.pow 10 (9 - k), c :: rest) := by
  have hcount : (padded k n ++ c :: rest).length - (c :: rest).length = k := by
    have hlength := length_padded hk hn
    simp only [List.length_append]
    omega
  rw [List.cons_append, readFraction, readNumber_padded hk hn hnine hnine (noDigitAhead_take hc _)]
  simp only [bind, Except.bind, hcount, List.dropWhile_cons, hc]
  rfl

/-- The three lengths of a fraction lose nothing. -/
theorem readFraction_fractionText {nano : Nat} (hnano : nano < 1000000000) {c : Char}
    (hdot : c ≠ '.') (hc : isDigit c = false) :
    readFraction (fractionText nano ++ c :: rest) = .ok (nano, c :: rest) := by
  unfold fractionText
  split
  case isTrue hzero =>
    rw [hzero, List.nil_append, readFraction]
    rintro more h
    exact hdot (List.cons.inj h).1
  split
  case isTrue hmilli =>
    rw [readFraction_padded (by decide) (by omega) (by decide) hc]
    simp only [Nat.pow_eq, Except.ok.injEq, Prod.mk.injEq, and_true]
    omega
  split
  case isTrue hmicro =>
    rw [readFraction_padded (by decide) (by omega) (by decide) hc]
    simp only [Nat.pow_eq, Except.ok.injEq, Prod.mk.injEq, and_true]
    omega
  case isFalse =>
    rw [readFraction_padded (by decide) (by omega) (by decide) hc]
    simp

/-- The text of a time of day. -/
def timeText (t : TimeOfDay) : List Char :=
  padded 2 t.hour ++ ':' :: padded 2 t.minute ++ ':' :: padded 2 t.second ++ fractionText t.nano

theorem readTime_timeText {t : TimeOfDay} (ht : t.Valid) {c : Char} (hdot : c ≠ '.')
    (hc : isDigit c = false) : readTime (timeText t ++ c :: rest) = .ok (t, c :: rest) := by
  obtain ⟨hhour, hminute, hsecond, hnano⟩ := ht
  have hcolon : isBlank ':' = false := by decide
  have hfield : ∀ {n high : Nat} {rest : List Char}, n ≤ high → high < 100 →
      readField 2 0 high (padded 2 n ++ rest) = .ok (n, rest) := fun hn hhigh =>
    readField_padded (by decide) (by decide) (by omega) (Nat.zero_le _) hn
  simp only [timeText, List.append_assoc, List.cons_append, readTime,
    hfield (Nat.le_of_lt_succ hhour) (by decide), hfield (Nat.le_of_lt_succ hminute) (by decide),
    hfield hsecond (by decide), readSeparator_cons hcolon, bind, Except.bind,
    readFraction_fractionText hnano hdot hc]

/-- A clock that is not ahead shows the moment itself. -/
theorem ofLocal_zero (t : Timestamp) : ofLocal t.date t.time 0 = .ok t := by
  obtain ⟨date, time, hdate, htime⟩ := t
  have hvalid : ¬ (¬ date.Valid ∨ ¬ time.Valid ∨ (0 : Int) ≤ -1440 ∨ (1440 : Int) ≤ 0) := by
    simp [hdate, htime]
  obtain ⟨minutes, hminutes⟩ : ∃ n : Nat, n = time.hour * 60 + time.minute := ⟨_, rfl⟩
  have hhour := htime.1
  have hminute := htime.2.1
  have hclock : (time.hour : Int) * 60 + time.minute - 0 = minutes := by omega
  have hprevious : ¬ (minutes : Int) < 0 := by omega
  have hnext : ¬ (1440 : Int) ≤ minutes := by omega
  have hmod : ((minutes : Int) % 1440).toNat = minutes := by omega
  have hdiv : minutes / 60 = time.hour := by omega
  have hrest : minutes % 60 = time.minute := by omega
  rw [ofLocal, if_neg hvalid]
  simp only [hclock, hprevious, hnext, if_false, hmod, hdiv, hrest]
  rw [ofParts?, dif_pos hdate, dif_pos htime]

/-- The text of a moment in a year of four digits is read as that moment. -/
theorem parse_toString (t : Timestamp) (hlow : 0 ≤ t.date.year) (hhigh : t.date.year ≤ 9999) :
    parse t.toString = .ok t := by
  have htext : t.text = dateText t.date ++ 'T' :: (timeText t.time ++ ['Z']) := by
    simp [text, dateText, timeText]
  have hzone : readOffset (skipBlank ['Z']) = .ok (0, []) := rfl
  have hend : (skipBlank []).isEmpty = true := by decide
  rw [parse, toString, String.toList_ofList, htext, parseChars]
  simp only [readDate_dateText t.date_valid hlow hhigh, bind, Except.bind, true_or, if_true,
    readTime_timeText t.time_valid (show 'Z' ≠ '.' by decide) (show isDigit 'Z' = false by decide),
    hzone, hend, Bool.not_true, Bool.false_eq_true, if_false, ofLocal_zero]

end SyncAudit.Timestamp
