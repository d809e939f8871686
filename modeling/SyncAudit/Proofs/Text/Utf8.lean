import Mathlib.Algebra.Group.Nat.Defs
import SyncAudit.Text.Utf8

/-!
# Reading UTF-8 around single bytes

A byte below 0x80 is a character wherever it stands, also behind a character that was never
completed, and no character of several bytes is one of these. A byte list can therefore be parted
at such a byte before it is read.
-/
namespace SyncAudit.Text.Utf8

theorem mapM_id_eq_some_iff {α : Type} {as : List (Option α)} {bs : List α} :
    as.mapM id = some bs ↔ as = bs.map some := by
  induction as generalizing bs with
  | nil => cases bs <;> simp
  | cons a rest ih =>
    rw [List.mapM_cons]
    cases a with
    | none => cases bs <;> simp
    | some a =>
      simp only [id_eq, Option.pure_def, Option.bind_eq_bind, Option.bind_some,
        Option.bind_eq_some_iff, ih, Option.some.injEq]
      constructor
      · rintro ⟨bs, rfl, rfl⟩
        rfl
      · intro h
        cases bs with
        | nil => simp at h
        | cons b bs =>
          simp only [List.map_cons, List.cons.injEq, Option.some.injEq] at h
          exact ⟨bs, h.2, by rw [h.1]⟩

theorem decode_eq_some_iff {bytes : List UInt8} {cs : List Char} :
    decode? bytes = some cs ↔ pieces bytes = cs.map some :=
  mapM_id_eq_some_iff

theorem decode_eq_none_iff {bytes : List UInt8} : decode? bytes = none ↔ none ∈ pieces bytes := by
  have hnone : ∀ as : List (Option Char), as.mapM id = none ↔ none ∈ as := by
    intro as
    induction as with
    | nil => simp
    | cons a rest ih =>
      rw [List.mapM_cons]
      cases a with
      | none => simp
      | some a => cases hrest : rest.mapM id <;> simp [hrest, ← ih]
  exact hnone _

/-- A byte list that is not valid UTF-8 has a replacement character in its lossy reading. -/
theorem replacement_mem_of_decode {bytes : List UInt8} (h : decode? bytes = none) :
    '\uFFFD' ∈ decodeLossy bytes :=
  List.mem_map.mpr ⟨none, decode_eq_none_iff.mp h, rfl⟩

/-- The lossy reading is the strict one where that succeeds. -/
theorem decodeLossy_of_decode {bytes : List UInt8} {cs : List Char}
    (h : decode? bytes = some cs) : decodeLossy bytes = cs := by
  rw [decodeLossy, decode_eq_some_iff.mp h, List.map_map]
  exact List.map_id cs

theorem piecesFrom_cons (progress : Progress) (b : UInt8) (rest : List UInt8) :
    piecesFrom progress (b :: rest) =
      (advance b progress).1 ++ piecesFrom (advance b progress).2 rest := rfl

/-- What holds of a character under way: bytes from 0x80 on are due, and whichever come, its code
will be that of a character from 0x80 on. -/
def Progress.Sound : Progress → Prop
  | .ground => True
  | .inside count code low high =>
    let least := (code * 0x40 + (low - 0x80)) * 0x40 ^ (count - 1)
    let limit := (code * 0x40 + (high - 0x80) + 1) * 0x40 ^ (count - 1)
    1 ≤ count ∧ count ≤ 3 ∧ 0x80 ≤ low ∧ 0x80 ≤ least ∧
      (limit ≤ 0xD800 ∨ 0xE000 ≤ least ∧ limit ≤ 0x110000)

theorem enter_sound (b : UInt8) : (enter b).2.Sound := by
  simp only [enter]
  repeat' split
  all_goals simp only [Progress.Sound]
  all_goals omega

theorem advance_sound (b : UInt8) {progress : Progress} (h : progress.Sound) :
    (advance b progress).2.Sound := by
  cases progress with
  | ground => exact enter_sound b
  | inside count code low high =>
    rw [advance]
    by_cases hdue : low ≤ b.toNat ∧ b.toNat ≤ high
    case neg =>
      rw [if_neg hdue]
      exact enter_sound b
    rw [if_pos hdue]
    by_cases hlast : count ≤ 1
    · simp only [hlast, if_true, Progress.Sound]
    · have hcount := h.2.1
      obtain rfl | rfl : count = 2 ∨ count = 3 := by omega
      all_goals
        simp only [hlast, if_false, Progress.Sound] at h ⊢
        omega

theorem toNat_ofNat {code : Nat} (h : code < 0xD800 ∨ 0xE000 ≤ code ∧ code < 0x110000) :
    (Char.ofNat code).toNat = code := by
  have hvalid : code.isValidChar := by
    unfold Nat.isValidChar
    omega
  rw [Char.ofNat, dif_pos hvalid]
  rfl

theorem enter_char {b : UInt8} {c : Char} (h : some c ∈ (enter b).1) :
    b.toNat < 0x80 ∧ c.toNat = b.toNat := by
  simp only [enter] at h
  by_cases hb : b.toNat < 0x80
  · simp only [hb, if_true, List.mem_singleton, Option.some.injEq] at h
    exact ⟨hb, by rw [h, toNat_ofNat (by omega)]⟩
  · rw [if_neg hb] at h
    repeat' split at h
    all_goals simp at h

/-- A character below 0x80 is read off one byte alone. -/
theorem advance_char {b : UInt8} {progress : Progress} (hs : progress.Sound) {c : Char}
    (hc : c.toNat < 0x80) (h : some c ∈ (advance b progress).1) : c.toNat = b.toNat := by
  cases progress with
  | ground => exact (enter_char h).2
  | inside count code low high =>
    rw [advance] at h
    by_cases hdue : low ≤ b.toNat ∧ b.toNat ≤ high
    case neg =>
      rw [if_neg hdue] at h
      exact (enter_char (by simpa using h)).2
    rw [if_pos hdue] at h
    by_cases hlast : count ≤ 1
    · have hcount := hs.1
      obtain rfl : count = 1 := by omega
      simp only [hlast, if_true, List.mem_singleton, Option.some.injEq, Progress.Sound] at h hs
      rw [h, toNat_ofNat (by omega)] at hc
      omega
    · simp [hlast] at h

theorem piecesFrom_char {bytes : List UInt8} {progress : Progress} (hs : progress.Sound)
    {c : Char} (hc : c.toNat < 0x80) (h : some c ∈ piecesFrom progress bytes) :
    ∃ b ∈ bytes, c.toNat = b.toNat := by
  induction bytes generalizing progress with
  | nil =>
    rw [piecesFrom] at h
    split at h <;> simp at h
  | cons b rest ih =>
    rw [piecesFrom_cons, List.mem_append] at h
    rcases h with h | h
    · exact ⟨b, List.mem_cons_self, advance_char hs hc h⟩
    · obtain ⟨a, ha, hac⟩ := ih (advance_sound b hs) h
      exact ⟨a, List.mem_cons_of_mem _ ha, hac⟩

/-- A character below 0x80 is among the characters read only if its byte is among the bytes. -/
theorem mem_of_decode {bytes : List UInt8} {cs : List Char} (h : decode? bytes = some cs)
    {c : Char} (hc : c.toNat < 0x80) (hmem : c ∈ cs) : ∃ b ∈ bytes, c.toNat = b.toNat := by
  apply piecesFrom_char (show Progress.ground.Sound from trivial) hc
  rw [← pieces, decode_eq_some_iff.mp h]
  exact List.mem_map_of_mem hmem

theorem enter_small {b : UInt8} (hb : b.toNat < 0x80) :
    enter b = ([some (Char.ofNat b.toNat)], .ground) := by
  simp only [enter, hb, if_true]

/-- A byte below 0x80 ends whatever was under way and is then read by itself. -/
theorem advance_small {b : UInt8} (hb : b.toNat < 0x80) {progress : Progress}
    (h : progress.Sound) :
    advance b progress = (piecesFrom progress [] ++ [some (Char.ofNat b.toNat)], .ground) := by
  cases progress with
  | ground => rw [advance, enter_small hb]; rfl
  | inside count code low high =>
    have hdue : ¬ (low ≤ b.toNat ∧ b.toNat ≤ high) := by
      have hlow := h.2.2.1
      omega
    rw [advance, if_neg hdue, enter_small hb]
    rfl

theorem piecesFrom_append_small {b : UInt8} (hb : b.toNat < 0x80) (back : List UInt8)
    (front : List UInt8) {progress : Progress} (h : progress.Sound) :
    piecesFrom progress (front ++ b :: back) =
      piecesFrom progress front ++ some (Char.ofNat b.toNat) :: pieces back := by
  induction front generalizing progress with
  | nil =>
    rw [List.nil_append, piecesFrom_cons, advance_small hb h, List.append_assoc]
    rfl
  | cons a rest ih =>
    rw [List.cons_append, piecesFrom_cons, piecesFrom_cons, ih (advance_sound a h),
      List.append_assoc]

/-- A byte list is read up to a byte below 0x80, then that byte, then what is behind it. -/
theorem pieces_append_small {b : UInt8} (hb : b.toNat < 0x80) (front back : List UInt8) :
    pieces (front ++ b :: back) =
      pieces front ++ some (Char.ofNat b.toNat) :: pieces back :=
  piecesFrom_append_small hb back front trivial

theorem decode_append_small {b : UInt8} (hb : b.toNat < 0x80) (front back : List UInt8) :
    decode? (front ++ b :: back) = (decode? front).bind fun before =>
      (decode? back).map fun behind => before ++ Char.ofNat b.toNat :: behind := by
  unfold decode?
  rw [pieces_append_small hb, List.mapM_append, List.mapM_cons]
  cases (pieces front).mapM id <;> cases (pieces back).mapM id <;> rfl

/-- A byte list with a byte below 0x80 in it is not text if a part before or behind is not. -/
theorem decode_append_small_eq_none_iff {b : UInt8} (hb : b.toNat < 0x80)
    (front back : List UInt8) :
    decode? (front ++ b :: back) = none ↔ decode? front = none ∨ decode? back = none := by
  simp [decode_eq_none_iff, pieces_append_small hb]

end SyncAudit.Text.Utf8

namespace SyncAudit.Text

theorem ofBytes_eq_some_iff {bytes : List UInt8} {s : String} :
    ofBytes? bytes = some s ↔ Utf8.decode? bytes = some s.toList := by
  rw [ofBytes?, Option.map_eq_some_iff]
  constructor
  · rintro ⟨cs, hcs, rfl⟩
    rw [hcs, String.toList_ofList]
  · intro h
    exact ⟨s.toList, h, String.ofList_toList⟩

theorem ofBytesLossy_of_ofBytes {bytes : List UInt8} {s : String} (h : ofBytes? bytes = some s) :
    ofBytesLossy bytes = s := by
  rw [ofBytesLossy, Utf8.decodeLossy_of_decode (ofBytes_eq_some_iff.mp h), String.ofList_toList]

theorem ofBytes_eq_none_iff {bytes : List UInt8} :
    ofBytes? bytes = none ↔ Utf8.decode? bytes = none :=
  Option.map_eq_none_iff

end SyncAudit.Text
