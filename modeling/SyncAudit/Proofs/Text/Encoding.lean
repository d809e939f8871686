import SyncAudit.Proofs.Text.Utf8

/-!
# Text written back to its bytes

A byte list that is read without faulty stretches is the encoding of the text that was read: every
character is read off the shortest form there is for it, so no other byte list spells the text. The
encoding of a text is read as that text.
-/
namespace SyncAudit.Text.Utf8

/-- The last `count` bytes of a character with the given code. -/
def trail : Nat → Nat → List UInt8
  | 0, _ => []
  | k + 1, n => UInt8.ofNat (n / 0x40 ^ k % 0x40 + 0x80) :: trail k n

/-- The bytes `seen` are those of a character up to here: whichever bytes come that are due, the
character they make up is encoded by `seen` and them. -/
def Progress.Leads (seen : List UInt8) : Progress → Prop
  | .ground => seen = []
  | .inside 0 _ _ _ => False
  | .inside (k + 1) code low high => 0x80 ≤ low ∧ high ≤ 0xBF ∧
      ∀ n, n / 0x40 ^ k / 0x40 = code → low ≤ n / 0x40 ^ k % 0x40 + 0x80 →
        n / 0x40 ^ k % 0x40 + 0x80 ≤ high →
        String.utf8EncodeChar (Char.ofNat n) = seen ++ trail (k + 1) n

variable {n : Nat} {b : UInt8} {seen : List UInt8}

theorem leads_ground : Progress.ground.Leads [] := rfl

theorem ofNat_of_eq_toNat (b : UInt8) (h : n = b.toNat) : UInt8.ofNat n = b := by
  rw [h, UInt8.ofNat_toNat]

/-! ## Characters by the number of their bytes -/

theorem encode_one (h : n < 0x80) : String.utf8EncodeChar (Char.ofNat n) = [UInt8.ofNat n] := by
  have hn : (Char.ofNat n).val.toNat = n := toNat_ofNat (by omega)
  rw [String.utf8EncodeChar.eq_1, hn, if_pos (by omega)]

theorem encode_two (h : 0x80 ≤ n) (h' : n < 0x800) :
    String.utf8EncodeChar (Char.ofNat n) = UInt8.ofNat (n / 0x40 + 0xC0) :: trail 1 n := by
  have hn : (Char.ofNat n).val.toNat = n := toNat_ofNat (by omega)
  have hlead : n / 64 % 32 = n / 0x40 := by omega
  rw [String.utf8EncodeChar.eq_1, hn, if_neg (by omega), if_pos (by omega), hlead]
  simp [trail]

theorem encode_three (h : 0x800 ≤ n) (h' : n < 0xD800 ∨ 0xE000 ≤ n ∧ n < 0x10000) :
    String.utf8EncodeChar (Char.ofNat n) = UInt8.ofNat (n / 0x1000 + 0xE0) :: trail 2 n := by
  have hn : (Char.ofNat n).val.toNat = n := toNat_ofNat (by omega)
  have hlead : n / 4096 % 16 = n / 0x1000 := by omega
  rw [String.utf8EncodeChar.eq_1, hn, if_neg (by omega), if_neg (by omega), if_pos (by omega),
    hlead]
  simp [trail]

theorem encode_four (h : 0x10000 ≤ n) (h' : n < 0x110000) :
    String.utf8EncodeChar (Char.ofNat n) = UInt8.ofNat (n / 0x40000 + 0xF0) :: trail 3 n := by
  have hn : (Char.ofNat n).val.toNat = n := toNat_ofNat (by omega)
  have hlead : n / 262144 % 8 = n / 0x40000 := by omega
  rw [String.utf8EncodeChar.eq_1, hn, if_neg (by omega), if_neg (by omega), if_neg (by omega),
    hlead]
  simp [trail]

/-! ## First bytes

The bounds on the second byte keep to the characters that need as many bytes as the first one
says, and to those that are no surrogates. -/

variable {code low high : Nat}

theorem leads_two (hb : b.toNat = code + 0xC0) (hcode : 2 ≤ code) (hcode' : code < 0x20) :
    (Progress.inside 1 code 0x80 0xBF).Leads [b] := by
  refine ⟨by decide, by decide, fun n hn _ _ => ?_⟩
  rw [Nat.pow_zero, Nat.div_one] at hn
  rw [encode_two (by omega) (by omega), ofNat_of_eq_toNat b (by omega)]
  rfl

theorem leads_three (hb : b.toNat = code + 0xE0) (hlow : 0x80 ≤ low) (hhigh : high ≤ 0xBF)
    (hleast : 0x20 ≤ code * 0x40 + (low - 0x80))
    (hplane : code < 0xD ∨ code = 0xD ∧ high ≤ 0x9F ∨ code = 0xE ∨ code = 0xF) :
    (Progress.inside 2 code low high).Leads [b] := by
  refine ⟨hlow, hhigh, fun n hn hnlow hnhigh => ?_⟩
  rw [Nat.pow_one] at hn hnlow hnhigh
  rw [encode_three (by omega) (by omega), ofNat_of_eq_toNat b (by omega)]
  rfl

theorem leads_four (hb : b.toNat = code + 0xF0) (hlow : 0x80 ≤ low) (hhigh : high ≤ 0xBF)
    (hleast : 0x10 ≤ code * 0x40 + (low - 0x80))
    (hlast : code < 4 ∨ code = 4 ∧ high ≤ 0x8F) : (Progress.inside 3 code low high).Leads [b] := by
  refine ⟨hlow, hhigh, fun n hn hnlow hnhigh => ?_⟩
  simp only [show 0x40 ^ 2 = 0x1000 by decide] at hn hnlow hnhigh
  rw [encode_four (by omega) (by omega), ofNat_of_eq_toNat b (by omega)]
  rfl

/-! ## What each byte adds -/

/-- A byte is refused, ends the character that `seen` leads into or leads further into it. -/
def Adds (seen : List UInt8) (b : UInt8) (after : List (Option Char) × Progress) : Prop :=
  none ∈ after.1 ∨
    (∃ c, after = ([some c], .ground) ∧ String.utf8EncodeChar c = seen ++ [b]) ∨
    (∃ next, after = ([], next) ∧ next.Leads (seen ++ [b]))

theorem enter_adds (b : UInt8) : Adds [] b (enter b) := by
  simp only [enter]
  split
  case isTrue h => exact .inr (.inl ⟨_, rfl, by rw [encode_one h, UInt8.ofNat_toNat]; rfl⟩)
  split
  · exact .inl (by simp)
  split
  · exact .inr (.inr ⟨_, rfl, leads_two (by omega) (by omega) (by omega)⟩)
  split
  · exact .inr (.inr ⟨_, rfl, leads_three (by omega) (by decide) (by decide) (by decide)
      (by decide)⟩)
  split
  · exact .inr (.inr ⟨_, rfl, leads_three (by omega) (by decide) (by decide) (by decide)
      (by decide)⟩)
  split
  · exact .inr (.inr ⟨_, rfl, leads_three (by omega) (by decide) (by decide) (by omega)
      (by omega)⟩)
  split
  · exact .inr (.inr ⟨_, rfl, leads_four (by omega) (by decide) (by decide) (by decide)
      (by decide)⟩)
  split
  · exact .inr (.inr ⟨_, rfl, leads_four (by omega) (by decide) (by decide) (by omega)
      (by omega)⟩)
  split
  · exact .inr (.inr ⟨_, rfl, leads_four (by omega) (by decide) (by decide) (by decide)
      (by decide)⟩)
  · exact .inl (by simp)

theorem advance_adds {progress : Progress} (h : progress.Leads seen) (b : UInt8) :
    Adds seen b (advance b progress) := by
  match progress, h with
  | .ground, h =>
    obtain rfl : seen = [] := h
    exact enter_adds b
  | .inside (k + 1) code low high, ⟨hlow, hhigh, hleads⟩ =>
    rw [advance]
    by_cases hdue : low ≤ b.toNat ∧ b.toNat ≤ high
    case neg =>
      rw [if_neg hdue]
      exact .inl (by simp)
    rw [if_pos hdue]
    -- the byte is the last one of the character or one more of those that lead to it
    cases k with
    | zero =>
      refine .inr (.inl ⟨_, rfl, ?_⟩)
      rw [hleads _ (by simp; omega) (by simp; omega) (by simp; omega)]
      simp only [trail, Nat.pow_zero, Nat.div_one]
      rw [ofNat_of_eq_toNat b (by omega)]
    | succ k =>
      refine .inr (.inr ⟨.inside (k + 1) (code * 0x40 + (b.toNat - 0x80)) 0x80 0xBF, by simp,
        by decide, by decide, fun n hn _ _ => ?_⟩)
      have hsplit : n / 0x40 ^ (k + 1) = n / 0x40 ^ k / 0x40 := by
        rw [Nat.pow_succ, Nat.div_div_eq_div_mul]
      rw [hleads n (by omega) (by omega) (by omega), trail, ofNat_of_eq_toNat b (by omega)]
      simp

theorem encode_of_piecesFrom {bytes : List UInt8} {progress : Progress} {cs : List Char}
    (hleads : progress.Leads seen) (h : piecesFrom progress bytes = cs.map some) :
    encode cs = seen ++ bytes := by
  -- what has been seen of the character under way changes with every byte
  induction bytes generalizing progress seen cs with
  | nil =>
    rw [piecesFrom] at h
    split at h
    case isTrue hground =>
      obtain rfl : cs = [] := by simpa using h
      subst hground
      obtain rfl : seen = [] := hleads
      rfl
    case isFalse =>
      cases cs <;> simp at h
  | cons b rest ih =>
    rw [piecesFrom_cons] at h
    rcases advance_adds hleads b with hnone | ⟨c, hafter, hc⟩ | ⟨next, hafter, hnext⟩
    · have hmem : none ∈ cs.map some := h ▸ List.mem_append_left _ hnone
      simp at hmem
    · rw [hafter] at h
      cases cs with
      | nil => simp at h
      | cons c' cs =>
        simp only [List.cons_append, List.nil_append, List.map_cons, List.cons.injEq,
          Option.some.injEq] at h
        obtain ⟨rfl, hrest⟩ := h
        have hcs : encode cs = rest := ih leads_ground hrest
        have hencode : encode (c :: cs) = String.utf8EncodeChar c ++ encode cs := rfl
        rw [hencode, hc, hcs, List.append_assoc]
        rfl
    · rw [hafter] at h
      rw [ih hnext h]
      simp

/-- A byte list that can be read is the encoding of what was read. -/
theorem encode_of_decode {bytes : List UInt8} {cs : List Char} (h : decode? bytes = some cs) :
    encode cs = bytes :=
  encode_of_piecesFrom leads_ground (decode_eq_some_iff.mp h)

/-- A text starts with a character below 0x80 exactly if its bytes start with that byte. -/
theorem head_of_decode {bytes : List UInt8} {cs : List Char} (h : decode? bytes = some cs)
    (hb : b.toNat < 0x80) : cs.head? = some (Char.ofNat b.toNat) ↔ bytes.head? = some b := by
  constructor
  · intro hhead
    obtain ⟨rest, rfl⟩ := List.head?_eq_some_iff.mp hhead
    have hencode : encode (Char.ofNat b.toNat :: rest) =
        String.utf8EncodeChar (Char.ofNat b.toNat) ++ encode rest := rfl
    rw [encode_one hb, UInt8.ofNat_toNat, encode_of_decode h] at hencode
    rw [hencode]
    rfl
  · intro hhead
    obtain ⟨back, rfl⟩ := List.head?_eq_some_iff.mp hhead
    have hread := decode_append_small hb [] back
    rw [List.nil_append, h] at hread
    obtain ⟨behind, -, hcs⟩ := Option.map_eq_some_iff.mp hread.symm
    rw [← hcs]
    rfl

/-! ## Texts that are read back -/

/-- The last bytes of a character complete it once its first byte has been read. -/
theorem piecesFrom_trail (k : Nat) (hcode : code = n / 0x40 ^ (k + 1))
    (hlow : low ≤ n / 0x40 ^ k % 0x40 + 0x80) (hhigh : n / 0x40 ^ k % 0x40 + 0x80 ≤ high)
    (rest : List UInt8) :
    piecesFrom (.inside (k + 1) code low high) (trail (k + 1) n ++ rest) =
      some (Char.ofNat n) :: pieces rest := by
  induction k generalizing code low high with
  | zero =>
    have hb : (UInt8.ofNat (n / 0x40 ^ 0 % 0x40 + 0x80)).toNat = n % 0x40 + 0x80 := by
      rw [UInt8.toNat_ofNat', Nat.pow_zero, Nat.div_one]
      omega
    have hn : code * 0x40 + n % 0x40 = n := by omega
    rw [trail, trail, List.cons_append, piecesFrom_cons, advance, hb, if_pos (by omega),
      Nat.add_sub_cancel, hn]
    rfl
  | succ k ih =>
    have hb : (UInt8.ofNat (n / 0x40 ^ (k + 1) % 0x40 + 0x80)).toNat =
        n / 0x40 ^ (k + 1) % 0x40 + 0x80 := by
      rw [UInt8.toNat_ofNat']
      omega
    have hnext : code * 0x40 + n / 0x40 ^ (k + 1) % 0x40 = n / 0x40 ^ (k + 1) := by
      rw [hcode, Nat.pow_succ, ← Nat.div_div_eq_div_mul]
      omega
    rw [trail, List.cons_append, piecesFrom_cons, advance, hb, if_pos ⟨hlow, hhigh⟩,
      Nat.add_sub_cancel, hnext, if_neg (by omega)]
    exact ih rfl (by omega) (by omega)

/-- A byte starts a character with the number `n` and admits the next byte of it. -/
def Starts (b : UInt8) (k n : Nat) : Prop :=
  ∃ low high, enter b = ([], .inside (k + 1) (n / 0x40 ^ (k + 1)) low high) ∧
    low ≤ n / 0x40 ^ k % 0x40 + 0x80 ∧ n / 0x40 ^ k % 0x40 + 0x80 ≤ high

theorem Starts.pieces {k : Nat} (h : Starts b k n) (rest : List UInt8) :
    pieces (b :: trail (k + 1) n ++ rest) = some (Char.ofNat n) :: pieces rest := by
  obtain ⟨low, high, hb, hlow, hhigh⟩ := h
  rw [List.cons_append, Utf8.pieces, piecesFrom_cons, advance, hb]
  exact piecesFrom_trail k rfl hlow hhigh rest

theorem starts_two (h : 0x80 ≤ n) (h' : n < 0x800) :
    Starts (UInt8.ofNat (n / 0x40 + 0xC0)) 0 n := by
  have hb : (UInt8.ofNat (n / 0x40 + 0xC0)).toNat = n / 0x40 + 0xC0 := by
    rw [UInt8.toNat_ofNat']
    omega
  refine ⟨0x80, 0xBF, ?_, by omega, by omega⟩
  simp only [enter, hb]
  rw [if_neg (by omega), if_neg (by omega), if_pos (by omega), Nat.add_sub_cancel, Nat.pow_one]

theorem starts_three (h : 0x800 ≤ n) (h' : n < 0xD800 ∨ 0xE000 ≤ n ∧ n < 0x10000) :
    Starts (UInt8.ofNat (n / 0x1000 + 0xE0)) 1 n := by
  have hb : (UInt8.ofNat (n / 0x1000 + 0xE0)).toNat = n / 0x1000 + 0xE0 := by
    rw [UInt8.toNat_ofNat']
    omega
  simp only [Starts, enter, hb, Nat.add_sub_cancel]
  rw [if_neg (by omega), if_neg (by omega), if_neg (by omega)]
  split
  case isTrue => exact ⟨0xA0, 0xBF, by simp; omega, by omega, by omega⟩
  split
  case isTrue => exact ⟨0x80, 0x9F, by simp; omega, by omega, by omega⟩
  rw [if_pos (by omega)]
  exact ⟨0x80, 0xBF, rfl, by omega, by omega⟩

theorem starts_four (h : 0x10000 ≤ n) (h' : n < 0x110000) :
    Starts (UInt8.ofNat (n / 0x40000 + 0xF0)) 2 n := by
  have hb : (UInt8.ofNat (n / 0x40000 + 0xF0)).toNat = n / 0x40000 + 0xF0 := by
    rw [UInt8.toNat_ofNat']
    omega
  simp only [Starts, enter, hb, Nat.add_sub_cancel]
  rw [if_neg (by omega), if_neg (by omega), if_neg (by omega), if_neg (by omega), if_neg (by omega),
    if_neg (by omega)]
  split
  case isTrue => exact ⟨0x90, 0xBF, by simp; omega, by omega, by omega⟩
  split
  case isTrue => exact ⟨0x80, 0xBF, by simp, by omega, by omega⟩
  rw [if_pos (by omega)]
  exact ⟨0x80, 0x8F, by simp; omega, by omega, by omega⟩

theorem pieces_encodeChar (c : Char) (rest : List UInt8) :
    pieces (String.utf8EncodeChar c ++ rest) = some c :: pieces rest := by
  have hc : c = Char.ofNat c.toNat := (Char.ofNat_toNat c).symm
  have hvalid : c.toNat < 0xD800 ∨ 0xDFFF < c.toNat ∧ c.toNat < 0x110000 := c.valid
  generalize c.toNat = n at hc hvalid
  subst hc
  by_cases h1 : n < 0x80
  · have hb : (UInt8.ofNat n).toNat = n := by
      rw [UInt8.toNat_ofNat']
      omega
    rw [encode_one h1]
    have hsmall : (UInt8.ofNat n).toNat < 0x80 := by omega
    have hread := pieces_append_small hsmall [] rest
    rwa [hb] at hread
  by_cases h2 : n < 0x800
  · rw [encode_two (by omega) h2]
    exact (starts_two (by omega) h2).pieces rest
  by_cases h3 : n < 0x10000
  · rw [encode_three (by omega) (by omega)]
    exact (starts_three (by omega) (by omega)).pieces rest
  · rw [encode_four (by omega) (by omega)]
    exact (starts_four (by omega) (by omega)).pieces rest

/-- A text is read back from its encoding. -/
theorem decode_encode (cs : List Char) : decode? (encode cs) = some cs := by
  rw [decode_eq_some_iff]
  induction cs with
  | nil => rfl
  | cons c rest ih =>
    have hencode : encode (c :: rest) = String.utf8EncodeChar c ++ encode rest := rfl
    rw [hencode, pieces_encodeChar, ih, List.map_cons]

end SyncAudit.Text.Utf8

namespace SyncAudit.Text

/-- A string goes back to the bytes that it was read from. -/
theorem toBytes_of_ofBytes {bytes : List UInt8} {s : String} (h : ofBytes? bytes = some s) :
    toBytes s = bytes :=
  Utf8.encode_of_decode (ofBytes_eq_some_iff.mp h)

theorem ofBytes_toBytes (s : String) : ofBytes? (toBytes s) = some s :=
  ofBytes_eq_some_iff.mpr (Utf8.decode_encode s.toList)

theorem toBytes_append (s t : String) : toBytes (s ++ t) = toBytes s ++ toBytes t := by
  rw [toBytes, Utf8.encode, String.toList_append, List.flatMap_append]
  rfl

/-- Different strings have different bytes. -/
theorem toBytes_inj {s t : String} : toBytes s = toBytes t ↔ s = t := by
  have hbytes : ∀ u : String, (toBytes u).toByteArray = u.toByteArray := fun _ =>
    String.utf8Encode_toList
  constructor
  · intro h
    rw [← String.toByteArray_inj, ← hbytes s, ← hbytes t, h]
  · intro h
    rw [h]

end SyncAudit.Text
