import SyncAudit.Proofs.Text.Utf8
import SyncAudit.Text.Blank
import SyncAudit.Text.Lines

/-!
# Lines of a text

The lines of a byte stream are taken before they are read as text. For trimmed lines this is the
same as reading the whole stream as text and parting that at its line feeds.
-/
namespace SyncAudit.Text

/-- The lines of a text. Each line feed ends one, and what is behind the last line feed is one more
unless it is empty. -/
def textLines : List Char → List (List Char)
  | [] => []
  | '\n' :: rest => [] :: textLines rest
  | c :: rest =>
    match textLines rest with
    | [] => [[c]]
    | line :: later => (c :: line) :: later

theorem textLines_cons {c : Char} (hc : c ≠ '\n') (rest : List Char) :
    textLines (c :: rest) = (c :: (textLines rest).headD []) :: (textLines rest).tail := by
  rw [textLines]
  · cases textLines rest <;> rfl
  · exact hc

theorem lineFeed_not_mem_textLines {cs line : List Char} (h : line ∈ textLines cs) :
    '\n' ∉ line := by
  induction cs generalizing line with
  | nil => cases h
  | cons c rest ih =>
    by_cases hc : c = '\n'
    · rw [hc, textLines] at h
      rcases List.mem_cons.mp h with rfl | hrest
      · exact List.not_mem_nil
      · exact ih hrest
    · rw [textLines_cons hc] at h
      rcases List.mem_cons.mp h with rfl | hrest
      · have hhead : '\n' ∉ (textLines rest).headD [] := by
          cases hlines : textLines rest with
          | nil => exact List.not_mem_nil
          | cons first later =>
            have hfirst : first ∈ textLines rest := by simp [hlines]
            exact ih hfirst
        exact List.not_mem_cons_of_ne_of_not_mem (Ne.symm hc) hhead
      · exact ih (List.mem_of_mem_tail hrest)

theorem textLines_append_lineFeed {line : List Char} (hline : '\n' ∉ line) (rest : List Char) :
    textLines (line ++ '\n' :: rest) = line :: textLines rest := by
  induction line with
  | nil => rfl
  | cons c more ih =>
    obtain ⟨hc, hmore⟩ := List.ne_and_not_mem_of_not_mem_cons hline
    rw [List.cons_append, textLines_cons hc.symm, ih hmore]
    rfl

theorem textLines_of_not_mem {line : List Char} (hne : line ≠ []) (hline : '\n' ∉ line) :
    textLines line = [line] := by
  induction line with
  | nil => contradiction
  | cons c more ih =>
    obtain ⟨hc, hmore⟩ := List.ne_and_not_mem_of_not_mem_cons hline
    rw [textLines_cons hc.symm]
    cases more with
    | nil => rfl
    | cons d rest => rw [ih (List.cons_ne_nil d rest) hmore]; rfl

/-- White space at the end of a text does not count when the text is trimmed. -/
theorem trimChars_append_blank {c : Char} (hc : isBlank c = true) (cs : List Char) :
    trimChars (cs ++ [c]) = trimChars cs := by
  rw [trimChars, trimChars, List.dropWhile_append]
  cases h : cs.dropWhile isBlank with
  | nil => simp [hc]
  | cons d rest =>
    rw [List.isEmpty_cons, if_neg Bool.false_ne_true, List.reverse_append, List.reverse_singleton,
      List.singleton_append, List.dropWhile_cons_of_pos hc]

namespace Utf8

theorem piecesFrom_eq_nil_iff {progress : Progress} {bytes : List UInt8} :
    piecesFrom progress bytes = [] ↔ progress = .ground ∧ bytes = [] := by
  induction bytes generalizing progress with
  | nil =>
    rw [piecesFrom]
    split <;> simp_all
  | cons b rest ih =>
    rw [piecesFrom_cons, List.append_eq_nil_iff, ih]
    simp only [reduceCtorEq, and_false, iff_false]
    rintro ⟨hpieces, hground, -⟩
    -- a byte that completes no piece leaves a character under way
    have henter : (enter b).1 = [] → (enter b).2 ≠ .ground := by
      simp only [enter]
      repeat' split
      all_goals simp
    cases progress with
    | ground => exact henter hpieces hground
    | inside count code low high =>
      rw [advance] at hpieces hground
      by_cases hdue : low ≤ b.toNat ∧ b.toNat ≤ high
      · by_cases hlast : count ≤ 1 <;> simp_all
      · simp [hdue] at hpieces

theorem decode_eq_some_nil_iff {bytes : List UInt8} : decode? bytes = some [] ↔ bytes = [] := by
  rw [decode_eq_some_iff, List.map_nil, pieces, piecesFrom_eq_nil_iff]
  exact and_iff_right rfl

/-- Bytes without a line feed spell no line feed. -/
theorem lineFeed_not_mem_of_decode {bytes : List UInt8} {cs : List Char}
    (h : decode? bytes = some cs) (hbytes : lineFeed ∉ bytes) : '\n' ∉ cs := by
  intro hmem
  obtain ⟨b, hb, hval⟩ := mem_of_decode h (by decide) hmem
  have hb' : b = lineFeed := UInt8.toNat_inj.mp hval.symm
  exact hbytes (hb' ▸ hb)

end Utf8

/-- The trimmed text of a line. -/
def trimmedLine? (line : List UInt8) : Option (List Char) :=
  (Utf8.decode? line).map trimChars

/-- Whether the carriage return before a line feed is dropped does not matter, since it is white
space. -/
theorem trimmedLine_endLine (seen : List UInt8) :
    trimmedLine? (endLine seen) = trimmedLine? seen.reverse := by
  cases seen with
  | nil => rfl
  | cons b rest =>
    rw [endLine]
    split
    case isFalse => rfl
    case isTrue hb =>
      rw [hb, List.reverse_cons, trimmedLine?, trimmedLine?, Utf8.decode_append_small (by decide)]
      cases Utf8.decode? rest.reverse with
      | none => rfl
      | some before => exact congrArg some (trimChars_append_blank (by decide) before).symm

/-- The trimmed lines of the text that a byte stream spells. -/
def trimmedLines? (bytes : List UInt8) : Option (List (List Char)) :=
  (Utf8.decode? bytes).map fun cs => (textLines cs).map trimChars

theorem trimmedLines_last {line : List UInt8} (hne : line ≠ []) (hline : lineFeed ∉ line) :
    trimmedLines? line = (trimmedLine? line).map fun cs => [cs] := by
  rw [trimmedLines?, trimmedLine?]
  cases h : Utf8.decode? line with
  | none => rfl
  | some cs =>
    have hcs : cs ≠ [] := by
      rintro rfl
      exact hne (Utf8.decode_eq_some_nil_iff.mp h)
    rw [Option.map_some, textLines_of_not_mem hcs (Utf8.lineFeed_not_mem_of_decode h hline)]
    rfl

theorem trimmedLines_append_lineFeed {line : List UInt8} (hline : lineFeed ∉ line)
    (rest : List UInt8) :
    trimmedLines? (line ++ lineFeed :: rest) =
      (trimmedLine? line).bind fun cs => (trimmedLines? rest).map fun later => cs :: later := by
  rw [trimmedLines?, trimmedLine?, trimmedLines?, Utf8.decode_append_small (by decide)]
  cases h : Utf8.decode? line with
  | none => rfl
  | some before =>
    have hbefore := Utf8.lineFeed_not_mem_of_decode h hline
    cases Utf8.decode? rest with
    | none => rfl
    | some behind =>
      change some ((textLines (before ++ '\n' :: behind)).map trimChars) = _
      rw [textLines_append_lineFeed hbefore]
      rfl

theorem linesFrom_trimmed {seen : List UInt8} (hseen : lineFeed ∉ seen) (bytes : List UInt8) :
    (linesFrom seen bytes).mapM trimmedLine? = trimmedLines? (seen.reverse ++ bytes) := by
  induction bytes generalizing seen with
  | nil =>
    cases seen with
    | nil => rfl
    | cons b rest =>
      have hline : lineFeed ∉ (b :: rest).reverse := mt List.mem_reverse.mp hseen
      rw [linesFrom, List.isEmpty_cons, if_neg Bool.false_ne_true, List.append_nil,
        trimmedLines_last (by simp) hline, List.mapM_cons]
      cases trimmedLine? (b :: rest).reverse <;> rfl
  | cons b rest ih =>
    rw [linesFrom]
    split
    case isFalse hb =>
      have hmore : lineFeed ∉ b :: seen := List.not_mem_cons_of_ne_of_not_mem (Ne.symm hb) hseen
      rw [ih hmore, List.reverse_cons, List.append_assoc, List.singleton_append]
    case isTrue hb =>
      have hline : lineFeed ∉ seen.reverse := mt List.mem_reverse.mp hseen
      have hrest : (linesFrom [] rest).mapM trimmedLine? = trimmedLines? rest :=
        ih List.not_mem_nil
      rw [hb, trimmedLines_append_lineFeed hline, List.mapM_cons, hrest, trimmedLine_endLine]
      cases trimmedLine? seen.reverse <;> cases trimmedLines? rest <;> rfl

/-- The trimmed lines of a byte stream are those of its text, and one that cannot be read stands
for a stream that cannot. -/
theorem lines_trimmed (bytes : List UInt8) :
    (lines bytes).mapM trimmedLine? = trimmedLines? bytes :=
  linesFrom_trimmed List.not_mem_nil bytes

end SyncAudit.Text
