import Mathlib.Data.List.Induction
import Mathlib.Logic.Relation
import SyncAudit.Proofs.Text.Lines

/-!
# Texts with the same lines

The lines of a text can stand in another order and any number of times, with more or less white
space around them and with or without carriage returns, and the last one need not be ended. As a
set, the trimmed lines are the same.
-/
namespace SyncAudit.Text

/-- The text of the given lines, each of them ended. -/
def ofLines (lines : List (List Char)) : List Char :=
  lines.flatMap fun line => line ++ ['\n']

/-- What is behind a text starts a new line. -/
def StartsLine (front : List Char) : Prop :=
  front = [] ∨ ∃ before, front = before ++ ['\n']

/-- A line ends in front of `back`. The last line of a text need not be ended, but then it is not
empty. -/
def EndsLine (line back : List Char) : Prop :=
  back = [] ∧ line ≠ [] ∨ ∃ behind, back = '\n' :: behind

/-- One change of how the lines of a text are laid out. -/
inductive LayoutStep : List Char → List Char → Prop
  | rearrange {lines lines' : List (List Char)} : (∀ line ∈ lines, '\n' ∉ line) →
      (∀ line, line ∈ lines ↔ line ∈ lines') → LayoutStep (ofLines lines) (ofLines lines')
  | pad {front line back before behind : List Char} : StartsLine front → '\n' ∉ line →
      EndsLine line back → (∀ c ∈ before, isBlank c = true ∧ c ≠ '\n') →
      (∀ c ∈ behind, isBlank c = true ∧ c ≠ '\n') →
      LayoutStep (front ++ (line ++ back)) (front ++ (before ++ line ++ behind ++ back))
  | carriageReturn {front back : List Char} :
      LayoutStep (front ++ '\n' :: back) (front ++ '\r' :: '\n' :: back)
  | finalLineFeed {front : List Char} {c : Char} : c ≠ '\n' →
      LayoutStep (front ++ [c]) (front ++ [c, '\n'])

/-- Texts that come from one another by changes of their layout, made or undone. -/
abbrev Relaid : List Char → List Char → Prop :=
  Relation.EqvGen LayoutStep

theorem textLines_ne_nil {cs : List Char} (h : cs ≠ []) : textLines cs ≠ [] := by
  obtain ⟨c, rest, rfl⟩ := List.exists_cons_of_ne_nil h
  by_cases hc : c = '\n'
  · rw [hc, textLines]
    exact List.cons_ne_nil _ _
  · rw [textLines_cons hc]
    exact List.cons_ne_nil _ _

theorem textLines_append {front : List Char} (h : StartsLine front) (back : List Char) :
    textLines (front ++ back) = textLines front ++ textLines back := by
  obtain rfl | ⟨before, rfl⟩ := h
  · rfl
  · induction before with
    | nil => rfl
    | cons c rest ih =>
      by_cases hc : c = '\n'
      · subst hc
        exact congrArg ([] :: ·) ih
      · have hne : textLines (rest ++ ['\n']) ≠ [] := textLines_ne_nil (by simp)
        obtain ⟨line, later, hrest⟩ := List.exists_cons_of_ne_nil hne
        rw [hrest] at ih
        rw [List.cons_append, List.cons_append, textLines_cons hc, textLines_cons hc, ih, hrest]
        rfl

theorem textLines_ofLines {lines : List (List Char)} (h : ∀ line ∈ lines, '\n' ∉ line) :
    textLines (ofLines lines) = lines := by
  induction lines with
  | nil => rfl
  | cons line rest ih =>
    obtain ⟨hline, hrest⟩ := List.forall_mem_cons.mp h
    have hcons : ofLines (line :: rest) = line ++ '\n' :: ofLines rest := by
      rw [ofLines, List.flatMap_cons, List.append_assoc, List.singleton_append, ofLines]
    rw [hcons, textLines_append_lineFeed hline, ih hrest]

theorem textLines_line {line back : List Char} (hline : '\n' ∉ line) (h : EndsLine line back) :
    textLines (line ++ back) = line :: textLines back.tail := by
  obtain ⟨rfl, hne⟩ | ⟨behind, rfl⟩ := h
  · rw [List.append_nil, textLines_of_not_mem hne hline]
    rfl
  · exact textLines_append_lineFeed hline behind

theorem textLines_append_line {front line back : List Char} (hfront : StartsLine front)
    (hline : '\n' ∉ line) (hback : EndsLine line back) :
    textLines (front ++ (line ++ back)) = textLines front ++ line :: textLines back.tail := by
  rw [textLines_append hfront, textLines_line hline hback]

/-- A text parts where its last line starts. -/
theorem exists_last_line (cs : List Char) :
    ∃ front line, cs = front ++ line ∧ StartsLine front ∧ '\n' ∉ line := by
  induction cs using List.reverseRecOn with
  | nil => exact ⟨[], [], rfl, .inl rfl, List.not_mem_nil⟩
  | append_singleton cs c ih =>
    by_cases hc : c = '\n'
    · exact ⟨cs ++ [c], [], (List.append_nil _).symm, .inr ⟨cs, by rw [hc]⟩, List.not_mem_nil⟩
    · obtain ⟨front, line, rfl, hfront, hline⟩ := ih
      exact ⟨front, line ++ [c], List.append_assoc .., hfront, by simp [hline, Ne.symm hc]⟩

/-- White space around a text does not count when the text is trimmed. -/
theorem trimChars_pad {before behind : List Char} (hbefore : ∀ c ∈ before, isBlank c = true)
    (hbehind : ∀ c ∈ behind, isBlank c = true) (cs : List Char) :
    trimChars (before ++ cs ++ behind) = trimChars cs := by
  induction behind using List.reverseRecOn with
  | nil => rw [List.append_nil, trimChars, trimChars, List.dropWhile_append_of_pos hbefore]
  | append_singleton behind c ih =>
    rw [← List.append_assoc, trimChars_append_blank (hbehind c (by simp))]
    exact ih fun d hd => hbehind d (List.mem_append_left _ hd)

/-- A text that is trimmed has lost nothing but white space. -/
theorem exists_pads_of_trimChars (cs : List Char) :
    ∃ before behind, (∀ c ∈ before, isBlank c = true) ∧ (∀ c ∈ behind, isBlank c = true) ∧
      cs = before ++ trimChars cs ++ behind := by
  refine ⟨cs.takeWhile isBlank, ((cs.dropWhile isBlank).reverse.takeWhile isBlank).reverse, ?_, ?_,
    ?_⟩
  · exact List.all_eq_true.mp List.all_takeWhile
  · intro c hc
    exact List.all_eq_true.mp List.all_takeWhile c (List.mem_reverse.mp hc)
  · rw [trimChars, List.append_assoc, ← List.reverse_append, List.takeWhile_append_dropWhile,
      List.reverse_reverse, List.takeWhile_append_dropWhile]

theorem trimChars_trimChars (cs : List Char) : trimChars (trimChars cs) = trimChars cs := by
  obtain ⟨before, behind, hbefore, hbehind, hcs⟩ := exists_pads_of_trimChars cs
  conv_rhs => rw [hcs, trimChars_pad hbefore hbehind]

/-- One change of the layout leaves the set of trimmed lines as it is. -/
theorem LayoutStep.mem_trimmed {cs ds : List Char} (h : LayoutStep cs ds) (text : List Char) :
    text ∈ (textLines cs).map trimChars ↔ text ∈ (textLines ds).map trimChars := by
  cases h with
  | rearrange hlines hsame =>
    rw [textLines_ofLines hlines,
      textLines_ofLines fun line hline => hlines line ((hsame line).mpr hline)]
    simp only [List.mem_map, hsame]
  | @pad front line back before behind hfront hline hback hbefore hbehind =>
    have hpadded : '\n' ∉ before ++ line ++ behind := by
      simp only [List.mem_append, not_or]
      exact ⟨⟨fun h => (hbefore _ h).2 rfl, hline⟩, fun h => (hbehind _ h).2 rfl⟩
    have hends : EndsLine (before ++ line ++ behind) back :=
      hback.imp_left fun ⟨hnil, hne⟩ => ⟨hnil, by simp [hne]⟩
    rw [textLines_append_line hfront hline hback, textLines_append_line hfront hpadded hends,
      List.map_append, List.map_append, List.map_cons, List.map_cons,
      trimChars_pad (fun c hc => (hbefore c hc).1) (fun c hc => (hbehind c hc).1)]
  | @carriageReturn front back =>
    -- The change is at the end of one line, and the text is cut where that line starts.
    obtain ⟨start, line, rfl, hstart, hline⟩ := exists_last_line front
    have hreturn : '\n' ∉ line ++ ['\r'] := by simp [hline]
    have hcs : textLines (start ++ line ++ '\n' :: back) =
        textLines start ++ line :: textLines back := by
      rw [List.append_assoc, textLines_append_line hstart hline (.inr ⟨back, rfl⟩)]
      rfl
    have hds : textLines (start ++ line ++ '\r' :: '\n' :: back) =
        textLines start ++ (line ++ ['\r']) :: textLines back := by
      rw [← List.singleton_append, List.append_assoc, ← List.append_assoc line,
        textLines_append_line hstart hreturn (.inr ⟨back, rfl⟩)]
      rfl
    rw [hcs, hds, List.map_append, List.map_append, List.map_cons, List.map_cons,
      trimChars_append_blank (by decide)]
  | @finalLineFeed front c hc =>
    obtain ⟨start, line, rfl, hstart, hline⟩ := exists_last_line front
    have hlast : '\n' ∉ line ++ [c] := by simp [hline, Ne.symm hc]
    have hcs : textLines (start ++ line ++ [c]) = textLines start ++ [line ++ [c]] := by
      have hends := textLines_append_line hstart hlast (.inl ⟨rfl, by simp⟩)
      rwa [List.append_nil, ← List.append_assoc] at hends
    have hds : textLines (start ++ line ++ [c, '\n']) = textLines start ++ [line ++ [c]] := by
      rw [show [c, '\n'] = [c] ++ ['\n'] from rfl, List.append_assoc, ← List.append_assoc line,
        textLines_append_line hstart hlast (.inr ⟨[], rfl⟩)]
      rfl
    rw [hcs, hds]

/-- However a text is laid out, it has the same set of trimmed lines. -/
theorem Relaid.mem_trimmed {cs ds : List Char} (h : Relaid cs ds) (text : List Char) :
    text ∈ (textLines cs).map trimChars ↔ text ∈ (textLines ds).map trimChars := by
  induction h with
  | rel cs ds hstep => exact hstep.mem_trimmed text
  | refl cs => exact Iff.rfl
  | symm cs ds _ ih => exact ih.symm
  | trans cs ds es _ _ ih ih' => exact ih.trans ih'

end SyncAudit.Text
