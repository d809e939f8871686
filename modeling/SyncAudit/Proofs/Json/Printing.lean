import SyncAudit.Json.Printer
import SyncAudit.Proofs.Json.Grammar

/-!
# Printed values read back

Both forms of a value are spellings of it, the pretty one with white space after the brackets and
commas. Reading either gives the value back, and the compact one is a single line.
-/
namespace SyncAudit.Json

/-- The compact text of a phrase, up to the bracket that closes it. -/
def Phrase.compact : Phrase → List Char
  | .value v => compactText v
  | .items vs => compactItems vs ++ [']']
  | .members ms => compactMembers ms ++ ['\x7d']

/-- The pretty text of a phrase is a spelling of it, for items and members once the line break in
front of them is passed over. -/
def Phrase.PrettySpells (d depth : Nat) : Phrase → Prop
  | .value v => Spells d (.value v) (prettyText depth v)
  | .items vs => ∃ cs, prettyItems (depth + 1) vs ++ newLine depth ++ [']'] =
      newLine (depth + 1) ++ cs ∧ Spells d (.items vs) cs
  | .members ms => ∃ cs, prettyMembers (depth + 1) ms ++ newLine depth ++ ['\x7d'] =
      newLine (depth + 1) ++ cs ∧ Spells d (.members ms) cs

variable {d : Nat} {p : Phrase} {cs : List Char}

theorem decimalInt_natCast (n : Nat) : decimalInt n = decimal n := by
  have hn : ¬ (n : Int) < 0 := by omega
  rw [decimalInt, if_neg hn, Int.natAbs_natCast]

theorem spaces_blank : Spaces [' '] := by
  simp [Spaces, isSpace]

theorem spaces_newLine (depth : Nat) : Spaces (newLine depth) := by
  intro c hc
  rcases List.mem_cons.mp hc with rfl | hc
  · decide
  · obtain ⟨-, rfl⟩ := List.mem_replicate.mp hc
    decide

theorem Spells.items_ne_nil {vs : List Json} (h : Spells d (.items vs) cs) : vs ≠ [] := by
  cases h <;> simp

theorem Spells.members_ne_nil {ms : List (String × Json)} (h : Spells d (.members ms) cs) :
    ms ≠ [] := by
  cases h <;> simp

theorem compactItems_cons {v : Json} {vs : List Json} (hvs : vs ≠ []) :
    compactItems (v :: vs) = compactText v ++ ',' :: compactItems vs := by
  obtain ⟨w, vs, rfl⟩ := List.exists_cons_of_ne_nil hvs
  rw [compactItems]
  simp

theorem compactMembers_cons {name : String} {v : Json} {ms : List (String × Json)}
    (hms : ms ≠ []) : compactMembers ((name, v) :: ms) =
      stringText name ++ ':' :: compactText v ++ ',' :: compactMembers ms := by
  obtain ⟨m, ms, rfl⟩ := List.exists_cons_of_ne_nil hms
  rw [compactMembers]
  simp

theorem prettyItems_cons {depth : Nat} {v : Json} {vs : List Json} (hvs : vs ≠ []) :
    prettyItems depth (v :: vs) =
      newLine depth ++ prettyText depth v ++ ',' :: prettyItems depth vs := by
  obtain ⟨w, vs, rfl⟩ := List.exists_cons_of_ne_nil hvs
  rw [prettyItems]
  simp

theorem prettyMembers_cons {depth : Nat} {name : String} {v : Json} {ms : List (String × Json)}
    (hms : ms ≠ []) : prettyMembers depth ((name, v) :: ms) =
      newLine depth ++ stringText name ++ ':' :: ' ' :: prettyText depth v
        ++ ',' :: prettyMembers depth ms := by
  obtain ⟨m, ms, rfl⟩ := List.exists_cons_of_ne_nil hms
  rw [prettyMembers]
  simp

/-- The compact text of a phrase that can be spelled is a spelling of it. -/
theorem Spells.compact (h : Spells d p cs) : Spells d p p.compact := by
  induction h with
  | null => exact .null
  | bool b => exact .bool b
  | @int d n hn =>
    rw [Phrase.compact, compactText, scalarText, decimalInt_natCast]
    · exact .int hn
    all_goals simp
  | string s => exact .string s
  | emptyArray => exact .emptyArray
  | emptyObject => exact .emptyObject
  | array _ _ ih => simpa [Phrase.compact, compactText] using Spells.array spaces_nil ih
  | object _ _ ih => simpa [Phrase.compact, compactText] using Spells.object spaces_nil ih
  | lastItem _ _ ih => simpa [Phrase.compact, compactItems] using Spells.lastItem ih spaces_nil
  | item _ _ hvs ihv ihvs =>
    rw [Phrase.compact, compactItems_cons hvs.items_ne_nil]
    simpa [Phrase.compact] using Spells.item ihv spaces_nil ihvs
  | lastMember name _ _ _ ih =>
    simpa [Phrase.compact, compactMembers] using Spells.lastMember name spaces_nil ih spaces_nil
  | member name _ _ _ hms ihv ihms =>
    rw [Phrase.compact, compactMembers_cons hms.members_ne_nil]
    simpa [Phrase.compact] using Spells.member name spaces_nil ihv spaces_nil ihms

theorem Spells.pretty (h : Spells d p cs) (depth : Nat) : p.PrettySpells d depth := by
  induction h generalizing depth with
  | null => exact .null
  | bool b => exact .bool b
  | @int d n hn =>
    rw [Phrase.PrettySpells, prettyText, scalarText, decimalInt_natCast]
    · exact .int hn
    all_goals simp
  | string s => exact .string s
  | emptyArray => exact .emptyArray
  | emptyObject => exact .emptyObject
  | @array d vs _ _ _ hvs ih =>
    obtain ⟨cs, htext, hcs⟩ := ih depth
    obtain ⟨v, vs, rfl⟩ := List.exists_cons_of_ne_nil hvs.items_ne_nil
    have hspells := Spells.array (spaces_newLine (depth + 1)) hcs
    rw [List.cons_append, ← htext] at hspells
    simpa [Phrase.PrettySpells, prettyText] using hspells
  | @object d ms _ _ _ hms ih =>
    obtain ⟨cs, htext, hcs⟩ := ih depth
    obtain ⟨m, ms, rfl⟩ := List.exists_cons_of_ne_nil hms.members_ne_nil
    have hspells := Spells.object (spaces_newLine (depth + 1)) hcs
    rw [List.cons_append, ← htext] at hspells
    simpa [Phrase.PrettySpells, prettyText] using hspells
  | lastItem _ _ ih =>
    refine ⟨_, ?_, .lastItem (ih (depth + 1)) (spaces_newLine depth)⟩
    simp [prettyItems]
  | item _ _ hvs ihv ihvs =>
    obtain ⟨cs, htext, hcs⟩ := ihvs depth
    refine ⟨_, ?_, .item (ihv (depth + 1)) (spaces_newLine (depth + 1)) hcs⟩
    simp [prettyItems_cons hvs.items_ne_nil, ← htext]
  | lastMember name _ _ _ ih =>
    refine ⟨_, ?_, .lastMember name spaces_blank (ih (depth + 1)) (spaces_newLine depth)⟩
    simp [prettyMembers]
  | member name _ _ _ hms ihv ihms =>
    obtain ⟨cs, htext, hcs⟩ := ihms depth
    refine ⟨_, ?_, .member name spaces_blank (ihv (depth + 1)) (spaces_newLine (depth + 1)) hcs⟩
    simp [prettyMembers_cons hms.members_ne_nil, ← htext]

/-- A value that can be spelled is read back from its compact text. -/
theorem Spells.parse_compact {v : Json} (h : Spells maxDepth (.value v) cs) :
    Json.parse v.compact = some v :=
  h.compact.parse

/-- A value that can be spelled is read back from its pretty text. -/
theorem Spells.parse_pretty {v : Json} (h : Spells maxDepth (.value v) cs) :
    Json.parse v.pretty = some v :=
  (h.pretty 0).parse

theorem printable_decimal (n : Nat) : Printable (decimal n) := by
  intro c hc
  have hdigit := isDigit_iff.mp (isDigit_of_mem_decimal hc)
  omega

/-- There are no control characters in a compact text. -/
theorem Spells.printable_compact (h : Spells d p cs) : Printable p.compact := by
  induction h with
  | null => simp [Phrase.compact, compactText, scalarText]
  | bool b => cases b <;> simp [Phrase.compact, compactText, scalarText]
  | int hn => simp [Phrase.compact, compactText, scalarText, decimalInt_natCast, printable_decimal]
  | string s => simp [Phrase.compact, compactText, scalarText, printable_stringText]
  | emptyArray => simp [Phrase.compact, compactText, compactItems]
  | emptyObject => simp [Phrase.compact, compactText, compactMembers]
  | array _ _ ih => simpa [Phrase.compact, compactText] using ih
  | object _ _ ih => simpa [Phrase.compact, compactText] using ih
  | lastItem _ _ ih => simpa [Phrase.compact, compactItems] using ih
  | item _ _ hvs ihv ihvs =>
    simp only [Phrase.compact, printable_append] at ihv ihvs
    simp [Phrase.compact, compactItems_cons hvs.items_ne_nil, ihv, ihvs]
  | lastMember name _ _ _ ih =>
    simpa [Phrase.compact, compactMembers, printable_stringText] using ih
  | member name _ _ _ hms ihv ihms =>
    simp only [Phrase.compact, printable_append] at ihv ihms
    simp [Phrase.compact, compactMembers_cons hms.members_ne_nil, printable_stringText, ihv, ihms]

end SyncAudit.Json
