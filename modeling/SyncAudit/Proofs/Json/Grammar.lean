import SyncAudit.Proofs.Json.Strings
import SyncAudit.Proofs.Number.Numeral

/-!
# The grammar of JSON text

How a value is spelled, with white space between the tokens. The reader takes every spelling of a
value up to its end and gives back the value. Floating point numbers are left out: their spelling
is not unique.
-/
namespace SyncAudit.Json

/-- What a part of a text stands for: a value, or the items or members of one that is under way,
with the bracket that closes it. -/
inductive Phrase where
  | value (v : Json)
  | items (vs : List Json)
  | members (ms : List (String × Json))

/-- White space between tokens. -/
def Spaces (ws : List Char) : Prop :=
  ∀ c ∈ ws, isSpace c = true

/-- The spellings of a phrase with at most `d` brackets opened inside each other. -/
inductive Spells : Nat → Phrase → List Char → Prop
  | null {d : Nat} : Spells d (.value .null) ['n', 'u', 'l', 'l']
  | bool {d : Nat} (b : Bool) : Spells d (.value (.bool b)) (scalarText (.bool b))
  | int {d n : Nat} : n ≤ maxDigits → Spells d (.value (.int n)) (decimal n)
  | string {d : Nat} (s : String) : Spells d (.value (.string s)) (stringText s)
  | emptyArray {d : Nat} : Spells (d + 1) (.value (.array [])) ['[', ']']
  | array {d : Nat} {vs : List Json} {ws cs : List Char} : Spaces ws → Spells d (.items vs) cs →
      Spells (d + 1) (.value (.array vs)) ('[' :: ws ++ cs)
  | emptyObject {d : Nat} : Spells (d + 1) (.value (.object [])) ['\x7b', '\x7d']
  | object {d : Nat} {ms : List (String × Json)} {ws cs : List Char} : Spaces ws →
      Spells d (.members ms) cs → Spells (d + 1) (.value (.object ms)) ('\x7b' :: ws ++ cs)
  | lastItem {d : Nat} {v : Json} {cs ws : List Char} : Spells d (.value v) cs → Spaces ws →
      Spells d (.items [v]) (cs ++ ws ++ [']'])
  | item {d : Nat} {v : Json} {vs : List Json} {cs ws more : List Char} : Spells d (.value v) cs →
      Spaces ws → Spells d (.items vs) more → Spells d (.items (v :: vs)) (cs ++ ',' :: ws ++ more)
  | lastMember {d : Nat} (name : String) {v : Json} {ws cs ws' : List Char} : Spaces ws →
      Spells d (.value v) cs → Spaces ws' →
      Spells d (.members [(name, v)]) (stringText name ++ ':' :: ws ++ cs ++ ws' ++ ['\x7d'])
  | member {d : Nat} (name : String) {v : Json} {ms : List (String × Json)}
      {ws cs ws' more : List Char} : Spaces ws → Spells d (.value v) cs → Spaces ws' →
      Spells d (.members ms) more →
      Spells d (.members ((name, v) :: ms))
        (stringText name ++ ':' :: ws ++ cs ++ ',' :: ws' ++ more)

variable {d : Nat} {p : Phrase} {cs ws rest : List Char}

theorem spaces_nil : Spaces [] := by
  simp [Spaces]

theorem skipSpace_append (hws : Spaces ws) (rest : List Char) :
    skipSpace (ws ++ rest) = skipSpace rest := by
  rw [skipSpace, List.dropWhile_append_of_pos hws]
  rfl

theorem skipSpace_cons {c : Char} (hc : isSpace c = false) (rest : List Char) :
    skipSpace (c :: rest) = c :: rest := by
  rw [skipSpace, List.dropWhile_cons_of_neg (by simp [hc])]

theorem isSpace_eq_false_of_isDigit {c : Char} (h : isDigit c = true) : isSpace c = false := by
  rw [← Bool.not_eq_true]
  intro hspace
  simp only [isSpace, Bool.or_eq_true, decide_eq_true_eq] at hspace
  rcases hspace with ((rfl | rfl) | rfl) | rfl <;> exact absurd h (by decide)

/-- No spelling starts with white space or with a closing bracket. -/
theorem Spells.head (h : Spells d p cs) :
    ∃ c more, cs = c :: more ∧ isSpace c = false ∧ c ≠ ']' ∧ c ≠ '\x7d' := by
  induction h with
  | null => exact ⟨_, _, rfl, by decide⟩
  | bool b => cases b <;> exact ⟨_, _, rfl, by decide⟩
  | @int _ n hn =>
    obtain ⟨c, more, hc⟩ := List.exists_cons_of_ne_nil (decimal_ne_nil n)
    have hdigit : isDigit c = true := isDigit_of_mem_decimal (hc ▸ List.mem_cons_self)
    refine ⟨c, more, hc, isSpace_eq_false_of_isDigit hdigit, ?_, ?_⟩
    · rintro rfl
      exact absurd hdigit (by decide)
    · rintro rfl
      exact absurd hdigit (by decide)
  | string s => exact ⟨_, _, rfl, by decide⟩
  | emptyArray | emptyObject => exact ⟨_, _, rfl, by decide⟩
  | array | object => exact ⟨_, _, rfl, by decide⟩
  | lastItem _ _ ih =>
    obtain ⟨c, more, rfl, hc⟩ := ih
    exact ⟨c, _, rfl, hc⟩
  | item _ _ _ ih =>
    obtain ⟨c, more, rfl, hc⟩ := ih
    exact ⟨c, _, rfl, hc⟩
  | lastMember | member => exact ⟨_, _, rfl, by decide⟩

theorem Spells.skipSpace_append (h : Spells d p cs) (hws : Spaces ws) (rest : List Char) :
    skipSpace (ws ++ (cs ++ rest)) = cs ++ rest := by
  obtain ⟨c, more, rfl, hc, -⟩ := h.head
  rw [Json.skipSpace_append hws]
  exact skipSpace_cons hc _

/-- Text behind a value that does not go on with it. -/
def Delimited (rest : List Char) : Prop :=
  ∀ c, rest.head? = some c → isDigit c = false ∧ c ≠ '.' ∧ c ≠ 'e' ∧ c ≠ 'E'

theorem Delimited.noDigitAhead (h : Delimited rest) : NoDigitAhead rest :=
  fun c hc => (h c hc).1

theorem delimited_nil : Delimited [] := by
  simp [Delimited]

/-- White space delimits, and so does punctuation with or without white space before it. -/
theorem delimited_spaces {c : Char} (hws : Spaces ws) (hc : c = ',' ∨ c = ']' ∨ c = '\x7d')
    (rest : List Char) : Delimited (ws ++ c :: rest) := by
  intro b hb
  cases ws with
  | nil =>
    obtain rfl : c = b := by simpa using hb
    rcases hc with rfl | rfl | rfl <;> decide
  | cons a ws =>
    obtain rfl : a = b := by simpa using hb
    have ha : isSpace a = true := hws a List.mem_cons_self
    simp only [isSpace, Bool.or_eq_true, decide_eq_true_eq] at ha
    rcases ha with ((rfl | rfl) | rfl) | rfl <;> decide

/-- The numeral of a whole number of 64 bits is read as that number. -/
theorem readNumber_decimal {n : Nat} (hn : n ≤ maxDigits) (hrest : Delimited rest) :
    readNumber (decimal n ++ rest) = some (.int n, rest) := by
  obtain ⟨c, more, hc⟩ := List.exists_cons_of_ne_nil (decimal_ne_nil n)
  have hdigit : isDigit c = true := isDigit_of_mem_decimal (hc ▸ List.mem_cons_self)
  have hsign : readNumber (decimal n ++ rest) = readUnsigned false (decimal n ++ rest) := by
    rw [hc, List.cons_append, readNumber]
    rintro more h
    obtain ⟨rfl, -⟩ := List.cons.inj h
    exact absurd hdigit (by decide)
  have hzero : ¬ ((decimal n).isEmpty = true ∨
      (decimal n).head? = some '0' ∧ 1 < (decimal n).length) := by
    rintro (hempty | ⟨hhead, hlength⟩)
    · exact decimal_ne_nil n (List.isEmpty_iff.mp hempty)
    · obtain rfl | hpos := Nat.eq_zero_or_pos n
      · exact absurd hlength (by decide)
      · exact head_decimal hpos hhead
  have hdigits : ∀ c ∈ decimal n, isDigit c = true := fun _ => isDigit_of_mem_decimal
  rw [hsign, readUnsigned, takeWhile_digits hdigits hrest.noDigitAhead,
    dropWhile_digits hdigits hrest.noDigitAhead]
  simp only [hzero, if_false, ofDigits_decimal]
  have hwhole : wholeNumber? false n = some (n : Int) := by
    simp [wholeNumber?, hn]
  rw [hwhole]
  split
  case h_1 => exact absurd rfl (hrest _ rfl).2.1
  case h_2 => exact absurd rfl (hrest _ rfl).2.2.1
  case h_3 => exact absurd rfl (hrest _ rfl).2.2.2
  case h_4 => rfl

theorem readValue_of_digit {c : Char} (hc : isDigit c = true) (fuel depth : Nat)
    (more : List Char) : readValue (fuel + 1) depth (c :: more) = readNumber (c :: more) := by
  have hne : ∀ other, isDigit other = false → c ≠ other := by
    rintro other hother rfl
    simp [hc] at hother
  rw [readValue]
  all_goals
    intro rest h
    exact hne _ (by decide) (List.cons.inj h).1

theorem readValue_array {more : List Char} (hskip : skipSpace cs = more)
    (hmore : more.head? ≠ some ']') (fuel depth : Nat) :
    readValue (fuel + 1) (depth + 1) ('[' :: cs) =
      (readItems fuel depth more).map fun (vs, rest) => (.array vs, rest) := by
  rw [readValue, hskip]
  cases more with
  | nil => rfl
  | cons c more =>
    have hc : c ≠ ']' := by simpa using hmore
    simp [hc]

theorem readValue_object {more : List Char} (hskip : skipSpace cs = more)
    (hmore : more.head? ≠ some '\x7d') (fuel depth : Nat) :
    readValue (fuel + 1) (depth + 1) ('\x7b' :: cs) =
      (readMembers fuel depth more).map fun (ms, rest) => (.object ms, rest) := by
  rw [readValue, hskip]
  cases more with
  | nil => rfl
  | cons c more =>
    have hc : c ≠ '\x7d' := by simpa using hmore
    simp [hc]

theorem readItems_last {v : Json} {fuel depth : Nat}
    (hv : readValue fuel depth cs = some (v, ws ++ ']' :: rest)) (hws : Spaces ws) :
    readItems (fuel + 1) depth cs = some ([v], rest) := by
  rw [readItems, hv]
  simp only [skipSpace_append hws, skipSpace_cons (show isSpace ']' = false by decide)]

theorem readItems_more {v : Json} {vs : List Json} {more : List Char} {fuel depth : Nat}
    (hv : readValue fuel depth cs = some (v, ',' :: more))
    (hvs : readItems fuel depth (skipSpace more) = some (vs, rest)) :
    readItems (fuel + 1) depth cs = some (v :: vs, rest) := by
  rw [readItems, hv]
  simp only [skipSpace_cons (show isSpace ',' = false by decide), hvs, Option.map_some]

theorem stringText_append (name : String) (more : List Char) :
    stringText name ++ more = '"' :: (name.toList.flatMap escapeChar ++ '"' :: more) := by
  simp [stringText]

theorem readMembers_last (name : String) {v : Json} {fuel depth : Nat}
    (hv : readValue fuel depth (skipSpace cs) = some (v, ws ++ '\x7d' :: rest))
    (hws : Spaces ws) :
    readMembers (fuel + 1) depth (stringText name ++ ':' :: cs) = some ([(name, v)], rest) := by
  rw [stringText_append, readMembers, readChars_escaped]
  simp only [skipSpace_cons (show isSpace ':' = false by decide), hv, skipSpace_append hws,
    skipSpace_cons (show isSpace '\x7d' = false by decide), String.ofList_toList]

theorem readMembers_more (name : String) {v : Json} {ms : List (String × Json)}
    {more : List Char} {fuel depth : Nat}
    (hv : readValue fuel depth (skipSpace cs) = some (v, ',' :: more))
    (hms : readMembers fuel depth (skipSpace more) = some (ms, rest)) :
    readMembers (fuel + 1) depth (stringText name ++ ':' :: cs) = some ((name, v) :: ms, rest) := by
  rw [stringText_append, readMembers, readChars_escaped]
  simp only [skipSpace_cons (show isSpace ':' = false by decide), hv,
    skipSpace_cons (show isSpace ',' = false by decide), hms, Option.map_some,
    String.ofList_toList]

/-- The reader takes a phrase off the front of a text. -/
def Phrase.Read (fuel depth : Nat) (cs rest : List Char) : Phrase → Prop
  | .value v => Delimited rest → readValue fuel depth cs = some (v, rest)
  | .items vs => readItems fuel depth cs = some (vs, rest)
  | .members ms => readMembers fuel depth cs = some (ms, rest)

/-- The reader takes every spelling of a phrase up to its end, and a value up to where its text is
delimited. -/
theorem Spells.read (h : Spells d p cs) {fuel : Nat} (hfuel : 2 * cs.length ≤ fuel)
    (rest : List Char) : p.Read fuel d (cs ++ rest) rest := by
  have hcomma : ∀ more, Delimited (',' :: more) :=
    delimited_spaces spaces_nil (.inl rfl)
  -- an item and the value that it is start at the same character and take a step each, which is
  -- why there have to be two steps for every character
  induction h generalizing fuel rest with
  | null =>
    obtain _ | fuel := fuel
    · simp at hfuel
    exact fun _ => rfl
  | bool b =>
    obtain _ | fuel := fuel
    · cases b <;> simp [scalarText] at hfuel
    cases b <;> exact fun _ => rfl
  | @int _ n hn =>
    obtain ⟨c, more, hc⟩ := List.exists_cons_of_ne_nil (decimal_ne_nil n)
    obtain _ | fuel := fuel
    · simp [hc] at hfuel
    have hdigit : isDigit c = true := isDigit_of_mem_decimal (hc ▸ List.mem_cons_self)
    intro hrest
    rw [← readNumber_decimal hn hrest, hc]
    exact readValue_of_digit hdigit _ _ _
  | string s =>
    obtain _ | fuel := fuel
    · simp [stringText] at hfuel
    intro _
    rw [stringText_append, readValue, readChars_escaped]
    simp
  | emptyArray =>
    obtain _ | fuel := fuel
    · simp at hfuel
    exact fun _ => rfl
  | emptyObject =>
    obtain _ | fuel := fuel
    · simp at hfuel
    exact fun _ => rfl
  | @array d vs ws cs hws hitems ih =>
    obtain _ | fuel := fuel
    · simp at hfuel
    have hread : readItems fuel d (cs ++ rest) = _ := ih (by simp at hfuel ⊢; omega) rest
    have hhead : (cs ++ rest).head? ≠ some ']' := by
      obtain ⟨c, more, rfl, -, hc, -⟩ := hitems.head
      simpa using hc
    intro _
    rw [List.cons_append, List.cons_append, List.append_assoc,
      readValue_array (hitems.skipSpace_append hws rest) hhead, hread]
    rfl
  | @object d ms ws cs hws hmembers ih =>
    obtain _ | fuel := fuel
    · simp at hfuel
    have hread : readMembers fuel d (cs ++ rest) = _ := ih (by simp at hfuel ⊢; omega) rest
    have hhead : (cs ++ rest).head? ≠ some '\x7d' := by
      obtain ⟨c, more, rfl, -, -, hc⟩ := hmembers.head
      simpa using hc
    intro _
    rw [List.cons_append, List.cons_append, List.append_assoc,
      readValue_object (hmembers.skipSpace_append hws rest) hhead, hread]
    rfl
  | @lastItem d v cs ws hv hws ih =>
    obtain _ | fuel := fuel
    · simp at hfuel
    have hread := ih (show 2 * cs.length ≤ fuel by simp at hfuel; omega) (ws ++ ']' :: rest)
      (delimited_spaces hws (by simp) rest)
    exact readItems_last (by simpa using hread) hws
  | @item d v vs cs ws more hv hws hitems ihv ihvs =>
    obtain _ | fuel := fuel
    · simp at hfuel
    have hread := ihv (show 2 * cs.length ≤ fuel by simp at hfuel; omega)
      (',' :: (ws ++ (more ++ rest))) (hcomma _)
    have hrest : readItems fuel d (more ++ rest) = _ := ihvs (by simp at hfuel ⊢; omega) rest
    refine readItems_more (by simpa using hread) ?_
    rw [hitems.skipSpace_append hws]
    exact hrest
  | @lastMember d name v ws cs ws' hws hv hws' ih =>
    obtain _ | fuel := fuel
    · simp at hfuel
    have hread := ih (show 2 * cs.length ≤ fuel by simp at hfuel; omega) (ws' ++ '\x7d' :: rest)
      (delimited_spaces hws' (by simp) rest)
    rw [← hv.skipSpace_append hws] at hread
    have hlast := readMembers_last name hread hws'
    simpa [Phrase.Read] using hlast
  | @member d name v ms ws cs ws' more hws hv hws' hmembers ihv ihms =>
    obtain _ | fuel := fuel
    · simp at hfuel
    have hread := ihv (show 2 * cs.length ≤ fuel by simp at hfuel; omega)
      (',' :: (ws' ++ (more ++ rest))) (hcomma _)
    rw [← hv.skipSpace_append hws] at hread
    have hrest : readMembers fuel d (more ++ rest) = _ := ihms (by simp at hfuel ⊢; omega) rest
    rw [← hmembers.skipSpace_append hws'] at hrest
    have hmore := readMembers_more name hread hrest
    simpa [Phrase.Read] using hmore

/-- A text that spells a value is parsed as that value. -/
theorem Spells.parse {v : Json} (h : Spells maxDepth (.value v) cs) :
    parse (String.ofList cs) = some v := by
  have hstart : skipSpace cs = cs := by
    simpa using h.skipSpace_append spaces_nil []
  have hread := h.read (show 2 * cs.length ≤ 2 * cs.length + 2 by omega) [] delimited_nil
  rw [List.append_nil] at hread
  rw [Json.parse, String.toList_ofList, parseChars, hstart, hread]
  rfl

/-! ## Values with a spelling -/

/-- There is a spelling of the value with at most `d` brackets opened inside each other. -/
def Spellable (d : Nat) (v : Json) : Prop :=
  ∃ cs, Spells d (.value v) cs

theorem spellable_ofNat {n : Nat} (hn : n ≤ maxDigits) : Spellable d (.ofNat n) :=
  ⟨_, .int hn⟩

theorem spellable_string (s : String) : Spellable d (.string s) :=
  ⟨_, .string s⟩

theorem spellable_array {vs : List Json} (h : ∀ v ∈ vs, Spellable d v) :
    Spellable (d + 1) (.array vs) := by
  have hitems : vs = [] ∨ ∃ cs, Spells d (.items vs) cs := by
    induction vs with
    | nil => exact .inl rfl
    | cons v vs ih =>
      obtain ⟨⟨cs, hcs⟩, hvs⟩ := List.forall_mem_cons.mp h
      obtain rfl | ⟨more, hmore⟩ := ih hvs
      · exact .inr ⟨_, .lastItem hcs spaces_nil⟩
      · exact .inr ⟨_, .item hcs spaces_nil hmore⟩
  obtain rfl | ⟨cs, hcs⟩ := hitems
  · exact ⟨_, .emptyArray⟩
  · exact ⟨_, .array spaces_nil hcs⟩

theorem spellable_object {ms : List (String × Json)} (h : ∀ m ∈ ms, Spellable d m.2) :
    Spellable (d + 1) (.object ms) := by
  have hmembers : ms = [] ∨ ∃ cs, Spells d (.members ms) cs := by
    induction ms with
    | nil => exact .inl rfl
    | cons m ms ih =>
      obtain ⟨⟨cs, hcs⟩, hms⟩ := List.forall_mem_cons.mp h
      obtain rfl | ⟨more, hmore⟩ := ih hms
      · exact .inr ⟨_, .lastMember m.1 spaces_nil hcs spaces_nil⟩
      · exact .inr ⟨_, .member m.1 spaces_nil hcs spaces_nil hmore⟩
  obtain rfl | ⟨cs, hcs⟩ := hmembers
  · exact ⟨_, .emptyObject⟩
  · exact ⟨_, .object spaces_nil hcs⟩

theorem spellable_strings (texts : List String) : Spellable (d + 1) (.strings texts) := by
  refine spellable_array fun v hv => ?_
  obtain ⟨text, -, rfl⟩ := List.mem_map.mp hv
  exact spellable_string text

end SyncAudit.Json
