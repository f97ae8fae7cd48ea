import Hallmark.Json.Basic
import Hallmark.Proofs.JsonNumbers
import Hallmark.Proofs.JsonStrings

/-!
# JSON texts

A value is written with or without blanks between its parts, and is parsed back from either text.
-/

namespace Hallmark.Proofs
open Json

/-- A value whose numbers and strings are spelled as the format asks for. -/
inductive ProperJson : Json → Prop
  | null : ProperJson .null
  | bool (b : Bool) : ProperJson (.bool b)
  | number {n : Number} : ProperNumber n → ProperJson (.number n)
  | string {raw : List Char} : ProperString raw → ProperJson (.string raw)
  | array {items : List Json} : (∀ item ∈ items, ProperJson item) → ProperJson (.array items)
  | object {members : List (List Char × Json)} : (∀ m ∈ members, ProperString m.1) →
      (∀ m ∈ members, ProperJson m.2) → ProperJson (.object members)

/-- The blanks of a text: those in front of an item, a member or the end of what holds them, by
depth, and those in front of the value of a member. -/
structure Spacing where
  line : (depth : Nat) → List Char
  value : List Char

def Blank (gap : List Char) : Prop := ∀ c ∈ gap, c = ' ' ∨ c = '\t' ∨ c = '\n' ∨ c = '\r'

structure Spacing.Blanks (s : Spacing) : Prop where
  line : ∀ depth, Blank (s.line depth)
  value : Blank s.value

section Written
variable (s : Spacing)

mutual

/-- A value in writing, with the given blanks. -/
def written (depth : Nat) : Json → List Char
  | .null => ['n', 'u', 'l', 'l']
  | .bool true => ['t', 'r', 'u', 'e']
  | .bool false => ['f', 'a', 'l', 's', 'e']
  | .number n => n.text
  | .string raw => quoted raw
  | .array [] => ['[', ']']
  | .array (item :: items) =>
    '[' :: (writtenItems (depth + 1) (item :: items) ++ (s.line depth ++ [']']))
  | .object [] => ['\x7b', '\x7d']
  | .object (m :: members) =>
    '\x7b' :: (writtenMembers (depth + 1) (m :: members) ++ (s.line depth ++ ['\x7d']))

def writtenItems (depth : Nat) : List Json → List Char
  | [] => []
  | [item] => s.line depth ++ written depth item
  | item :: next :: rest =>
    s.line depth ++ (written depth item ++ ',' :: writtenItems depth (next :: rest))

def writtenMembers (depth : Nat) : List (List Char × Json) → List Char
  | [] => []
  | [(key, value)] => s.line depth ++ (quoted key ++ ':' :: (s.value ++ written depth value))
  | (key, value) :: next :: rest =>
    s.line depth ++ (quoted key ++
      ':' :: (s.value ++ (written depth value ++ ',' :: writtenMembers depth (next :: rest))))

end

end Written

/-! ## Blanks -/

section Blanks
variable {gap cs : List Char} {c : Char}

lemma skipBlanks_append (hgap : Blank gap) (cs : List Char) :
    skipBlanks (gap ++ cs) = skipBlanks cs := by
  rw [skipBlanks, List.dropWhile_append_of_pos fun c hc => decide_eq_true (hgap c hc)]

lemma skipBlanks_cons (hc : ¬(c = ' ' ∨ c = '\t' ∨ c = '\n' ∨ c = '\r')) :
    skipBlanks (c :: cs) = c :: cs := by
  rw [skipBlanks, List.dropWhile_cons, if_neg (by simpa using hc)]

lemma value?_append (hgap : Blank gap) (fuel : Nat) (cs : List Char) :
    value? fuel (gap ++ cs) = value? fuel cs := by
  cases fuel with
  | zero => rfl
  | succ fuel => rw [value?, value?, skipBlanks_append hgap]

end Blanks

/-! ## Parsing -/

section Heads
variable {n : Number} {j : Json}

/-- A number starts with a minus sign or a digit. -/
lemma text_head (h : ProperNumber n) :
    ∃ c cs, n.text = c :: cs ∧ (c = '-' ∨ c.isDigit = true) := by
  rw [text_eq]
  cases hnegative : n.negative with
  | true => exact ⟨'-', _, rfl, .inl rfl⟩
  | false =>
    cases hwhole : n.whole with
    | nil => exact absurd hwhole h.whole
    | cons c run => exact ⟨c, _, rfl, .inr (h.digits c (hwhole ▸ List.mem_cons_self))⟩

lemma value?_number (h : ProperNumber n) (fuel : Nat) (rest : List Char) :
    value? (fuel + 1) (n.text ++ rest) =
      (Number.scan? (n.text ++ rest)).map fun scanned => (.number scanned.1, scanned.2) := by
  obtain ⟨c, cs, htext, hc⟩ := text_head h
  have hne (d : Char) (hd : d ≠ '-' ∧ d.isDigit = false) : c ≠ d := by
    rintro rfl
    rcases hc with hminus | hdigit
    · exact hd.1 hminus
    · rw [hd.2] at hdigit
      cases hdigit
  have hblank : ¬(c = ' ' ∨ c = '\t' ∨ c = '\n' ∨ c = '\r') := by
    rintro (h | h | h | h) <;> exact hne _ (by decide) h
  rw [htext, List.cons_append, value?, skipBlanks_cons hblank]
  split
  all_goals first
    | rfl
    | (next heq => exact absurd (List.cons.inj heq).1 (hne _ (by decide)))

/-- No value starts with a blank or with the end of an array. -/
lemma written_head (s : Spacing) (depth : Nat) (h : ProperJson j) :
    ∃ c cs, written s depth j = c :: cs ∧ ¬(c = ' ' ∨ c = '\t' ∨ c = '\n' ∨ c = '\r') ∧
      c ≠ ']' := by
  cases h with
  | null => exact ⟨_, _, rfl, by decide, by decide⟩
  | bool b => cases b <;> exact ⟨_, _, rfl, by decide, by decide⟩
  | number hn =>
    obtain ⟨c, cs, htext, hc⟩ := text_head hn
    refine ⟨c, cs, htext, ?_, ?_⟩
    · rintro (rfl | rfl | rfl | rfl) <;> exact absurd hc (by decide)
    · rintro rfl
      exact absurd hc (by decide)
  | string => exact ⟨_, _, rfl, by decide, by decide⟩
  | @array items => cases items <;> exact ⟨_, _, rfl, by decide, by decide⟩
  | @object members => cases members <;> exact ⟨_, _, rfl, by decide, by decide⟩

end Heads

section Parse
variable {s : Spacing} {depth fuel : Nat} {gap rest : List Char}

/-- The value is parsed back from its text, whatever follows that is no part of a number. -/
def ParsedBack (s : Spacing) (j : Json) : Prop :=
  ∀ depth fuel rest, EndsNumber rest → 2 * (written s depth j).length ≤ fuel →
    value? fuel (written s depth j ++ rest) = some (j, rest)

lemma endsNumber_cons {c : Char} {tail : List Char} (hc : c = ',' ∨ c = ']' ∨ c = '\x7d') :
    EndsNumber (c :: tail) := by
  rintro d hd
  cases hd
  rcases hc with rfl | rfl | rfl <;> decide

lemma endsNumber_gap {c : Char} {tail : List Char} (hgap : Blank gap)
    (hc : c = ',' ∨ c = ']' ∨ c = '\x7d') : EndsNumber (gap ++ c :: tail) := by
  cases gap with
  | nil => exact endsNumber_cons hc
  | cons b gap =>
    rintro d hd
    cases hd
    rcases hgap b List.mem_cons_self with rfl | rfl | rfl | rfl <;> decide

lemma items?_written (hs : s.Blanks) {items : List Json} (hne : items ≠ [])
    (hitems : ∀ item ∈ items, ParsedBack s item) (hgap : Blank gap)
    (hfuel : 2 * (writtenItems s depth items).length + 1 ≤ fuel) :
    items? fuel (writtenItems s depth items ++ (gap ++ ']' :: rest)) = some (items, rest) := by
  -- An item takes up a character, which pays for the step to the items behind it.
  induction items generalizing fuel with
  | nil => exact absurd rfl hne
  | cons item items ih =>
    obtain ⟨hitem, hrest⟩ := List.forall_mem_cons.mp hitems
    obtain ⟨fuel, rfl⟩ : ∃ f, fuel = f + 1 := ⟨fuel - 1, by omega⟩
    cases items with
    | nil =>
      rw [writtenItems, List.length_append] at hfuel
      have hvalue := hitem depth fuel (gap ++ ']' :: rest) (endsNumber_gap hgap (by decide))
        (by omega)
      rw [writtenItems, List.append_assoc, items?, value?_append (hs.line depth), hvalue]
      simp only [Option.bind_eq_bind, Option.bind_some, skipBlanks_append hgap]
      rfl
    | cons next items =>
      rw [writtenItems, List.length_append, List.length_append, List.length_cons] at hfuel
      have hvalue := hitem depth fuel
        (',' :: (writtenItems s depth (next :: items) ++ (gap ++ ']' :: rest)))
        (endsNumber_cons (by decide)) (by omega)
      have hnext : items? fuel (writtenItems s depth (next :: items) ++ (gap ++ ']' :: rest)) =
          some (next :: items, rest) := ih (List.cons_ne_nil _ _) hrest (by omega)
      rw [writtenItems, List.append_assoc, List.append_assoc, items?,
        value?_append (hs.line depth), List.cons_append, hvalue]
      simp only [Option.bind_eq_bind, Option.bind_some]
      rw [skipBlanks_cons (by decide)]
      simp only [hnext, Option.map_some]

lemma members?_written (hs : s.Blanks) {members : List (List Char × Json)} (hne : members ≠ [])
    (hkeys : ∀ m ∈ members, ProperString m.1) (hvalues : ∀ m ∈ members, ParsedBack s m.2)
    (hgap : Blank gap) (hfuel : 2 * (writtenMembers s depth members).length + 1 ≤ fuel) :
    members? fuel (writtenMembers s depth members ++ (gap ++ '\x7d' :: rest)) =
      some (members, rest) := by
  induction members generalizing fuel with
  | nil => exact absurd rfl hne
  | cons m members ih =>
    obtain ⟨key, value⟩ := m
    obtain ⟨hkey, hkeys⟩ := List.forall_mem_cons.mp hkeys
    obtain ⟨(hvalue : ParsedBack s value), hvalues⟩ := List.forall_mem_cons.mp hvalues
    have hscan (tail : List Char) : Quoted.scan? (key ++ '"' :: tail) = some (key, tail) :=
      hkey tail
    obtain ⟨fuel, rfl⟩ : ∃ f, fuel = f + 1 := ⟨fuel - 1, by omega⟩
    have hquoted (tail : List Char) : skipBlanks (s.line depth ++ (quoted key ++ tail)) =
        '"' :: (key ++ '"' :: tail) := by
      rw [skipBlanks_append (hs.line depth), quoted, List.append_assoc, List.cons_append,
        List.singleton_append, skipBlanks_cons (by decide)]
    have hlength : 1 ≤ (quoted key).length := by simp [quoted]
    cases members with
    | nil =>
      rw [writtenMembers] at hfuel
      simp only [List.length_append, List.length_cons] at hfuel
      have hread := hvalue depth fuel (gap ++ '\x7d' :: rest) (endsNumber_gap hgap (by decide))
        (by omega)
      rw [writtenMembers, List.append_assoc, List.append_assoc, members?, hquoted]
      simp only [hscan, Option.bind_eq_bind, Option.bind_some]
      rw [List.cons_append, skipBlanks_cons (by decide)]
      simp only [List.append_assoc, value?_append hs.value, hread, Option.bind_some,
        skipBlanks_append hgap]
      rfl
    | cons next members =>
      rw [writtenMembers] at hfuel
      simp only [List.length_append, List.length_cons] at hfuel
      have hread := hvalue depth fuel
        (',' :: (writtenMembers s depth (next :: members) ++ (gap ++ '\x7d' :: rest)))
        (endsNumber_cons (by decide)) (by omega)
      have hnext : members? fuel (writtenMembers s depth (next :: members) ++
          (gap ++ '\x7d' :: rest)) = some (next :: members, rest) :=
        ih (List.cons_ne_nil _ _) hkeys hvalues (by omega)
      rw [writtenMembers, List.append_assoc, List.append_assoc, members?, hquoted]
      simp only [hscan, Option.bind_eq_bind, Option.bind_some]
      rw [List.cons_append, skipBlanks_cons (by decide)]
      simp only [List.append_assoc, List.cons_append, value?_append hs.value, hread,
        Option.bind_some]
      rw [skipBlanks_cons (by decide)]
      simp only [hnext, Option.map_some]

lemma length_written_pos (s : Spacing) (depth : Nat) {j : Json} (h : ProperJson j) :
    1 ≤ (written s depth j).length := by
  obtain ⟨c, cs, hwritten, -⟩ := written_head s depth h
  rw [hwritten, List.length_cons]
  omega

lemma writtenItems_head (hs : s.Blanks) (depth : Nat) {item : Json} (items : List Json)
    (h : ProperJson item) (tail : List Char) :
    ∃ c cs, skipBlanks (writtenItems s depth (item :: items) ++ tail) = c :: cs ∧ c ≠ ']' := by
  obtain ⟨c, cs, hwritten, hblank, hclose⟩ := written_head s depth h
  cases items with
  | nil =>
    rw [writtenItems, List.append_assoc, skipBlanks_append (hs.line depth), hwritten,
      List.cons_append, skipBlanks_cons hblank]
    exact ⟨c, _, rfl, hclose⟩
  | cons next items =>
    rw [writtenItems, List.append_assoc, skipBlanks_append (hs.line depth), hwritten,
      List.cons_append, List.cons_append, skipBlanks_cons hblank]
    exact ⟨c, _, rfl, hclose⟩

lemma writtenMembers_head (hs : s.Blanks) (depth : Nat) (m : List Char × Json)
    (members : List (List Char × Json)) (tail : List Char) :
    ∃ cs, skipBlanks (writtenMembers s depth (m :: members) ++ tail) = '"' :: cs := by
  cases members with
  | nil =>
    rw [writtenMembers, List.append_assoc, skipBlanks_append (hs.line depth), quoted,
      List.cons_append, List.cons_append, List.cons_append, skipBlanks_cons (by decide)]
    exact ⟨_, rfl⟩
  | cons next members =>
    rw [writtenMembers, List.append_assoc, skipBlanks_append (hs.line depth), quoted,
      List.cons_append, List.cons_append, List.cons_append, skipBlanks_cons (by decide)]
    exact ⟨_, rfl⟩

/-- Every value takes up a character, so the parser can take a step. -/
lemma parsedBack_of_step {j : Json} (h : ProperJson j)
    (hstep : ∀ depth fuel rest, EndsNumber rest → 2 * (written s depth j).length ≤ fuel + 1 →
      value? (fuel + 1) (written s depth j ++ rest) = some (j, rest)) : ParsedBack s j := by
  intro depth fuel rest hrest hfuel
  have hpos := length_written_pos s depth h
  obtain ⟨fuel, rfl⟩ : ∃ f, fuel = f + 1 := ⟨fuel - 1, by omega⟩
  exact hstep depth fuel rest hrest hfuel

lemma parsedBack_array (hs : s.Blanks) {items : List Json}
    (hproper : ∀ item ∈ items, ProperJson item) (hitems : ∀ item ∈ items, ParsedBack s item) :
    ParsedBack s (.array items) := by
  refine parsedBack_of_step (.array hproper) fun depth fuel rest _ hfuel => ?_
  cases items with
  | nil => rfl
  | cons item items =>
    rw [written] at hfuel ⊢
    simp only [List.length_append, List.length_cons] at hfuel
    have hread : items? fuel (writtenItems s (depth + 1) (item :: items) ++
        (s.line depth ++ ']' :: rest)) = some (item :: items, rest) :=
      items?_written hs (List.cons_ne_nil _ _) hitems (hs.line depth) (by omega)
    obtain ⟨c, cs, hhead, hc⟩ := writtenItems_head hs (depth + 1) items
      (hproper item List.mem_cons_self) (s.line depth ++ ']' :: rest)
    rw [List.cons_append, List.append_assoc, List.append_assoc, List.singleton_append, value?,
      skipBlanks_cons (by decide)]
    simp only [hhead, hread, Option.map_some]
    split
    · next heq => exact absurd (List.cons.inj heq).1 hc
    · rfl

lemma parsedBack_object (hs : s.Blanks) {members : List (List Char × Json)}
    (hkeys : ∀ m ∈ members, ProperString m.1) (hproper : ∀ m ∈ members, ProperJson m.2)
    (hvalues : ∀ m ∈ members, ParsedBack s m.2) : ParsedBack s (.object members) := by
  refine parsedBack_of_step (.object hkeys hproper) fun depth fuel rest _ hfuel => ?_
  cases members with
  | nil => rfl
  | cons m members =>
    rw [written] at hfuel ⊢
    simp only [List.length_append, List.length_cons] at hfuel
    have hread : members? fuel (writtenMembers s (depth + 1) (m :: members) ++
        (s.line depth ++ '\x7d' :: rest)) = some (m :: members, rest) :=
      members?_written hs (List.cons_ne_nil _ _) hkeys hvalues (hs.line depth) (by omega)
    obtain ⟨cs, hhead⟩ := writtenMembers_head hs (depth + 1) m members
      (s.line depth ++ '\x7d' :: rest)
    rw [List.cons_append, List.append_assoc, List.append_assoc, List.singleton_append, value?,
      skipBlanks_cons (by decide)]
    simp only [hhead, hread, Option.map_some]
    rfl

/-- A value is parsed back from its text. -/
theorem parsedBack (hs : s.Blanks) {j : Json} (h : ProperJson j) : ParsedBack s j := by
  induction h with
  | null => exact parsedBack_of_step .null fun _ _ _ _ _ => rfl
  | bool b =>
    refine parsedBack_of_step (.bool b) fun depth fuel rest _ _ => ?_
    cases b <;> rfl
  | number hn =>
    refine parsedBack_of_step (.number hn) fun depth fuel rest hrest _ => ?_
    rw [written, value?_number hn, scan?_text hn hrest, Option.map_some]
  | @string raw hraw =>
    refine parsedBack_of_step (.string hraw) fun depth fuel rest _ _ => ?_
    rw [written, quoted, List.append_assoc, List.cons_append, value?, skipBlanks_cons (by decide),
      List.singleton_append]
    simp only [hraw rest, Option.map_some]
  | array hitems ih => exact parsedBack_array hs hitems ih
  | object hkeys hvalues ih => exact parsedBack_object hs hkeys hvalues ih

end Parse

/-! ## Texts -/

/-- A value without blanks. -/
def unspaced : Spacing := ⟨fun _ => [], []⟩

/-- A value on several lines. -/
def indented : Spacing := ⟨newline, [' ']⟩

lemma blanks_unspaced : unspaced.Blanks :=
  ⟨fun _ _ hc => absurd hc List.not_mem_nil, fun _ hc => absurd hc List.not_mem_nil⟩

lemma blanks_indented : indented.Blanks where
  line depth c hc := by
    rcases List.mem_cons.mp hc with rfl | hc
    · decide
    · exact .inl (List.eq_of_mem_replicate hc)
  value c hc := .inl (List.mem_singleton.mp hc)

mutual

lemma compact_eq (depth : Nat) : (j : Json) → j.compact = written unspaced depth j
  | .null | .bool true | .bool false | .number _ | .string _ | .array [] | .object [] => rfl
  | .array (item :: items) => by
    rw [compact, written, compactItems_eq (depth + 1)]
    rfl
  | .object (m :: members) => by
    rw [compact, written, compactMembers_eq (depth + 1)]
    rfl

lemma compactItems_eq (depth : Nat) :
    (items : List Json) → compactItems items = writtenItems unspaced depth items
  | [] => rfl
  | [item] => by
    rw [compactItems, writtenItems, compact_eq depth item]
    rfl
  | item :: next :: items => by
    rw [compactItems, writtenItems, compact_eq depth item, compactItems_eq depth (next :: items)]
    · rfl
    · simp

lemma compactMembers_eq (depth : Nat) : (members : List (List Char × Json)) →
    compactMembers members = writtenMembers unspaced depth members
  | [] => rfl
  | [(key, value)] => by
    rw [compactMembers, writtenMembers, compact_eq depth value]
    rfl
  | (key, value) :: next :: members => by
    rw [compactMembers, writtenMembers, compact_eq depth value,
      compactMembers_eq depth (next :: members), List.append_assoc]
    · rfl
    · simp

end

mutual

lemma pretty_eq (depth : Nat) : (j : Json) → j.pretty depth = written indented depth j
  | .null | .bool true | .bool false | .number _ | .string _ | .array [] | .object [] => rfl
  | .array (item :: items) => by
    rw [pretty, written, prettyItems_eq (depth + 1), List.cons_append, List.cons_append,
      List.append_assoc]
    · rfl
    · simp
  | .object (m :: members) => by
    rw [pretty, written, prettyMembers_eq (depth + 1), List.cons_append, List.cons_append,
      List.append_assoc]
    · rfl
    · simp

lemma prettyItems_eq (depth : Nat) :
    (items : List Json) → prettyItems depth items = writtenItems indented depth items
  | [] => rfl
  | [item] => by
    rw [prettyItems, writtenItems, pretty_eq depth item]
    rfl
  | item :: next :: items => by
    rw [prettyItems, writtenItems, pretty_eq depth item, prettyItems_eq depth (next :: items),
      List.append_assoc]
    · rfl
    · simp

lemma prettyMembers_eq (depth : Nat) : (members : List (List Char × Json)) →
    prettyMembers depth members = writtenMembers indented depth members
  | [] => rfl
  | [(key, value)] => by
    rw [prettyMembers, writtenMembers, pretty_eq depth value, List.append_assoc]
    rfl
  | (key, value) :: next :: members => by
    rw [prettyMembers, writtenMembers, pretty_eq depth value,
      prettyMembers_eq depth (next :: members), List.append_assoc, List.append_assoc]
    · rfl
    · simp

end

lemma parse?_written {s : Spacing} (hs : s.Blanks) {j : Json} (h : ProperJson j) :
    parse? (String.ofList (written s 0 j)) = some j := by
  have hread := parsedBack hs h 0 (2 * (written s 0 j).length + 2) [] (fun _ hc => nomatch hc)
    (by omega)
  rw [List.append_nil] at hread
  rw [parse?, String.toList_ofList, hread]
  rfl

/-- A value is parsed back from its text without blanks. -/
theorem parse?_toText {j : Json} (h : ProperJson j) : parse? j.toText = some j := by
  rw [toText, compact_eq 0, parse?_written blanks_unspaced h]

/-- A value is parsed back from its text on several lines. -/
theorem parse?_toPrettyText {j : Json} (h : ProperJson j) : parse? j.toPrettyText = some j := by
  rw [toPrettyText, pretty_eq, parse?_written blanks_indented h]

end Hallmark.Proofs
