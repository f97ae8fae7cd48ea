import Hallmark.Proofs.JoinedNames
import Mathlib.Data.Multiset.Filter
import Mathlib.Logic.Relation

/-!
# The names in a symbol hash

What enters a symbol hash is a canonical form of the names that count: it depends on these names and
on how often each occurs, and on nothing else, and the names can be read back from it.
-/

namespace Hallmark.Proofs
variable {tables tables' : SymbolTables} {recovery recovery' : Except FormatError (List String)}

/-- The names of the symbols that count, in lower case. -/
def keptNames (symbols : List Symbol) : Multiset String :=
  ((symbols.filter fun s => !s.isExcluded).map fun s => LetterCase.lower s.name : List String)

/-- The names that count in both tables together, each as often as it occurs. -/
def countedNames (tables : SymbolTables) : Multiset String :=
  keptNames tables.dynamic + keptNames tables.static

/-- A change of the tables after which the same symbols count, if in other places. -/
inductive Rearranges : SymbolTables → SymbolTables → Prop
  | permute {dynamic dynamic' static static' : List Symbol} : dynamic.Perm dynamic' →
      static.Perm static' → Rearranges ⟨dynamic, static⟩ ⟨dynamic', static'⟩
  | move {s : Symbol} {origin : SymbolOrigin} {dynamic static : List Symbol} :
      Rearranges ⟨s :: dynamic, static⟩ ⟨dynamic, { s with origin } :: static⟩
  | addDynamic {s : Symbol} {dynamic static : List Symbol} : s.isExcluded →
      Rearranges ⟨dynamic, static⟩ ⟨s :: dynamic, static⟩
  | addStatic {s : Symbol} {dynamic static : List Symbol} : s.isExcluded →
      Rearranges ⟨dynamic, static⟩ ⟨dynamic, s :: static⟩

/-! ## The names that count -/

lemma keptNames_append (symbols more : List Symbol) :
    keptNames (symbols ++ more) = keptNames symbols + keptNames more := by
  rw [keptNames, List.filter_append, List.map_append, ← Multiset.coe_add, keptNames, keptNames]

lemma keptNames_perm {symbols symbols' : List Symbol} (h : symbols.Perm symbols') :
    keptNames symbols = keptNames symbols' :=
  Multiset.coe_eq_coe.mpr ((h.filter _).map _)

lemma keptNames_excluded {s : Symbol} {symbols : List Symbol} (h : s.isExcluded) :
    keptNames (s :: symbols) = keptNames symbols := by
  rw [keptNames, List.filter_cons_of_neg (by simp [h]), keptNames]

lemma keptNames_kept {s : Symbol} {symbols : List Symbol} (h : s.isExcluded = false) :
    keptNames (s :: symbols) = LetterCase.lower s.name ::ₘ keptNames symbols := by
  rw [keptNames, List.filter_cons_of_pos (by simp [h]), List.map_cons, ← Multiset.cons_coe,
    keptNames]

lemma countedNames_eq (tables : SymbolTables) : countedNames tables = keptNames tables.symbols :=
  (keptNames_append tables.dynamic tables.static).symm

lemma countedNames_rearranges (h : Rearranges tables tables') :
    countedNames tables = countedNames tables' := by
  cases h with
  | permute hdynamic hstatic =>
    simp only [countedNames, keptNames_perm hdynamic, keptNames_perm hstatic]
  | @move s origin dynamic static =>
    -- The origin of a symbol is neither part of its name nor a reason to exclude it.
    cases hs : s.isExcluded with
    | true =>
      have hmoved : ({ s with origin } : Symbol).isExcluded := hs
      simp only [countedNames, keptNames_excluded hs, keptNames_excluded hmoved]
    | false =>
      have hmoved : ({ s with origin } : Symbol).isExcluded = false := hs
      simp only [countedNames, keptNames_kept hs, keptNames_kept hmoved, Multiset.cons_add,
        Multiset.add_cons]
  | addDynamic hs => simp only [countedNames, keptNames_excluded hs]
  | addStatic hs => simp only [countedNames, keptNames_excluded hs]

lemma countedNames_rearranged (h : Relation.EqvGen Rearranges tables tables') :
    countedNames tables = countedNames tables' := by
  induction h with
  | rel t t' h => exact countedNames_rearranges h
  | refl t => rfl
  | symm t t' _ ih => exact ih.symm
  | trans t t' u _ _ ih ih' => exact ih.trans ih'

/-! ## The text that is digested -/

lemma lowerFrom_ne_nil {afterCased : Bool} {c : Char} {rest : List Char} :
    LetterCase.lowerFrom afterCased (c :: rest) ≠ [] := by
  rw [LetterCase.lowerFrom, LetterCase.lowerChar]
  split_ifs <;> simp

lemma lower_ne_empty {text : String} (h : text ≠ "") : LetterCase.lower text ≠ "" := by
  intro hlower
  have hnil : LetterCase.lowerFrom false text.toList = [] := by
    rw [← String.toList_inj, LetterCase.lower, String.toList_ofList] at hlower
    exact hlower
  cases hchars : text.toList with
  | nil => exact h (String.toList_inj.mp hchars)
  | cons c rest =>
    rw [hchars] at hnil
    exact lowerFrom_ne_nil hnil

lemma name_ne_empty {s : Symbol} (h : s.isExcluded = false) : s.name ≠ "" := by
  intro hname
  simp [Symbol.isExcluded, isExcludedName, hname] at h

lemma ne_empty_of_mem_keptNames {symbols : List Symbol} {name : String}
    (h : name ∈ keptNames symbols) : name ≠ "" := by
  obtain ⟨s, hs, rfl⟩ := List.mem_map.mp (Multiset.mem_coe.mp h)
  have hkept : s.isExcluded = false := by simpa using (List.mem_filter.mp hs).2
  exact lower_ne_empty (name_ne_empty hkept)

lemma normalizedNames_eq_iff {symbols symbols' : List Symbol} :
    normalizedNames symbols = normalizedNames symbols' ↔ keptNames symbols = keptNames symbols' :=
  sortNames_eq_iff.trans Multiset.coe_eq_coe.symm

lemma joinNames_normalizedNames {symbols symbols' : List Symbol}
    (h : ∀ name ∈ keptNames symbols + keptNames symbols', ',' ∉ name.toList) :
    joinNames (normalizedNames symbols) = joinNames (normalizedNames symbols') ↔
      keptNames symbols = keptNames symbols' := by
  have hjoinable {name : String}
      (hname : name ∈ keptNames symbols ∨ name ∈ keptNames symbols') : Joinable name :=
    ⟨hname.elim ne_empty_of_mem_keptNames ne_empty_of_mem_keptNames,
      h name (Multiset.mem_add.mpr hname)⟩
  refine Iff.trans (joinNames_sortNames ?_ ?_) Multiset.coe_eq_coe.symm
  · exact fun name hname => hjoinable (.inl hname)
  · exact fun name hname => hjoinable (.inr hname)

lemma digestInput_of_ne_nil (h : tables.symbols ≠ []) :
    tables.digestInput recovery = .ok (joinNames (normalizedNames tables.symbols)) := by
  have hfilled : tables.isEmpty = false := by
    rw [← Bool.not_eq_true, SymbolTables.isEmpty, Bool.and_eq_true, List.isEmpty_iff,
      List.isEmpty_iff, ← List.append_eq_nil_iff]
    exact h
  rw [SymbolTables.digestInput, hfilled, if_neg Bool.false_ne_true]

lemma digestInput_congr (hfilled : tables.symbols ≠ []) (hfilled' : tables'.symbols ≠ [])
    (h : countedNames tables = countedNames tables') :
    ∃ input, tables.digestInput recovery = .ok input ∧ tables'.digestInput recovery' = .ok input := by
  rw [countedNames_eq, countedNames_eq, ← normalizedNames_eq_iff] at h
  exact ⟨_, digestInput_of_ne_nil hfilled, by rw [digestInput_of_ne_nil hfilled', h]⟩

/-- What is digested for tables with symbols is a canonical form of the names that count. Whatever
the analysis of calls would find, and also when it fails, equal names, each as often as in the other
tables, give the same text; the hashes stay as they are when symbols change their places, or when
symbols that do not count come or go. Names without commas can be told from the text. -/
theorem digest_input_canonical (tables tables' : SymbolTables)
    (recovery recovery' : Except FormatError (List String))
    (hfilled : tables.symbols ≠ []) (hfilled' : tables'.symbols ≠ []) :
    (countedNames tables = countedNames tables' → ∃ input,
      tables.digestInput recovery = .ok input ∧ tables'.digestInput recovery' = .ok input) ∧
    (Relation.EqvGen Rearranges tables tables' →
      tables.symhash recovery = tables'.symhash recovery' ∧
        ∀ similarity, tables.telfhash recovery similarity = tables'.telfhash recovery' similarity) ∧
    ((∀ name ∈ countedNames tables + countedNames tables', ',' ∉ name.toList) →
      tables.digestInput recovery = tables'.digestInput recovery' →
        countedNames tables = countedNames tables') := by
  refine ⟨digestInput_congr hfilled hfilled', ?_, ?_⟩
  · intro h
    obtain ⟨input, hinput, hinput'⟩ :=
      digestInput_congr hfilled hfilled' (countedNames_rearranged h)
    constructor
    · rw [SymbolTables.symhash, SymbolTables.symhash, hinput, hinput']
    · intro similarity
      rw [SymbolTables.telfhash, SymbolTables.telfhash, hinput, hinput']
  · intro hcommas h
    rw [digestInput_of_ne_nil hfilled, digestInput_of_ne_nil hfilled', Except.ok.injEq] at h
    rw [countedNames_eq, countedNames_eq] at hcommas ⊢
    exact (joinNames_normalizedNames hcommas).mp h

/-- Two tables with the names of three functions that count, two of them alike, and one that does
not. -/
def spreadTables : SymbolTables where
  dynamic := [.function "Socket" .dynamic, .function "main" .dynamic]
  static := [.function "bind" .static, .function "socket" .static]

/-- The same functions in one table, without the one that does not count. -/
def gatheredTables : SymbolTables where
  dynamic := []
  static := [.function "Socket" .static, .function "bind" .static, .function "socket" .static]

lemma rearranged_gatheredTables : Relation.EqvGen Rearranges spreadTables gatheredTables := by
  have hswap : Rearranges spreadTables ⟨[.function "main" .dynamic, .function "Socket" .dynamic],
      spreadTables.static⟩ := .permute (.swap _ _ _) (.refl _)
  have hmain : (Symbol.function "main" .dynamic).isExcluded := by decide +kernel
  have hadd : Rearranges ⟨[.function "Socket" .dynamic], spreadTables.static⟩
      ⟨[.function "main" .dynamic, .function "Socket" .dynamic], spreadTables.static⟩ :=
    .addDynamic hmain
  have hmove : Rearranges ⟨[.function "Socket" .dynamic], spreadTables.static⟩ gatheredTables :=
    .move
  exact ((Relation.EqvGen.rel _ _ hswap).trans _ _ _ ((Relation.EqvGen.rel _ _ hadd).symm _ _)).trans
    _ _ _ (.rel _ _ hmove)

/-- The tables with one of the two like names only. -/
def mergedTables : SymbolTables where
  dynamic := []
  static := [.function "bind" .static, .function "socket" .static]

theorem digest_input_canonical_spread :
    spreadTables.symbols ≠ [] ∧ gatheredTables.symbols ≠ [] ∧ mergedTables.symbols ≠ [] ∧
      (∃ input, spreadTables.digestInput (.error ⟨"no calls"⟩) = .ok input ∧
        gatheredTables.digestInput (.ok ["call"]) = .ok input) ∧
      spreadTables.symhash (.error ⟨"no calls"⟩) = gatheredTables.symhash (.ok ["call"]) ∧
      spreadTables.digestInput (.ok []) ≠ mergedTables.digestInput (.ok []) := by
  have hspread : spreadTables.symbols ≠ [] := List.cons_ne_nil _ _
  have hgathered : gatheredTables.symbols ≠ [] := List.cons_ne_nil _ _
  have hmerged : mergedTables.symbols ≠ [] := List.cons_ne_nil _ _
  obtain ⟨hinput, hhashes, -⟩ := digest_input_canonical spreadTables gatheredTables
    (.error ⟨"no calls"⟩) (.ok ["call"]) hspread hgathered
  obtain ⟨-, -, hnames⟩ := digest_input_canonical spreadTables mergedTables (.ok []) (.ok [])
    hspread hmerged
  refine ⟨hspread, hgathered, hmerged, hinput (by decide +kernel),
    (hhashes rearranged_gatheredTables).1, ?_⟩
  intro hsame
  have hcounted : countedNames spreadTables ≠ countedNames mergedTables := by decide +kernel
  exact hcounted (hnames (by decide +kernel) hsame)

end Hallmark.Proofs
