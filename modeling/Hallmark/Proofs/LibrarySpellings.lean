import Hallmark.Proofs.ImportLimits
import Hallmark.Proofs.LetterContexts
import Mathlib.Logic.Relation

/-!
# Spellings of library names

The case of ASCII letters in a library name and the choice between the three extensions are not told
by its normal form. An extension is not told from none either, except behind a final sigma: names
are put into lower case before they are cut, and a full stop does not end a word.
-/

namespace Hallmark.Proofs
open Pe LetterCase

/-! ## Names -/

/-- A text with its letters of ASCII in lower case. -/
def asciiLower (s : String) : List Char := s.toList.map Char.toLower

/-- One of the three extensions, in letters of any case. -/
def IsExtension (e : String) : Prop := asciiLower e ∈ [".dll", ".ocx", ".sys"].map String.toList

instance : DecidablePred IsExtension :=
  fun _ => inferInstanceAs (Decidable (_ ∈ _))

/-- In lower case, the name ends with one of the three extensions. -/
def HasExtension (s : String) : Prop :=
  ∃ ending ∈ [".dll", ".ocx", ".sys"], ending.toList <:+ (lower s).toList

instance : DecidablePred HasExtension :=
  fun _ => inferInstanceAs (Decidable (∃ _ ∈ _, _))

/-- A capital sigma ends the name and follows a letter with case, characters that do not end a word
being passed over. -/
def EndsInFinalSigma (s : String) : Prop :=
  ∃ front back, s.toList = front ++ 'Σ' :: back ∧ (∀ c ∈ back, isIgnorable c = true) ∧
    ∃ c, (front.reverse.find? fun c => !isIgnorable c) = some c ∧ isCased c = true

section Names
variable {s e e' : String} {cs ending : List Char}

lemma endsInFinalSigma_iff : EndsInFinalSigma s ↔ EndsInSigma false s.toList := by
  have hletter (front : List Char) : casedBehind false front = true ↔
      ∃ c, (front.reverse.find? fun c => !isIgnorable c) = some c ∧ isCased c = true := by
    rw [casedBehind_eq]
    cases front.reverse.find? fun c => !isIgnorable c <;> simp
  unfold EndsInFinalSigma EndsInSigma
  simp only [hletter, and_comm]

lemma stem?_append (cs ending : List Char) : stem? (cs ++ ending) ending = some cs := by
  have hends : ending.isSuffixOf (cs ++ ending) = true :=
    List.isSuffixOf_iff_suffix.mpr (List.suffix_append cs ending)
  unfold stem?
  rw [if_pos hends, List.length_append, Nat.add_sub_cancel, List.take_left']
  rfl

lemma stem?_append_other {other : List Char} (hlength : other.length = ending.length)
    (hother : other ≠ ending) : stem? (cs ++ ending) other = none := by
  have hends : ¬other.isSuffixOf (cs ++ ending) = true := by
    intro h
    have hsuffix := List.suffix_of_suffix_length_le (List.isSuffixOf_iff_suffix.mp h)
      (List.suffix_append cs ending) hlength.le
    exact hother (hsuffix.eq_of_length hlength)
  unfold stem?
  rw [if_neg hends]

lemma libraryName_of_stem (h : ending ∈ [".dll", ".ocx", ".sys"].map String.toList)
    (hlower : (lower s).toList = cs ++ ending) : libraryName s = String.ofList cs := by
  unfold libraryName
  simp only [libraryExtensions, List.findSome?_cons, hlower]
  simp only [List.map_cons, List.map_nil, List.mem_cons, List.not_mem_nil, or_false] at h
  -- The extensions are of one length, so none of the others ends the name as well.
  rcases h with rfl | rfl | rfl
  · rw [stem?_append_other (by decide) (by decide), stem?_append_other (by decide) (by decide),
      stem?_append]
  · rw [stem?_append]
  · rw [stem?_append_other (by decide) (by decide), stem?_append]

lemma libraryName_of_none (h : ¬HasExtension s) : libraryName s = lower s := by
  have hsame : ∀ ending ∈ libraryExtensions, ending ∈ [".dll", ".ocx", ".sys"] := by decide
  have hnone : ∀ ending ∈ libraryExtensions, stem? (lower s).toList ending.toList = none := by
    intro ending hmem
    unfold stem?
    apply if_neg
    intro hends
    exact h ⟨ending, hsame ending hmem, List.isSuffixOf_iff_suffix.mp hends⟩
  simp only [libraryName, List.findSome?_eq_none_iff.mpr hnone]

/-- Behind whatever text, an extension has one lower-case form, which begins with a letter that has
case. -/
lemma lowerFrom_extension (he : IsExtension e) (before : Bool) :
    lowerFrom before e.toList = asciiLower e ∧ startsCased e.toList = true := by
  have hthree : ∀ ending ∈ [".dll", ".ocx", ".sys"].map String.toList, ∀ before,
      lowerFrom before ending = ending ∧ startsCased ending = true := by
    decide +kernel
  obtain ⟨hlower, hcased⟩ := hthree _ he before
  rw [asciiLower, lowerFrom_toLower] at hlower
  rw [asciiLower, startsCased_toLower] at hcased
  exact ⟨hlower, hcased⟩

/-- A name that is written with an extension is normalised as one that goes on. -/
lemma libraryName_append (s : String) (he : IsExtension e) :
    libraryName (s ++ e) = String.ofList (lowerBetween false true s.toList) := by
  obtain ⟨hlower, hcased⟩ := lowerFrom_extension he (casedBehind false s.toList)
  apply libraryName_of_stem he
  rw [lower, String.toList_ofList, String.toList_append, lowerFrom_append, hlower, hcased]

lemma libraryName_append_iff (he : IsExtension e) (hs : ¬HasExtension s) :
    libraryName (s ++ e) = libraryName s ↔ ¬EndsInFinalSigma s := by
  rw [libraryName_append s he, libraryName_of_none hs, endsInFinalSigma_iff,
    ← lowerBetween_congr_iff, lower, lowerFrom_eq, ← String.toList_inj, String.toList_ofList,
    String.toList_ofList]

lemma libraryName_congr {s s' : String} (h : asciiLower s = asciiLower s') :
    libraryName s = libraryName s' := by
  have hlower : lower s = lower s' := by
    rw [lower, lower, ← lowerFrom_toLower, ← lowerFrom_toLower false s'.toList]
    exact congrArg (fun cs => String.ofList (lowerFrom false cs)) h
  unfold libraryName
  rw [hlower]

end Names

/-! ## Tables -/

/-- Two spellings of a library name: with other letters of ASCII in capitals, with another one of the
extensions, or with an extension and without, where the name does not end in a final sigma. -/
inductive Respelled : String → String → Prop
  | letters {s s' : String} (h : asciiLower s = asciiLower s') : Respelled s s'
  | extension {s e e' : String} (h : IsExtension e) (h' : IsExtension e') :
      Respelled (s ++ e) (s ++ e')
  | none {s e : String} (h : IsExtension e) (hs : ¬HasExtension s) (hsigma : ¬EndsInFinalSigma s) :
      Respelled (s ++ e) s

/-- The same is imported from libraries whose names are respelled. -/
structure SpelledAlike (l l' : LibraryImports) : Prop where
  library : Relation.EqvGen Respelled (Utf8.lossy l.library) (Utf8.lossy l'.library)
  targets : l.targets = l'.targets

section Tables
variable {dir dir' : ImportDirectory} {l l' : LibraryImports} {ls ls' : List LibraryImports}

lemma libraryName_respelled {s s' : String} (h : Relation.EqvGen Respelled s s') :
    libraryName s = libraryName s' := by
  induction h with
  | rel s s' h =>
    cases h with
    | letters h => exact libraryName_congr h
    | extension h h' => rw [libraryName_append _ h, libraryName_append _ h']
    | none h hs hsigma => exact (libraryName_append_iff h hs).mpr hsigma
  | refl s => rfl
  | symm s s' _ ih => exact ih.symm
  | trans s s' t _ _ ih ih' => exact ih.trans ih'

/-- The hash of imports asks for the normal form of a library only, also where it names an ordinal. -/
lemma token_congr {library library' : Bytes}
    (h : libraryName (Utf8.lossy library) = libraryName (Utf8.lossy library'))
    (target : ImportTarget) :
    ImportEntry.token ⟨library, target⟩ = ImportEntry.token ⟨library', target⟩ := by
  have hlibrary : ImportEntry.library ⟨library, target⟩ = ImportEntry.library ⟨library', target⟩ := h
  unfold ImportEntry.token ImportEntry.function
  rw [hlibrary]

lemma tokens_congr (h : List.Forall₂ SpelledAlike ls ls') :
    (tableEntries ls).map ImportEntry.token = (tableEntries ls').map ImportEntry.token := by
  induction h with
  | nil => rfl
  | @cons l l' _ _ hhead _ ih =>
    have hname := libraryName_respelled hhead.library
    have hentries : l.entries.map ImportEntry.token = l'.entries.map ImportEntry.token := by
      rw [LibraryImports.entries, LibraryImports.entries, List.map_map, List.map_map, hhead.targets]
      exact List.map_congr_left fun target _ => token_congr hname target
    simp only [tableEntries, List.flatMap_cons, List.map_append] at ih ⊢
    rw [ih, hentries]

lemma imphash_congr (htable : ImportTable dir ls) (htable' : ImportTable dir' ls')
    (h : List.Forall₂ SpelledAlike ls ls') (options : Options) :
    (ImportHash.ofDirectory (some dir) options).map ImportHash.imphash =
      (ImportHash.ofDirectory (some dir') options).map ImportHash.imphash := by
  have htokens := tokens_congr h
  have hlength : (tableEntries ls).length = (tableEntries ls').length := by
    simpa only [List.length_map] using congrArg List.length htokens
  rw [ImportHash.ofDirectory, ImportHash.ofDirectory, entries_of_table htable,
    entries_of_table htable', hlength]
  split_ifs with hroom
  · simp only [Except.map, ImportHash.ofEntries, ImportHash.input, htokens]
  · rfl

end Tables

/-- The spelling of a library does not count. An extension, in letters of any case, changes nothing in
the normal form of a name that has none yet, unless the name ends in a capital sigma that a final one
stands for; which of the extensions it is and the case of letters of ASCII never count. So import
tables that ask for the same under names which differ like that have the same import hash. -/
theorem library_spelling_ignored :
    (∀ s e, IsExtension e → ¬HasExtension s →
      (libraryName (s ++ e) = libraryName s ↔ ¬EndsInFinalSigma s)) ∧
    (∀ s e e', IsExtension e → IsExtension e' → libraryName (s ++ e) = libraryName (s ++ e')) ∧
    (∀ s s', asciiLower s' = asciiLower s → libraryName s' = libraryName s) ∧
    ∀ dir dir' ls ls', ImportTable dir ls → ImportTable dir' ls' → List.Forall₂ SpelledAlike ls ls' →
      ∀ options, (ImportHash.ofDirectory (some dir) options).map ImportHash.imphash =
        (ImportHash.ofDirectory (some dir') options).map ImportHash.imphash := by
  refine ⟨?_, ?_, ?_, ?_⟩
  · intro s e he hs
    exact libraryName_append_iff he hs
  · intro s e e' he he'
    rw [libraryName_append s he, libraryName_append s he']
  · intro s s' h
    exact libraryName_congr h
  · intro dir dir' ls ls' htable htable' h options
    exact imphash_congr htable htable' h options

/-- A table with one library, which is asked for the ordinal 7. -/
def oneOrdinalTable (library : Bytes) : ImportDirectory where
  bytes := #[20, 16, 0, 0, 0, 0, 0, 0, 0, 0, 0, 0, 28, 16, 0, 0, 0, 0, 0, 0,
    7, 0, 0, 0x80, 0, 0, 0, 0] ++ library ++ #[0]
  directoryRva := 0x1000
  sectionRva := 0x1000
  words := .bits32

/-- The name `ws2_32`. -/
def plainSocket : Bytes := #[0x77, 0x73, 0x32, 0x5f, 0x33, 0x32]

/-- The name `WS2_32.Dll`. -/
def loudSocket : Bytes := #[0x57, 0x53, 0x32, 0x5f, 0x33, 0x32, 0x2e, 0x44, 0x6c, 0x6c]

lemma importTable_oneOrdinalTable {library : Bytes} (h : library = plainSocket ∨ library = loudSocket) :
    ImportTable (oneOrdinalTable library) [⟨library, [.ordinal 7]⟩] := by
  have hslot : SlotAt (oneOrdinalTable library) 0 0x1014 0x101c := by
    rcases h with rfl | rfl <;> exact ⟨by decide, by decide, by decide, by decide⟩
  have hname : NamedAt (oneOrdinalTable library) 0x101c 0 library := by
    rcases h with rfl | rfl <;> exact ⟨by decide, textAt_of_slice? (by decide) (by decide)⟩
  have hthunk : ThunkAt (oneOrdinalTable library) 20 (.ordinal 7) := by
    rcases h with rfl | rfl <;> exact ⟨0x80000007, by decide, by decide, .ordinal (by decide)⟩
  have hthunksEnd : ThunksEnd (oneOrdinalTable library) 24 := by
    rcases h with rfl | rfl <;> exact .inr (by decide)
  have hsize : (oneOrdinalTable library).bytes.size < 40 := by
    rcases h with rfl | rfl <;> decide
  have hfirst : place (oneOrdinalTable library) 0x1000 = 0 := Nat.sub_self _
  have hthunks : place (oneOrdinalTable library) 0x1014 = 20 := by
    change (0x1014 : UInt32).toNat - (0x1000 : UInt32).toNat = 20
    decide
  have hdescriptor : DescriptorAt (oneOrdinalTable library) 0 ⟨library, [.ordinal 7]⟩ := by
    refine ⟨0x1014, 0x101c, hslot, hname, ?_, ?_⟩
    · change (0x1000 : UInt32) ≤ 0x1014
      decide
    · rw [hthunks]
      exact ⟨strided_cons.mpr ⟨hthunk, strided_nil⟩, hthunksEnd⟩
  constructor
  · exact UInt32.le_refl 0x1000
  · exact hfirst.trans_le (Nat.zero_le _)
  · exact hfirst.symm ▸ strided_cons.mpr ⟨hdescriptor, strided_nil⟩
  · left
    exact hsize.trans_eq (congrArg (· + 20 + 20) hfirst.symm)

/-- The same ordinal of a library is imported under two names. -/
theorem library_spelling_ignored_sockets :
    libraryName ("KERNEL32" ++ ".Dll") = libraryName "KERNEL32" ∧
    libraryName ("ΟΔΟΣ" ++ ".OCX") = libraryName ("ΟΔΟΣ" ++ ".sys") ∧
    libraryName "advapi32.dll" = libraryName "AdvAPI32.DLL" ∧
    ∃ hash,
      (ImportHash.ofDirectory (some (oneOrdinalTable plainSocket)) {}).map ImportHash.imphash =
        .ok hash ∧
      (ImportHash.ofDirectory (some (oneOrdinalTable loudSocket)) {}).map ImportHash.imphash =
        .ok hash := by
  obtain ⟨hnone, hother, hletters, htables⟩ := library_spelling_ignored
  have hsigma (s : String) (h : 'Σ' ∉ s.toList) : ¬EndsInFinalSigma s := by
    rintro ⟨front, back, hsplit, -⟩
    exact h (hsplit ▸ List.mem_append_right front List.mem_cons_self)
  have hloud : Utf8.lossy loudSocket = "WS2_32" ++ ".Dll" := by decide +kernel
  have hplain : Utf8.lossy plainSocket = "ws2_32" := by decide +kernel
  have halike : SpelledAlike ⟨loudSocket, [.ordinal 7]⟩ ⟨plainSocket, [.ordinal 7]⟩ := by
    refine ⟨?_, rfl⟩
    rw [hloud, hplain]
    apply Relation.EqvGen.trans _ "WS2_32"
    · exact .rel _ _ (.none (by decide) (by decide +kernel) (hsigma _ (by decide)))
    · exact .rel _ _ (.letters (by decide))
  have hplainTable := importTable_oneOrdinalTable (.inl rfl)
  have hloudTable := importTable_oneOrdinalTable (.inr rfl)
  have hentries : (oneOrdinalTable plainSocket).entries {} = .ok [⟨plainSocket, .ordinal 7⟩] := by
    rw [entries_of_table hplainTable, if_pos (by decide)]
    rfl
  refine ⟨?_, ?_, ?_, (ImportHash.ofEntries [⟨plainSocket, .ordinal 7⟩]).imphash, ?_, ?_⟩
  · exact (hnone _ _ (by decide) (by decide +kernel)).mpr (hsigma _ (by decide))
  · exact hother _ _ _ (by decide) (by decide)
  · exact hletters _ _ (by decide)
  · rw [ImportHash.ofDirectory, hentries]
    rfl
  · rw [htables _ _ _ _ hloudTable hplainTable (.cons halike .nil) {}, ImportHash.ofDirectory,
      hentries]
    rfl

/-- A name that ends in a final sigma has another normal form with an extension than without: the
full stop and the letters behind it keep the sigma from ending a word. -/
theorem final_sigma_told_by_extension :
    IsExtension ".dll" ∧ ¬HasExtension "ΟΔΟΣ" ∧ libraryName ("ΟΔΟΣ" ++ ".dll") = "οδοσ" ∧
      libraryName "ΟΔΟΣ" = "οδος" := by
  decide +kernel

end Hallmark.Proofs
