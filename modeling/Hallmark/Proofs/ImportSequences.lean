import Hallmark.Proofs.ImportGroups
import Hallmark.Proofs.JoinedNames
import Hallmark.Proofs.Utf16Texts

/-!
# The text of the import hash

The hash of a table digests its tokens joined with commas. No token has a comma unless a name of the
table has one, since neither lower case nor the names of ordinals bring one in, and none is empty, so
the tokens can be told from the text in their order and number.
-/

namespace Hallmark.Proofs
open Pe LetterCase

/-! ## Commas -/

section Commas
variable {c : Char} {s : String}

lemma lowerCode_ne_comma {n : Nat} (h : n ≠ 0x2c) : lowerCode n ≠ 0x2c := by
  have himages : ∀ r ∈ lowerRuns, 0x2c < r.image := by decide +kernel
  unfold lowerCode
  split_ifs with hascii hupper
  · omega
  · exact h
  · cases hfound : lowerRuns.findSome? (·.map? n) with
    | none =>
      rw [Option.getD_none]
      omega
    | some image =>
      obtain ⟨r, hr, hmap⟩ := List.exists_of_findSome?_eq_some hfound
      have himage := himages r hr
      unfold Run.map? at hmap
      split_ifs at hmap
      rw [Option.getD_some, ← Option.some.inj hmap]
      omega

lemma comma_not_mem_lowerChar (h : c ≠ ',') : ',' ∉ lowerChar c := by
  unfold lowerChar
  split_ifs
  · decide
  · rw [List.mem_singleton]
    intro hcomma
    have hcode : c.toNat ≠ 0x2c := fun hc => h (Char.toNat_inj.mp hc)
    have hvalue : (Char.ofNat (lowerCode c.toNat)).toNat = 0x2c := congrArg Char.toNat hcomma.symm
    by_cases hvalid : (lowerCode c.toNat).isValidChar
    · rw [toNat_charOfNat hvalid] at hvalue
      exact lowerCode_ne_comma hcode hvalue
    · rw [Char.ofNat, dif_neg hvalid] at hvalue
      cases hvalue

lemma comma_not_mem_lowerFrom {before : Bool} {cs : List Char} (h : ',' ∉ cs) :
    ',' ∉ lowerFrom before cs := by
  induction cs generalizing before with
  | nil => exact List.not_mem_nil
  | cons c cs ih =>
    rw [List.mem_cons, not_or] at h
    rw [lowerFrom, List.mem_append, not_or]
    refine ⟨?_, ih h.2⟩
    split_ifs
    · decide
    · decide
    · exact comma_not_mem_lowerChar (Ne.symm h.1)

lemma comma_not_mem_lower (h : ',' ∉ s.toList) : ',' ∉ (lower s).toList := by
  rw [lower, String.toList_ofList]
  exact comma_not_mem_lowerFrom h

lemma comma_not_mem_libraryName (h : ',' ∉ s.toList) : ',' ∉ (libraryName s).toList := by
  have hlower := comma_not_mem_lower h
  cases hstem : libraryExtensions.findSome? fun ending => stem? (lower s).toList ending.toList with
  | none => simpa only [libraryName, hstem] using hlower
  | some stem =>
    obtain ⟨ending, -, hcut⟩ := List.exists_of_findSome?_eq_some hstem
    unfold stem? at hcut
    split_ifs at hcut
    obtain rfl := Option.some.inj hcut
    simp only [libraryName, hstem, String.toList_ofList]
    exact fun hmem => hlower (List.mem_of_mem_take hmem)

lemma comma_not_mem_of_octets (h : 0x2c ∉ (Bytes.ofString s).toList) : ',' ∉ s.toList := by
  intro hmem
  apply h
  rw [toList_ofString]
  exact List.mem_flatMap.mpr ⟨',', hmem, by decide⟩

lemma comma_not_mem_ordinalName (library : String) (ordinal : UInt32) :
    ',' ∉ (ordinalName library ordinal).toList := by
  have htables : ∀ e ∈ socketOrdinals ++ automationOrdinals,
      0x2c ∉ (Bytes.ofString e.2).toList := by
    decide +kernel
  unfold ordinalName
  cases hfound : (ordinalTable library).lookup ordinal with
  | none =>
    have hdigits : (toString ordinal.toNat).toList = Nat.toDigits 10 ordinal.toNat :=
      String.toList_ofList
    rw [Option.getD_none, String.toList_append, hdigits, List.mem_append, not_or]
    refine ⟨by decide, fun hmem => ?_⟩
    exact absurd (Nat.isDigit_of_mem_toDigits (by decide) (by decide) hmem) (by decide)
  | some name =>
    obtain ⟨front, back, hsplit, -⟩ := List.lookup_eq_some_iff.mp hfound
    have hmem : (ordinal, name) ∈ ordinalTable library := by simp [hsplit]
    apply comma_not_mem_of_octets
    apply htables (ordinal, name)
    unfold ordinalTable at hmem
    split_ifs at hmem
    · exact List.mem_append_left _ hmem
    · exact List.mem_append_right _ hmem
    · exact absurd hmem List.not_mem_nil

end Commas

/-! ## Tokens -/

/-- Neither the name of the library nor that of the function has a comma, as they are decoded. -/
structure WithoutCommas (e : ImportEntry) : Prop where
  library : ',' ∉ e.dllName.toList
  function : ∀ name ∈ e.name?, ',' ∉ name.toList

instance : DecidablePred WithoutCommas := fun e =>
  decidable_of_iff (',' ∉ e.dllName.toList ∧ ∀ name ∈ e.name?, ',' ∉ name.toList)
    ⟨fun ⟨hlibrary, hfunction⟩ => ⟨hlibrary, hfunction⟩,
      fun ⟨hlibrary, hfunction⟩ => ⟨hlibrary, hfunction⟩⟩

section Tokens
variable {e : ImportEntry} {es es' : List ImportEntry} {dir : ImportDirectory} {options : Options}

lemma comma_not_mem_function (h : WithoutCommas e) : ',' ∉ e.function.toList := by
  obtain ⟨library, target⟩ := e
  cases target with
  | name raw => exact comma_not_mem_lower (h.function _ rfl)
  | ordinal number => exact comma_not_mem_lower (comma_not_mem_ordinalName _ _)

/-- A token has a full stop, so it is not empty. -/
lemma joinable_token (h : WithoutCommas e) : Joinable e.token := by
  have htoken : e.token.toList = e.library.toList ++ '.' :: e.function.toList := by
    simp [ImportEntry.token]
  constructor
  · intro hempty
    simp [hempty] at htoken
  · rw [htoken, List.mem_append, List.mem_cons, not_or, not_or]
    exact ⟨comma_not_mem_libraryName h.library, by decide, comma_not_mem_function h⟩

lemma input_inj (h : ∀ e ∈ es, WithoutCommas e) (h' : ∀ e ∈ es', WithoutCommas e) :
    ImportHash.input es = ImportHash.input es' ↔
      es.map ImportEntry.token = es'.map ImportEntry.token := by
  apply joinNames_inj
  · exact List.forall_mem_map.mpr fun e he => joinable_token (h e he)
  · exact List.forall_mem_map.mpr fun e he => joinable_token (h' e he)

/-! ## What is digested -/

/-- The octets whose digest is the import hash; an image without imports has none. -/
def digestedOctets (dir : Option ImportDirectory) (options : Options) : Except Error Bytes :=
  match dir with
  | none => .ok #[]
  | some dir => (dir.entries options).map fun es => Bytes.ofString (ImportHash.input es)

lemma imphash_digestedOctets (dir : Option ImportDirectory) (options : Options) :
    (ImportHash.ofDirectory dir options).map ImportHash.imphash =
      (digestedOctets dir options).map Digest.md5 := by
  cases dir with
  | none => rfl
  | some dir =>
    simp only [ImportHash.ofDirectory, digestedOctets]
    cases dir.entries options <;> rfl

lemma digestedOctets_some (h : dir.entries options = .ok es) :
    digestedOctets (some dir) options = .ok (Bytes.ofString (ImportHash.input es)) := by
  rw [digestedOctets, h]
  rfl

lemma ofString_input_inj (h : ∀ e ∈ es, WithoutCommas e) (h' : ∀ e ∈ es', WithoutCommas e) :
    Bytes.ofString (ImportHash.input es) = Bytes.ofString (ImportHash.input es') ↔
      es.map ImportEntry.token = es'.map ImportEntry.token :=
  ofString_inj.trans (input_inj h h')

end Tokens

/-- What is digested of two tables whose names have no commas is the same exactly when their
sequences of tokens are, whatever their layouts and limits; a table whose tokens are reordered, or
one of them left out, repeated or put in, is told from it. An image without an import directory is
told from all tables but the empty ones. -/
theorem import_sequence_bound (dir dir' : ImportDirectory) (options options' : Options)
    (es es' : List ImportEntry) (h : dir.entries options = .ok es)
    (h' : dir'.entries options' = .ok es') (hcommas : ∀ e ∈ es ++ es', WithoutCommas e) :
    (∀ d o, (ImportHash.ofDirectory d o).map ImportHash.imphash =
      (digestedOctets d o).map Digest.md5) ∧
    (digestedOctets (some dir) options = digestedOctets (some dir') options' ↔
      es.map ImportEntry.token = es'.map ImportEntry.token) ∧
    (digestedOctets (some dir) options = digestedOctets none options' ↔ es = []) := by
  obtain ⟨hes, hes'⟩ := List.forall_mem_append.mp hcommas
  have hempty : Bytes.ofString (ImportHash.input []) = #[] := rfl
  refine ⟨imphash_digestedOctets, ?_, ?_⟩
  · rw [digestedOctets_some h, digestedOctets_some h', Except.ok.injEq]
    exact ofString_input_inj hes hes'
  · rw [digestedOctets_some h, digestedOctets, Except.ok.injEq, ← hempty,
      ofString_input_inj hes (by simp), List.map_nil, List.map_eq_nil_iff]

/-- A comma in a name makes one import look like two. -/
example : ImportHash.input [⟨#[0x61], .name #[0x66, 0x2c, 0x61, 0x2e, 0x67]⟩] =
    ImportHash.input [⟨#[0x61], .name #[0x66]⟩, ⟨#[0x61], .name #[0x67]⟩] := by decide +kernel

/-- Two orders of the same imports, in other spellings and in images of other widths. -/
theorem import_sequence_bound_reordered :
    let dir := importDirectory .bits32 0x1000 [⟨"A.dll", [.name "f", .ordinal 7]⟩]
    let dir' := importDirectory .bits64 0x3000 [⟨"a.DLL", [.ordinal 7, .name "F"]⟩]
    digestedOctets (some dir) {} ≠ digestedOctets (some dir') {} ∧
      digestedOctets (some dir) {} ≠ digestedOctets none {} := by
  intro dir dir'
  have hread : dir.entries {} = .ok (LibraryRequests.entries ⟨"A.dll", [.name "f", .ordinal 7]⟩) := by
    decide +kernel
  have hread' : dir'.entries {} =
      .ok (LibraryRequests.entries ⟨"a.DLL", [.ordinal 7, .name "F"]⟩) := by
    decide +kernel
  obtain ⟨-, htokens, hnone⟩ :=
    import_sequence_bound dir dir' {} {} _ _ hread hread' (by decide +kernel)
  refine ⟨fun hsame => ?_, fun hsame => ?_⟩
  · exact absurd (htokens.mp hsame) (by decide +kernel)
  · exact absurd (hnone.mp hsame) (by decide +kernel)

end Hallmark.Proofs
