import Mathlib.Data.Fintype.Defs
import Hallmark.Config
import Hallmark.Proofs.JsonRecords

/-!
# Partial configurations

A configuration is read from a document that names some of its settings. Those that it names are
as it says, and the others have their usual values, whether their section is there or not. What is
not the name of a setting is passed over.
-/

namespace Hallmark.Proofs
open Json

/-! ## Objects with other members -/

section Objects
variable {α β : Type}

/-- Keys that occur once have their values in any order. -/
lemma lookup_perm {l l' : List (String × β)} (h : l.Perm l') (hnodup : (l.map Prod.fst).Nodup)
    (name : String) : l.lookup name = l'.lookup name := by
  induction h with
  | nil => rfl
  | cons e _ ih =>
    rw [lookup_cons_eq, lookup_cons_eq, ih hnodup.of_cons]
  | swap e e' rest =>
    -- The first two keys change places, and at most one of them is the one that is looked for.
    have hne : e'.1 ≠ e.1 := (List.pairwise_cons.mp hnodup).1 _ List.mem_cons_self
    rw [lookup_cons_eq, lookup_cons_eq, lookup_cons_eq, lookup_cons_eq]
    by_cases hname : name = e.1
    · rw [if_neg (hname ▸ hne.symm), if_pos hname, if_pos hname]
    · rw [if_neg hname, if_neg hname]
  | trans h _ ih ih' => exact (ih hnodup).trans (ih' ((h.map _).nodup_iff.mp hnodup))

variable (name : α → String) (value : α → Option Json)

/-- The fields of those of the choices that have a value. -/
def given (choices : List α) : List (String × Json) :=
  shown (choices.map fun a => (name a, value a))

/-- The key of a member is written in some way that is read as the name. -/
def Names (m : List Char × Json) (e : String × Json) : Prop :=
  Read.stringKey m.1 = some e.1 ∧ m.2 = e.2

/-- The members of an object give those of the choices that have a value, in some order and among
others, which may have any names and values but the names of the choices. -/
def Gives (choices : List α) (members : List (List Char × Json)) : Prop :=
  ∃ named others, List.Forall₂ Names members named ∧
    named.Perm (given name value choices ++ others) ∧ ∀ e ∈ others, e.1 ∉ choices.map name

variable {name value} {choices : List α} {members : List (List Char × Json)}

lemma names_given : ((given name value choices).map Prod.fst).Sublist (choices.map name) := by
  have hsublist := shown_sublist (choices.map fun a => (name a, value a))
  rwa [List.map_map] at hsublist

lemma lookup_given (hnodup : (choices.map name).Nodup) {a : α} (ha : a ∈ choices) :
    (given name value choices).lookup (name a) = value a := by
  induction choices with
  | nil => cases ha
  | cons b rest ih =>
    obtain ⟨hfresh, hrest⟩ := List.nodup_cons.mp hnodup
    rw [given, List.map_cons, lookup_shown_cons]
    rcases List.mem_cons.mp ha with rfl | hmem
    · have hnone : (given name value rest).lookup (name a) = none := by
        rw [List.lookup_eq_none_iff]
        intro e he
        rw [bne_iff_ne]
        intro heq
        exact hfresh (heq ▸ names_given.subset (List.mem_map_of_mem he))
      rw [if_pos rfl, ← given, hnone, Option.or_none]
    · have hne : name a ≠ name b := fun heq => hfresh (heq ▸ List.mem_map_of_mem hmem)
      rw [if_neg hne, ← given]
      exact ih hrest hmem

lemma mapM_named {named : List (String × Json)} (h : List.Forall₂ Names members named) :
    (members.mapM fun (raw, value) => (Read.stringKey raw).map fun key => (key, value)) =
      some named := by
  induction h with
  | nil => rfl
  | cons hhead _ ih =>
    obtain ⟨hkey, hvalue⟩ := hhead
    simp only [List.mapM_cons, ih, hkey, hvalue, Option.map_some]
    rfl

/-- A record is taken up with the fields that its members give, whatever else they say. -/
lemma of?_gives (hnodup : (choices.map name).Nodup) (h : Gives name value choices members) :
    ∃ r, Record.of? (choices.map name) (.object members) = some r ∧
      ∀ a ∈ choices, r.fields.lookup (name a) = value a := by
  obtain ⟨named, others, hnamed, hperm, hothers⟩ := h
  have hgiven : (given name value choices).filter (fun e => (choices.map name).contains e.1) =
      given name value choices :=
    List.filter_eq_self.mpr fun e he =>
      List.contains_iff_mem.mpr (names_given.subset (List.mem_map_of_mem he))
  have hnone : others.filter (fun e => (choices.map name).contains e.1) = [] :=
    List.filter_eq_nil_iff.mpr fun e he => by
      rw [List.contains_iff_mem]
      exact hothers e he
  have hknown := hperm.filter fun e => (choices.map name).contains e.1
  rw [List.filter_append, hgiven, hnone, List.append_nil] at hknown
  have honce := (hknown.map Prod.fst).nodup_iff.mpr (hnodup.sublist names_given)
  refine ⟨⟨false, _⟩, ?_, fun a ha => (lookup_perm hknown honce _).trans (lookup_given hnodup ha)⟩
  rw [Record.of?, mapM_named hnamed, Option.bind_eq_bind, Option.bind_some]
  exact if_pos honce

lemma gives_record {named : List (String × Json)} (others : List (String × Json))
    (hperm : named.Perm (given name value choices ++ others))
    (hothers : ∀ e ∈ others, e.1 ∉ choices.map name) :
    Gives name value choices
      (named.map fun (name, value) => (Quoted.encode name.toList, value)) := by
  refine ⟨named, others, ?_, hperm, hothers⟩
  rw [List.forall₂_map_left_iff, List.forall₂_same]
  intro e _
  exact ⟨stringKey_encode e.1, rfl⟩

/-- An object gives the fields that it is made of. -/
lemma gives_self {named : List (String × Json)} (h : named = given name value choices) :
    Gives name value choices (named.map fun (name, value) => (Quoted.encode name.toList, value)) :=
  gives_record [] (by rw [h, List.append_nil]) (List.forall_mem_nil _)

end Objects

/-! ## Settings -/

/-- What a configuration has a value for. -/
inductive Setting where
  | maxFileSize
  | ssdeep
  | imphash
  | resources
  | symbols
  | maxImports
  | maxResources
  | maxResourceEntries
  | sniffResources
  deriving DecidableEq

instance : Fintype Setting where
  elems := {.maxFileSize, .ssdeep, .imphash, .resources, .symbols, .maxImports, .maxResources,
    .maxResourceEntries, .sniffResources}
  complete f := by cases f <;> decide

inductive ConfigSection where
  | io
  | hashes
  | parse
  deriving DecidableEq

def ConfigSection.all : List ConfigSection := [.io, .hashes, .parse]

def ConfigSection.name : ConfigSection → String
  | .io => "io"
  | .hashes => "hashes"
  | .parse => "parse"

def ConfigSection.settings : ConfigSection → List Setting
  | .io => [.maxFileSize]
  | .hashes => [.ssdeep, .imphash, .resources, .symbols]
  | .parse => [.maxImports, .maxResources, .maxResourceEntries, .sniffResources]

namespace Setting

def name : Setting → String
  | .maxFileSize => "max_file_size"
  | .ssdeep => "ssdeep"
  | .imphash => "imphash"
  | .resources => "resources"
  | .symbols => "symbols"
  | .maxImports => "max_imports"
  | .maxResources => "max_resources"
  | .maxResourceEntries => "max_resource_entries"
  | .sniffResources => "sniff_resource_mime"

/-- The value of a setting in a document. -/
def value (c : Config) : Setting → Json
  | .maxFileSize => .nat c.io.maxFileSize.toNat
  | .ssdeep => .bool c.hashes.ssdeep
  | .imphash => .bool c.hashes.imphash
  | .resources => .bool c.hashes.resources
  | .symbols => .bool c.hashes.symbols
  | .maxImports => .nat c.parse.maxImports.toNat
  | .maxResources => .nat c.parse.maxResources.toNat
  | .maxResourceEntries => .nat c.parse.maxResourceEntries.toNat
  | .sniffResources => .bool c.parse.sniffResources

/-- The value of a setting that is among those that a document names. -/
def valueIn (c : Config) (S : Finset Setting) (f : Setting) : Option Json :=
  if f ∈ S then some (f.value c) else none

end Setting

section Documents
variable (c : Config) (S : Finset Setting)

/-- A section that names the settings of `S`, with their values in `c`. It may be left out if it
names none. -/
inductive PartialSection (part : ConfigSection) : Option Json → Prop
  | absent : (∀ f ∈ part.settings, f ∉ S) → PartialSection part none
  | present {members : List (List Char × Json)} :
      Gives Setting.name (Setting.valueIn c S) part.settings members →
      PartialSection part (some (.object members))

/-- A document that names the settings of `S`, with their values in `c`. -/
inductive PartialDocument : Json → Prop
  | object {sections : ConfigSection → Option Json} {members : List (List Char × Json)} :
      (∀ part, PartialSection c S part (sections part)) →
      Gives ConfigSection.name sections ConfigSection.all members →
      PartialDocument (.object members)

/-- The configuration that a setting is taken from. -/
def origin (f : Setting) : Config := if f ∈ S then c else {}

/-- The configuration that is as `c` on `S` and as usual elsewhere. -/
def keeping : Config where
  io := { maxFileSize := (origin c S .maxFileSize).io.maxFileSize }
  hashes := {
    ssdeep := (origin c S .ssdeep).hashes.ssdeep
    imphash := (origin c S .imphash).hashes.imphash
    resources := (origin c S .resources).hashes.resources
    symbols := (origin c S .symbols).hashes.symbols }
  parse := {
    maxImports := (origin c S .maxImports).parse.maxImports
    maxResources := (origin c S .maxResources).parse.maxResources
    maxResourceEntries := (origin c S .maxResourceEntries).parse.maxResourceEntries
    sniffResources := (origin c S .sniffResources).parse.sniffResources }

end Documents

/-! ## Reading -/

section Reading
variable {c : Config} {S : Finset Setting} {members : List (List Char × Json)} {r : Record}
  {j : Json}

lemma withDefault_setting {α : Type} {read : Reader α} (get : Config → α) (f : Setting)
    (hlookup : r.fields.lookup f.name = f.valueIn c S) (hread : read (f.value c) = some (get c)) :
    r.withDefault f.name (get {}) read = some (get (origin c S f)) := by
  rw [Record.withDefault, hlookup, Setting.valueIn, origin]
  by_cases hf : f ∈ S
  · rw [if_pos hf, if_pos hf]
    exact hread
  · rw [if_neg hf, if_neg hf]

lemma withDefault_section {α : Type} {read : Reader α} {part : ConfigSection} {found : Option Json}
    {usual a : α} (hlookup : r.fields.lookup part.name = found) (h : PartialSection c S part found)
    (habsent : (∀ f ∈ part.settings, origin c S f = {}) → usual = a)
    (hread : ∀ members, Gives Setting.name (Setting.valueIn c S) part.settings members →
      read (.object members) = some a) :
    r.withDefault part.name usual read = some a := by
  rw [Record.withDefault, hlookup]
  cases h with
  | absent hnone => exact congrArg some (habsent fun f hf => if_neg (hnone f hf))
  | present hgives => exact hread _ hgives

lemma read_io (h : Gives Setting.name (Setting.valueIn c S) ConfigSection.io.settings members) :
    FileConfig.ofJson? (.object members) = some (keeping c S).io := by
  obtain ⟨r, hr, hlookup⟩ := of?_gives (by decide) h
  change Record.of? ["max_file_size"] _ = some r at hr
  have hsize : r.withDefault "max_file_size" ({} : FileConfig).maxFileSize Read.u64 =
      some (keeping c S).io.maxFileSize :=
    withDefault_setting (·.io.maxFileSize) .maxFileSize (hlookup _ (by decide)) (read_u64 _)
  simp only [FileConfig.ofJson?, hr, hsize, Option.bind_eq_bind, Option.bind_some]
  rfl

lemma read_hashes
    (h : Gives Setting.name (Setting.valueIn c S) ConfigSection.hashes.settings members) :
    HashConfig.ofJson? (.object members) = some (keeping c S).hashes := by
  obtain ⟨r, hr, hlookup⟩ := of?_gives (by decide) h
  change Record.of? ["ssdeep", "imphash", "resources", "symbols"] _ = some r at hr
  have hssdeep : r.withDefault "ssdeep" true Read.bool = some (keeping c S).hashes.ssdeep :=
    withDefault_setting (·.hashes.ssdeep) .ssdeep (hlookup _ (by decide)) (read_bool _)
  have himphash : r.withDefault "imphash" true Read.bool = some (keeping c S).hashes.imphash :=
    withDefault_setting (·.hashes.imphash) .imphash (hlookup _ (by decide)) (read_bool _)
  have hresources : r.withDefault "resources" true Read.bool =
      some (keeping c S).hashes.resources :=
    withDefault_setting (·.hashes.resources) .resources (hlookup _ (by decide)) (read_bool _)
  have hsymbols : r.withDefault "symbols" true Read.bool = some (keeping c S).hashes.symbols :=
    withDefault_setting (·.hashes.symbols) .symbols (hlookup _ (by decide)) (read_bool _)
  simp only [HashConfig.ofJson?, hr, hssdeep, himphash, hresources, hsymbols,
    Option.bind_eq_bind, Option.bind_some]
  rfl

lemma read_parse
    (h : Gives Setting.name (Setting.valueIn c S) ConfigSection.parse.settings members) :
    Pe.Options.ofJson? (.object members) = some (keeping c S).parse := by
  obtain ⟨r, hr, hlookup⟩ := of?_gives (by decide) h
  change Record.of? ["max_imports", "max_resources", "max_resource_entries",
    "sniff_resource_mime"] _ = some r at hr
  have himports : r.withDefault "max_imports" ({} : Pe.Options).maxImports Read.u64 =
      some (keeping c S).parse.maxImports :=
    withDefault_setting (·.parse.maxImports) .maxImports (hlookup _ (by decide)) (read_u64 _)
  have hresources : r.withDefault "max_resources" ({} : Pe.Options).maxResources Read.u64 =
      some (keeping c S).parse.maxResources :=
    withDefault_setting (·.parse.maxResources) .maxResources (hlookup _ (by decide)) (read_u64 _)
  have hentries :
      r.withDefault "max_resource_entries" ({} : Pe.Options).maxResourceEntries Read.u64 =
        some (keeping c S).parse.maxResourceEntries :=
    withDefault_setting (·.parse.maxResourceEntries) .maxResourceEntries (hlookup _ (by decide))
      (read_u64 _)
  have hsniff : r.withDefault "sniff_resource_mime" ({} : Pe.Options).sniffResources Read.bool =
      some (keeping c S).parse.sniffResources :=
    withDefault_setting (·.parse.sniffResources) .sniffResources (hlookup _ (by decide))
      (read_bool _)
  simp only [Pe.Options.ofJson?, hr, himports, hresources, hentries, hsniff,
    Option.bind_eq_bind, Option.bind_some]
  rfl

lemma read_document (h : PartialDocument c S j) : Config.ofJson? j = some (keeping c S) := by
  obtain @⟨sections, members, hsections, hgives⟩ := h
  obtain ⟨r, hr, hlookup⟩ := of?_gives (by decide) hgives
  change Record.of? ["io", "hashes", "parse"] _ = some r at hr
  -- A section that is left out names none of its settings, so what is kept of it is all usual.
  have hio : r.withDefault "io" {} FileConfig.ofJson? = some (keeping c S).io := by
    apply withDefault_section (hlookup .io (by decide)) (hsections .io) _ fun _ => read_io
    intro husual
    simp only [ConfigSection.settings, List.forall_mem_cons] at husual
    simp [keeping, husual]
  have hhashes : r.withDefault "hashes" {} HashConfig.ofJson? = some (keeping c S).hashes := by
    apply withDefault_section (hlookup .hashes (by decide)) (hsections .hashes) _
      fun _ => read_hashes
    intro husual
    simp only [ConfigSection.settings, List.forall_mem_cons] at husual
    simp [keeping, husual]
  have hparse : r.withDefault "parse" {} Pe.Options.ofJson? = some (keeping c S).parse := by
    apply withDefault_section (hlookup .parse (by decide)) (hsections .parse) _
      fun _ => read_parse
    intro husual
    simp only [ConfigSection.settings, List.forall_mem_cons] at husual
    simp [keeping, husual]
  simp only [Config.ofJson?, hr, hio, hhashes, hparse, Option.bind_eq_bind, Option.bind_some]
  rfl

lemma value_keeping (f : Setting) : f.value (keeping c S) = f.value (if f ∈ S then c else {}) := by
  cases f <;> rfl

end Reading

/-! ## Whole documents -/

section Whole
variable (c : Config)

/-- The sections of a document that names every setting. -/
def wholeSection : ConfigSection → Json
  | .io => c.io.toJson
  | .hashes => c.hashes.toJson
  | .parse => c.parse.toJson

lemma partialSection_whole (part : ConfigSection) :
    PartialSection c Finset.univ part (some (wholeSection c part)) := by
  cases part <;> exact .present (gives_self rfl)

lemma partialDocument_toJson : PartialDocument c Finset.univ c.toJson :=
  .object (partialSection_whole c) (gives_self rfl)

lemma canonical_toJson : Canonical c.toJson := by
  have hio : Canonical c.io.toJson := canonical_record (by simp)
  have hhashes : Canonical c.hashes.toJson := canonical_record (by simp)
  have hparse : Canonical c.parse.toJson := canonical_record (by simp)
  exact canonical_record (by simp [hio, hhashes, hparse])

lemma keeping_univ : keeping c Finset.univ = c := by
  simp [keeping, origin]

end Whole

/-- A document that names the settings of `S` is read as the configuration that is as `c` on `S` and
as usual elsewhere, from every text of it, and `c` is read back from its own text. -/
theorem partial_configs_keep_settings (c : Config) :
    (∀ S j, PartialDocument c S j →
      (∀ text, Json.parse? text = some j → Config.read? text = some (keeping c S)) ∧
      ∀ s : Spacing, s.Blanks → ProperJson j →
        Config.read? (String.ofList (written s 0 j)) = some (keeping c S)) ∧
    (∀ S (f : Setting), f.value (keeping c S) = f.value (if f ∈ S then c else {})) ∧
    Config.read? c.write = some c := by
  have hread {S : Finset Setting} {j : Json} (h : PartialDocument c S j) (text : String)
      (htext : Json.parse? text = some j) : Config.read? text = some (keeping c S) := by
    rw [Config.read?, htext, Option.bind_some, read_document h]
  refine ⟨fun S j h => ⟨hread h, fun s hs hj => hread h _ (parse?_written hs hj)⟩, ?_, ?_⟩
  · intro S f
    exact value_keeping f
  · have hwhole := hread (partialDocument_toJson c) _
      (parse?_toPrettyText (canonical_toJson c).proper)
    rwa [keeping_univ] at hwhole

/-- The sections of a document that leaves out one of them, has another without settings, and names
two toggles in the third, around a member that is not of this section. -/
def sparseSection : ConfigSection → Option Json
  | .io => none
  | .hashes => some (.record
      [("symbols", .bool false), ("max_imports", .null), ("ssdeep", .bool false)])
  | .parse => some (.record [])

def sparseDocument : Json :=
  .record [("parse", .record []), ("note", .text "quiet"), ("hashes", .record
    [("symbols", .bool false), ("max_imports", .null), ("ssdeep", .bool false)])]

def quietConfig : Config where
  io := { maxFileSize := 1 }
  hashes := { ssdeep := false, symbols := false }

lemma partialDocument_sparse :
    PartialDocument quietConfig {.ssdeep, .symbols} sparseDocument := by
  have hsections (part : ConfigSection) :
      PartialSection quietConfig {.ssdeep, .symbols} part (sparseSection part) := by
    cases part with
    | io => exact .absent (by decide)
    | hashes =>
      refine .present (gives_record [("max_imports", .null)] ?_ (by decide))
      exact List.perm_append_singleton ("ssdeep", Json.bool false)
        [("symbols", .bool false), ("max_imports", .null)]
    | parse => exact .present (gives_self rfl)
  refine .object hsections (gives_record [("note", .text "quiet")] ?_ (by decide))
  exact List.perm_append_singleton _ [("parse", Json.record []), ("note", .text "quiet")]

theorem partial_configs_keep_settings_sparse :
    Config.read? sparseDocument.toText =
      some { hashes := { ssdeep := false, symbols := false } } := by
  have hcanonical : Canonical sparseDocument := by
    have hempty : Canonical (.record []) := canonical_record (by simp)
    have hhashes : Canonical (.record
        [("symbols", .bool false), ("max_imports", .null), ("ssdeep", .bool false)]) :=
      canonical_record (by simp [Canonical.null])
    exact canonical_record (by simp [hempty, hhashes])
  exact ((partial_configs_keep_settings quietConfig).1 _ _ partialDocument_sparse).1 _
    (parse?_toText hcanonical.proper)

end Hallmark.Proofs
