import Hallmark.Json.Record
import Hallmark.Proofs.DecimalReads
import Hallmark.Proofs.JsonTexts
import Hallmark.Proofs.SortedCounts

/-!
# Records in JSON

Texts, numbers, lists, maps and records are read back from their JSON forms. A record is given by
its fields, of which some may be left out.
-/

namespace Hallmark.Proofs
open Json

variable {α β : Type}

/-- A value in the spelling of the writer: every number is a natural number or has two decimals at
most, and is written in plain digits, and every text is escaped by the rule. -/
inductive Canonical : Json → Prop
  | null : Canonical .null
  | bool (b : Bool) : Canonical (.bool b)
  | natural (n : Nat) : Canonical (.number (.ofNat n))
  | decimal (n : Nat) : Canonical (.number (inDecimals n))
  | text {cs raw : List Char} : SpelledAs cs raw → Canonical (.string raw)
  | array {items : List Json} : (∀ item ∈ items, Canonical item) → Canonical (.array items)
  | object {members : List (List Char × Json)} : (∀ m ∈ members, ∃ cs, SpelledAs cs m.1) →
      (∀ m ∈ members, Canonical m.2) → Canonical (.object members)

/-- The spelling of the writer is one that the parser knows. -/
lemma Canonical.proper {j : Json} (h : Canonical j) : ProperJson j := by
  induction h with
  | null => exact .null
  | bool b => exact .bool b
  | natural n => exact .number (properNumber_ofNat n)
  | decimal n => exact .number (properNumber_inDecimals n)
  | text hraw => exact .string hraw.properString
  | array _ ih => exact .array ih
  | object hkeys _ ih =>
    refine .object (fun m hm => ?_) ih
    obtain ⟨cs, hkey⟩ := hkeys m hm
    exact hkey.properString

/-- A value in the spelling of the writer that is read as `b`. -/
structure ReadsTo (read : Reader β) (j : Json) (b : β) : Prop where
  canonical : Canonical j
  value : read j = some b

/-! ## Spellings -/

@[simp] lemma canonical_bool (b : Bool) : Canonical (.bool b) := .bool b

@[simp] lemma canonical_text (s : String) : Canonical (.text s) :=
  .text (spelledAs_encode s.toList)

@[simp] lemma canonical_nat (n : Nat) : Canonical (.nat n) := .natural n

lemma canonical_float {x : Binary64} (h : TwoDecimals x) : Canonical (.float x) := by
  obtain ⟨n, hn, rfl⟩ := h.hundredths
  rw [float, ofBinary_hundredths hn]
  exact .decimal n

lemma canonical_list {write : α → Json} {items : List α} (h : ∀ a ∈ items, Canonical (write a)) :
    Canonical (.list write items) := by
  refine .array fun item hitem => ?_
  obtain ⟨a, ha, rfl⟩ := List.mem_map.mp hitem
  exact h a ha

lemma canonical_record {members : List (String × Json)} (h : ∀ m ∈ members, Canonical m.2) :
    Canonical (.record members) := by
  refine .object (fun m hm => ?_) (fun m hm => ?_)
  · obtain ⟨member, -, rfl⟩ := List.mem_map.mp hm
    exact ⟨_, spelledAs_encode member.1.toList⟩
  · obtain ⟨member, hmember, rfl⟩ := List.mem_map.mp hm
    exact h member hmember

/-! ## Values -/

@[simp] lemma read_bool (b : Bool) : Read.bool (.bool b) = some b := rfl

@[simp] lemma stringKey_encode (s : String) : Read.stringKey (Quoted.encode s.toList) = some s := by
  rw [Read.stringKey, (spelledAs_encode _).decode?, Option.map_some, String.ofList_toList]

@[simp] lemma read_text (s : String) : Read.string (.text s) = some s := stringKey_encode s

lemma read_nat {n bound : Nat} (h : n < bound) : Read.below bound (.nat n) = some n := by
  rw [nat, Read.below, natural?_ofNat, Option.filter_some, decide_eq_true h]
  rfl

@[simp] lemma read_u16 (n : UInt16) : Read.u16 (.nat n.toNat) = some n := by
  rw [Read.u16, read_nat n.toNat_lt, Option.map_some, UInt16.ofNat_toNat]

@[simp] lemma read_u32 (n : UInt32) : Read.u32 (.nat n.toNat) = some n := by
  rw [Read.u32, read_nat n.toNat_lt, Option.map_some, UInt32.ofNat_toNat]

@[simp] lemma read_u64 (n : UInt64) : Read.u64 (.nat n.toNat) = some n := by
  rw [Read.u64, read_nat n.toNat_lt, Option.map_some, UInt64.ofNat_toNat]

lemma read_float {x : Binary64} (h : TwoDecimals x) : Read.float (.float x) = some x :=
  binary?_ofBinary h

lemma encodeChar_digit {c : Char} (h : c.isDigit = true) : Quoted.encodeChar c = [c] := by
  have hspace : ¬c < ' ' := by
    rw [Char.isDigit, Bool.and_eq_true, decide_eq_true_eq, decide_eq_true_eq] at h
    have hzero : 48 ≤ c.toNat := h.1
    intro hless
    have hcontrol : c.toNat < 32 := Char.lt_def.mp hless
    omega
  unfold Quoted.encodeChar
  split
  all_goals first
    | exact absurd h (by decide)
    | exact if_neg hspace

lemma encode_digits {run : List Char} (h : AllDigits run) : Quoted.encode run = run := by
  induction run with
  | nil => rfl
  | cons c run ih =>
    obtain ⟨hhead, hrest⟩ := List.forall_mem_cons.mp h
    rw [Quoted.encode, List.flatMap_cons, encodeChar_digit hhead, ← Quoted.encode, ih hrest]
    rfl

@[simp] lemma u16Key_encode (n : UInt16) :
    Read.u16Key (Quoted.encode (toString n.toNat).toList) = some n := by
  have htext : (Number.ofNat n.toNat).text = Nat.toDigits 10 n.toNat := by
    simp [Number.text, Number.ofNat]
  have hends : EndsNumber [] := fun _ hc => by cases hc
  have hscan := scan?_text (properNumber_ofNat n.toNat) hends
  rw [List.append_nil, htext] at hscan
  rw [Nat.toString_eq_ofList_toDigits, String.toList_ofList, encode_digits (allDigits_toDigits _),
    Read.u16Key, hscan]
  exact read_u16 n

section Collections
variable {write : α → Json} {read : Reader β} {f : α → β}

lemma mapM_map_some {γ : Type} {r : γ → Option β} {g : α → γ} {items : List α}
    (h : ∀ a ∈ items, r (g a) = some (f a)) : (items.map g).mapM r = some (items.map f) := by
  induction items with
  | nil => rfl
  | cons a items ih =>
    obtain ⟨hhead, hrest⟩ := List.forall_mem_cons.mp h
    rw [List.map_cons, List.mapM_cons, hhead, ih hrest]
    rfl

lemma readsTo_list {items : List α} (h : ∀ a ∈ items, ReadsTo read (write a) (f a)) :
    ReadsTo (Read.list read) (.list write items) (items.map f) :=
  ⟨canonical_list fun a ha => (h a ha).canonical, mapM_map_some fun a ha => (h a ha).value⟩

lemma readsTo_list_self {read : Reader α} {items : List α}
    (h : ∀ a ∈ items, ReadsTo read (write a) a) :
    ReadsTo (Read.list read) (.list write items) items := by
  have hlist := readsTo_list h
  rwa [List.map_id'] at hlist

lemma readsTo_texts (items : List String) :
    ReadsTo (Read.list Read.string) (.list .text items) items :=
  readsTo_list_self fun s _ => ⟨canonical_text s, read_text s⟩

/-- A value that may be null. -/
lemma read_nullable {a : α} {b : β} (hnull : write a ≠ .null) (h : read (write a) = some b) :
    Read.nullable read (write a) = some (some b) := by
  rw [Read.nullable, h]
  · rfl
  · exact hnull

lemma readsTo_option {read : Reader α} {value : Option α} (hnull : ∀ a, write a ≠ .null)
    (h : ∀ a ∈ value, ReadsTo read (write a) a) :
    ReadsTo (Read.nullable read) (.option write value) value := by
  cases value with
  | none => exact ⟨.null, rfl⟩
  | some a => exact ⟨(h a rfl).canonical, read_nullable (hnull a) (h a rfl).value⟩

lemma read_choice {name : α → String} {choices : List α} {a : α}
    (hfind : choices.find? (fun b => name b == name a) = some a) :
    Read.choice name choices (.text (name a)) = some a := by
  have hname := read_text (name a)
  rw [Read.choice, hname]
  · exact hfind
  · intro _ h
    cases h

end Collections

/-! ## Maps -/

section Maps
variable {κ υ : Type} [LE κ] [LT κ] [DecidableLT κ] [DecidableEq κ] [Std.IsLinearOrder κ]
  [Std.LawfulOrderLT κ]

omit [Std.IsLinearOrder κ] in
/-- A key behind all others is put at the end. -/
lemma alterEntries_append {key : κ} {change : Option υ → υ} {entries : List (κ × υ)}
    (h : ∀ e ∈ entries, e.1 < key) :
    SortedMap.alterEntries key change entries = entries ++ [(key, change none)] := by
  induction entries with
  | nil => rfl
  | cons e entries ih =>
    obtain ⟨hhead, hrest⟩ := List.forall_mem_cons.mp h
    have hbefore : ¬key < e.1 := Std.not_gt_of_lt hhead
    have hdiffers : key ≠ e.1 := fun heq => Std.lt_irrefl (heq ▸ hhead)
    rw [SortedMap.alterEntries, if_neg hbefore, if_neg hdiffers, ih hrest]
    rfl

lemma foldlM_insert (name : κ → List Char) {write : υ → Json} {key : List Char → Option κ}
    {read : Reader υ} {m acc : SortedMap κ υ} {rest : List (κ × υ)}
    (hsplit : m.entries = acc.entries ++ rest) (hkey : ∀ e ∈ rest, key (name e.1) = some e.1)
    (hread : ∀ e ∈ rest, read (write e.2) = some e.2) :
    (rest.map fun e => (name e.1, write e.2)).foldlM
      (fun (m : SortedMap κ υ) (raw, value) => do return m.insert (← key raw) (← read value)) acc =
        some m := by
  -- The entries come in ascending order, so what was put in before is a prefix of the map.
  induction rest generalizing acc with
  | nil =>
    obtain ⟨entries, hsorted⟩ := m
    obtain ⟨found, hfound⟩ := acc
    rw [List.append_nil] at hsplit
    cases hsplit
    rfl
  | cons e rest ih =>
    obtain ⟨hkey, hkeys⟩ := List.forall_mem_cons.mp hkey
    obtain ⟨hvalue, hvalues⟩ := List.forall_mem_cons.mp hread
    have hsorted := m.sorted
    rw [hsplit, List.pairwise_append] at hsorted
    have hinsert : (acc.insert e.1 e.2).entries = acc.entries ++ [e] :=
      alterEntries_append fun other hother => hsorted.2.2 other hother e List.mem_cons_self
    have hnext : m.entries = (acc.insert e.1 e.2).entries ++ rest := by
      rw [hinsert, hsplit, List.append_assoc, List.singleton_append]
    rw [List.map_cons, List.foldlM_cons]
    simp only [hkey, hvalue, Option.bind_eq_bind, Option.bind_some, Option.pure_def]
    exact ih hnext hkeys hvalues

/-- A map as a record of its entries. -/
def mapJson (name : κ → String) (write : υ → Json) (m : SortedMap κ υ) : Json :=
  .record (m.entries.map fun e => (name e.1, write e.2))

/-- A map is read back from its entries in ascending order. -/
lemma readsTo_map {key : List Char → Option κ} {name : κ → String} {read : Reader υ}
    {write : υ → Json} {m : SortedMap κ υ}
    (hkey : ∀ k, key (Quoted.encode (name k).toList) = some k)
    (hread : ∀ e ∈ m.entries, ReadsTo read (write e.2) e.2) :
    ReadsTo (Read.map key read) (mapJson name write m) m := by
  refine ⟨canonical_record fun member hmember => ?_, ?_⟩
  · obtain ⟨e, he, rfl⟩ := List.mem_map.mp hmember
    exact (hread e he).canonical
  · rw [mapJson, record, List.map_map]
    exact foldlM_insert (fun k => Quoted.encode (name k).toList) (List.nil_append _).symm
      (fun e _ => hkey e.1) fun e he => (hread e he).value

end Maps

/-! ## Records -/

section Records
variable {names : List String} {fields : List (String × Option Json)}

/-- The fields of a record that are not left out. -/
def shown (fields : List (String × Option Json)) : List (String × Json) :=
  fields.filterMap fun field => field.2.map fun j => (field.1, j)

lemma record_eq_shown (members : List (String × Json)) :
    record members = record (shown (members.map fun m => (m.1, some m.2))) := by
  rw [shown, List.filterMap_map]
  exact congrArg record List.filterMap_some.symm

lemma shown_sublist (fields : List (String × Option Json)) :
    ((shown fields).map Prod.fst).Sublist (fields.map Prod.fst) := by
  induction fields with
  | nil => exact .slnil
  | cons field fields ih =>
    obtain ⟨name, value⟩ := field
    cases value with
    | none => exact ih.cons name
    | some j => exact ih.cons_cons name

@[simp] lemma lookup_shown_nil (name : String) : (shown []).lookup name = none := rfl

@[simp] lemma lookup_shown_cons (name other : String) (value : Option Json) :
    (shown ((other, value) :: fields)).lookup name =
      if name = other then value.or ((shown fields).lookup name)
      else (shown fields).lookup name := by
  cases value with
  | none =>
    rw [Option.none_or, ite_self]
    rfl
  | some j =>
    exact lookup_cons_eq name other j (shown fields)

lemma canonical_shown (h : ∀ field ∈ fields, ∀ j ∈ field.2, Canonical j) :
    Canonical (.record (shown fields)) := by
  refine canonical_record fun m hm => ?_
  obtain ⟨field, hfield, hj⟩ := List.mem_filterMap.mp hm
  obtain ⟨j, hvalue, rfl⟩ := Option.map_eq_some_iff.mp hj
  exact h field hfield j hvalue

/-- A record is taken up with the fields that it shows. -/
lemma of?_shown (hnames : fields.map Prod.fst = names) (hnodup : names.Nodup) :
    Record.of? names (.record (shown fields)) = some ⟨false, shown fields⟩ := by
  have hsublist : ((shown fields).map Prod.fst).Sublist names := hnames ▸ shown_sublist fields
  have hknown : (shown fields).filter (fun field => names.contains field.1) = shown fields :=
    List.filter_eq_self.mpr fun field hfield =>
      List.contains_iff_mem.mpr (hsublist.subset (List.mem_map_of_mem hfield))
  rw [record, Record.of?, mapM_map_some (f := id) (h := ?_)]
  · simp only [List.map_id, Option.bind_eq_bind, Option.bind_some, hknown]
    rw [if_pos (hnodup.sublist hsublist)]
  · intro field _
    simp

/-- A field that may be left out. -/
lemma optional_shown {name : String} {read : Reader β} {write : α → Json} {f : α → β}
    {value : Option α} (hlookup : (shown fields).lookup name = value.map write)
    (hnull : ∀ a, write a ≠ .null) (h : ∀ a ∈ value, ReadsTo read (write a) (f a)) :
    (⟨false, shown fields⟩ : Record).optional name read = some (value.map f) := by
  rw [Record.optional, Record.withDefault, hlookup]
  cases value with
  | none => rfl
  | some a => exact read_nullable (hnull a) (h a rfl).value

lemma optional_shown_self {name : String} {read : Reader α} {write : α → Json} {value : Option α}
    (hlookup : (shown fields).lookup name = value.map write) (hnull : ∀ a, write a ≠ .null)
    (h : ∀ a ∈ value, ReadsTo read (write a) a) :
    (⟨false, shown fields⟩ : Record).optional name read = some value := by
  have hread : (⟨false, shown fields⟩ : Record).optional name read = some (value.map id) :=
    optional_shown hlookup hnull h
  rwa [Option.map_id] at hread

lemma optional_shown_text {name : String} {value : Option String}
    (hlookup : (shown fields).lookup name = value.map .text) :
    (⟨false, shown fields⟩ : Record).optional name Read.string = some value :=
  optional_shown_self hlookup (fun _ h => by cases h) fun s _ => ⟨canonical_text s, read_text s⟩

/-- A list that is left out when it is empty. -/
lemma withDefault_shown {name : String} {read : Reader α} {write : α → Json} {items : List α}
    (hlookup : (shown fields).lookup name =
      if items.isEmpty then none else some (.list write items))
    (h : ReadsTo (Read.list read) (.list write items) items) :
    (⟨false, shown fields⟩ : Record).withDefault name [] (Read.list read) = some items := by
  rw [Record.withDefault, hlookup]
  cases items with
  | nil => rfl
  | cons a items => exact h.value

end Records

end Hallmark.Proofs
