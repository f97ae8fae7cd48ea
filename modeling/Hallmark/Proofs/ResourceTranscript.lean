import Hallmark.Proofs.ResourcePaths

/-!
# Transcripts of resource walks

The walk over a resource tree once more, with a record of what it does: the directories it enters,
the entries it examines, the leaves it reads, and every sum and product of offsets, sizes and counts
that it computes on the way. Reads compute where they end.
-/

namespace Hallmark.Proofs
open Pe Pe.ResourceTree

inductive Act where
  /-- A directory is entered, also when it turns out not to be there. The root is at level 0. -/
  | enter (level offset : Nat)
  | examine (offset index : Nat)
  /-- The leaf whose data record stands at `offset` is read, whether it is there or not. -/
  | read (offset : Nat)
  | compute (value : Nat)

/-- The progress of a walk and all that it did, the latest first. -/
structure Transcript where
  progress : Progress
  acts : List Act

namespace Transcript

def start : Transcript := ⟨.start, []⟩

def entered (t : Transcript) : Nat := t.acts.countP fun | .enter _ _ => true | _ => false

def examined (t : Transcript) : Nat := t.acts.countP fun | .examine _ _ => true | _ => false

def read (t : Transcript) : Nat := t.acts.countP fun | .read _ => true | _ => false

variable (t : Transcript)

lemma entered_enter (level offset : Nat) :
    entered ⟨t.progress, .enter level offset :: t.acts⟩ = t.entered + 1 :=
  List.countP_cons_of_pos rfl

lemma examined_examine (offset index : Nat) :
    examined ⟨t.progress, .examine offset index :: t.acts⟩ = t.examined + 1 :=
  List.countP_cons_of_pos rfl

lemma read_read (offset : Nat) : read ⟨t.progress, .read offset :: t.acts⟩ = t.read + 1 :=
  List.countP_cons_of_pos rfl

end Transcript

/-- A walk that keeps its transcript, also when it fails. -/
abbrev Recorded := EStateM Error Transcript

namespace Recorded

def note (act : Act) : Recorded Unit := modify fun t => { t with acts := act :: t.acts }

/-- A number that the walk computes. -/
def compute (value : Nat) : Recorded Nat := do
  note (.compute value)
  return value

def half (tree : ResourceSection) (offset : Nat) : Recorded UInt16 := do
  let _ ← compute (offset + 2)
  ofExcept (u16 tree.bytes offset)

def word (tree : ResourceSection) (offset : Nat) : Recorded UInt32 := do
  let _ ← compute (offset + 4)
  ofExcept (u32 tree.bytes offset)

def cut (tree : ResourceSection) (offset len : Nat) : Recorded Bytes := do
  let _ ← compute (offset + len)
  ofExcept (slice tree.bytes offset len)

def directorySize (tree : ResourceSection) (level offset : Nat) : Recorded Nat := do
  note (.enter level offset)
  let _ ← cut tree offset headerSize
  let named ← half tree (← compute (offset + 12))
  let numbered ← half tree (← compute (offset + 14))
  let count ← compute (named.toNat + numbered.toNat)
  let _ ← cut tree (← compute (offset + headerSize)) (← compute (count * entrySize))
  return count

def charge (options : Options) (count : Nat) : Recorded Nat := do
  let visited ← compute ((← get).progress.entries + count)
  if options.maxResourceEntries.toNat < visited then
    throw (.limitExceeded .resourceEntries)
  modify fun t =>
    { t with progress := ⟨t.progress.directories + 1, visited, t.progress.leaves⟩ }
  return count

def typeLabel (tree : ResourceSection) (selector : UInt32) : Recorded String :=
  if hasHighBit selector then do
    let offset := lowBits selector
    let units ← half tree offset
    let name ← cut tree (← compute (offset + 2)) (← compute (units.toNat * 2))
    return Utf16.textBeforeNul name
  else pure (resourceTypeName selector)

def leafAt (tree : ResourceSection) (options : Options) (offset : Nat) (label : String)
    (language : UInt16) : Recorded ResourceLeaf := do
  note (.read offset)
  let _ ← cut tree offset dataEntrySize
  let rva ← word tree offset
  let size ← word tree (← compute (offset + 4))
  let place ← ofExcept (rvaOffset rva tree.virtualAddress)
  let data ← cut tree place size.toNat
  return {
    typeLabel := label
    language
    sha256 := Digest.sha256 data
    mime := contentType options data
    size := size.toUInt64
    data }

def takeLeaf (tree : ResourceSection) (options : Options) (offset : Nat) (label : String)
    (language : UInt16) : Recorded Unit := do
  if options.maxResources.toNat ≤ (← get).progress.leaves.size then
    throw (.limitExceeded .resourceLeaves)
  let leaf ← leafAt tree options offset label language
  modify fun t => { t with progress :=
    ⟨t.progress.directories, t.progress.entries, t.progress.leaves.push leaf⟩ }

def labelOf (tree : ResourceSection) (label : Option String) (selector : UInt32) :
    Recorded String :=
  match label with
  | some name => pure name
  | none => typeLabel tree selector

def follow (tree : ResourceSection) (options : Options)
    (descend : Option (Nat → String → Recorded Unit)) (e : DirectoryEntry) (name : String) :
    Recorded Unit :=
  match hasHighBit e.target, descend with
  | true, none => throw .resourceDepthExceeded
  | true, some walk => walk (lowBits e.target) name
  | false, some _ => throw .dataAboveLanguageLevel
  | false, none => takeLeaf tree options e.target.toNat name e.selector.toUInt16

def visit (tree : ResourceSection) (options : Options) (label : Option String)
    (descend : Option (Nat → String → Recorded Unit)) (offset index : Nat) : Recorded Unit := do
  note (.examine offset index)
  let first ← compute (offset + headerSize)
  let place ← compute (first + (← compute (index * entrySize)))
  let selector ← word tree place
  let target ← word tree (← compute (place + 4))
  let name ← labelOf tree label selector
  follow tree options descend ⟨selector, target⟩ name

def walk (tree : ResourceSection) (options : Options) :
    (below level offset : Nat) → (label : Option String) → Recorded Unit
  | 0, level, offset, label => do
    let count ← charge options (← directorySize tree level offset)
    (List.range count).forM (visit tree options label none offset)
  | below + 1, level, offset, label => do
    let count ← charge options (← directorySize tree level offset)
    (List.range count).forM (visit tree options label
      (some fun child name => walk tree options below (level + 1) child (some name)) offset)

section Runs
variable {tree : ResourceSection} {options : Options} {t : Transcript}

lemma run_compute (n : Nat) : (compute n).run t = .ok n ⟨t.progress, .compute n :: t.acts⟩ := rfl

lemma run_charge {count : Nat} :
    (charge options count).run t =
      if options.maxResourceEntries.toNat < t.progress.entries + count then
        .error (.limitExceeded .resourceEntries)
          ⟨t.progress, .compute (t.progress.entries + count) :: t.acts⟩
      else .ok count ⟨⟨t.progress.directories + 1, t.progress.entries + count, t.progress.leaves⟩,
        .compute (t.progress.entries + count) :: t.acts⟩ := by
  unfold charge
  simp only [EStateM.run_bind, EStateM.run_get, run_compute]
  split_ifs <;> rfl

lemma run_takeLeaf {offset : Nat} {name : String} {language : UInt16} :
    (takeLeaf tree options offset name language).run t =
      if options.maxResources.toNat ≤ t.progress.leaves.size then
        .error (.limitExceeded .resourceLeaves) t
      else match (leafAt tree options offset name language).run t with
        | .ok leaf u => .ok () ⟨⟨u.progress.directories, u.progress.entries,
            u.progress.leaves.push leaf⟩, u.acts⟩
        | .error e u => .error e u := by
  unfold takeLeaf
  simp only [EStateM.run_bind, EStateM.run_get]
  split_ifs with hfull
  · rfl
  · rw [EStateM.run_bind]
    cases (leafAt tree options offset name language).run t <;> rfl

end Runs
end Recorded

/-! ## What a recorded walk comes to -/

/-- The end of a run without its record. -/
def forget {α : Type} : EStateM.Result Error Transcript α → EStateM.Result Error Progress α
  | .ok a t => .ok a t.progress
  | .error e t => .error e t.progress

/-- `x` is `y` with a record: it ends as `y` does. -/
def Records {α : Type} (x : Recorded α) (y : Walk α) : Prop :=
  ∀ t, forget (x.run t) = y.run t.progress

namespace Records
variable {α β : Type} {x : Recorded α} {y : Walk α} {f : α → Recorded β} {g : α → Walk β}

lemma bind (h : Records x y) (h' : ∀ a, Records (f a) (g a)) : Records (x >>= f) (y >>= g) := by
  intro t
  rw [EStateM.run_bind, EStateM.run_bind, ← h t]
  cases x.run t with
  | ok a u => exact h' a u
  | error e u => rfl

lemma note (act : Act) (h : Records x y) : Records (Recorded.note act >>= fun _ => x) y :=
  fun t => h ⟨t.progress, act :: t.acts⟩

lemma compute {f : Nat → Recorded β} {y : Walk β} (n : Nat) (h : Records (f n) y) :
    Records (Recorded.compute n >>= f) y :=
  fun t => h ⟨t.progress, .compute n :: t.acts⟩

lemma lift (r : Except Error α) : Records (ofExcept r) (ofExcept r) := by
  intro t
  cases r <;> rfl

lemma half (tree : ResourceSection) (offset : Nat) :
    Records (Recorded.half tree offset) (ofExcept (u16 tree.bytes offset)) :=
  .compute _ (.lift _)

lemma forM {f : Nat → Recorded Unit} {g : Nat → Walk Unit} (h : ∀ i, Records (f i) (g i))
    (l : List Nat) : Records (l.forM f) (l.forM g) := by
  induction l with
  | nil => exact fun t => rfl
  | cons i l ih => exact (h i).bind fun _ => ih

end Records

section Walk
variable (tree : ResourceSection) (options : Options)

lemma directorySize_records (level offset : Nat) :
    Records (Recorded.directorySize tree level offset) (ofExcept (directorySize tree offset)) := by
  unfold Recorded.directorySize Recorded.cut directorySize
  simp only [ofExcept_bind, ofExcept_pure, bind_assoc]
  -- Notes and computed numbers have no counterpart in the walk, and reads are matched one by one.
  refine .note _ (.compute _ (.bind (.lift _) fun _ => .compute _ (.bind (.half _ _) fun _ => ?_)))
  refine .compute _ (.bind (.half _ _) fun _ => .compute _ (.compute _ (.compute _ ?_)))
  exact .compute _ (.bind (.lift _) fun _ => .lift (.ok _))

lemma charge_records (count : Nat) :
    Records (Recorded.charge options count) (charge options count) := by
  intro t
  rw [Recorded.run_charge, run_charge]
  split_ifs <;> rfl

lemma typeLabel_records (selector : UInt32) :
    Records (Recorded.typeLabel tree selector) (ofExcept (typeLabel tree selector)) := by
  unfold Recorded.typeLabel Recorded.cut typeLabel
  by_cases hname : hasHighBit selector
  · simp only [hname, if_true, ofExcept_bind, ofExcept_pure, bind_assoc]
    refine .bind (.half _ _) fun units => .compute _ (.compute _ (.compute _ (.bind (.lift _) ?_)))
    exact fun _ => .lift (.ok _)
  · simp only [hname]
    exact .lift (.ok _)

lemma leafAt_records (offset : Nat) (label : String) (language : UInt16) :
    Records (Recorded.leafAt tree options offset label language)
      (ofExcept (leafAt tree options offset label language)) := by
  unfold Recorded.leafAt Recorded.cut Recorded.word leafAt
  simp only [ofExcept_bind, ofExcept_pure, bind_assoc]
  refine .note _ (.compute _ (.bind (.lift _) fun _ => .compute _ (.bind (.lift _) fun rva => ?_)))
  refine .compute _ (.compute _ (.bind (.lift _) fun size => .bind (.lift _) fun place => ?_))
  exact .compute _ (.bind (.lift _) fun data => .lift (.ok _))

lemma takeLeaf_records (offset : Nat) (label : String) (language : UInt16) :
    Records (Recorded.takeLeaf tree options offset label language)
      (takeLeaf tree options offset label language) := by
  intro t
  rw [Recorded.takeLeaf, takeLeaf, EStateM.run_bind, EStateM.run_bind]
  simp only [EStateM.run_get]
  split_ifs with hfull
  · rfl
  · exact Records.bind (leafAt_records tree options offset label language) (fun _ _ => rfl) t

lemma labelOf_records (label : Option String) (selector : UInt32) :
    Records (Recorded.labelOf tree label selector) (ofExcept (labelOf tree label selector)) := by
  cases label with
  | none => exact typeLabel_records tree selector
  | some name => exact .lift (.ok name)

/-- Both go on to the next level, or neither does. -/
abbrev Descents (descend : Option (Nat → String → Recorded Unit))
    (descend' : Option (Nat → String → Walk Unit)) : Prop :=
  Option.Rel (fun f g => ∀ child name, Records (f child name) (g child name)) descend descend'

variable {descend : Option (Nat → String → Recorded Unit)}
  {descend' : Option (Nat → String → Walk Unit)}

lemma follow_records (e : DirectoryEntry) (name : String) (hdescend : Descents descend descend') :
    Records (Recorded.follow tree options descend e name)
      (follow tree options descend' e name) := by
  unfold Recorded.follow follow
  cases hdescend with
  | none =>
    cases hasHighBit e.target with
    | true => exact .lift (.error _)
    | false => exact takeLeaf_records tree options _ _ _
  | some h =>
    cases hasHighBit e.target with
    | true => exact h _ _
    | false => exact .lift (.error _)

lemma visit_records (label : Option String) (offset index : Nat)
    (hdescend : Descents descend descend') :
    Records (Recorded.visit tree options label descend offset index)
      (visit tree options label descend' (offset + headerSize + index * entrySize)) := by
  rw [visit_eq]
  unfold Recorded.visit Recorded.word labelledEntry
  simp only [ofExcept_bind, ofExcept_pure, bind_assoc, pure_bind]
  refine .note _ (.compute _ (.compute _ (.compute _ (.compute _ (.bind (.lift _) fun _ => ?_)))))
  refine .compute _ (.compute _ (.bind (.lift _) fun _ => ?_))
  refine .bind (labelOf_records tree label _) fun name => ?_
  exact follow_records tree options _ name hdescend

theorem walk_records (below level offset : Nat) (label : Option String) :
    Records (Recorded.walk tree options below level offset label)
      (walk tree options below offset label) := by
  induction below generalizing level offset label with
  | zero =>
    rw [Recorded.walk, walk, openDirectory_eq, bind_assoc]
    refine .bind (directorySize_records tree level offset) fun count => ?_
    refine .bind (charge_records options count) fun count => ?_
    exact .forM (fun i => visit_records tree options label offset i .none) _
  | succ below ih =>
    rw [Recorded.walk, walk, openDirectory_eq, bind_assoc]
    refine .bind (directorySize_records tree level offset) fun count => ?_
    refine .bind (charge_records options count) fun count => ?_
    refine .forM (fun i => visit_records tree options label offset i (.some fun child name => ?_)) _
    exact ih (level + 1) child (some name)

end Walk
end Hallmark.Proofs
