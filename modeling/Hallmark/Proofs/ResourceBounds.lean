import Hallmark.Proofs.ResourceTranscript

/-!
# Bounds of resource walks

However directories share entries and lead back to one another, a walk keeps to three levels and to
its limits, also when it fails. Its sums and products fit in 64 bits under any limits, since a tree
of three levels has no more entries than their counts of 16 bits allow.
-/

namespace Hallmark.Proofs
open Pe Pe.ResourceTree

/-- Directories are on the three levels, and numbers fit in 64 bits. -/
def Act.InRange : Act → Prop
  | .enter level _ => level < 3
  | .compute value => value < 2 ^ 64
  | .examine _ _ | .read _ => True

/-- What a walk did stays within its limits. -/
structure Transcript.Bounded (options : Options) (t : Transcript) : Prop where
  acts : ∀ act ∈ t.acts, act.InRange
  examined : t.examined ≤ options.maxResourceEntries.toNat
  entered : t.entered ≤ 1 + t.examined
  read : t.read ≤ options.maxResources.toNat

/-- The record has all that the walk counts. -/
structure Transcript.Complete (t : Transcript) : Prop where
  entered : t.entered = t.progress.directories
  examined : t.examined = t.progress.entries
  read : t.read = t.progress.leaves.size

/-- The most entries that a directory and those below it have, on `height` levels in all. -/
def mostEntries : (height : Nat) → Nat
  | 0 => 0
  | height + 1 => 131070 + 131070 * mostEntries height

/-- What a walk has ahead of it. -/
structure Ahead where
  /-- The entries of open directories that are not examined yet. -/
  entries : Nat
  /-- The most entries of directories that are not open yet. -/
  room : Nat
  /-- The directories that are entered next. -/
  directories : Nat
  /-- The directories that are entered but not counted yet. -/
  unopened : Nat
  /-- The leaves that are read but not kept yet. -/
  leaves : Nat

/-- A walk that has `ahead` to do is within its limits, and stays so. -/
structure Holds (options : Options) (ahead : Ahead) (t : Transcript) : Prop where
  acts : ∀ act ∈ t.acts, act.InRange
  examined : t.examined + ahead.entries = t.progress.entries
  charged : t.progress.entries ≤ options.maxResourceEntries.toNat
  room : t.progress.entries + ahead.room ≤ mostEntries 3
  entered : t.entered + ahead.directories ≤ 1 + t.examined
  opened : t.entered = t.progress.directories + ahead.unopened
  read : t.read = t.progress.leaves.size + ahead.leaves
  kept : t.progress.leaves.size + ahead.leaves ≤ options.maxResources.toNat

namespace Holds
variable {options : Options} {ahead : Ahead} {t : Transcript}

lemma bounded (h : Holds options ahead t) : t.Bounded options := by
  have hexamined := h.examined
  have hcharged := h.charged
  have hentered := h.entered
  exact ⟨h.acts, by omega, by omega, h.read ▸ h.kept⟩

lemma weaken {p r m d : Nat} (h : Holds options ⟨p, r + m, d + 1, 0, 0⟩ t) :
    Holds options ⟨p, r, d, 0, 0⟩ t := by
  have hroom : t.progress.entries + (r + m) ≤ mostEntries 3 := h.room
  have hentered : t.entered + (d + 1) ≤ 1 + t.examined := h.entered
  refine ⟨h.acts, h.examined, h.charged, ?_, ?_, h.opened, h.read, h.kept⟩
  · exact Nat.le_trans (Nat.add_le_add_left (Nat.le_add_right r m) _) hroom
  · exact Nat.le_of_succ_le hentered

lemma acts_cons {act : Act} (hact : act.InRange) (h : Holds options ahead t) :
    ∀ a ∈ act :: t.acts, a.InRange :=
  List.forall_mem_cons.mpr ⟨hact, h.acts⟩

lemma compute {n : Nat} (hn : n < 2 ^ 64) (h : Holds options ahead t) :
    Holds options ahead ⟨t.progress, .compute n :: t.acts⟩ :=
  ⟨h.acts_cons hn, h.examined, h.charged, h.room, h.entered, h.opened, h.read, h.kept⟩

lemma enter {level offset p r d : Nat} (hlevel : level < 3)
    (h : Holds options ⟨p, r, d + 1, 0, 0⟩ t) :
    Holds options ⟨p, r, d, 1, 0⟩ ⟨t.progress, .enter level offset :: t.acts⟩ := by
  have hentered : t.entered + (d + 1) ≤ 1 + t.examined := h.entered
  have hopened : t.entered = t.progress.directories := h.opened
  refine ⟨h.acts_cons hlevel, h.examined, h.charged, h.room, ?_, ?_, h.read, h.kept⟩
  · rw [Transcript.entered_enter, Nat.add_right_comm]
    exact hentered
  · rw [Transcript.entered_enter, hopened]

lemma examine {offset index p r d : Nat} (h : Holds options ⟨p + 1, r, d, 0, 0⟩ t) :
    Holds options ⟨p, r, d + 1, 0, 0⟩ ⟨t.progress, .examine offset index :: t.acts⟩ := by
  have hexamined : t.examined + (p + 1) = t.progress.entries := h.examined
  have hentered : t.entered + d ≤ 1 + t.examined := h.entered
  refine ⟨h.acts_cons trivial, ?_, h.charged, h.room, ?_, h.opened, h.read, h.kept⟩
  · rw [Transcript.examined_examine, Nat.add_right_comm]
    exact hexamined
  · rw [Transcript.examined_examine]
    exact Nat.succ_le_succ hentered

lemma readLeaf {offset p r d : Nat} (hroom : t.progress.leaves.size < options.maxResources.toNat)
    (h : Holds options ⟨p, r, d, 0, 0⟩ t) :
    Holds options ⟨p, r, d, 0, 1⟩ ⟨t.progress, .read offset :: t.acts⟩ := by
  have hread : t.read = t.progress.leaves.size := h.read
  refine ⟨h.acts_cons trivial, h.examined, h.charged, h.room, h.entered, h.opened, ?_, hroom⟩
  rw [Transcript.read_read, hread]

lemma keep {p r d : Nat} (leaf : ResourceLeaf) (h : Holds options ⟨p, r, d, 0, 1⟩ t) :
    Holds options ⟨p, r, d, 0, 0⟩
      ⟨⟨t.progress.directories, t.progress.entries, t.progress.leaves.push leaf⟩, t.acts⟩ := by
  refine ⟨h.acts, h.examined, h.charged, h.room, h.entered, h.opened, ?_, ?_⟩
  · rw [Array.size_push]
    exact h.read
  · rw [Array.size_push]
    exact h.kept

lemma charge {m count p r d : Nat} (hcount : count ≤ 131070)
    (hroom : t.progress.entries + count ≤ options.maxResourceEntries.toNat)
    (h : Holds options ⟨p, r + (131070 + 131070 * m), d, 1, 0⟩ t) :
    Holds options ⟨p + count, r + count * m, d, 0, 0⟩
      ⟨⟨t.progress.directories + 1, t.progress.entries + count, t.progress.leaves⟩, t.acts⟩ := by
  have hexamined : t.examined + p = t.progress.entries := h.examined
  have hmost : t.progress.entries + (r + (131070 + 131070 * m)) ≤ mostEntries 3 := h.room
  have hbelow : count * m ≤ 131070 * m := Nat.mul_le_mul_right m hcount
  refine ⟨h.acts, ?_, hroom, ?_, h.entered, h.opened, h.read, h.kept⟩
  · rw [← hexamined, Nat.add_assoc]
    rfl
  · change t.progress.entries + count + (r + count * m) ≤ mostEntries 3
    omega

end Holds

/-- Where `P` holds before `x`, `Q` holds after it if it succeeds, and it is within its limits if it
fails. -/
def Meets {α : Type} (options : Options) (P : Transcript → Prop) (x : Recorded α)
    (Q : α → Transcript → Prop) : Prop :=
  ∀ t, P t → match x.run t with
    | .ok a u => Q a u
    | .error _ u => u.Bounded options

namespace Meets
variable {α β : Type} {options : Options} {P : Transcript → Prop} {ahead : Ahead}

lemma of_ok {x : Recorded α} {Q : α → Transcript → Prop} {t u : Transcript} {a : α}
    (h : Meets options P x Q) (ht : P t) (hrun : x.run t = .ok a u) : Q a u := by
  have hx := h t ht
  rwa [hrun] at hx

lemma of_error {x : Recorded α} {Q : α → Transcript → Prop} {t u : Transcript} {e : Error}
    (h : Meets options P x Q) (ht : P t) (hrun : x.run t = .error e u) : u.Bounded options := by
  have hx := h t ht
  rwa [hrun] at hx

lemma bind {x : Recorded α} {f : α → Recorded β} {Q : α → Transcript → Prop}
    {R : β → Transcript → Prop} (h : Meets options P x Q) (h' : ∀ a, Meets options (Q a) (f a) R) :
    Meets options P (x >>= f) R := by
  intro t ht
  rw [EStateM.run_bind]
  cases hrun : x.run t with
  | ok a u => exact h' a u (h.of_ok ht hrun)
  | error e u => exact h.of_error ht hrun

lemma mono {x : Recorded α} {P' : Transcript → Prop} {Q : α → Transcript → Prop}
    (hpre : ∀ t, P t → P' t) (h : Meets options P' x Q) : Meets options P x Q :=
  fun t ht => h t (hpre t ht)

lemma note {act : Act} {x : Recorded α} {P' : Transcript → Prop} {Q : α → Transcript → Prop}
    (hact : ∀ t, P t → P' ⟨t.progress, act :: t.acts⟩) (h : Meets options P' x Q) :
    Meets options P (Recorded.note act >>= fun _ => x) Q :=
  fun t ht => h _ (hact t ht)

lemma lift (r : Except Error α) :
    Meets options (Holds options ahead) (ofExcept r) fun _ => Holds options ahead := by
  intro t ht
  cases r with
  | ok a => exact ht
  | error e => exact ht.bounded

lemma lift_ok (r : Except Error α) :
    Meets options (Holds options ahead) (ofExcept r) fun a t =>
      r = .ok a ∧ Holds options ahead t := by
  intro t ht
  cases r with
  | ok a => exact ⟨rfl, ht⟩
  | error e => exact ht.bounded

lemma of_fact {φ : Prop} {x : Recorded α} {Q : α → Transcript → Prop}
    (h : φ → Meets options P x Q) : Meets options (fun t => φ ∧ P t) x Q :=
  fun t ht => h ht.1 t ht.2

lemma compute {f : Nat → Recorded β} {n : Nat} {Q : β → Transcript → Prop} (hn : n < 2 ^ 64)
    (h : Meets options (Holds options ahead) (f n) Q) :
    Meets options (Holds options ahead) (Recorded.compute n >>= f) Q :=
  fun _ ht => h _ (ht.compute hn)

lemma half (tree : ResourceSection) {offset : Nat} (hoffset : offset < 2 ^ 63) :
    Meets options (Holds options ahead) (Recorded.half tree offset) fun _ =>
      Holds options ahead :=
  .compute (by omega) (.lift _)

lemma word (tree : ResourceSection) {offset : Nat} (hoffset : offset < 2 ^ 63) :
    Meets options (Holds options ahead) (Recorded.word tree offset) fun _ =>
      Holds options ahead :=
  .compute (by omega) (.lift _)

lemma cut (tree : ResourceSection) {offset len : Nat} (hend : offset + len < 2 ^ 64) :
    Meets options (Holds options ahead) (Recorded.cut tree offset len) fun _ =>
      Holds options ahead :=
  .compute hend (.lift _)

/-- `I k` holds while `k` rounds are left. -/
lemma forM {I : Nat → Transcript → Prop} {f : Nat → Recorded Unit} {l : List Nat}
    (h : ∀ i ∈ l, ∀ k, Meets options (I (k + 1)) (f i) fun _ => I k) :
    Meets options (I l.length) (l.forM f) fun _ => I 0 := by
  induction l with
  | nil => exact fun t ht => ht
  | cons i l ih =>
    refine .bind (h i List.mem_cons_self l.length) fun _ => ih fun j hj => ?_
    exact h j (List.mem_cons_of_mem i hj)

end Meets

section Walk
variable {options : Options} {tree : ResourceSection} {p r d : Nat}

lemma directorySize_meets {level offset : Nat} (hlevel : level < 3) (hoffset : offset < 2 ^ 32) :
    Meets options (Holds options ⟨p, r, d + 1, 0, 0⟩) (Recorded.directorySize tree level offset)
      fun count t => count ≤ 131070 ∧ Holds options ⟨p, r, d, 1, 0⟩ t := by
  unfold Recorded.directorySize
  refine .note (fun t ht => ht.enter hlevel) (.bind (.cut tree ?_) fun _ => ?_)
  · simp only [headerSize]
    omega
  refine .compute (by omega) (.bind (.half tree (by omega)) fun named => ?_)
  refine .compute (by omega) (.bind (.half tree (by omega)) fun numbered => ?_)
  have hnamed := named.toNat_lt
  have hnumbered := numbered.toNat_lt
  have hcount : named.toNat + numbered.toNat ≤ 131070 := by omega
  refine .compute (by omega) (.compute ?_ (.compute ?_ (.bind (.cut tree ?_) fun _ => ?_)))
  · simp only [headerSize]
    omega
  · simp only [entrySize]
    omega
  · simp only [headerSize, entrySize]
    omega
  · exact fun t ht => ⟨hcount, ht⟩

lemma charge_meets {m count : Nat} (hcount : count ≤ 131070) :
    Meets options (Holds options ⟨p, r + (131070 + 131070 * m), d, 1, 0⟩)
      (Recorded.charge options count)
      fun n t => n = count ∧ Holds options ⟨p + count, r + count * m, d, 0, 0⟩ t := by
  intro t ht
  have hroom := ht.room
  -- The sum is computed before the limit is checked, so it is `room` that keeps it small.
  have hmost : mostEntries 3 < 2 ^ 64 := by decide
  have hsum : t.progress.entries + count < 2 ^ 64 := by
    simp only at hroom
    omega
  rw [Recorded.run_charge]
  by_cases hfull : options.maxResourceEntries.toNat < t.progress.entries + count
  · rw [if_pos hfull]
    exact (ht.compute hsum).bounded
  · rw [if_neg hfull]
    exact ⟨rfl, (ht.charge hcount (Nat.not_lt.mp hfull)).compute hsum⟩

lemma typeLabel_meets {ahead : Ahead} (selector : UInt32) :
    Meets options (Holds options ahead) (Recorded.typeLabel tree selector) fun _ =>
      Holds options ahead := by
  unfold Recorded.typeLabel
  by_cases hname : hasHighBit selector
  · rw [if_pos hname]
    have hoffset : lowBits selector < 2 ^ 31 := Nat.mod_lt _ (by decide)
    refine .bind (.half tree (by omega)) fun units => ?_
    have hunits := units.toNat_lt
    refine .compute (by omega) (.compute (by omega) (.bind (.cut tree (by omega)) fun name => ?_))
    exact .lift (.ok _)
  · rw [if_neg hname]
    exact .lift (.ok _)

lemma leafAt_meets (tree : ResourceSection) {offset : Nat} (hoffset : offset < 2 ^ 32)
    (label : String) (language : UInt16) :
    Meets options
      (fun t => Holds options ⟨p, r, d, 0, 0⟩ t ∧ t.progress.leaves.size < options.maxResources.toNat)
      (Recorded.leafAt tree options offset label language) fun _ =>
      Holds options ⟨p, r, d, 0, 1⟩ := by
  unfold Recorded.leafAt
  refine .note (fun t ht => ht.1.readLeaf ht.2) (.bind (.cut tree ?_) fun _ => ?_)
  · simp only [dataEntrySize]
    omega
  refine .bind (.word tree (by omega)) fun rva => .compute (by omega) ?_
  refine .bind (.word tree (by omega)) fun size => .bind (.lift_ok _) fun place => ?_
  refine .of_fact fun hplace => .bind (.cut tree ?_) fun data => .lift (.ok _)
  -- The data start at a difference of two addresses, which is one of 32 bits as well.
  obtain ⟨-, rfl⟩ := rvaOffset_ok.mp hplace
  have hrva := rva.toNat_lt
  have hsize := size.toNat_lt
  omega

lemma takeLeaf_meets {offset : Nat} (hoffset : offset < 2 ^ 32) (label : String)
    (language : UInt16) :
    Meets options (Holds options ⟨p, r, d, 0, 0⟩)
      (Recorded.takeLeaf tree options offset label language) fun _ =>
      Holds options ⟨p, r, d, 0, 0⟩ := by
  intro t ht
  rw [Recorded.run_takeLeaf]
  by_cases hfull : options.maxResources.toNat ≤ t.progress.leaves.size
  · rw [if_pos hfull]
    exact ht.bounded
  · have hbefore := And.intro ht (Nat.not_le.mp hfull)
    rw [if_neg hfull]
    cases hread : (Recorded.leafAt tree options offset label language).run t with
    | ok leaf u => exact ((leafAt_meets tree hoffset label language).of_ok hbefore hread).keep leaf
    | error e u => exact (leafAt_meets tree hoffset label language).of_error hbefore hread

lemma labelOf_meets {ahead : Ahead} (label : Option String) (selector : UInt32) :
    Meets options (Holds options ahead) (Recorded.labelOf tree label selector) fun _ =>
      Holds options ahead := by
  cases label with
  | none => exact typeLabel_meets selector
  | some name => exact .lift (.ok name)

/-- What is required of the way to a directory of `height` levels. -/
def DescentMeets (options : Options) (height : Nat)
    (descend : Option (Nat → String → Recorded Unit)) : Prop :=
  ∀ walk, descend = some walk → ∀ child < 2 ^ 32, ∀ name p r d,
    Meets options (Holds options ⟨p, r + mostEntries height, d + 1, 0, 0⟩) (walk child name) fun _ =>
      Holds options ⟨p, r, d, 0, 0⟩

lemma follow_meets {height : Nat} {descend : Option (Nat → String → Recorded Unit)}
    (hdescend : DescentMeets options height descend) (e : DirectoryEntry) (name : String) :
    Meets options (Holds options ⟨p, r + mostEntries height, d + 1, 0, 0⟩)
      (Recorded.follow tree options descend e name) fun _ => Holds options ⟨p, r, d, 0, 0⟩ := by
  have htarget : e.target.toNat < 2 ^ 32 := e.target.toNat_lt
  have hchild : lowBits e.target < 2 ^ 32 := Nat.lt_of_le_of_lt (Nat.mod_le _ _) htarget
  unfold Recorded.follow
  cases hasHighBit e.target with
  | true =>
    cases descend with
    | none => exact fun t ht => ht.bounded
    | some walk => exact hdescend walk rfl _ hchild name p r d
  | false =>
    cases descend with
    | none => exact .mono (fun t ht => ht.weaken) (takeLeaf_meets htarget name _)
    | some walk => exact fun t ht => ht.bounded

lemma visit_meets {height offset index : Nat} {label : Option String}
    {descend : Option (Nat → String → Recorded Unit)}
    (hdescend : DescentMeets options height descend) (hoffset : offset < 2 ^ 32)
    (hindex : index < 131070) :
    Meets options (Holds options ⟨p + 1, r + mostEntries height, d, 0, 0⟩)
      (Recorded.visit tree options label descend offset index) fun _ =>
      Holds options ⟨p, r, d, 0, 0⟩ := by
  have hplace : offset + headerSize + index * entrySize < 2 ^ 33 := by
    simp only [headerSize, entrySize]
    omega
  unfold Recorded.visit
  refine .note (fun t ht => ht.examine) (.compute (by omega) (.compute (by omega) ?_))
  refine .compute (by omega) (.bind (.word tree (by omega)) fun selector => .compute (by omega) ?_)
  refine .bind (.word tree (by omega)) fun target => .bind (labelOf_meets label selector) ?_
  exact fun name => follow_meets hdescend _ name

lemma walk_meets_of_descent {height level offset : Nat} {label : Option String}
    {descend : Option (Nat → String → Recorded Unit)}
    (hdescend : DescentMeets options height descend) (hlevel : level < 3)
    (hoffset : offset < 2 ^ 32) :
    Meets options (Holds options ⟨p, r + mostEntries (height + 1), d + 1, 0, 0⟩)
      (Recorded.directorySize tree level offset >>= fun count =>
        Recorded.charge options count >>= fun count =>
          (List.range count).forM (Recorded.visit tree options label descend offset))
      fun _ => Holds options ⟨p, r, d, 0, 0⟩ := by
  rw [mostEntries]
  refine .bind (directorySize_meets hlevel hoffset) fun count => .of_fact fun hcount => ?_
  refine .bind (charge_meets hcount) fun n => .of_fact fun hn => ?_
  subst hn
  -- Each round takes its entry and the entries of the levels below it off what is ahead.
  have hround (i : Nat) (hi : i ∈ List.range n) (k : Nat) :
      Meets options (Holds options ⟨p + (k + 1), r + (k + 1) * mostEntries height, d, 0, 0⟩)
        (Recorded.visit tree options label descend offset i) fun _ =>
        Holds options ⟨p + k, r + k * mostEntries height, d, 0, 0⟩ := by
    have hindex : i < 131070 := Nat.lt_of_lt_of_le (List.mem_range.mp hi) hcount
    rw [Nat.succ_mul, ← Nat.add_assoc, ← Nat.add_assoc]
    exact visit_meets hdescend hoffset hindex
  have hloop := Meets.forM (I := fun k => Holds options ⟨p + k, r + k * mostEntries height, d, 0, 0⟩)
    hround
  rw [List.length_range] at hloop
  simpa using hloop

theorem walk_meets {below level offset : Nat} (hlevel : level + below < 3)
    (hoffset : offset < 2 ^ 32) (label : Option String) :
    Meets options (Holds options ⟨p, r + mostEntries (below + 1), d + 1, 0, 0⟩)
      (Recorded.walk tree options below level offset label) fun _ =>
      Holds options ⟨p, r, d, 0, 0⟩ := by
  induction below generalizing p r d level offset label with
  | zero => exact walk_meets_of_descent nofun hlevel hoffset
  | succ below ih =>
    refine walk_meets_of_descent ?_ (by omega) hoffset
    intro walk hwalk child hchild name p r d
    cases hwalk
    exact ih (by omega) hchild (some name)

end Walk

/-! ## Walks over a whole tree -/

def recordedWalk (tree : ResourceSection) (options : Options) :
    EStateM.Result Error Transcript Unit :=
  (Recorded.walk tree options levelsBelowRoot 0 0 none).run .start

/-- The transcript at the end of a run, also of one that fails. -/
def transcript {α : Type} : EStateM.Result Error Transcript α → Transcript
  | .ok _ t | .error _ t => t

lemma holds_start (options : Options) : Holds options ⟨0, 0 + mostEntries 3, 0 + 1, 0, 0⟩ .start := by
  refine ⟨nofun, ?_, ?_, ?_, ?_, ?_, ?_, ?_⟩ <;>
    simp [Transcript.start, Transcript.examined, Transcript.entered, Transcript.read,
      Progress.start]

lemma recordedWalk_meets (tree : ResourceSection) (options : Options) :
    Meets options (Holds options ⟨0, 0 + mostEntries 3, 0 + 1, 0, 0⟩)
      (Recorded.walk tree options levelsBelowRoot 0 0 none) fun _ =>
      Holds options ⟨0, 0, 0, 0, 0⟩ :=
  walk_meets (by decide) (by decide) none

/-- A walk over any tree enters directories on three levels only, examines and reads no more than
its limits allow, enters one directory more than it examines entries at most, and computes numbers
of 64 bits, whether it succeeds or fails. -/
theorem walk_bounded (tree : ResourceSection) (options : Options) :
    forget (recordedWalk tree options) = (walk tree options levelsBelowRoot 0 none).run .start ∧
      (transcript (recordedWalk tree options)).Bounded options ∧
      ∀ t, recordedWalk tree options = .ok () t → t.Complete := by
  have hmeets := recordedWalk_meets tree options
  have hstart := holds_start options
  refine ⟨walk_records tree options levelsBelowRoot 0 0 none .start, ?_, fun t hrun => ?_⟩
  · cases hrun : recordedWalk tree options with
    | ok a t => exact (hmeets.of_ok hstart hrun).bounded
    | error e t => exact hmeets.of_error hstart hrun
  · have hend := hmeets.of_ok hstart hrun
    exact ⟨hend.opened, hend.examined, hend.read⟩

/-- A directory whose only entry leads back to it is entered on every level. -/
example :
    let t := transcript (recordedWalk ⟨#[0, 0, 0, 0, 0, 0, 0, 0, 0, 0, 0, 0, 0, 0, 1, 0,
      1, 0, 0, 0, 0, 0, 0, 128], 0⟩ {})
    t.entered = 3 ∧ t.examined = 3 ∧ t.read = 0 := by decide +kernel

end Hallmark.Proofs
