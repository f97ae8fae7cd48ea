import Hallmark.Proofs.ResourceLeaves
import Mathlib.Data.Nat.Basic
import Mathlib.Order.Basic

/-!
# Limits of resource walks

A walk with limits keeps step with a walk that has higher ones: it ends alike as long as what the
other has visited and read stays within the limits, and fails at a limit otherwise.
-/

namespace Hallmark.Proofs
open Pe Pe.ResourceTree

/-- What a walk has done so far stays within its limits. -/
structure Within (options : Options) (s : Progress) : Prop where
  entries : s.entries ≤ options.maxResourceEntries.toNat
  leaves : s.leaves.size ≤ options.maxResources.toNat

/-- The options differ in the limits of resources at most, and none of these is lower in `more`. -/
structure Raises (options more : Options) : Prop where
  entries : options.maxResourceEntries ≤ more.maxResourceEntries
  leaves : options.maxResources ≤ more.maxResources
  sniff : more.sniffResources = options.sniffResources

def HitsLimit {α : Type} (r : EStateM.Result Error Progress α) : Prop :=
  ∃ limit s, r = .error (.limitExceeded limit) s

/-- `x` is `y` under the limits of `options`: both end alike where `y` stays within the limits, and
otherwise `x` fails at a limit. -/
structure Cuts {α : Type} (options : Options) (x y : Walk α) : Prop where
  grows : ∀ s a t, y.run s = .ok a t → s.entries ≤ t.entries ∧ s.leaves.size ≤ t.leaves.size
  inside : ∀ s a t, y.run s = .ok a t → Within options t → x.run s = .ok a t
  beyond : ∀ s a t, Within options s → y.run s = .ok a t → ¬Within options t → HitsLimit (x.run s)
  failed : ∀ s e t, Within options s → y.run s = .error e t →
    (∃ u, x.run s = .error e u) ∨ HitsLimit (x.run s)

lemma Within.of_le {options : Options} {s t : Progress} (h : Within options t)
    (hle : s.entries ≤ t.entries ∧ s.leaves.size ≤ t.leaves.size) : Within options s :=
  ⟨hle.1.trans h.entries, hle.2.trans h.leaves⟩

namespace Cuts
variable {α β : Type} {options : Options}

lemma ofExcept (r : Except Error α) : Cuts options (ofExcept r) (ofExcept r) := by
  refine ⟨?_, fun s a t h _ => h, ?_, fun s e t _ h => .inl ⟨t, h⟩⟩
  · intro s a t h
    obtain ⟨-, rfl⟩ := run_ofExcept_ok.mp h
    exact ⟨Nat.le_refl _, Nat.le_refl _⟩
  · intro s a t hs h ht
    obtain ⟨-, rfl⟩ := run_ofExcept_ok.mp h
    exact absurd hs ht

lemma hitsLimit_bind {x : Walk α} {f : α → Walk β} {s : Progress} (h : HitsLimit (x.run s)) :
    HitsLimit ((x >>= f).run s) := by
  obtain ⟨limit, u, hx⟩ := h
  exact ⟨limit, u, run_bind_error.mpr (.inl hx)⟩

lemma bind {x y : Walk α} {f g : α → Walk β} (h : Cuts options x y)
    (h' : ∀ a, Cuts options (f a) (g a)) : Cuts options (x >>= f) (y >>= g) := by
  refine ⟨?_, ?_, ?_, ?_⟩
  · intro s b t hrun
    obtain ⟨a, u, hy, hg⟩ := run_bind_ok.mp hrun
    have hfirst := h.grows s a u hy
    have hsecond := (h' a).grows u b t hg
    exact ⟨hfirst.1.trans hsecond.1, hfirst.2.trans hsecond.2⟩
  · intro s b t hrun ht
    obtain ⟨a, u, hy, hg⟩ := run_bind_ok.mp hrun
    have hu := ht.of_le ((h' a).grows u b t hg)
    exact run_bind_ok.mpr ⟨a, u, h.inside s a u hy hu, (h' a).inside u b t hg ht⟩
  · intro s b t hs hrun ht
    obtain ⟨a, u, hy, hg⟩ := run_bind_ok.mp hrun
    -- The limit is hit in the second part, unless the first one is beyond it already.
    by_cases hu : Within options u
    · obtain ⟨limit, v, hf⟩ := (h' a).beyond u b t hu hg ht
      exact ⟨limit, v, run_bind_error.mpr (.inr ⟨a, u, h.inside s a u hy hu, hf⟩)⟩
    · exact hitsLimit_bind (h.beyond s a u hs hy hu)
  · intro s e t hs hrun
    obtain hy | ⟨a, u, hy, hg⟩ := run_bind_error.mp hrun
    · obtain ⟨u, hx⟩ | hx := h.failed s e t hs hy
      · exact .inl ⟨u, run_bind_error.mpr (.inl hx)⟩
      · exact .inr (hitsLimit_bind hx)
    · by_cases hu : Within options u
      · have hx := h.inside s a u hy hu
        obtain ⟨v, hf⟩ | ⟨limit, v, hf⟩ := (h' a).failed u e t hu hg
        · exact .inl ⟨v, run_bind_error.mpr (.inr ⟨a, u, hx, hf⟩)⟩
        · exact .inr ⟨limit, v, run_bind_error.mpr (.inr ⟨a, u, hx, hf⟩)⟩
      · exact .inr (hitsLimit_bind (h.beyond s a u hs hy hu))

lemma forM {f g : Nat → Walk Unit} (h : ∀ i, Cuts options (f i) (g i)) (l : List Nat) :
    Cuts options (l.forM f) (l.forM g) := by
  induction l with
  | nil => exact ofExcept (.ok ())
  | cons i l ih => exact (h i).bind fun _ => ih

end Cuts

section Walk
variable {options more : Options} (hraise : Raises options more) (tree : ResourceSection)
include hraise

lemma charge_cuts (count : Nat) : Cuts options (charge options count) (charge more count) := by
  have hmore := UInt64.le_iff_toNat_le.mp hraise.entries
  refine ⟨?_, ?_, ?_, ?_⟩
  · intro s a t h
    rw [run_charge] at h
    split_ifs at h
    cases h
    exact ⟨Nat.le_add_right _ _, Nat.le_refl _⟩
  · intro s a t h ht
    rw [run_charge] at h
    split_ifs at h
    cases h
    rw [run_charge, if_neg (Nat.not_lt.mpr ht.entries)]
  · intro s a t hs h ht
    rw [run_charge] at h
    split_ifs at h
    cases h
    refine ⟨.resourceEntries, s, ?_⟩
    rw [run_charge, if_pos]
    by_contra hroom
    exact ht ⟨Nat.not_lt.mp hroom, hs.leaves⟩
  · intro s e t hs h
    rw [run_charge] at h
    split_ifs at h with hfull
    right
    refine ⟨.resourceEntries, s, ?_⟩
    rw [run_charge, if_pos (hmore.trans_lt hfull)]

lemma leafAt_more (offset : Nat) (name : String) (language : UInt16) :
    leafAt tree more offset name language = leafAt tree options offset name language := by
  simp only [leafAt, contentType, hraise.sniff]

lemma takeLeaf_cuts (offset : Nat) (name : String) (language : UInt16) :
    Cuts options (takeLeaf tree options offset name language)
      (takeLeaf tree more offset name language) := by
  have hmore := UInt64.le_iff_toNat_le.mp hraise.leaves
  have hleaf := leafAt_more hraise tree offset name language
  refine ⟨?_, ?_, ?_, ?_⟩
  · intro s a t h
    obtain ⟨-, leaf, -, rfl⟩ := takeLeaf_ok.mp h
    exact ⟨Nat.le_refl _, by simp⟩
  · intro s a t h ht
    obtain ⟨-, leaf, hread, rfl⟩ := takeLeaf_ok.mp h
    have hroom : s.leaves.size < options.maxResources.toNat := by
      have hleaves := ht.leaves
      rwa [Array.size_push] at hleaves
    exact takeLeaf_ok.mpr ⟨hroom, leaf, hleaf ▸ hread, rfl⟩
  · intro s a t hs h ht
    obtain ⟨-, leaf, -, rfl⟩ := takeLeaf_ok.mp h
    have hfull : options.maxResources.toNat ≤ s.leaves.size := by
      by_contra hroom
      refine ht ⟨hs.entries, ?_⟩
      rw [Array.size_push]
      exact Nat.not_le.mp hroom
    exact ⟨.resourceLeaves, s, takeLeaf_error.mpr ⟨rfl, .inl ⟨hfull, rfl⟩⟩⟩
  · intro s e t hs h
    obtain ⟨rfl, ⟨hfull, rfl⟩ | ⟨-, hread⟩⟩ := takeLeaf_error.mp h
    · exact .inr ⟨.resourceLeaves, t, takeLeaf_error.mpr ⟨rfl, .inl ⟨hmore.trans hfull, rfl⟩⟩⟩
    · by_cases hfull : options.maxResources.toNat ≤ t.leaves.size
      · exact .inr ⟨.resourceLeaves, t, takeLeaf_error.mpr ⟨rfl, .inl ⟨hfull, rfl⟩⟩⟩
      · exact .inl ⟨t, takeLeaf_error.mpr ⟨rfl, .inr ⟨Nat.not_le.mp hfull, hleaf ▸ hread⟩⟩⟩

lemma follow_cuts {descend descend' : Option (Nat → String → Walk Unit)} (e : DirectoryEntry)
    (name : String)
    (hdescend : Option.Rel (fun f g => ∀ child name, Cuts options (f child name) (g child name))
      descend descend') :
    Cuts options (follow tree options descend e name) (follow tree more descend' e name) := by
  unfold follow
  cases hdescend with
  | none =>
    cases hasHighBit e.target with
    | true => exact .ofExcept (.error _)
    | false => exact takeLeaf_cuts hraise tree _ _ _
  | some h =>
    cases hasHighBit e.target with
    | true => exact h _ _
    | false => exact .ofExcept (.error _)

lemma walk_cuts_of_descent {below : Nat} (offset : Nat) (label : Option String)
    (hdescent : Option.Rel (fun f g => ∀ child name, Cuts options (f child name) (g child name))
      (descent tree options below) (descent tree more below)) :
    Cuts options (walk tree options below offset label) (walk tree more below offset label) := by
  rw [walk_eq, walk_eq]
  refine (Cuts.ofExcept _).bind fun count => (charge_cuts hraise count).bind fun count => ?_
  refine Cuts.forM (fun i => (Cuts.ofExcept _).bind fun r => ?_) _
  exact follow_cuts hraise tree r.1 r.2 hdescent

theorem walk_cuts (below offset : Nat) (label : Option String) :
    Cuts options (walk tree options below offset label) (walk tree more below offset label) := by
  induction below generalizing offset label with
  | zero => exact walk_cuts_of_descent hraise tree offset label .none
  | succ below ih =>
    refine walk_cuts_of_descent hraise tree offset label (.some fun child name => ?_)
    exact ih child (some name)

end Walk

/-! ## Limits of a tree -/

section Tree
variable {tree : ResourceSection} {options more : Options}

lemma leaves_of_run {t : Progress}
    (h : (walk tree options levelsBelowRoot 0 none).run .start = .ok () t) :
    leaves tree options = .ok t.leaves.toList := by
  rw [leaves, h]

lemma leaves_of_run_error {e : Error} {t : Progress}
    (h : (walk tree options levelsBelowRoot 0 none).run .start = .error e t) :
    leaves tree options = .error e := by
  rw [leaves, h]

lemma leaves_of_hitsLimit
    (h : HitsLimit ((walk tree options levelsBelowRoot 0 none).run .start)) :
    ∃ limit, leaves tree options = .error (.limitExceeded limit) := by
  obtain ⟨limit, t, hrun⟩ := h
  exact ⟨limit, leaves_of_run_error hrun⟩

lemma within_start : Within options .start :=
  ⟨Nat.zero_le _, Nat.zero_le _⟩

/-- The entries of all visits to directories of the tree and its leaves are as many as the limits
allow, or less. -/
structure Fits (tree : ResourceSection) (ls : List ResourceLeaf) (options : Options) : Prop where
  entries : entryTotal tree levelsBelowRoot 0 ≤ options.maxResourceEntries.toNat
  leaves : ls.length ≤ options.maxResources.toNat

lemma leaves_of_more {ls : List ResourceLeaf} (hraise : Raises options more)
    (h : leaves tree more = .ok ls) :
    (Fits tree ls options → leaves tree options = .ok ls) ∧
      (¬Fits tree ls options → ∃ limit, leaves tree options = .error (.limitExceeded limit)) := by
  obtain ⟨t, hrun, rfl⟩ := run_of_leaves h
  have hcuts := walk_cuts hraise tree levelsBelowRoot 0 none
  have hentries : t.entries = entryTotal tree levelsBelowRoot 0 := by
    rw [(walk_adds hrun).1]
    exact Nat.zero_add _
  have hfits : Fits tree t.leaves.toList options ↔ Within options t :=
    ⟨fun h => ⟨hentries.trans_le h.entries, h.leaves⟩, fun h => ⟨hentries ▸ h.entries, h.leaves⟩⟩
  rw [hfits]
  refine ⟨fun ht => leaves_of_run (hcuts.inside _ _ _ hrun ht), fun ht => ?_⟩
  exact leaves_of_hitsLimit (hcuts.beyond _ _ _ within_start hrun ht)

lemma fits_of_leaves {ls : List ResourceLeaf} (h : leaves tree options = .ok ls) :
    Fits tree ls options := by
  have hself : Raises options options := ⟨UInt64.le_refl _, UInt64.le_refl _, rfl⟩
  by_contra hfits
  obtain ⟨limit, hlimit⟩ := (leaves_of_more hself h).2 hfits
  simp [h] at hlimit

lemma leaves_error_of_more {e : Error} (hraise : Raises options more)
    (h : leaves tree more = .error e) :
    leaves tree options = .error e ∨
      ∃ limit, leaves tree options = .error (.limitExceeded limit) := by
  have hcuts := walk_cuts hraise tree levelsBelowRoot 0 none
  cases hrun : (walk tree more levelsBelowRoot 0 none).run .start with
  | ok a t =>
    rw [leaves_of_run hrun] at h
    cases h
  | error fault t =>
    rw [leaves_of_run_error hrun] at h
    cases h
    obtain ⟨u, hsame⟩ | hlimit := hcuts.failed _ _ _ within_start hrun
    · exact .inl (leaves_of_run_error hsame)
    · exact .inr (leaves_of_hitsLimit hlimit)

lemma leaves_raise {ls : List ResourceLeaf} (hraise : Raises options more)
    (h : leaves tree options = .ok ls) : leaves tree more = .ok ls := by
  cases hmore : leaves tree more with
  | ok ls' =>
    obtain ⟨hfit, hcut⟩ := leaves_of_more hraise hmore
    by_cases hfits : Fits tree ls' options
    · exact (hfit hfits).symm.trans h
    · obtain ⟨limit, hlimit⟩ := hcut hfits
      simp [h] at hlimit
  | error e => simpa [h] using leaves_error_of_more hraise hmore

end Tree

/-- The options with the highest limits on resources. -/
def unlimited (options : Options) : Options :=
  { options with
    maxResources := UInt64.ofNat (2 ^ 64 - 1), maxResourceEntries := UInt64.ofNat (2 ^ 64 - 1) }

lemma raises_unlimited (options : Options) : Raises options (unlimited options) := by
  have htop (n : UInt64) : n ≤ UInt64.ofNat (2 ^ 64 - 1) :=
    UInt64.le_iff_toNat_le.mpr (Nat.le_pred_of_lt n.toNat_lt)
  exact ⟨htop _, htop _, rfl⟩

/-- Limits only turn a result into a failure at a limit, and do so exactly when the entries of all
visited directories or the leaves are more than they allow. -/
theorem limits_cut_exactly (tree : ResourceSection) (options : Options) :
    (∀ ls, leaves tree (unlimited options) = .ok ls →
      (Fits tree ls options → leaves tree options = .ok ls) ∧
        (¬Fits tree ls options →
          ∃ limit, leaves tree options = .error (.limitExceeded limit))) ∧
    (∀ e, leaves tree (unlimited options) = .error e →
      leaves tree options = .error e ∨
        ∃ limit, leaves tree options = .error (.limitExceeded limit)) ∧
    ∀ more ls, Raises options more → leaves tree options = .ok ls → leaves tree more = .ok ls := by
  have hraise := raises_unlimited options
  exact ⟨fun ls => leaves_of_more hraise, fun e => leaves_error_of_more hraise,
    fun more ls hmore => leaves_raise hmore⟩

/-- The shared directories of this tree hold eight entries over all visits: two types, a name below
each type, and two languages below each name. -/
theorem limits_cut_sharedTree :
    ∃ ls, ls.length = 4 ∧
      leaves sharedTree { maxResourceEntries := 8, maxResources := 4 } = .ok ls ∧
      (∃ limit, leaves sharedTree { maxResourceEntries := 7, maxResources := 4 } =
        .error (.limitExceeded limit)) ∧
      ∃ limit, leaves sharedTree { maxResourceEntries := 8, maxResources := 3 } =
        .error (.limitExceeded limit) := by
  have htotal : entryTotal sharedTree levelsBelowRoot 0 = 8 := by decide +kernel
  have hread : (leaves sharedTree (unlimited {})).toOption.map List.length = some 4 := by
    decide +kernel
  cases h : leaves sharedTree (unlimited {}) with
  | error e => simp [h, Except.toOption] at hread
  | ok ls =>
    have hlength : ls.length = 4 := by simpa [h, Except.toOption] using hread
    have hfree (m n : UInt64) :
        leaves sharedTree (unlimited { maxResourceEntries := m, maxResources := n }) = .ok ls := by
      have hsame : unlimited { maxResourceEntries := m, maxResources := n } = unlimited {} := rfl
      rw [hsame, h]
    have hcut (m n : UInt64) := (limits_cut_exactly sharedTree
      { maxResourceEntries := m, maxResources := n }).1 ls (hfree m n)
    refine ⟨ls, hlength, (hcut 8 4).1 ⟨?_, ?_⟩, (hcut 7 4).2 fun hfits => ?_,
      (hcut 8 3).2 fun hfits => ?_⟩
    · rw [htotal]
      decide
    · rw [hlength]
      decide
    · exact absurd (htotal ▸ hfits.entries) (by decide)
    · exact absurd (hlength ▸ hfits.leaves) (by decide)

end Hallmark.Proofs
