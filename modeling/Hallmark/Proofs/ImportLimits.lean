import Hallmark.Proofs.ImportAcceptance

/-!
# The limit of import tables

A walk with a limit keeps step with a walk that has a higher one. Where the other collects no more
than the limit allows, both are the same run; otherwise the walk fails at the limit, having collected
just the first entries of the other. No table holds more entries than the octets of its section can
tell apart, so there is a limit that no walk comes to.
-/

namespace Hallmark.Proofs
open Pe
open ImportDirectory (Walk)

/-- What a run has collected when it ends, also when it fails. -/
def collectedBy {α : Type} : EStateM.Result Error (Array ImportEntry) α → Array ImportEntry
  | .ok _ t => t
  | .error _ t => t

/-- From `s` on, `x` is `y` under a limit: the same run where `y` keeps to the limit, and otherwise
a failure at the limit behind the first entries of `y`. -/
structure Capped {α : Type} (limit : Nat) (x y : Walk α) (s : Array ImportEntry) : Prop where
  keeps : s.toList <+: (collectedBy (y.run s)).toList
  within : (collectedBy (y.run s)).size ≤ limit → x.run s = y.run s
  beyond : s.size ≤ limit → limit < (collectedBy (y.run s)).size →
    ∃ t, x.run s = .error (.limitExceeded .importEntries) t ∧
      t.toList = (collectedBy (y.run s)).toList.take limit

/-- A run of `x` takes nothing away, and never holds more entries than the limit allows. -/
def StaysWithin {α : Type} (limit : Nat) (x : Walk α) : Prop :=
  ∀ s, s.size ≤ limit → s.toList <+: (collectedBy (x.run s)).toList ∧
    (collectedBy (x.run s)).size ≤ limit

/-- A run of `x` adds `most` entries at most. -/
def AddsUpTo {α : Type} (most : Nat) (x : Walk α) : Prop :=
  ∀ s, (collectedBy (x.run s)).size ≤ s.size + most

section Runs
variable {α β : Type} {limit : Nat} {x y : Walk α} {s : Array ImportEntry}

lemma collectedBy_ofExcept (r : Except Error α) :
    collectedBy ((ofExcept r : Walk α).run s) = s := by
  cases r <;> rfl

namespace Capped

/-- Runs that collect nothing do not notice a limit. -/
lemma of_idle (hsame : x.run s = y.run s) (hidle : collectedBy (y.run s) = s) :
    Capped limit x y s := by
  refine ⟨?_, fun _ => hsame, ?_⟩
  · simp only [hidle, List.prefix_rfl]
  · intro hs hmore
    rw [hidle] at hmore
    exact absurd hmore (Nat.not_lt.mpr hs)

lemma ofExcept (r : Except Error α) : Capped limit (ofExcept r) (ofExcept r) s :=
  of_idle rfl (collectedBy_ofExcept r)

lemma size_le (h : Capped limit x y s) : s.size ≤ (collectedBy (y.run s)).size := by
  have hlength := h.keeps.length_le
  simpa only [Array.length_toList] using hlength

lemma bind {f g : α → Walk β} (h : Capped limit x y s)
    (h' : ∀ a u, y.run s = .ok a u → Capped limit (f a) (g a) u) :
    Capped limit (x >>= f) (y >>= g) s := by
  have hkeeps := h.keeps
  have hwithin := h.within
  have hbeyond := h.beyond
  cases hy : y.run s with
  | error e u =>
    rw [hy] at hkeeps hwithin hbeyond
    have hrun : (y >>= g).run s = .error e u := run_bind_error.mpr (.inl hy)
    refine ⟨?_, ?_, ?_⟩
    · rw [hrun]
      exact hkeeps
    · intro hroom
      rw [hrun] at hroom ⊢
      exact run_bind_error.mpr (.inl (hwithin hroom))
    · intro hs hmore
      rw [hrun] at hmore ⊢
      obtain ⟨t, hx, ht⟩ := hbeyond hs hmore
      exact ⟨t, run_bind_error.mpr (.inl hx), ht⟩
  | ok a u =>
    rw [hy] at hkeeps hwithin hbeyond
    have hnext := h' a u hy
    have hrun : (y >>= g).run s = (g a).run u := by rw [EStateM.run_bind, hy]
    have hfirst (hx : x.run s = .ok a u) : (x >>= f).run s = (f a).run u := by
      rw [EStateM.run_bind, hx]
    refine ⟨?_, ?_, ?_⟩
    · rw [hrun]
      exact hkeeps.trans hnext.keeps
    · intro hroom
      rw [hrun] at hroom ⊢
      rw [hfirst (hwithin (hnext.size_le.trans hroom))]
      exact hnext.within hroom
    · intro hs hmore
      rw [hrun] at hmore ⊢
      -- The limit is hit in the second part, unless the first one is beyond it already.
      by_cases hu : u.size ≤ limit
      · rw [hfirst (hwithin hu)]
        exact hnext.beyond hu hmore
      · obtain ⟨t, hx, ht⟩ := hbeyond hs (Nat.lt_of_not_le hu)
        refine ⟨t, run_bind_error.mpr (.inl hx), ?_⟩
        obtain ⟨rest, hrest⟩ := hnext.keeps
        have hlong : limit ≤ u.toList.length := Nat.le_of_not_le hu
        rw [ht, ← hrest, List.take_append_of_le_length hlong]
        rfl

/-- Loops keep step when their turns do. -/
lemma strides {body body' : Nat → Walk Bool} {loop loop' : Nat → Walk Unit} {stride bound : Nat}
    (hloop : Strides body loop stride bound) (hloop' : Strides body' loop' stride bound)
    (h : ∀ o s, Capped limit (body o) (body' o) s) (o : Nat) (s : Array ImportEntry) :
    Capped limit (loop o) (loop' o) s := by
  induction hn : bound - o using Nat.strong_induction_on generalizing o s with
  | _ n ih =>
  rw [hloop.turn, hloop'.turn]
  apply (h o s).bind
  intro more u hmore
  cases more with
  | false => exact .ofExcept (.ok ())
  | true =>
    have hinside := hloop'.inside o s u hmore
    have hpos := hloop.pos
    exact ih (bound - (o + stride)) (by omega) (o + stride) u rfl

end Capped

/-- What is its own self under a limit does not exceed it. -/
lemma staysWithin_of_capped (h : ∀ s, Capped limit x x s) : StaysWithin limit x := by
  intro s hs
  refine ⟨(h s).keeps, ?_⟩
  by_contra hmore
  obtain ⟨t, hrun, ht⟩ := (h s).beyond hs (Nat.lt_of_not_le hmore)
  rw [hrun] at ht hmore
  have hcut : t.toList.length ≤ limit := by
    rw [ht]
    exact List.length_take_le _ _
  exact hmore (by simpa only [collectedBy, Array.length_toList] using hcut)

namespace AddsUpTo

lemma bind {most rest : Nat} {f : α → Walk β} (h : AddsUpTo most x) (h' : ∀ a, AddsUpTo rest (f a)) :
    AddsUpTo (most + rest) (x >>= f) := by
  intro s
  have hfirst := h s
  rw [EStateM.run_bind]
  cases hx : x.run s with
  | error e u =>
    rw [hx] at hfirst
    exact hfirst.trans (by omega)
  | ok a u =>
    rw [hx] at hfirst
    have hcollected : u.size ≤ s.size + most := hfirst
    have hsecond := h' a u
    dsimp only
    omega

lemma mono {most more : Nat} (h : AddsUpTo most x) (hle : most ≤ more) : AddsUpTo more x := by
  intro s
  exact (h s).trans (Nat.add_le_add_left hle _)

lemma ofExcept (r : Except Error α) : AddsUpTo 0 (ofExcept r) := by
  intro s
  rw [collectedBy_ofExcept]
  exact Nat.le_refl _

/-- Every turn of a loop but the last leads closer to the bound. -/
lemma strides {body : Nat → Walk Bool} {loop : Nat → Walk Unit} {stride bound most : Nat}
    (hloop : Strides body loop stride bound) (h : ∀ o, AddsUpTo most (body o)) (o : Nat) :
    AddsUpTo (most * (bound - o + 1)) (loop o) := by
  induction hn : bound - o using Nat.strong_induction_on generalizing o with
  | _ n ih =>
  intro s
  have hturn := h o s
  rw [hloop.turn, EStateM.run_bind]
  cases hbody : (body o).run s with
  | error e u =>
    rw [hbody] at hturn
    exact hturn.trans (Nat.add_le_add_left (Nat.le_mul_of_pos_right _ (Nat.succ_pos _)) _)
  | ok more u =>
    rw [hbody] at hturn
    cases more with
    | false => exact hturn.trans (Nat.add_le_add_left (Nat.le_mul_of_pos_right _ (Nat.succ_pos _)) _)
    | true =>
      have hinside := hloop.inside o s u hbody
      have hpos := hloop.pos
      have hrest := ih (bound - (o + stride)) (by omega) (o + stride) rfl u
      have hfewer : most * (bound - (o + stride) + 1) + most ≤ most * (n + 1) := by
        rw [← Nat.mul_succ]
        exact Nat.mul_le_mul_left most (by omega)
      have hcollected : u.size ≤ s.size + most := hturn
      change (collectedBy ((loop (o + stride)).run u)).size ≤ _
      omega

end AddsUpTo
end Runs

/-! ## Walks over a table -/

section Walks
variable {dir : ImportDirectory} {limit more : Nat} {library : Bytes} {s : Array ImportEntry}

lemma thunkTurn_capped (h : limit ≤ more) (offset : Nat) :
    Capped limit (thunkTurn dir limit library offset) (thunkTurn dir more library offset) s := by
  cases hread : readThunk dir offset with
  | error e => apply Capped.of_idle <;> simp only [run_thunkTurn, hread, collectedBy]
  | ok found =>
    cases found with
    | none => apply Capped.of_idle <;> simp only [run_thunkTurn, hread, collectedBy]
    | some target =>
      by_cases hfull : more ≤ s.size
      · have hlimit : limit ≤ s.size := h.trans hfull
        apply Capped.of_idle <;> simp only [run_thunkTurn, hread, if_pos hfull, if_pos hlimit, collectedBy]
      · have hrun : (thunkTurn dir more library offset).run s = .ok true (s.push ⟨library, target⟩) := by
          simp only [run_thunkTurn, hread, if_neg hfull]
        refine ⟨?_, ?_, ?_⟩
        · rw [hrun, collectedBy, Array.toList_push]
          exact List.prefix_append _ _
        · intro hroom
          rw [hrun, collectedBy, Array.size_push] at hroom
          rw [hrun]
          simp only [run_thunkTurn, hread, if_neg (Nat.not_le.mpr hroom)]
        · intro hs hmore
          rw [hrun, collectedBy, Array.size_push] at hmore
          have hlimit : limit = s.size := by omega
          refine ⟨s, ?_, ?_⟩
          · simp only [run_thunkTurn, hread, if_pos hlimit.le]
          · rw [hrun, collectedBy, Array.toList_push, hlimit]
            exact (List.take_left' Array.length_toList).symm

lemma walkThunks_capped (h : limit ≤ more) (offset : Nat) :
    Capped limit (dir.walkThunks limit library offset) (dir.walkThunks more library offset) s :=
  Capped.strides strides_thunks strides_thunks (fun o _ => thunkTurn_capped h o) offset s

lemma descriptorTurn_capped (h : limit ≤ more) (offset : Nat) :
    Capped limit (descriptorTurn dir limit offset) (descriptorTurn dir more offset) s := by
  unfold descriptorTurn
  apply (Capped.ofExcept _).bind
  intro found u _
  cases found with
  | none => exact .ofExcept (.ok false)
  | some descriptor =>
    apply (walkThunks_capped h descriptor.2).bind
    intro _ v _
    exact .ofExcept (.ok true)

lemma walkDescriptors_capped (h : limit ≤ more) (offset : Nat) :
    Capped limit (dir.walkDescriptors limit offset) (dir.walkDescriptors more offset) s :=
  Capped.strides strides_descriptors strides_descriptors
    (fun o _ => descriptorTurn_capped h o) offset s

/-- The place of the table, if it lies in the section. -/
def tableStart (dir : ImportDirectory) : Except Error Nat :=
  rvaOffset dir.directoryRva dir.sectionRva >>= fun offset =>
    if dir.bytes.size < offset then .error (.invalidOffset offset) else .ok offset

lemma walk_eq_bind : dir.walk limit = ofExcept (tableStart dir) >>= dir.walkDescriptors limit := by
  rw [ImportDirectory.walk, tableStart, ofExcept_bind, bind_assoc]
  congr 1
  funext offset
  split_ifs <;> rfl

lemma walk_capped (h : limit ≤ more) : Capped limit (dir.walk limit) (dir.walk more) s := by
  rw [walk_eq_bind, walk_eq_bind]
  apply (Capped.ofExcept _).bind
  intro offset u _
  exact walkDescriptors_capped h offset

lemma thunkTurn_adds (offset : Nat) : AddsUpTo 1 (thunkTurn dir limit library offset) := by
  intro s
  rw [run_thunkTurn]
  rcases readThunk dir offset with e | _ | target
  · exact Nat.le_succ _
  · exact Nat.le_succ _
  · dsimp only
    split_ifs with hfull
    · exact Nat.le_succ _
    · exact (Array.size_push _).le

lemma walkThunks_addsUpTo (offset : Nat) :
    AddsUpTo (dir.bytes.size + 1) (dir.walkThunks limit library offset) := by
  have hturn (o : Nat) : AddsUpTo 1 (thunkTurn dir limit library o) := thunkTurn_adds o
  apply (AddsUpTo.strides strides_thunks hturn offset).mono
  omega

lemma descriptorTurn_adds (offset : Nat) :
    AddsUpTo (dir.bytes.size + 1) (descriptorTurn dir limit offset) := by
  unfold descriptorTurn
  apply ((AddsUpTo.ofExcept _).bind _).mono (Nat.zero_add _).le
  intro found
  cases found with
  | none => exact (AddsUpTo.ofExcept (.ok false)).mono (Nat.zero_le _)
  | some descriptor => exact (walkThunks_addsUpTo descriptor.2).bind fun _ => .ofExcept (.ok true)

lemma walk_addsUpTo : AddsUpTo ((dir.bytes.size + 1) * (dir.bytes.size + 1)) (dir.walk limit) := by
  have hturn (o : Nat) : AddsUpTo (dir.bytes.size + 1) (descriptorTurn dir limit o) :=
    descriptorTurn_adds o
  rw [walk_eq_bind]
  apply ((AddsUpTo.ofExcept _).bind _).mono (Nat.zero_add _).le
  intro offset
  apply (AddsUpTo.strides strides_descriptors hturn offset).mono
  exact Nat.mul_le_mul_left _ (by omega)

end Walks

/-! ## Limits of a table -/

section Tables
variable {dir : ImportDirectory} {options : Options} {limit more : Nat}

/-- The entries that a walk with a limit has collected in the end. -/
def collected (dir : ImportDirectory) (limit : Nat) : List ImportEntry :=
  (collectedBy ((dir.walk limit).run #[])).toList

/-- What a walk with a limit comes to. -/
def entriesUpTo (dir : ImportDirectory) (limit : Nat) : Except Error (List ImportEntry) :=
  match (dir.walk limit).run #[] with
  | .ok () t => .ok t.toList
  | .error e _ => .error e

lemma entries_eq : dir.entries options = entriesUpTo dir options.maxImports.toNat := rfl

lemma entriesUpTo_error {e : Error} :
    entriesUpTo dir limit = .error e ↔ ∃ t, (dir.walk limit).run #[] = .error e t := by
  unfold entriesUpTo
  rcases (dir.walk limit).run #[] with ⟨_, t⟩ | ⟨e, t⟩ <;> simp

lemma collected_of_ok {es : List ImportEntry} (h : entriesUpTo dir limit = .ok es) :
    collected dir limit = es := by
  unfold entriesUpTo at h
  unfold collected
  cases hrun : (dir.walk limit).run #[] with
  | ok _ t =>
    rw [hrun] at h
    exact Except.ok.inj h
  | error e t =>
    rw [hrun] at h
    cases h

/-- A lower limit cuts what is collected, and is not noticed before it is hit. -/
lemma walk_of_more (h : limit ≤ more) :
    collected dir limit = (collected dir more).take limit ∧
      entriesUpTo dir limit =
        if (collected dir more).length ≤ limit then entriesUpTo dir more
        else .error (.limitExceeded .importEntries) := by
  have hcapped : Capped limit (dir.walk limit) (dir.walk more) #[] := walk_capped h
  have hlength : (collected dir more).length = (collectedBy ((dir.walk more).run #[])).size :=
    Array.length_toList
  by_cases hroom : (collected dir more).length ≤ limit
  · have hrun := hcapped.within (hlength ▸ hroom)
    rw [if_pos hroom, List.take_of_length_le hroom]
    unfold collected entriesUpTo
    rw [hrun]
    exact ⟨rfl, rfl⟩
  · obtain ⟨t, hrun, ht⟩ := hcapped.beyond (Nat.zero_le _) (hlength ▸ Nat.lt_of_not_le hroom)
    rw [if_neg hroom]
    refine ⟨?_, entriesUpTo_error.mpr ⟨t, hrun⟩⟩
    unfold collected
    rw [hrun]
    exact ht

/-- More entries than any walk over the section collects. -/
def roomForAll (dir : ImportDirectory) : Nat := (dir.bytes.size + 1) * (dir.bytes.size + 1) + 1

lemma collected_lt_room : (collected dir limit).length < roomForAll dir := by
  have hadds : AddsUpTo _ (dir.walk limit) := walk_addsUpTo
  have hlength : (collected dir limit).length = (collectedBy ((dir.walk limit).run #[])).size :=
    Array.length_toList
  rw [hlength]
  exact Nat.lt_succ_of_le ((hadds #[]).trans (Nat.zero_add _).le)

/-- What all walks have collected that do not come to their limits. -/
def allCollected (dir : ImportDirectory) : List ImportEntry := collected dir (roomForAll dir)

/-- What all walks come to that do not come to their limits. -/
def unlimitedEntries (dir : ImportDirectory) : Except Error (List ImportEntry) :=
  entriesUpTo dir (roomForAll dir)

/-- Every walk is the walk without a limit, or is cut off by its own. -/
lemma walk_of_unlimited :
    collected dir limit = (allCollected dir).take limit ∧
      entriesUpTo dir limit =
        if (allCollected dir).length ≤ limit then unlimitedEntries dir
        else .error (.limitExceeded .importEntries) := by
  by_cases hlow : limit ≤ roomForAll dir
  · exact walk_of_more hlow
  · have hroom : (collected dir limit).length ≤ roomForAll dir := collected_lt_room.le
    have hmore : roomForAll dir ≤ limit := Nat.le_of_not_le hlow
    obtain ⟨hsame, hentries⟩ := walk_of_more hmore
    rw [List.take_of_length_le hroom] at hsame
    rw [if_pos hroom] at hentries
    have hall : (allCollected dir).length ≤ limit :=
      collected_lt_room.le.trans hmore
    rw [if_pos hall, List.take_of_length_le hall]
    exact ⟨hsame.symm, hentries.symm⟩

lemma nameFault_ne_limitExceeded {rva : UInt32} {skip : Nat} {which : Limit} :
    ¬NameFault dir rva skip (.limitExceeded which) := by
  intro h
  cases h

/-- Only a walk that has come to its limit fails there. -/
lemma le_collected_of_limitExceeded {which : Limit}
    (h : entriesUpTo dir limit = .error (.limitExceeded which)) :
    limit ≤ (collected dir limit).length := by
  obtain ⟨t, hrun⟩ := entriesUpTo_error.mp h
  have hcollected : collected dir limit = t.toList := by rw [collected, hrun, collectedBy]
  rw [hcollected]
  rw [run_walk] at hrun
  split_ifs at hrun with hbelow hout
  · cases hrun
  · cases hrun
  · obtain ⟨ls, found, -, -, hfault, ht⟩ := walkDescriptors_error.mp hrun
    rw [ht, List.length_append]
    cases hfault with
    | library _ hname => exact absurd hname nameFault_ne_limitExceeded
    | thunk _ _ _ _ _ hthunk =>
      rw [length_entries]
      cases hthunk with
      | name _ _ _ hname => exact absurd hname nameFault_ne_limitExceeded
      | limit _ hfull => exact hfull

lemma unlimitedEntries_ne_limitExceeded (which : Limit) :
    unlimitedEntries dir ≠ .error (.limitExceeded which) := by
  intro h
  exact absurd (le_collected_of_limitExceeded h) (Nat.not_le.mpr collected_lt_room)

/-- A section that holds a table gives its entries, unless they are more than the limit allows. -/
lemma entries_of_table {ls : List LibraryImports} (h : ImportTable dir ls) :
    dir.entries options =
      if (tableEntries ls).length ≤ options.maxImports.toNat then .ok (tableEntries ls)
      else .error (.limitExceeded .importEntries) := by
  have hread : entriesUpTo dir (tableEntries ls).length = .ok (tableEntries ls) := by
    have hrun : (dir.walk (tableEntries ls).length).run #[] = .ok () (tableEntries ls).toArray := by
      rw [run_walk, if_neg (UInt32.not_lt.mpr h.above), if_neg (Nat.not_lt.mpr h.inside)]
      exact walkDescriptors_ok.mpr ⟨ls, h.descriptors, h.descriptorsEnd, Nat.le_refl _, rfl⟩
    unfold entriesUpTo
    rw [hrun]
  have hall : (allCollected dir).length ≤ (tableEntries ls).length := by
    by_contra hmore
    rw [walk_of_unlimited.2, if_neg hmore] at hread
    cases hread
  have hsame := collected_of_ok hread
  rw [walk_of_unlimited.1, List.take_of_length_le hall] at hsame
  rw [walk_of_unlimited.2, if_pos hall] at hread
  rw [entries_eq, walk_of_unlimited.2, hsame, hread]

end Tables

/-- The limit of imports is exact and otherwise not noticed. With `n` entries found by a walk that
has no limit, before it ended in whatever way, a walk with a limit of at least `n` ends in the same
way, and any lower limit is exceeded, whatever else is wrong behind it. What is collected is at any
time the beginning of what the walk without a limit collects, and within the limit. -/
theorem import_limit_exact (dir : ImportDirectory) (options : Options) :
    let m := options.maxImports.toNat
    let n := (allCollected dir).length
    (∀ es, unlimitedEntries dir = .ok es → es = allCollected dir ∧
      (n ≤ m → dir.entries options = .ok es) ∧
      (m < n → dir.entries options = .error (.limitExceeded .importEntries))) ∧
    (∀ e, unlimitedEntries dir = .error e → e ≠ .limitExceeded .importEntries ∧
      (n ≤ m → dir.entries options = .error e) ∧
      (m < n → dir.entries options = .error (.limitExceeded .importEntries))) ∧
    (∀ more, n ≤ more → entriesUpTo dir more = unlimitedEntries dir) ∧
    collected dir m = (allCollected dir).take m ∧
    StaysWithin m (dir.walk m) ∧ (∀ offset, StaysWithin m (dir.walkDescriptors m offset)) ∧
    ∀ library offset, StaysWithin m (dir.walkThunks m library offset) := by
  intro m n
  have hentries : dir.entries options =
      if n ≤ m then unlimitedEntries dir else .error (.limitExceeded .importEntries) :=
    walk_of_unlimited.2
  have hbeyond (hless : m < n) : dir.entries options = .error (.limitExceeded .importEntries) := by
    rw [hentries, if_neg (Nat.not_le.mpr hless)]
  refine ⟨?_, ?_, ?_, walk_of_unlimited.1, ?_, ?_, ?_⟩
  · intro es hes
    refine ⟨(collected_of_ok hes).symm, ?_, hbeyond⟩
    intro hroom
    rw [hentries, if_pos hroom, hes]
  · intro e he
    refine ⟨?_, ?_, hbeyond⟩
    · rintro rfl
      exact unlimitedEntries_ne_limitExceeded _ he
    · intro hroom
      rw [hentries, if_pos hroom, he]
  · intro more hroom
    rw [walk_of_unlimited.2, if_pos hroom]
  · exact staysWithin_of_capped fun _ => walk_capped (Nat.le_refl m)
  · intro offset
    exact staysWithin_of_capped fun _ => walkDescriptors_capped (Nat.le_refl m) offset
  · intro library offset
    exact staysWithin_of_capped fun _ => walkThunks_capped (Nat.le_refl m) offset

/-- Two descriptors that share their library and its thunks, two ordinals. -/
def sharedThunks : ImportDirectory where
  bytes := #[40, 16, 0, 0, 0, 0, 0, 0, 0, 0, 0, 0, 52, 16, 0, 0, 0, 0, 0, 0,
    40, 16, 0, 0, 0, 0, 0, 0, 0, 0, 0, 0, 52, 16, 0, 0, 0, 0, 0, 0,
    7, 0, 0, 0x80, 9, 0, 0, 0x80, 0, 0, 0, 0, 0x64, 0]
  directoryRva := 0x1000
  sectionRva := 0x1000
  words := .bits32

/-- A table whose second thunk is cut off by the end of the section. -/
def cutThunks : ImportDirectory where
  bytes := #[20, 16, 0, 0, 0, 0, 0, 0, 0, 0, 0, 0, 24, 16, 0, 0, 0, 0, 0, 0,
    7, 0, 0, 0x80, 0x64, 0]
  directoryRva := 0x1000
  sectionRva := 0x1000
  words := .bits32

theorem import_limit_exact_shared :
    (∃ es, es.length = 4 ∧ sharedThunks.entries { maxImports := 4 } = .ok es ∧
      sharedThunks.entries { maxImports := 3 } = .error (.limitExceeded .importEntries)) ∧
    cutThunks.entries { maxImports := 1 } = .error (.truncated 24 4 2) ∧
    cutThunks.entries { maxImports := 0 } = .error (.limitExceeded .importEntries) := by
  have hcut : unlimitedEntries cutThunks = .error (.truncated 24 4 2) := by decide +kernel
  have hone : (allCollected cutThunks).length = 1 := by decide +kernel
  have hfour : (allCollected sharedThunks).length = 4 := by decide +kernel
  have hshared : unlimitedEntries sharedThunks = .ok (allCollected sharedThunks) := by
    decide +kernel
  have hwhole (m : UInt64) := (import_limit_exact sharedThunks { maxImports := m }).1 _ hshared
  have hbroken (m : UInt64) := (import_limit_exact cutThunks { maxImports := m }).2.1 _ hcut
  refine ⟨⟨_, hfour, (hwhole 4).2.1 ?_, (hwhole 3).2.2 ?_⟩, (hbroken 1).2.1 ?_,
    (hbroken 0).2.2 ?_⟩
  · rw [hfour]
    decide
  · rw [hfour]
    decide
  · rw [hone]
    decide
  · rw [hone]
    decide

end Hallmark.Proofs
