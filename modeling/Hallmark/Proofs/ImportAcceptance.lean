import Hallmark.Proofs.ImportGrammar

/-!
# The walk over an import table accepts its grammar

Each turn of the two loops of the walk is a read of what stands at one place. The walk gives the
entries of a section that holds a table, and the first fault of any other.
-/

namespace Hallmark.Proofs
open Pe
variable {dir : ImportDirectory} {limit offset : Nat} {e : Error}

/-! ## Thunks -/

/-- What stands at the place of a thunk, or nothing behind the last one. -/
def readThunk (dir : ImportDirectory) (offset : Nat) : Except Error (Option ImportTarget) :=
  if dir.bytes.size ≤ offset then .ok none
  else dir.pointer offset >>= fun thunk =>
    if thunk = 0 then .ok none else dir.target thunk >>= fun target => .ok (some target)

section Thunks
variable {library : Bytes} {target : ImportTarget}

lemma pointer_ok_iff {thunk : Nat} : dir.pointer offset = .ok thunk ↔ thunk? dir offset = some thunk :=
  checked_ok

lemma pointer_error :
    dir.pointer offset = .error e ↔ dir.bytes.size < offset + dir.words.octets ∧
      e = .truncated offset dir.words.octets (dir.bytes.size - offset) := by
  rw [ImportDirectory.pointer, Bytes.nat?, Bytes.slice?]
  split_ifs with hfits
  · simp [checked, Nat.not_lt.mpr hfits]
  · simp [checked, Nat.lt_of_not_le hfits, eq_comm]

lemma thunk?_inside {thunk : Nat} (h : thunk? dir offset = some thunk) :
    offset < dir.bytes.size := by
  have hpos := dir.words.octets_pos
  rw [thunk?, Bytes.nat?, Option.map_eq_some_iff] at h
  obtain ⟨bytes, hslice, -⟩ := h
  rw [Bytes.slice?] at hslice
  split_ifs at hslice with hin
  omega

lemma readThunk_of_thunk? {thunk : Nat} (h : thunk? dir offset = some thunk) :
    readThunk dir offset =
      if thunk = 0 then .ok none else dir.target thunk >>= fun target => .ok (some target) := by
  have hin := thunk?_inside h
  rw [readThunk, if_neg (Nat.not_le.mpr hin), pointer_ok_iff.mpr h]
  rfl

lemma readThunk_none : readThunk dir offset = .ok none ↔ ThunksEnd dir offset := by
  constructor
  · intro h
    by_cases hout : dir.bytes.size ≤ offset
    · exact .inl hout
    · rw [readThunk, if_neg hout, bind_ok] at h
      obtain ⟨thunk, hthunk, hrest⟩ := h
      by_cases hzero : thunk = 0
      · exact .inr (hzero ▸ pointer_ok_iff.mp hthunk)
      · rw [if_neg hzero, bind_ok] at hrest
        obtain ⟨target, -, hsome⟩ := hrest
        simp at hsome
  · rintro (hout | hzero)
    · rw [readThunk, if_pos hout]
    · rw [readThunk_of_thunk? hzero, if_pos rfl]

lemma readThunk_some : readThunk dir offset = .ok (some target) ↔ ThunkAt dir offset target := by
  constructor
  · intro h
    by_cases hout : dir.bytes.size ≤ offset
    · simp [readThunk, hout] at h
    · rw [readThunk, if_neg hout, bind_ok] at h
      obtain ⟨thunk, hthunk, hrest⟩ := h
      have hvalue := pointer_ok_iff.mp hthunk
      by_cases hzero : thunk = 0
      · simp [hzero] at hrest
      · rw [if_neg hzero, bind_ok] at hrest
        obtain ⟨found, hfound, hsome⟩ := hrest
        obtain rfl : found = target := by simpa using hsome
        exact ⟨thunk, hvalue, hzero, (target_ok (nat?_lt hvalue)).mp hfound⟩
  · rintro ⟨thunk, hvalue, hne, hmeans⟩
    rw [readThunk_of_thunk? hvalue, if_neg hne, (target_ok (nat?_lt hvalue)).mpr hmeans]
    rfl

lemma readThunk_error :
    readThunk dir offset = .error e ↔
      (offset < dir.bytes.size ∧ dir.bytes.size < offset + dir.words.octets ∧
        e = .truncated offset dir.words.octets (dir.bytes.size - offset)) ∨
      ∃ thunk, thunk? dir offset = some thunk ∧ thunk ≠ 0 ∧ ¬thunk.testBit (ordinalBit dir) ∧
        NameFault dir (UInt32.ofNat thunk) 2 e := by
  constructor
  · intro h
    by_cases hout : dir.bytes.size ≤ offset
    · simp [readThunk, hout] at h
    · have hin := Nat.lt_of_not_le hout
      rw [readThunk, if_neg hout, bind_error] at h
      obtain hpartial | ⟨thunk, hthunk, hrest⟩ := h
      · exact .inl ⟨hin, pointer_error.mp hpartial⟩
      · have hvalue := pointer_ok_iff.mp hthunk
        by_cases hzero : thunk = 0
        · simp [hzero] at hrest
        · rw [if_neg hzero, bind_error, target_error (nat?_lt hvalue)] at hrest
          obtain ⟨hbit, hname⟩ | ⟨found, -, hok⟩ := hrest
          · exact .inr ⟨thunk, hvalue, hzero, hbit, hname⟩
          · simp at hok
  · rintro (⟨hin, hout⟩ | ⟨thunk, hvalue, hne, hname⟩)
    · rw [readThunk, if_neg (Nat.not_le.mpr hin), pointer_error.mpr hout]
      rfl
    · rw [readThunk_of_thunk? hvalue, if_neg hne, (target_error (nat?_lt hvalue)).mpr hname]
      rfl

/-- A turn of the loop over thunks; true if there is another one. -/
def thunkTurn (dir : ImportDirectory) (limit : Nat) (library : Bytes) (offset : Nat) :
    ImportDirectory.Walk Bool := fun acc =>
  match readThunk dir offset with
  | .error e => .error e acc
  | .ok none => .ok false acc
  | .ok (some target) =>
    if limit ≤ acc.size then .error (.limitExceeded .importEntries) acc
    else .ok true (acc.push ⟨library, target⟩)

lemma run_thunkTurn (acc : Array ImportEntry) :
    (thunkTurn dir limit library offset).run acc =
      match readThunk dir offset with
      | .error e => .error e acc
      | .ok none => .ok false acc
      | .ok (some target) =>
        if limit ≤ acc.size then .error (.limitExceeded .importEntries) acc
        else .ok true (acc.push ⟨library, target⟩) := rfl

lemma walkThunks_turn :
    dir.walkThunks limit library offset = thunkTurn dir limit library offset >>= fun more =>
      if more then dir.walkThunks limit library (offset + dir.words.octets) else pure () := by
  funext acc
  change EStateM.run _ acc = EStateM.run _ acc
  rw [ImportDirectory.walkThunks, EStateM.run_bind, run_thunkTurn, readThunk]
  by_cases hout : dir.bytes.size ≤ offset
  · rw [if_neg (Nat.not_lt.mpr hout), if_pos hout]
    rfl
  · rw [if_pos (Nat.lt_of_not_le hout), if_neg hout]
    rcases dir.pointer offset with e | thunk
    · rfl
    · rw [ofExcept_ok_bind, except_ok_bind]
      by_cases hzero : thunk = 0
      · rw [if_neg (not_not_intro hzero), if_pos hzero]
        rfl
      · rw [if_pos hzero, if_neg hzero]
        rcases dir.target thunk with e | target
        · rfl
        · rw [ofExcept_ok_bind, except_ok_bind, EStateM.run_bind, EStateM.run_get]
          by_cases hfull : limit ≤ acc.size
          · simp only [if_pos hfull]
            rfl
          · simp only [if_neg hfull]
            rfl

lemma strides_thunks :
    Strides (thunkTurn dir limit library) (dir.walkThunks limit library) dir.words.octets
      dir.bytes.size where
  turn o := walkThunks_turn
  inside o s t h := by
    by_contra hout
    have hnone : readThunk dir o = .ok none := readThunk_none.mpr (.inl (Nat.le_of_not_lt hout))
    simp [thunkTurn, EStateM.run, hnone] at h
  pos := dir.words.octets_pos

lemma thunkFault_iff {count : Nat} :
    ThunkFault dir limit count offset e ↔ readThunk dir offset = .error e ∨
      ∃ target, readThunk dir offset = .ok (some target) ∧ limit ≤ count ∧
        e = .limitExceeded .importEntries := by
  simp only [readThunk_error, readThunk_some]
  constructor
  · intro h
    cases h with
    | cutOff hin h => exact .inl (.inl ⟨hin, h, rfl⟩)
    | name hthunk hne hbit h => exact .inl (.inr ⟨_, hthunk, hne, hbit, h⟩)
    | limit hthunk h => exact .inr ⟨_, hthunk, h, rfl⟩
  · rintro ((⟨hin, h, rfl⟩ | ⟨thunk, hthunk, hne, hbit, h⟩) | ⟨target, hthunk, h, rfl⟩)
    · exact .cutOff hin h
    · exact .name hthunk hne hbit h
    · exact .limit hthunk h

lemma collects_thunks :
    Collects (thunkTurn dir limit library) limit (ThunkAt dir)
      (fun target => [⟨library, target⟩]) (ThunksEnd dir)
      (fun count o found e => found = [] ∧ ThunkFault dir limit count o e) where
  more o s t hs := by
    simp only [run_thunkTurn, ← readThunk_some]
    rcases readThunk dir o with e | _ | target
    · simp
    · simp
    · by_cases hfull : limit ≤ s.size
      · have hnone : ¬s.size + 1 ≤ limit := by omega
        simp [hfull, hnone]
      · have hroom : s.size + 1 ≤ limit := by omega
        simp [hfull, hroom, eq_comm]
  done o s t hs := by
    simp only [run_thunkTurn, ← readThunk_none]
    rcases readThunk dir o with e | _ | target
    · simp
    · simp [eq_comm]
    · by_cases hfull : limit ≤ s.size <;> simp [hfull]
  fails o s e t hs := by
    simp only [run_thunkTurn, thunkFault_iff]
    rcases readThunk dir o with e | _ | target
    · simp [eq_comm]
    · simp
    · by_cases hfull : limit ≤ s.size <;> simp [hfull, eq_comm]

lemma flatMap_targets (targets : List ImportTarget) :
    targets.flatMap (fun target => [⟨library, target⟩]) =
      (LibraryImports.mk library targets).entries := by
  rw [LibraryImports.entries, List.map_eq_flatMap]

lemma walkThunks_ok {acc t : Array ImportEntry} (hacc : acc.size ≤ limit) :
    (dir.walkThunks limit library offset).run acc = .ok () t ↔
      ∃ targets, ThunksAt dir offset targets ∧ acc.size + targets.length ≤ limit ∧
        t = acc ++ (LibraryImports.mk library targets).entries.toArray := by
  rw [strides_thunks.run_ok_iff collects_thunks hacc]
  simp only [flatMap_targets, length_entries]
  constructor
  · rintro ⟨targets, hthunks, hstop, hlimit, rfl⟩
    exact ⟨targets, ⟨hthunks, hstop⟩, hlimit, rfl⟩
  · rintro ⟨targets, ⟨hthunks, hstop⟩, hlimit, rfl⟩
    exact ⟨targets, hthunks, hstop, hlimit, rfl⟩

lemma walkThunks_error {acc t : Array ImportEntry} (hacc : acc.size ≤ limit) :
    (dir.walkThunks limit library offset).run acc = .error e t ↔
      ∃ targets, Strided (ThunkAt dir) dir.words.octets offset targets ∧
        acc.size + targets.length ≤ limit ∧
        ThunkFault dir limit (acc.size + targets.length)
          (offset + dir.words.octets * targets.length) e ∧
        t = acc ++ (LibraryImports.mk library targets).entries.toArray := by
  rw [strides_thunks.run_error_iff collects_thunks hacc]
  simp only [flatMap_targets, length_entries]
  constructor
  · rintro ⟨targets, found, hthunks, hlimit, ⟨rfl, hfault⟩, rfl⟩
    exact ⟨targets, hthunks, hlimit, hfault, by rw [List.append_nil]⟩
  · rintro ⟨targets, hthunks, hlimit, hfault, rfl⟩
    exact ⟨targets, [], hthunks, hlimit, ⟨rfl, hfault⟩, by rw [List.append_nil]⟩

end Thunks

/-! ## Descriptors -/

/-- What stands at the place of a descriptor: the name of a library and the place of its thunks, or
nothing behind the last descriptor. -/
def readDescriptor (dir : ImportDirectory) (offset : Nat) : Except Error (Option (Bytes × Nat)) :=
  if offset + 20 ≤ dir.bytes.size then
    u32 dir.bytes offset >>= fun lookup =>
      if lookup = 0 then .ok none
      else u32 dir.bytes (offset + 12) >>= fun name =>
        readName dir name 0 >>= fun library =>
          rvaOffset lookup dir.sectionRva >>= fun thunks => .ok (some (library, thunks))
  else .ok none

section Descriptors

lemma u32?_inside {data : Bytes} (h : offset + 4 ≤ data.size) :
    ∃ n, Bytes.u32? data offset = some n := by
  simp [Bytes.u32?, Bytes.nat?, Bytes.slice?, h]

lemma SlotAt.read {lookup name : UInt32} (h : SlotAt dir offset lookup name) :
    readDescriptor dir offset = readName dir name 0 >>= fun library =>
      rvaOffset lookup dir.sectionRva >>= fun thunks => .ok (some (library, thunks)) := by
  rw [readDescriptor, if_pos h.inside, u32_ok.mpr h.lookupRva, except_ok_bind, if_neg h.used,
    u32_ok.mpr h.nameRva, except_ok_bind]

/-- Either the descriptors end, or there is a slot. -/
lemma descriptorsEnd_or_slotAt (dir : ImportDirectory) (offset : Nat) :
    (DescriptorsEnd dir offset ∧ readDescriptor dir offset = .ok none) ∨
      ∃ lookup name, SlotAt dir offset lookup name := by
  by_cases hin : offset + 20 ≤ dir.bytes.size
  · obtain ⟨lookup, hlookup⟩ := u32?_inside (show offset + 4 ≤ dir.bytes.size by omega)
    obtain ⟨name, hname⟩ := u32?_inside (show offset + 12 + 4 ≤ dir.bytes.size by omega)
    by_cases hzero : lookup = 0
    · refine .inl ⟨.inr (hzero ▸ hlookup), ?_⟩
      rw [readDescriptor, if_pos hin, u32_ok.mpr hlookup, except_ok_bind, if_pos hzero]
    · exact .inr ⟨lookup, name, hin, hlookup, hzero, hname⟩
  · refine .inl ⟨.inl (Nat.lt_of_not_le hin), ?_⟩
    rw [readDescriptor, if_neg hin]

lemma SlotAt.not_end {lookup name : UInt32} (h : SlotAt dir offset lookup name) :
    ¬DescriptorsEnd dir offset := by
  have hinside := h.inside
  rintro (hout | hzero)
  · omega
  · exact h.used (Option.some.inj (h.lookupRva.symm.trans hzero))

lemma readDescriptor_none : readDescriptor dir offset = .ok none ↔ DescriptorsEnd dir offset := by
  obtain ⟨hend, hread⟩ | ⟨lookup, name, hslot⟩ := descriptorsEnd_or_slotAt dir offset
  · exact iff_of_true hread hend
  · refine iff_of_false ?_ hslot.not_end
    rw [hslot.read, bind_ok]
    rintro ⟨library, -, hrest⟩
    obtain ⟨thunks, -, hsome⟩ := bind_ok.mp hrest
    simp at hsome

lemma readDescriptor_some {library : Bytes} {thunks : Nat} :
    readDescriptor dir offset = .ok (some (library, thunks)) ↔
      ∃ lookup name, SlotAt dir offset lookup name ∧ NamedAt dir name 0 library ∧
        dir.sectionRva ≤ lookup ∧ thunks = place dir lookup := by
  constructor
  · intro h
    obtain ⟨-, hread⟩ | ⟨lookup, name, hslot⟩ := descriptorsEnd_or_slotAt dir offset
    · simp [hread] at h
    · rw [hslot.read, bind_ok] at h
      obtain ⟨found, hfound, hrest⟩ := h
      obtain ⟨start, hstart, hsome⟩ := bind_ok.mp hrest
      obtain ⟨rfl, rfl⟩ : found = library ∧ start = thunks := by simpa using hsome
      obtain ⟨habove, rfl⟩ := rvaOffset_ok.mp hstart
      exact ⟨lookup, name, hslot, readName_ok.mp hfound, habove, rfl⟩
  · rintro ⟨lookup, name, hslot, hlibrary, habove, rfl⟩
    rw [hslot.read, readName_ok.mpr hlibrary, except_ok_bind, rvaOffset_ok.mpr ⟨habove, rfl⟩]
    rfl

lemma readDescriptor_error :
    readDescriptor dir offset = .error e ↔
      ∃ lookup name, SlotAt dir offset lookup name ∧ (NameFault dir name 0 e ∨
        ∃ library, NamedAt dir name 0 library ∧ lookup < dir.sectionRva ∧
          e = .invalidRva lookup) := by
  constructor
  · intro h
    obtain ⟨-, hread⟩ | ⟨lookup, name, hslot⟩ := descriptorsEnd_or_slotAt dir offset
    · simp [hread] at h
    · refine ⟨lookup, name, hslot, ?_⟩
      rw [hslot.read, bind_error] at h
      obtain hname | ⟨library, hlibrary, hrest⟩ := h
      · exact .inl (readName_error.mp hname)
      · obtain hbelow | ⟨thunks, -, hok⟩ := bind_error.mp hrest
        · exact .inr ⟨library, readName_ok.mp hlibrary, rvaOffset_error.mp hbelow⟩
        · simp at hok
  · rintro ⟨lookup, name, hslot, hname | ⟨library, hlibrary, hbelow⟩⟩
    · rw [hslot.read, readName_error.mpr hname]
      rfl
    · rw [hslot.read, readName_ok.mpr hlibrary, except_ok_bind, rvaOffset_error.mpr hbelow]
      rfl

/-- A turn of the loop over descriptors; true if there is another one. -/
def descriptorTurn (dir : ImportDirectory) (limit offset : Nat) : ImportDirectory.Walk Bool :=
  ofExcept (readDescriptor dir offset) >>= fun
    | none => pure false
    | some (library, thunks) => dir.walkThunks limit library thunks >>= fun _ => pure true

lemma walkDescriptors_turn :
    dir.walkDescriptors limit offset = descriptorTurn dir limit offset >>= fun more =>
      if more then dir.walkDescriptors limit (offset + 20) else pure () := by
  rw [ImportDirectory.walkDescriptors, descriptorTurn, bind_assoc, readDescriptor]
  by_cases hin : offset + 20 ≤ dir.bytes.size
  · rw [if_pos (show offset + ImportDirectory.descriptorSize ≤ dir.bytes.size from hin), if_pos hin]
    rcases u32 dir.bytes offset with e | lookup
    · rfl
    · rw [ofExcept_ok_bind, except_ok_bind]
      by_cases hzero : lookup = 0
      · rw [if_neg (not_not_intro hzero), if_pos hzero]
        rfl
      · rw [if_pos hzero, if_neg hzero]
        rcases u32 dir.bytes (offset + 12) with e | name
        · rfl
        · rw [ofExcept_ok_bind, except_ok_bind]
          change (ofExcept (readName dir name 0) >>= _) = _
          rcases readName dir name 0 with e | library
          · rfl
          · rw [ofExcept_ok_bind, except_ok_bind]
            rcases rvaOffset lookup dir.sectionRva with e | thunks
            · rfl
            · rw [ofExcept_ok_bind, except_ok_bind, ofExcept_ok_bind]
              simp only [bind_assoc, pure_bind]
              rfl
  · rw [if_neg (show ¬offset + ImportDirectory.descriptorSize ≤ dir.bytes.size from hin), if_neg hin]
    rfl

lemma strides_descriptors :
    Strides (descriptorTurn dir limit) (dir.walkDescriptors limit) 20 dir.bytes.size where
  turn o := walkDescriptors_turn
  inside o s t h := by
    by_contra hout
    have hnone : readDescriptor dir o = .ok none := readDescriptor_none.mpr (.inl (by omega))
    rw [descriptorTurn, hnone] at h
    cases h
  pos := by decide

lemma run_descriptorTurn {acc : Array ImportEntry} :
    (descriptorTurn dir limit offset).run acc =
      match readDescriptor dir offset with
      | .error e => .error e acc
      | .ok none => .ok false acc
      | .ok (some (library, thunks)) =>
        (dir.walkThunks limit library thunks >>= fun _ => pure true).run acc := by
  rw [descriptorTurn, EStateM.run_bind, run_ofExcept]
  rcases readDescriptor dir offset with e | _ | ⟨library, thunks⟩ <;> rfl

lemma descriptorFault_iff {count : Nat} {found : List ImportEntry} :
    DescriptorFault dir limit count offset found e ↔
      (readDescriptor dir offset = .error e ∧ found = []) ∨
      ∃ library thunks targets, readDescriptor dir offset = .ok (some (library, thunks)) ∧
        Strided (ThunkAt dir) dir.words.octets thunks targets ∧ count + targets.length ≤ limit ∧
        ThunkFault dir limit (count + targets.length)
          (thunks + dir.words.octets * targets.length) e ∧
        found = (LibraryImports.mk library targets).entries := by
  simp only [readDescriptor_error, readDescriptor_some]
  constructor
  · intro h
    cases h with
    | library hslot h => exact .inl ⟨⟨_, _, hslot, .inl h⟩, rfl⟩
    | lookup hslot hlibrary h => exact .inl ⟨⟨_, _, hslot, .inr ⟨_, hlibrary, h, rfl⟩⟩, rfl⟩
    | thunk hslot hlibrary habove hthunks hlimit h =>
      exact .inr ⟨_, _, _, ⟨_, _, hslot, hlibrary, habove, rfl⟩, hthunks, hlimit, h, rfl⟩
  · rintro (⟨⟨lookup, name, hslot, hname | ⟨library, hlibrary, h, rfl⟩⟩, rfl⟩ |
      ⟨library, _, targets, ⟨lookup, name, hslot, hlibrary, habove, rfl⟩, hthunks, hlimit, h, rfl⟩)
    · exact .library hslot hname
    · exact .lookup hslot hlibrary h
    · exact .thunk hslot hlibrary habove hthunks hlimit h

lemma descriptorAt_iff {l : LibraryImports} :
    DescriptorAt dir offset l ↔ ∃ thunks, readDescriptor dir offset = .ok (some (l.library, thunks)) ∧
      ThunksAt dir thunks l.targets := by
  simp only [readDescriptor_some]
  constructor
  · rintro ⟨lookup, name, hslot, hlibrary, habove, hthunks⟩
    exact ⟨_, ⟨lookup, name, hslot, hlibrary, habove, rfl⟩, hthunks⟩
  · rintro ⟨_, ⟨lookup, name, hslot, hlibrary, habove, rfl⟩, hthunks⟩
    exact ⟨lookup, name, hslot, hlibrary, habove, hthunks⟩

lemma collects_descriptors :
    Collects (descriptorTurn dir limit) limit (DescriptorAt dir) LibraryImports.entries
      (DescriptorsEnd dir) (DescriptorFault dir limit) where
  more o s t hs := by
    simp only [run_descriptorTurn, descriptorAt_iff, length_entries]
    rcases readDescriptor dir o with e | _ | ⟨library, thunks⟩
    · simp
    · simp
    · simp only [run_bind_ok]
      constructor
      · rintro ⟨_, u, hwalk, hlast⟩
        cases hlast
        obtain ⟨targets, hthunks, hlimit, rfl⟩ := (walkThunks_ok hs).mp hwalk
        exact ⟨⟨library, targets⟩, ⟨thunks, rfl, hthunks⟩, hlimit, rfl⟩
      · rintro ⟨l, ⟨_, heq, hthunks⟩, hlimit, rfl⟩
        cases heq
        exact ⟨(), _, (walkThunks_ok hs).mpr ⟨l.targets, hthunks, hlimit, rfl⟩, rfl⟩
  done o s t hs := by
    simp only [run_descriptorTurn, ← readDescriptor_none]
    rcases readDescriptor dir o with e | _ | ⟨library, thunks⟩
    · simp
    · simp [eq_comm]
    · simp only [run_bind_ok]
      constructor
      · rintro ⟨_, u, -, hlast⟩
        cases hlast
      · rintro ⟨heq, -⟩
        cases heq
  fails o s e t hs := by
    simp only [run_descriptorTurn, descriptorFault_iff]
    rcases readDescriptor dir o with e' | _ | ⟨library, thunks⟩
    · simp [eq_comm]
    · simp
    · simp only [run_bind_error]
      constructor
      · rintro (hwalk | ⟨_, u, -, hlast⟩)
        · obtain ⟨targets, hthunks, hlimit, hfault, rfl⟩ := (walkThunks_error hs).mp hwalk
          exact ⟨_, .inr ⟨library, thunks, targets, rfl, hthunks, hlimit, hfault, rfl⟩, rfl⟩
        · cases hlast
      · rintro ⟨found, ⟨heq, -⟩ | ⟨_, _, targets, heq, hthunks, hlimit, hfault, rfl⟩, rfl⟩
        · cases heq
        · cases heq
          exact .inl ((walkThunks_error hs).mpr ⟨targets, hthunks, hlimit, hfault, rfl⟩)

lemma walkDescriptors_ok {t : Array ImportEntry} :
    (dir.walkDescriptors limit offset).run #[] = .ok () t ↔
      ∃ ls, Strided (DescriptorAt dir) 20 offset ls ∧ DescriptorsEnd dir (offset + 20 * ls.length) ∧
        (tableEntries ls).length ≤ limit ∧ t.toList = tableEntries ls := by
  rw [strides_descriptors.run_ok_iff collects_descriptors (Nat.zero_le _)]
  simp [tableEntries, ← Array.toList_inj]

lemma walkDescriptors_error {t : Array ImportEntry} :
    (dir.walkDescriptors limit offset).run #[] = .error e t ↔
      ∃ ls found, Strided (DescriptorAt dir) 20 offset ls ∧ (tableEntries ls).length ≤ limit ∧
        DescriptorFault dir limit (tableEntries ls).length (offset + 20 * ls.length) found e ∧
        t.toList = tableEntries ls ++ found := by
  rw [strides_descriptors.run_error_iff collects_descriptors (Nat.zero_le _)]
  simp [tableEntries, ← Array.toList_inj]

end Descriptors

/-! ## Tables -/

section Tables
variable {options : Options}

lemma entries_ok {es : List ImportEntry} :
    dir.entries options = .ok es ↔
      ∃ t, (dir.walk options.maxImports.toNat).run #[] = .ok () t ∧ t.toList = es := by
  rw [ImportDirectory.entries]
  rcases (dir.walk options.maxImports.toNat).run #[] with ⟨_, t⟩ | ⟨e, t⟩ <;> simp

lemma entries_error :
    dir.entries options = .error e ↔
      ∃ t, (dir.walk options.maxImports.toNat).run #[] = .error e t := by
  rw [ImportDirectory.entries]
  rcases (dir.walk options.maxImports.toNat).run #[] with ⟨_, t⟩ | ⟨e, t⟩ <;> simp

/-- The walk begins at the place of the directory, which may be the end of the section. -/
lemma run_walk :
    (dir.walk limit).run #[] =
      if dir.directoryRva < dir.sectionRva then .error (.invalidRva dir.directoryRva) #[]
      else if dir.bytes.size < place dir dir.directoryRva then
        .error (.invalidOffset (place dir dir.directoryRva)) #[]
      else (dir.walkDescriptors limit (place dir dir.directoryRva)).run #[] := by
  rw [ImportDirectory.walk]
  by_cases hbelow : dir.directoryRva < dir.sectionRva
  · rw [rvaOffset_error.mpr ⟨hbelow, rfl⟩, if_pos hbelow]
    rfl
  · have hplace : rvaOffset dir.directoryRva dir.sectionRva = .ok (place dir dir.directoryRva) :=
      rvaOffset_ok.mpr ⟨UInt32.not_lt.mp hbelow, rfl⟩
    rw [hplace, ofExcept_ok_bind, if_neg hbelow]
    dsimp only
    split_ifs with hout <;> rfl

lemma entries_ok_iff {es : List ImportEntry} :
    dir.entries options = .ok es ↔ ∃ ls, ImportTable dir ls ∧
      (tableEntries ls).length ≤ options.maxImports.toNat ∧ es = tableEntries ls := by
  rw [entries_ok, run_walk]
  split_ifs with hbelow hout
  · refine iff_of_false (by simp) ?_
    rintro ⟨ls, htable, -⟩
    exact UInt32.not_lt.mpr htable.above hbelow
  · refine iff_of_false (by simp) ?_
    rintro ⟨ls, htable, -⟩
    exact Nat.not_lt.mpr htable.inside hout
  · constructor
    · rintro ⟨t, hrun, rfl⟩
      obtain ⟨ls, hdescriptors, hend, hlimit, ht⟩ := walkDescriptors_ok.mp hrun
      exact ⟨ls, ⟨UInt32.not_lt.mp hbelow, Nat.le_of_not_lt hout, hdescriptors, hend⟩, hlimit, ht⟩
    · rintro ⟨ls, htable, hlimit, rfl⟩
      refine ⟨(tableEntries ls).toArray, ?_, rfl⟩
      exact walkDescriptors_ok.mpr ⟨ls, htable.descriptors, htable.descriptorsEnd, hlimit, rfl⟩

lemma entries_error_iff :
    dir.entries options = .error e ↔ TableFault dir options.maxImports.toNat e := by
  rw [entries_error, run_walk]
  constructor
  · rintro ⟨t, hrun⟩
    split_ifs at hrun with hbelow hout
    · cases hrun
      exact .below hbelow
    · cases hrun
      exact .outside (UInt32.not_lt.mp hbelow) hout
    · obtain ⟨ls, found, hdescriptors, hlimit, hfault, -⟩ := walkDescriptors_error.mp hrun
      exact .descriptor (UInt32.not_lt.mp hbelow) (Nat.le_of_not_lt hout) hdescriptors hlimit hfault
  · intro h
    cases h with
    | below h =>
      rw [if_pos h]
      exact ⟨_, rfl⟩
    | outside habove h =>
      rw [if_neg (UInt32.not_lt.mpr habove), if_pos h]
      exact ⟨_, rfl⟩
    | @descriptor ls found e habove hinside hdescriptors hlimit h =>
      rw [if_neg (UInt32.not_lt.mpr habove), if_neg (Nat.not_lt.mpr hinside)]
      refine ⟨(tableEntries ls ++ found).toArray, ?_⟩
      exact walkDescriptors_error.mpr ⟨ls, found, hdescriptors, hlimit, h, rfl⟩

/-- The bytes of each name in a table are a text of the section. -/
lemma ImportTable.textAt {ls : List LibraryImports} (h : ImportTable dir ls) {entry : ImportEntry}
    (hentry : entry ∈ tableEntries ls) {raw : Bytes}
    (hraw : raw = entry.rawLibrary ∨ entry.rawName? = some raw) :
    ∃ o, TextAt dir.bytes o raw := by
  obtain ⟨l, hl, hmem⟩ := List.mem_flatMap.mp hentry
  obtain ⟨target, htarget, rfl⟩ := List.mem_map.mp hmem
  obtain ⟨o, lookup, name, -, hlibrary, -, hthunks⟩ := h.descriptors.of_mem hl
  obtain rfl | hname := hraw
  · exact ⟨_, hlibrary.standing⟩
  · obtain ⟨o', thunk, -, -, hmeans⟩ := hthunks.thunks.of_mem htarget
    cases hmeans with
    | ordinal => simp [ImportEntry.rawName?] at hname
    | name _ hnamed =>
      obtain rfl := Option.some.inj hname
      exact ⟨_, hnamed.standing⟩

/-- The walk succeeds exactly on the tables of the grammar that do not exceed the limit, and gives
their entries in order. All names are texts of the section. On any other section it fails with the
first fault. -/
theorem import_walk_accepts_grammar (dir : ImportDirectory) (options : Options) :
    (∀ es, dir.entries options = .ok es ↔ ∃ ls, ImportTable dir ls ∧
      (tableEntries ls).length ≤ options.maxImports.toNat ∧ es = tableEntries ls) ∧
    (∀ es, dir.entries options = .ok es → ∀ entry ∈ es, ∀ raw,
      raw = entry.rawLibrary ∨ entry.rawName? = some raw → ∃ o, TextAt dir.bytes o raw) ∧
    ∀ e, dir.entries options = .error e ↔ TableFault dir options.maxImports.toNat e := by
  refine ⟨fun es => entries_ok_iff, ?_, fun e => entries_error_iff⟩
  intro es hes entry hentry raw hraw
  obtain ⟨ls, htable, -, rfl⟩ := entries_ok_iff.mp hes
  exact htable.textAt hentry hraw

/-- One library that is asked for an ordinal and a name. The table ends with the section, and the
hint of the name lies in the value that ends the thunks. -/
def crampedTable : ImportDirectory where
  bytes := #[0x14, 0x10, 0, 0, 0, 0, 0, 0, 0, 0, 0, 0, 0x22, 0x10, 0, 0, 0, 0, 0, 0,
    7, 0, 0, 0x80, 0x1e, 0x10, 0, 0, 0, 0, 0, 0, 0x61, 0, 0x64, 0]
  directoryRva := 0x1000
  sectionRva := 0x1000
  words := .bits32

def crampedImports : List LibraryImports := [⟨#[0x64], [.ordinal 7, .name #[0x61]]⟩]

lemma slotAt_cramped : SlotAt crampedTable 0 0x1014 0x1022 :=
  ⟨by decide, by decide, by decide, by decide⟩

lemma library_cramped : NamedAt crampedTable 0x1022 0 #[0x64] :=
  ⟨by decide, textAt_of_slice? (by decide) (by decide)⟩

lemma ordinal_cramped : ThunkAt crampedTable 20 (.ordinal 7) :=
  ⟨0x80000007, by decide, by decide, .ordinal (by decide)⟩

lemma name_cramped : ThunkAt crampedTable 24 (.name #[0x61]) := by
  refine ⟨0x101e, by decide, by decide, .name (by decide) ⟨by decide, ?_⟩⟩
  exact textAt_of_slice? (by decide) (by decide)

lemma importTable_cramped : ImportTable crampedTable crampedImports where
  above := by decide
  inside := by decide
  descriptors := by
    refine strided_cons.mpr ⟨⟨_, _, slotAt_cramped, library_cramped, by decide, ?_⟩, strided_nil⟩
    refine ⟨?_, .inr (by decide)⟩
    exact strided_cons.mpr ⟨ordinal_cramped, strided_cons.mpr ⟨name_cramped, strided_nil⟩⟩
  descriptorsEnd := .inl (by decide)

lemma tableFault_cramped : TableFault crampedTable 1 (.limitExceeded .importEntries) := by
  have hfault : DescriptorFault crampedTable 1 0 0 [⟨#[0x64], .ordinal 7⟩]
      (.limitExceeded .importEntries) :=
    .thunk (l := LibraryImports.mk #[0x64] [.ordinal 7]) slotAt_cramped library_cramped (by decide)
      (strided_cons.mpr ⟨ordinal_cramped, strided_nil⟩) (by decide)
      (.limit name_cramped (by decide))
  have hnone : Strided (DescriptorAt crampedTable) 20 (place crampedTable 0x1000) [] := strided_nil
  exact .descriptor (by decide) (by decide) hnone (by decide) hfault

theorem import_walk_accepts_cramped :
    crampedTable.entries { maxImports := 2 } =
      .ok [⟨#[0x64], .ordinal 7⟩, ⟨#[0x64], .name #[0x61]⟩] ∧
    crampedTable.entries { maxImports := 1 } = .error (.limitExceeded .importEntries) := by
  constructor
  · exact ((import_walk_accepts_grammar crampedTable { maxImports := 2 }).1 _).mpr
      ⟨crampedImports, importTable_cramped, by decide, rfl⟩
  · exact ((import_walk_accepts_grammar crampedTable { maxImports := 1 }).2.2 _).mpr
      tableFault_cramped

end Tables
end Hallmark.Proofs
