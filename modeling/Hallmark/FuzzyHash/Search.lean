import Hallmark.FuzzyHash.Pass
import Hallmark.Source

/-!
# Fuzzy digests

The digest of a source is taken at the largest block size, from the initial one downwards, at which a pass closes
at least 32 pieces.  Short inputs have no digest.
-/

namespace Hallmark.FuzzyHash

/-- Inputs with fewer bytes have no digest. -/
def minLength : UInt64 := 4096

inductive Failure where
  | source (fault : SourceFault)
  | blockSizeTooSmall (size minimum : UInt64)
  deriving Repr, DecidableEq

def Failure.message : Failure → String
  | .source fault => "I/O error: " ++ fault.message
  | .blockSizeTooSmall size minimum =>
    "Fuzzy hash block size " ++ toString size.toNat ++ " is below the minimum of " ++ toString minimum.toNat

/-- A search between two passes: the block size of the next pass, the state that the last one left behind, and the
source. -/
structure Search where
  size : UInt64
  pass : Pass
  source : Source

namespace Search

/-- Where a turn of the search leads: to a result, beside the source as it was left, or to another turn. -/
inductive Turn where
  | done (result : Except Failure Digest) (source : Source)
  | again (next : Search)

/-- One turn: a pass over the source, and after it half the block size when it closed too few pieces.  The source is
rewound first, also when the block size is too small for a pass. -/
def turn (t : Search) : Turn :=
  match t.source.rewind with
  | (.error fault, s) => .done (.error (.source fault)) s
  | (.ok (), s) =>
    if t.size < minBlockSize then .done (.error (.blockSizeTooSmall t.size minBlockSize)) s
    else
      match s.fold (Pass.step t.size) t.pass.rewound with
      | (.error fault, s) => .done (.error (.source fault)) s
      | (.ok pass, s) =>
        if pass.letters1.size < maxPieces / 2 then .again ⟨t.size / 2, pass.discarded, s⟩
        else .done (.ok (pass.finish t.size)) s

theorem turn_again {t next : Search} (h : t.turn = .again next) :
    ¬t.size < minBlockSize ∧ next.size = t.size / 2 := by
  unfold turn at h
  split at h
  · cases h
  · split at h
    · cases h
    · next large =>
      split at h
      · cases h
      · split at h
        · cases h
          exact ⟨large, rfl⟩
        · cases h

/-- Takes turns until there is a result. -/
def result (t : Search) : Except Failure Digest × Source :=
  match _h : t.turn with
  | .done result s => (result, s)
  | .again next => next.result
termination_by t.size.toNat
decreasing_by
  obtain ⟨large, half⟩ := turn_again _h
  have : 3 ≤ t.size.toNat := by
    simpa [minBlockSize, UInt64.lt_iff_toNat_lt] using large
  rw [half, UInt64.toNat_div]
  exact Nat.div_lt_self (by omega) (by decide)

end Search

/-- The digest of a source that is said to hold `len` bytes, and the source as it was left. -/
def run (s : Source) (len : UInt64) : Except Failure (Option Digest) × Source :=
  if len < minLength then (.ok none, s)
  else
    match Search.result ⟨initialBlockSize len, .fresh, s⟩ with
    | (.ok digest, s) => (.ok (some digest), s)
    | (.error failure, s) => (.error failure, s)

/-- The digest of a source that is said to hold `len` bytes; `none` when that is too short. -/
def ofSource (s : Source) (len : UInt64) : Except Failure (Option Digest) := (run s len).1

def ofBytes (data : Bytes) : Except Failure (Option Digest) :=
  ofSource (.ofBytes data) (UInt64.ofNat data.size)

end Hallmark.FuzzyHash
