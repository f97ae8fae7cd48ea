import Hallmark.Bytes

/-!
# Byte sources

A source is read from its start to its end several times over.  It may hand out its content in pieces of any size,
interrupt a read without consuming anything, or fail.  All of that is data of the source, so a run can be repeated.
-/

namespace Hallmark

/-- How a source answers one read. -/
inductive ReadStep where
  | interrupt
  | give (most : Nat)
  deriving Repr, DecidableEq

/-- The ways in which a source fails. -/
inductive SourceFault where
  | read
  | seek
  deriving Repr, DecidableEq

def SourceFault.message : SourceFault → String
  | .read => "read failed"
  | .seek => "seek failed"

/-- A source that can be rewound.  `script` answers the reads to come, and once it is used up every read is given
all it asks for; `scripts n` is the script in force after `n` earlier seeks.  A read at or past `failRead` fails and
reads never cross that place.  The seek numbered `failSeek`, counted from one, fails. -/
structure Source where
  content : Bytes
  position : Nat
  seeks : Nat
  script : List ReadStep
  scripts : Nat → List ReadStep
  failRead : Option Nat
  failSeek : Option Nat

namespace Source

/-- A source without faults that gives every read all it asks for. -/
def ofBytes (content : Bytes) : Source :=
  ⟨content, 0, 0, [], fun _ => [], none, none⟩

/-- Moves to the start of the content, for the next pass over it. -/
def rewind (s : Source) : Except SourceFault Unit × Source :=
  let moved := { s with seeks := s.seeks + 1 }
  if s.failSeek = some (s.seeks + 1) then (.error .seek, moved)
  else (.ok (), { moved with position := 0, script := s.scripts s.seeks })

inductive Outcome where
  | chunk (bytes : Bytes)
  | interrupted
  | failed

/-- The bytes that a read of at most `most` bytes returns at the current position. -/
def available (s : Source) (most : Nat) : Bytes :=
  let stop := min (s.position + most) s.content.size
  s.content.extract s.position (match s.failRead with | some place => min stop place | none => stop)

/-- Hands out at most `most` bytes and moves behind them. -/
def deliver (s : Source) (most : Nat) : Outcome × Source :=
  if s.failRead.any (· ≤ s.position) then (.failed, s)
  else
    let bytes := s.available most
    (.chunk bytes, { s with position := s.position + bytes.size })

/-- One read into a buffer of `limit` bytes. -/
def read (s : Source) (limit : Nat) : Outcome × Source :=
  match s.script with
  | .interrupt :: script => (.interrupted, { s with script })
  | .give most :: script => deliver { s with script } (min most limit)
  | [] => s.deliver limit

/-- The reads that a source can still answer with an interruption or with bytes. -/
def remaining (s : Source) : Nat := s.script.length + (s.content.size - s.position)

theorem remaining_deliver_lt {s t : Source} {most : Nat} {bytes : Bytes}
    (h : s.deliver most = (.chunk bytes, t)) (some_bytes : bytes.isEmpty = false) :
    t.remaining < s.remaining := by
  unfold deliver at h
  split at h
  · simp at h
  · simp only [Prod.mk.injEq, Outcome.chunk.injEq] at h
    obtain ⟨rfl, rfl⟩ := h
    have positive : 0 < (s.available most).size := by
      rw [Array.isEmpty_eq_false_iff] at some_bytes
      exact Array.size_pos_iff.2 some_bytes
    have inside : s.position + (s.available most).size ≤ s.content.size := by
      simp only [available, Array.size_extract] at positive ⊢
      omega
    simp only [remaining]
    omega

theorem remaining_interrupted {s t : Source} {limit : Nat} (h : s.read limit = (.interrupted, t)) :
    t.remaining < s.remaining := by
  unfold read at h
  split at h
  · next script hs =>
    simp only [Prod.mk.injEq, true_and] at h
    subst h
    simp [remaining, hs]
  · next most script hs =>
    unfold deliver at h
    split at h <;> simp at h
  · unfold deliver at h
    split at h <;> simp at h

theorem remaining_chunk {s t : Source} {limit : Nat} {bytes : Bytes}
    (h : s.read limit = (.chunk bytes, t)) (some_bytes : bytes.isEmpty = false) :
    t.remaining < s.remaining := by
  unfold read at h
  split at h
  · simp at h
  · next most script hs =>
    have := remaining_deliver_lt h some_bytes
    simp only [remaining, hs, List.length_cons] at this ⊢
    omega
  · exact remaining_deliver_lt h some_bytes

/-- The size of the buffer that passes over a source read into. -/
def bufferSize : Nat := 65536

/-- Folds `f` over the bytes from the current position to the end.  Interrupted reads are repeated; a read of no
bytes is the end. -/
def fold {β : Type} (f : β → UInt8 → β) (state : β) (s : Source) : Except SourceFault β × Source :=
  match _h : s.read bufferSize with
  | (.interrupted, t) => fold f state t
  | (.failed, t) => (.error .read, t)
  | (.chunk bytes, t) =>
    if _hb : bytes.isEmpty then (.ok state, t) else fold f (bytes.foldl f state) t
termination_by s.remaining
decreasing_by
  · exact remaining_interrupted _h
  · exact remaining_chunk _h (by simpa using _hb)

end Source

end Hallmark
