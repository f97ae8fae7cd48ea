import Hallmark.Fingerprint

/-!
# Files

Files are opened by name and only up to a size.  The files there are stand for a file system: content by name.
-/

namespace Hallmark

/-- The content of the files that can be read. -/
abbrev Files := String → Option Bytes

inductive FileError where
  | unreadable
  | tooLarge (limit found : UInt64)
  deriving Repr, DecidableEq

def FileError.message : FileError → String
  | .unreadable => "An underlying I/O error occurred"
  | .tooLarge limit found =>
    "File size of " ++ toString found.toNat ++ " bytes exceeds the maximum allowed size of "
      ++ toString limit.toNat ++ " bytes."

structure OpenFile where
  path : String
  content : Bytes
  deriving Repr, DecidableEq

namespace OpenFile

/-- Opens a file that is no larger than `limit`. -/
def open? (files : Files) (path : String) (limit : UInt64) : Except FileError OpenFile :=
  match files path with
  | none => .error .unreadable
  | some content =>
    if limit.toNat < content.size then .error (.tooLarge limit (UInt64.ofNat content.size))
    else .ok ⟨path, content⟩

def size (f : OpenFile) : UInt64 := UInt64.ofNat f.content.size

/-- A source over the content, at its start. -/
def source (f : OpenFile) : Source := .ofBytes f.content

end OpenFile

/-- The fingerprint of a file, unless it is too large for the configuration. -/
def FileFingerprint.ofFile (files : Files) (path : String) (config : Config) (collaborators : Collaborators) :
    Except FileError FileFingerprint := do
  let file ← OpenFile.open? files path config.io.maxFileSize
  return .ofBytes file.content config collaborators

end Hallmark
