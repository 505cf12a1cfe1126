import Bulletin.Json.Error
import Bulletin.Section.Division

/-!
# Why an archive is refused

An archive is refused as a whole. Either it could not be read, or what it holds does not have the
shape of an archive; the second kind of fault is called structural.
-/

namespace Bulletin

/-- Why something could not be opened. -/
inductive OpenFailure where
  /-- A directory was wanted, and there is none. -/
  | notDirectory
  /-- There is nothing at the path. -/
  | missing
  /-- The path leads through something that is no directory. -/
  | throughFile
  /-- The path leads through too many links. -/
  | linkLoop
  /-- What there is may not be made use of. -/
  | denied
  /-- A directory cannot be listed. -/
  | unlistable (directory : String) (reason : OpenFailure)
  /-- The archive can be read once only. -/
  | spent
  deriving DecidableEq, Repr, Inhabited

namespace OpenFailure

def message : OpenFailure → String
  | notDirectory => "not a directory"
  | missing => "No such file or directory (os error 2)"
  | throughFile => "Not a directory (os error 20)"
  | linkLoop => "Too many levels of symbolic links (os error 40)"
  | denied => "Permission denied (os error 13)"
  | unlistable directory reason =>
    "IO error for operation on " ++ directory ++ ": " ++ reason.message
  | spent => "cannot call entries unless archive is at position 0"

end OpenFailure

/-- Why an archive is refused. -/
inductive ArchiveError where
  | cannotOpen (path : String) (reason : OpenFailure)
  /-- The archive, or an entry of it, cannot be read. -/
  | unreadable
  /-- The first entry is not the metadata; its name, if there is an entry at all. -/
  | noMetadata (found : Option String)
  | badMetadata (error : Json.Error)
  | badEntryName (name : String)
  /-- A user's bulletin cannot be divided into sections. -/
  | undivided (user : String) (error : DivisionError)
  | badArchiveName (name : String)
  deriving DecidableEq, Repr, Inhabited

namespace ArchiveError

/-- Whether the fault is in the shape of what the archive holds. -/
def isStructural : ArchiveError → Bool
  | noMetadata _ | badEntryName _ | undivided _ _ => true
  | cannotOpen _ _ | unreadable | badMetadata _ | badArchiveName _ => false

/-- The wording of a refusal. -/
def message : ArchiveError → String
  | cannotOpen path reason => "cannot open archive " ++ path ++ ": " ++ reason.message
  | unreadable => "cannot read archive entry"
  | noMetadata found =>
    "metadata mismatch: expected raw.json as first entry, found " ++ found.getD "nothing"
  | badMetadata error => "malformed raw.json: " ++ error.message
  | badEntryName name =>
    "entry name " ++ Text.quote name ++ " does not match <user>.<...>.<extension>"
  | undivided user .noHead => "no <head> marker in header of user " ++ user
  | undivided user (.unnamed after) =>
    "no machine name for the section following " ++ Text.quote after ++ " (user " ++ user ++ ")"
  | badArchiveName name =>
    "archive name " ++ Text.quote name ++ " does not map to a period id"

end ArchiveError

end Bulletin
