import Bulletin.Archive.Record
import Bulletin.Metadata
import Bulletin.Text.Lossy

/-!
# What an archive says

The issue of a period is its metadata and, user by user, the sections of the bulletins. It is read
from the entries as they are delivered, and the first fault, in the order of the entries, refuses
the whole archive.
-/

namespace Bulletin

/-- One user's bulletin. -/
structure UserSections where
  user : String
  sections : List Section
  deriving DecidableEq, Repr, Inhabited

namespace UserSections

def ofRecord (period : Period) (r : Record) : Except ArchiveError UserSections :=
  match divide (Text.decode r.header) (Text.decode r.body) period r.user with
  | .ok sections => .ok ⟨r.user, sections⟩
  | .error e => .error (.undivided r.user e)

end UserSections

/-- What the archive of a period says. -/
structure Issue where
  metadata : Metadata
  bulletins : List UserSections
  deriving DecidableEq, Inhabited

/-- Reads the entry that must hold the metadata. -/
def Metadata.ofEntry (e : Entry) : Except ArchiveError Metadata := do
  if e.name ≠ metadataName then throw (.noMetadata (some e.name))
  match Metadata.ofBytes (← e.read) with
  | .ok m => return m
  | .error error => throw (.badMetadata error)

/-- An issue that is being read. -/
structure IssueReading where
  metadata : Option Metadata
  gathering : Gathering
  bulletins : List UserSections
  deriving Inhabited

namespace IssueReading

def empty : IssueReading := ⟨none, .empty, []⟩

def add (period : Period) (bulletins : List UserSections) :
    Option Record → Except ArchiveError (List UserSections)
  | none => .ok bulletins
  | some r => (UserSections.ofRecord period r).map fun b => bulletins ++ [b]

def accept (period : Period) (reading : IssueReading) (e : Entry) :
    Except ArchiveError IssueReading :=
  match reading.metadata with
  | none => (Metadata.ofEntry e).map fun m => { reading with metadata := some m }
  | some _ => do
    let (gathering, complete) ← reading.gathering.accept e
    let bulletins ← add period reading.bulletins complete
    return { reading with gathering, bulletins }

/-- What has been read, once all entries have been. -/
def finish (period : Period) (reading : IssueReading) : Except ArchiveError Issue :=
  match reading.metadata with
  | none => .error (.noMetadata none)
  | some metadata =>
    (add period reading.bulletins reading.gathering.finish).map fun bulletins =>
      ⟨metadata, bulletins⟩

end IssueReading

def Issue.ofDelivery (period : Period) (d : Delivery) : Except ArchiveError Issue := do
  let reading ← d.entries.foldlM (IssueReading.accept period) .empty
  match d.failure with
  | some e => throw e
  | none => reading.finish period

end Bulletin
