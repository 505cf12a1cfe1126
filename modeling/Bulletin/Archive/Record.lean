import Bulletin.Archive.Entry

/-!
# One record for each user

The entries of an archive are gathered into records. A header opens the record of its user, bodies
and later headers of that user are put into it, and it is complete when another user's header
comes, or the end:

    alice.mail.header   opens alice's record
    alice.mail          its body
    bob.mail.header     alice's record is complete; opens bob's
    bob.mail.empty      bob's record is dropped
-/

namespace Bulletin

/-- What was sent to one user. -/
structure Record where
  user : String
  header : List UInt8
  body : List UInt8
  deriving DecidableEq, Repr, Inhabited

/-- The records that are being gathered: at most one is open. -/
structure Gathering where
  pending : Option Record
  deriving DecidableEq, Repr, Inhabited

namespace Gathering

/-- No record is open. -/
def empty : Gathering := ⟨none⟩

/-- The record that a header opens. A header without a user opens none. -/
def opened (user : String) (header : List UInt8) : Option Record :=
  if user.isEmpty then none else some ⟨user, header, []⟩

/-- Takes a header: what is being gathered then, and the record it completes. -/
def header (g : Gathering) (user : String) (bytes : List UInt8) : Gathering × Option Record :=
  match g.pending with
  | some r =>
    if r.user = user then (⟨some { r with header := bytes }⟩, none)
    else (⟨opened user bytes⟩, some r)
  | none => (⟨opened user bytes⟩, none)

/-- Takes a body, which belongs to whatever record is open. -/
def body (g : Gathering) (bytes : List UInt8) : Gathering :=
  ⟨g.pending.map fun r => { r with body := bytes }⟩

/-- Takes an entry: what is being gathered then, and the record that the entry completes. -/
def accept (g : Gathering) (e : Entry) : Except ArchiveError (Gathering × Option Record) :=
  match EntryName.ofString? e.name with
  | none => .error (.badEntryName e.name)
  | some ⟨user, .header⟩ => e.read.map (g.header user)
  | some ⟨_, .body⟩ => e.read.map fun bytes => (g.body bytes, none)
  | some ⟨_, .blank⟩ => .ok (empty, none)
  | some ⟨_, .other _⟩ => .ok (g, none)

/-- The record still open at the end. -/
def finish (g : Gathering) : Option Record := g.pending

end Gathering

end Bulletin
