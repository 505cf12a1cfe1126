import Bulletin.Archive.Error

/-!
# The entries of an archive

Behind the metadata, an entry belongs to the user its name begins with, and its extension says what
it is:

    alice.mail.header    the header of alice's bulletin
    alice.mail           its body
    alice.mail.empty     alice gets no bulletin
    alice.notes.txt      nothing to us

`order` is the order in which the files of an archive are read: the metadata first, then user by
user, and of one user headers before bodies before marks of emptiness before all else.
-/

namespace Bulletin

/-- An entry as it is delivered, with its bytes if they can be read. -/
structure Entry where
  name : String
  payload : Option (List UInt8)
  deriving DecidableEq, Repr, Inhabited

namespace Entry

def read (e : Entry) : Except ArchiveError (List UInt8) :=
  match e.payload with
  | some bytes => .ok bytes
  | none => .error .unreadable

end Entry

/-- What an archive delivers: its entries in order, and what kept it from delivering more. -/
structure Delivery where
  entries : List Entry
  failure : Option ArchiveError
  deriving DecidableEq, Repr, Inhabited

namespace Delivery

/-- What `visit` makes of the entries, each with the number of those before it, up to the first that
it refuses. -/
def visitFrom {α : Type} (visit : Nat → Entry → Except ArchiveError α)
    (failure : Option ArchiveError) : Nat → List Entry → List α × Option ArchiveError
  | _, [] => ([], failure)
  | n, e :: rest =>
    match visit n e with
    | .error error => ([], some error)
    | .ok a =>
      let (later, ending) := visitFrom visit failure (n + 1) rest
      (a :: later, ending)

/-- What `visit` makes of the entries, and what ended the delivery. -/
def visit {α : Type} (d : Delivery) (visit : Nat → Entry → Except ArchiveError α) :
    List α × Option ArchiveError :=
  visitFrom visit d.failure 0 d.entries

end Delivery

/-- The name of the entry that holds the metadata. -/
def metadataName : String := "raw.json"

inductive EntryKind where
  | header
  | body
  /-- A mark that the user gets no bulletin. -/
  | blank
  | other (extension : String)
  deriving DecidableEq, Repr, Inhabited

namespace EntryKind

def ofExtension (extension : String) : EntryKind :=
  if extension = "header" then header
  else if extension = "mail" then body
  else if extension = "empty" then blank
  else other extension

/-- The place of a kind among the entries of one user. -/
def rank : EntryKind → Nat
  | header => 0
  | body => 1
  | blank => 2
  | other _ => 3

end EntryKind

/-- What the name of an entry says. -/
structure EntryName where
  user : String
  kind : EntryKind
  deriving DecidableEq, Repr, Inhabited

namespace EntryName

/-- What is behind the last dot of a text, or all of it. -/
def extension (s : List Char) : List Char := ((Text.cutLast? '.' s).map Prod.snd).getD s

/-- Reads a name: the user is before its first dot, the extension behind its last one. A name
without a dot, or with nothing behind the last, says nothing. -/
def ofString? (name : String) : Option EntryName :=
  match Text.cutFirst? '.' name.toList with
  | none => none
  | some (user, rest) =>
    if rest.isEmpty || (name.toList.getLast? == some '.') then none
    else some ⟨String.ofList user, .ofExtension (String.ofList (extension rest))⟩

/-- The part of a name by which the entries of a user are kept together. -/
def group (name : String) : String :=
  match Text.cutFirst? '.' name.toList with
  | some (user, _) => String.ofList user
  | none => name

/-- The place of a name among those of its group. -/
def rank (name : String) : Nat :=
  match Text.cutLast? '.' name.toList with
  | some (_, extension) => (EntryKind.ofExtension (String.ofList extension)).rank
  | none => 3

/-- The order of the files of an archive. -/
def order (a b : String) : Ordering :=
  (compare (b == metadataName) (a == metadataName)).then <|
  (compare (group a) (group b)).then <|
  (compare (rank a) (rank b)).then <|
  compare a b

/-- Whether one file is read no later than another. -/
def precedes (a b : String) : Bool := order a b != .gt

end EntryName

end Bulletin
