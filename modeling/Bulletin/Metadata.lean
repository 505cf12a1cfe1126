import Bulletin.Json.Reader
import Bulletin.Section.Basic
import Bulletin.SortedMap

/-!
# The metadata of a period

Every archive opens with a description of its period: two times, and for each user some data that
is handed on as the very text it is written in.

    ofBytes : {"started": 1, "updated": 2, "data": {"alice": [1, 2]}}
    or      : [1, 2, {"alice": [1, 2]}]

What is missing is zero or empty, and so is `"data": null`. Names that are not known are passed
over, and of two values for one user the last counts.
-/

namespace Bulletin

/-- What an archive says about its period. -/
structure Metadata where
  started : Int64
  updated : Int64
  /-- For each user the text of a JSON value. -/
  data : SortedMap String String
  deriving DecidableEq, Inhabited

namespace Metadata

open Json (Reader)
open Json.Reader

/-- The data of users: an object, whose values are kept as they are written, or `null`. -/
def userData : Reader (SortedMap String String) :=
  orNull SortedMap.empty <| object "a map" <| members SortedMap.empty fun user data => do
    colon
    return data.insert user (← verbatim)

/-- The members of a description that have been read. -/
structure Members where
  started : Option Int64
  updated : Option Int64
  data : Option (SortedMap String String)
  deriving Inhabited

def member (name : String) (m : Members) : Reader Members := do
  match name with
  | "started" => return { m with started := ← once name m.started integer }
  | "updated" => return { m with updated := ← once name m.updated integer }
  | "data" => return { m with data := ← once name m.data userData }
  | _ =>
    colon
    skip
    return m

def ofMembers (m : Members) : Metadata :=
  ⟨m.started.getD 0, m.updated.getD 0, m.data.getD SortedMap.empty⟩

/-- A description written as a list of its members. -/
def listed : Reader Metadata := do
  let started ← element? true integer
  let updated ← element? started.isNone integer
  let data ← element? updated.isNone userData
  return ofMembers ⟨started, updated, data⟩

def reader : Reader Metadata :=
  record "struct RawMetadata" listed
    (ofMembers <$> members ⟨none, none, none⟩ member)

def ofBytes (bytes : List UInt8) : Except Json.Error Metadata := run reader bytes

end Metadata

end Bulletin
