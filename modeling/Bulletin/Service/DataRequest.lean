import Bulletin.Json.Reader
import Bulletin.Section.Basic

/-!
# Requests for data

The body of a request for data names the periods wanted:

    {"periods": [1, 2]}        or        [[1, 2]]
-/

namespace Bulletin

/-- A request for the data of periods. -/
structure DataRequest where
  periods : List Period
  deriving DecidableEq, Repr, Inhabited

namespace DataRequest

open Json (Reader)
open Json.Reader

/-- What a refusal calls a request. -/
def kindName : String := "struct DataRequest"

def wanted : Reader (List Period) := list "a sequence" (elements integer)

def member (name : String) (read : Option (List Period)) : Reader (Option (List Period)) :=
  if name = "periods" then once name read wanted
  else do
    colon
    skip
    return read

def named : Reader DataRequest := do
  match ← members none member with
  | some periods => return ⟨periods⟩
  | none => refuseUnplaced (.missingField "periods")

def listed : Reader DataRequest := do
  match ← element? true wanted with
  | some periods => return ⟨periods⟩
  | none => refuseUnplaced (.wrongLength 0 (kindName ++ " with 1 element"))

def ofBytes (bytes : List UInt8) : Except Json.Error DataRequest :=
  run (record kindName listed named) bytes

end DataRequest

end Bulletin
