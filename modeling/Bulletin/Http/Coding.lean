import Bulletin.Http.Message
import Bulletin.Text.Blank
import Bulletin.Text.Split

/-!
# Compressed responses

A client says which codings it accepts, each with a weight between 0 and 1. Of those that are known
the one with the greatest weight is chosen, and compression wins a tie:

    choose ["gzip;q=0.5, identity;q=0.4"] = gzip
    choose ["gzip;q=0"]                   = identity

What is not a weight makes its coding unknown, and bodies that are small are not compressed.
-/

namespace Bulletin.Http

/-- How a body is sent. -/
inductive Coding where
  | identity
  | gzip
  deriving DecidableEq, Repr, Inhabited

namespace Coding

def ofName? (name : String) : Option Coding :=
  let name := name.map Char.toLower
  if name = "gzip" || name = "x-gzip" then some gzip
  else if name = "identity" then some identity
  else none

/-- The thousandths that decimals add to a weight, each counting `factor`. -/
def decimals? : Nat → Nat → List Char → Option Nat
  | _, weight, [] => if weight ≤ 1000 then some weight else none
  | factor, weight, c :: rest =>
    if factor = 0 || !c.isDigit then none
    else decimals? (factor / 10) (weight + factor * (c.toNat - '0'.toNat)) rest

/-- A weight in thousandths. -/
def weight? : List Char → Option Nat
  | q :: '=' :: whole :: rest =>
    if q != 'q' && q != 'Q' || whole != '0' && whole != '1' then none
    else
      let weight := if whole = '1' then 1000 else 0
      match rest with
      | [] => some weight
      | '.' :: decimals => decimals? 100 weight decimals
      | _ => none
  | _ => none

def trimmed (cs : List Char) : List Char := Text.trim Text.isBlank cs

def weighted? (cs : List Char) : Option (Coding × Nat) :=
  let (name, weight) := match Text.cutFirst? ';' cs with
    | some (name, weight) => (name, weight? (trimmed weight))
    | none => (cs, some 1000)
  match ofName? (String.ofList (trimmed name)), weight with
  | some coding, some weight => some (coding, weight)
  | _, _ => none

/-- Text cut at every comma, behind characters already read. -/
def cutList : List Char → List Char → List (List Char)
  | read, [] => [read.reverse]
  | read, c :: rest => if c = ',' then read.reverse :: cutList [] rest else cutList (c :: read) rest

/-- The greatest weight that a coding is given. -/
def weightOf (coding : Coding) (accepted : List (Coding × Nat)) : Nat :=
  (accepted.filter (·.1 = coding)).foldl (fun n (_, weight) => max n weight) 0

/-- The coding that is preferred among those accepted. -/
def choose (accepted : List String) : Coding :=
  let accepted := (accepted.flatMap fun s => cutList [] s.toList).filterMap weighted?
  let compressed := weightOf gzip accepted
  if 0 < compressed && weightOf identity accepted ≤ compressed then gzip else identity

/-- The name of the header that says what a client accepts. -/
def headerName : String := "accept-encoding"

/-- The coding that is preferred by whoever sent a request. -/
def ofRequest (r : Request) : Coding :=
  choose ((r.headersNamed headerName).filterMap Header.text?)

/-- The size from which on bodies are compressed. -/
def leastSize : Nat := 32

def apply (coding : Coding) (r : Response) : Response :=
  if coding = gzip && leastSize ≤ r.body.utf8ByteSize then { r with encoding := some "gzip" } else r

end Coding

end Bulletin.Http
