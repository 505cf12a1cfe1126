import Bulletin.Http.Host
import Bulletin.Text.Decimal
import Bulletin.Text.Split

/-!
# Addresses to listen at

An address is a host and a port behind a colon. A machine can listen at addresses that are its own:
those of the loop back to itself, and those that stand for all of its own, for a group or for
everyone:

    isOwn "127.0.0.1:8080" = true      isOwn "[::]:0"       = true
    isOwn "127.0.0.1"      = false     isOwn "10.0.0.1:80"  = false

Names other than `localhost` are not known.
-/

namespace Bulletin.Http

/-- The number that is one more than the highest port. -/
def portLimit : Nat := 65536

/-- A port. A plus sign in front says nothing. -/
def port? (cs : List Char) : Option Nat := do
  let n ← Decimal.natOfChars? ((Text.afterLead? ['+'] cs).getD cs)
  if n < portLimit then some n else none

/-- Whether a machine can listen at a number, whichever machine it is. -/
def isOwnNumber (n : Nat) : Bool :=
  let first := n / Nat.pow byteLimit 3
  first == 0 || first == 127 || (224 ≤ first && first < 240) || n + 1 == Nat.pow byteLimit 4

/-- Whether a machine can listen at a number of 128 bits: no address, the loop back, or a number of
32 bits behind its mark. -/
def isOwnWide (n : Nat) : Bool :=
  let limit := Nat.pow byteLimit 4
  n ≤ 1 || (n / limit == groupLimit - 1 && isOwnNumber (n % limit))

/-- Whether a machine is the host, whichever machine it is. -/
def isOwnHost (host : List Char) : Bool :=
  match hostNumber? host, wideNumber? host with
  | some n, _ => isOwnNumber n
  | none, some n => isOwnWide n
  | none, none => String.ofList (host.map Char.toLower) == "localhost"

def bracketed? (host : List Char) : Option (List Char) :=
  (Text.afterLead? ['['] host).bind (Text.beforeTail? [']'])

/-- Whether every machine can listen at an address. Behind brackets a port has no sign. -/
def isOwn (address : String) : Bool :=
  match Text.cutLast? ':' address.toList with
  | some (host, port) =>
    (port? port).isSome &&
      match bracketed? host with
      | some host => port.head? != some '+' && (wideNumber? host).any isOwnWide
      | none => isOwnHost host
  | none => false

end Bulletin.Http
