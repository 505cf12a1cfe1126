import Bulletin.Http.Target

/-!
# Requests and responses

Only what can be sent at all is a request: methods and names of headers are tokens, values of
headers hold no control characters but tabs. Names of headers are compared in lower case.
-/

namespace Bulletin.Http

/-- Whether a character can stand in a token. -/
def isTokenChar (c : Char) : Bool :=
  c.isAlphanum || Char.ofNat 0x60 == c ||
    ['!', '#', '$', '%', '&', '\'', '*', '+', '-', '.', '^', '_', '|', '~'].contains c

def isToken (s : String) : Bool := !s.isEmpty && s.toList.all isTokenChar

def maxHeaderName : Nat := 65535

/-- The name of a header, as it is compared. -/
def headerName? (name : String) : Option String :=
  if isToken name && name.length ≤ maxHeaderName then some (name.map Char.toLower) else none

def isValueByte (b : UInt8) : Bool := b == 9 || (32 ≤ b && b != 127)

/-- A header. -/
structure Header where
  name : String
  value : List UInt8
  deriving DecidableEq, Repr, Inhabited

namespace Header

def make? (name : String) (value : List UInt8) : Option Header := do
  let name ← headerName? name
  if value.all isValueByte then some ⟨name, value⟩ else none

/-- The value as text, if all of it can be seen. -/
def text? (h : Header) : Option String :=
  if h.value.all fun b => b == 9 || (32 ≤ b && b < 127) then
    some (String.ofList (h.value.map fun b => Char.ofNat b.toNat))
  else none

end Header

inductive Body where
  | bytes (bytes : List UInt8)
  /-- The body cannot be read, for the reason given. -/
  | broken (reason : String)
  deriving DecidableEq, Repr, Inhabited

/-- A request. -/
structure Request where
  method : String
  target : Target
  headers : List Header
  body : Body
  deriving DecidableEq, Repr, Inhabited

namespace Request

def make? (method target : String) (headers : List (String × List UInt8)) (body : Body) :
    Option Request := do
  let target ← Target.ofString? target
  let headers ← headers.mapM fun (name, value) => Header.make? name value
  if isToken method then some ⟨method, target, headers, body⟩ else none

def headersNamed (r : Request) (name : String) : List Header := r.headers.filter (·.name = name)

end Request

/-- A response. -/
structure Response where
  status : Nat
  contentType : Option String
  encoding : Option String
  allow : Option String
  body : String
  deriving DecidableEq, Repr, Inhabited

namespace Response

def empty (status : Nat) : Response := ⟨status, none, none, none, ""⟩

end Response

end Bulletin.Http
