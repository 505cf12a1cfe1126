/-!
# Request targets

What a request is for: a path and perhaps a query. A target is given as the path itself, with the
query behind a question mark, or as a whole address whose scheme and host are passed over:

    ofString? "/api/report?period=1"      = some ⟨"/api/report", "period=1"⟩
    ofString? "http://host/api/user"      = some ⟨"/api/user", ""⟩
    ofString? "/a b"                      = none

A fragment is dropped. Characters that must be written as escapes make a target invalid.
-/

namespace Bulletin.Http

/-- The target of a request. -/
structure Target where
  path : String
  query : String
  deriving DecidableEq, Repr, Inhabited

namespace Target

/-- Whether a character is in a range. -/
def isIn (c : Char) (low high : Nat) : Bool := low ≤ c.toNat && c.toNat ≤ high

/-- Whether a character can stand in a path. -/
def isPathChar (c : Char) : Bool :=
  c == '!' || c == '"' || isIn c 0x24 0x3B || c == '=' || isIn c 0x40 0x5F || isIn c 0x61 0x7E ||
    0x80 ≤ c.toNat

/-- Whether a character can stand in a query. -/
def isQueryChar (c : Char) : Bool :=
  c == '!' || isIn c 0x24 0x3B || c == '=' || isIn c 0x3F 0x7E || 0x80 ≤ c.toNat

def ofPath? (cs : List Char) : Option Target :=
  let path := cs.takeWhile fun c => c != '?' && c != '#'
  let rest := cs.drop path.length
  let query := match rest with
    | '?' :: rest => rest.takeWhile (· != '#')
    | _ => []
  if path.all isPathChar && query.all isQueryChar then
    some ⟨if path.isEmpty then "/" else String.ofList path, String.ofList query⟩
  else none

/-- Whether a character can stand in a scheme. -/
def isSchemeChar (c : Char) : Bool :=
  c.isAlphanum || c == '+' || c == '-' || c == '.' || c == '~'

def maxScheme : Nat := 64

/-- What is behind the scheme of an address; nothing inside if it has none. -/
def afterScheme? (cs : List Char) : Option (Option (List Char)) :=
  let scheme := cs.takeWhile isSchemeChar
  match cs.drop scheme.length with
  | ':' :: '/' :: '/' :: rest => if maxScheme < scheme.length then none else some (some rest)
  | _ => some none

/-- What has been seen of the host of an address. -/
structure HostScan where
  colons : Nat
  opened : Bool
  closed : Bool
  escaped : Bool
  endsUser : Bool
  deriving DecidableEq, Repr, Inhabited

namespace HostScan

/-- Nothing has been seen. -/
def start : HostScan := ⟨0, false, false, false, false⟩

/-- The most colons in a row of address parts. -/
def maxColons : Nat := 8

/-- Whether a character can stand in a host without further meaning. -/
def isPlain (c : Char) : Bool :=
  c.isAlphanum ||
    ['!', '$', '&', '\'', '(', ')', '*', '+', ',', '-', '.', ';', '=', '_', '~'].contains c

/-- Sees a character. -/
def next? (s : HostScan) (c : Char) : Option HostScan :=
  let s' := { s with endsUser := false }
  if c == ':' then if maxColons ≤ s.colons then none else some { s' with colons := s.colons + 1 }
  else if c == '[' then if s.escaped || s.opened then none else some { s' with opened := true }
  else if c == ']' then
    if !s.opened || s.closed then none
    else some { s' with closed := true, colons := 0, escaped := false }
  else if c == '@' then some { s with colons := 0, escaped := false, endsUser := true }
  else if c == '%' then some { s' with escaped := true }
  else if isPlain c then some s'
  else none

/-- Whether what has been seen is a host. -/
def isHost (s : HostScan) : Bool :=
  s.opened == s.closed && s.colons ≤ 1 && !s.endsUser && !s.escaped

end HostScan

/-- What is behind the host of an address, if the host is one. -/
def afterHost? (cs : List Char) : Option (List Char × List Char) :=
  let host := cs.takeWhile fun c => c != '/' && c != '?' && c != '#'
  match host.foldlM HostScan.next? HostScan.start with
  | some s => if s.isHost then some (host, cs.drop host.length) else none
  | none => none

def maxBytes : Nat := 65534

def ofString? (s : String) : Option Target :=
  if maxBytes < s.utf8ByteSize then none
  else
    match s.toList with
    | [] => none
    | ['*'] => some ⟨"*", ""⟩
    | '/' :: rest => ofPath? ('/' :: rest)
    | cs =>
      match afterScheme? cs with
      | none => none
      | some scheme =>
        match afterHost? (scheme.getD cs) with
        | none => none
        | some (host, rest) =>
          if scheme.isNone then if rest.isEmpty then some ⟨"", ""⟩ else none
          else if host.isEmpty then none
          else ofPath? rest

end Target

end Bulletin.Http
