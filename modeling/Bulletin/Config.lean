import Bulletin.Http.Message
import Bulletin.Loading
import Bulletin.Text.Blank
import Bulletin.Toml.Reader

/-!
# The configuration

A configuration is a TOML document with three tables. Only `root` and `admins` must be in them:

    [archive]                          [server]                          [auth]
    root = "archives"                  bind = "0.0.0.0:8080"             admins = ["root"]
    layout = "tarball"                 user_header = "X-AuthUser"
    watch = true                       max_request_bytes = 10240

What is not known is passed over. Where a table is wanted, an array does as well: its elements are
the members in the order above, and those that are missing are as if not given.
-/

namespace Bulletin

/-- How the program is set up. -/
structure Config where
  archives : ArchiveRoot
  /-- Whether files that ask for a reload are looked for. -/
  watch : Bool
  bind : String
  userHeader : String
  /-- The most bytes that the body of a request may have. -/
  maxBody : Nat
  admins : List String
  deriving DecidableEq, Repr, Inhabited

/-- Why a configuration is refused. -/
inductive ConfigError where
  /-- There is no such file, or it is no text. -/
  | unreadable (file : Path)
  | malformed
  | noAddress
  | noRoomForRequests
  | badHeader (name : String)
  | badAdmin (name : String)
  deriving DecidableEq, Repr, Inhabited

namespace ConfigError

/-- The wording of a refusal. -/
def message : ConfigError → String
  | unreadable file => "Failed to read config file: " ++ file.text
  | malformed => "Failed to parse config file"
  | noAddress => "server.bind must not be empty"
  | noRoomForRequests => "server.max_request_bytes must be > 0"
  | badHeader name => "server.user_header is not a valid header name: '" ++ name ++ "'"
  | badAdmin name => "auth.admins entries must be bare usernames without '@', got '" ++ name ++ "'"

end ConfigError

/-! ## Settings in a document -/

abbrev Setting (α : Type) := Toml.Value → Option α

namespace Setting

open Toml (Value)

def text : Setting String
  | .string s => some s
  | _ => none

/-- Yes or no. -/
def flag : Setting Bool
  | .boolean b => some b
  | _ => none

/-- A number from zero on. -/
def natural : Setting Nat
  | .integer n => if 0 ≤ n then some n.toNat else none
  | _ => none

def texts : Setting (List String)
  | .array elements => elements.mapM text
  | _ => none

def layoutNamed? (name : String) : Option Layout :=
  if name = "tarball" then some .tarball
  else if name = "directory" then some .directory
  else none

/-- Whether a value has nothing in it. -/
def isVoid : Value → Bool
  | .table _ entries => entries.isEmpty
  | .array elements => elements.isEmpty
  | _ => false

/-- A layout, by its name or as the only key of a table, with nothing under it. -/
def layout : Setting Layout
  | .string name => layoutNamed? name
  | .table _ [(name, v)] => if isVoid v then layoutNamed? name else none
  | _ => none

/-- The members of a table that has members of these names. -/
def members (names : List String) : Setting Toml.Table
  | .table _ entries => some entries
  | .tables ts => some (names.zip (ts.map (.table .header)))
  | .array elements => some (names.zip elements)
  | .dateTime => some []
  | _ => none

/-- A member that must be given. -/
def required {α : Type} (name : String) (setting : Setting α) (members : Toml.Table) : Option α :=
  (members.lookup name).bind setting

/-- A member that is as usual unless given. -/
def orElse {α : Type} (name : String) (usual : α) (setting : Setting α) (members : Toml.Table) :
    Option α :=
  match members.lookup name with
  | some v => setting v
  | none => some usual

end Setting

namespace Config

open Setting

/-- The header that names the viewer, unless another is given. -/
def usualHeader : String := "X-AuthUser"

/-- The address of the service, unless another is given. -/
def usualBind : String := "0.0.0.0:8080"

/-- How long the body of a request may be, unless something else is given. -/
def usualMaxBody : Nat := 10240

def ofTable? (document : Toml.Table) : Option Config := do
  let archive ← required "archive" (members ["root", "layout", "watch"]) document
  let server ← required "server" (members ["bind", "user_header", "max_request_bytes"]) document
  let auth ← required "auth" (members ["admins"]) document
  return {
    archives := ⟨⟨← required "root" text archive⟩, ← orElse "layout" .tarball layout archive⟩
    watch := ← orElse "watch" true flag archive
    bind := ← orElse "bind" usualBind text server
    userHeader := ← orElse "user_header" usualHeader text server
    maxBody := ← orElse "max_request_bytes" usualMaxBody natural server
    admins := ← required "admins" texts auth }

/-- Whether a text names a user without a realm. -/
def isBareName (name : String) : Bool := !name.isEmpty && !name.toList.contains '@'

/-- Accepts a configuration that can work. -/
def check (c : Config) : Except ConfigError Config :=
  if c.bind.toList.all Text.isBlank then .error .noAddress
  else if c.maxBody = 0 then .error .noRoomForRequests
  else if (Http.headerName? c.userHeader).isNone then .error (.badHeader c.userHeader)
  else
    match c.admins.find? (!isBareName ·) with
    | some name => .error (.badAdmin name)
    | none => .ok c

def ofText (text : String) : Except ConfigError Config :=
  match (Toml.read? text).bind ofTable? with
  | some c => c.check
  | none => .error .malformed

def load (t : FileTree) (file : Path) : Except ConfigError Config :=
  match t.open? file with
  | .ok (.file bytes) =>
    match String.fromUTF8? (ByteArray.mk bytes.toArray) with
    | some text => ofText text
    | none => .error (.unreadable file)
  | _ => .error (.unreadable file)

end Config

end Bulletin
