import Bulletin.Text.Split

/-!
# Who is asking

Whoever asks is known by an identity such as `alice@realm`, of which only what is before the first
`@` counts. Who has no name is anonymous and sees nothing that belongs to a user; administrators
see everything.
-/

namespace Bulletin

/-- Who is asking. -/
structure Viewer where
  user : String
  isAdmin : Bool
  deriving DecidableEq, Repr, Inhabited

namespace Viewer

def userOf (identity : String) : String :=
  match Text.cutFirst? '@' identity.toList with
  | some (user, _) => String.ofList user
  | none => identity

/-- Who asks with an identity. -/
def ofIdentity (admins : List String) (identity : String) : Viewer :=
  let user := userOf identity
  ⟨user, !user.isEmpty && admins.contains user⟩

def isAnonymous (v : Viewer) : Bool := v.user.isEmpty

/-- Whether the viewer is a user with a name, and that user. -/
def isUser (v : Viewer) (user : String) : Bool := !v.isAnonymous && v.user == user

def canView (v : Viewer) (user : String) : Bool := v.isAdmin || v.isUser user

end Viewer

end Bulletin
