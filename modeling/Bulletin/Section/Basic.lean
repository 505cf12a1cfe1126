/-!
# Sections

A bulletin is made of named sections. Some are the same for everyone who receives it, others belong
to the one user it was written for.
-/

namespace Bulletin

/-- A period's number. -/
abbrev Period := Int64

/-- Whom a section is for. -/
inductive Audience where
  | everyone
  | owner
  deriving DecidableEq, Repr, Inhabited

/-- A named part of one user's bulletin. -/
structure Section where
  name : String
  title : String
  html : String
  audience : Audience
  deriving DecidableEq, Repr, Inhabited

end Bulletin
