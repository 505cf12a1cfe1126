import Bulletin.Store
import Bulletin.Viewer

/-!
# What viewers get to see

Everyone sees the sections for everyone, and of all else only what is theirs; administrators see
all. A viewer who was not sent a bulletin does not see the period.

    periods : the periods a viewer sees, with their times
    report  : one period's sections
    raw     : the data of several periods, and for which of them there is none
-/

namespace Bulletin

/-- The times of a period. -/
structure Times where
  started : Int64
  updated : Int64
  deriving DecidableEq, Repr, Inhabited

/-- What a viewer sees of a period. -/
structure Report where
  contents : Contents
  period : Period
  common : SortedMap String ContentId
  personal : SortedMap String (SortedMap String String)
  titles : SortedMap String String
  deriving DecidableEq, Inhabited

/-- Why a viewer sees nothing of a period. -/
inductive ReportRefusal where
  | notFound
  | unavailable
  | noUserData
  deriving DecidableEq, Repr, Inhabited

namespace ReportRefusal

def message : ReportRefusal → String
  | notFound => "Period not found"
  | unavailable => "Period unavailable"
  | noUserData => "No data for user in this period"

end ReportRefusal

namespace Edition

/-- Whether a viewer sees the period. -/
def isVisibleTo (e : Edition) (v : Viewer) : Bool :=
  v.isAdmin || (!v.isAnonymous && e.hasSeen v.user)

def times (e : Edition) : Times := ⟨e.metadata.started, e.metadata.updated⟩

/-- One user's part of a map from users. -/
def ownPart (user : String) (byUser : SortedMap String String) :
    Option (SortedMap String String) :=
  (byUser.get? user).map fun html => SortedMap.empty.insert user html

/-- The users' sections that a viewer sees. -/
def personalFor (e : Edition) (v : Viewer) : SortedMap String (SortedMap String String) :=
  if v.isAdmin then e.personal else e.personal.filterMap fun _ byUser => ownPart v.user byUser

end Edition

/-- The data of periods, and a note about those left out. -/
structure RawData where
  periods : SortedMap Period Metadata
  note : String
  deriving DecidableEq, Inhabited

/-- Why a period's data is left out. -/
inductive RawRefusal where
  | notFound
  | unavailable
  | noUserData
  deriving DecidableEq, Repr, Inhabited

namespace RawRefusal

/-- The wording of the reason. -/
def message : RawRefusal → String
  | notFound => "period not found"
  | unavailable => "period unavailable"
  | noUserData => "no data for user in period"

end RawRefusal

namespace Store

def periods (s : Store) (v : Viewer) : SortedMap Period Times :=
  s.availableEditions.filterMap fun _ e => if e.isVisibleTo v then some e.times else none

def report (s : Store) (period : Period) (v : Viewer) : Except ReportRefusal Report :=
  match s.lookup period with
  | .notFound => .error .notFound
  | .unavailable => .error .unavailable
  | .found e =>
    if e.isVisibleTo v then
      .ok ⟨s.holdings.contents, period, e.common, e.personalFor v, s.holdings.titles⟩
    else .error .noUserData

/-- The data of a period, as far as a viewer may see it. -/
def rawOf (s : Store) (v : Viewer) (period : Period) : Except RawRefusal Metadata :=
  match s.lookup period with
  | .notFound => .error .notFound
  | .unavailable => .error .unavailable
  | .found e =>
    let data := e.metadata.data.filter fun user _ => v.canView user
    if data.isEmpty && !v.isAdmin then .error .noUserData
    else .ok { e.metadata with data }

def addRaw (s : Store) (v : Viewer) (d : RawData) (period : Period) : RawData :=
  match s.rawOf v period with
  | .ok m => { d with periods := d.periods.insert period m }
  | .error r =>
    { d with note := d.note ++ r.message ++ ": " ++ Decimal.ofInt64 period ++ ";" }

/-- The data of periods, as far as a viewer may see it. -/
def raw (s : Store) (periods : List Period) (v : Viewer) : RawData :=
  if periods.isEmpty then ⟨SortedMap.empty, "no period specified"⟩
  else periods.foldl (s.addRaw v) ⟨SortedMap.empty, ""⟩

end Store

end Bulletin
