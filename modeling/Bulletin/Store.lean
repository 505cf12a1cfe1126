import Bulletin.Archive.Issue
import Bulletin.Store.Edition

/-!
# The store

The store holds the editions of the periods and says which of them are available. It is cold until
everything has been loaded once. A period that is flagged available without an edition counts as
unavailable, one that is not flagged as not found:

    lookup_eq_found_iff :
      s.lookup p = .found e ↔ s.isAvailable p ∧ s.holdings.editions.get? p = some e
-/

namespace Bulletin

/-- How far the store has come. -/
inductive Phase where
  | cold
  | warm
  deriving DecidableEq, Repr, Inhabited

namespace Phase

def name : Phase → String
  | cold => "cold"
  | warm => "warm"

end Phase

/-- The editions of all periods, and which of them are available. -/
structure Store where
  holdings : Holdings
  flags : SortedMap Period Bool
  phase : Phase
  deriving DecidableEq, Inhabited

/-- What a look-up of a period finds. -/
inductive Lookup where
  | notFound
  | unavailable
  | found (e : Edition)
  deriving DecidableEq, Inhabited

namespace Holdings

/-- Adds one user's bulletin to a period that is not kept yet. -/
def addBulletin (state : Holdings × Edition) (b : UserSections) : Holdings × Edition :=
  let (h, e) := state.1.commit state.2 b.user b.sections
  (h, e.addReader b.user)

def build (h : Holdings) (issue : Issue) : Holdings × Edition :=
  issue.bulletins.foldl addBulletin (h, Edition.new issue.metadata)

end Holdings

namespace Store

/-- The store before anything has been loaded. -/
def empty : Store := ⟨Holdings.empty, SortedMap.empty, .cold⟩

/-- Keeps an edition as that of a period, which is available from then on. -/
def install (s : Store) (period : Period) (e : Edition) : Store :=
  { s with
    holdings := { s.holdings with editions := s.holdings.editions.insert period e }
    flags := s.flags.insert period true }

/-- Keeps what an archive says about a period. -/
def publish (s : Store) (period : Period) (issue : Issue) : Store :=
  let (holdings, e) := s.holdings.build issue
  { s with holdings }.install period e

/-- Whether a period is flagged available. -/
def isAvailable (s : Store) (period : Period) : Bool := (s.flags.get? period).getD false

def lookup (s : Store) (period : Period) : Lookup :=
  if s.isAvailable period then
    match s.holdings.editions.get? period with
    | some e => .found e
    | none => .unavailable
  else .notFound

theorem lookup_eq_found_iff {s : Store} {period : Period} {e : Edition} :
    s.lookup period = .found e ↔
      s.isAvailable period ∧ s.holdings.editions.get? period = some e := by
  rw [lookup]
  split
  · rename_i h
    simp only [h, true_and]
    split
    · rename_i heq
      simp [heq]
    · rename_i heq
      simp [heq]
  · rename_i h
    simp [h]

def availableEditions (s : Store) : SortedMap Period Edition :=
  s.flags.filterMap fun period flag => if flag then s.holdings.editions.get? period else none

end Store

end Bulletin
