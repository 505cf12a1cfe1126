import Bulletin.Calendar
import Bulletin.Loading
import Bulletin.Text.Column

/-!
# What has been loaded, in words

After all archives have been loaded, each gets a line, those that were refused last:

    Loaded 1 period(s), 1 failed, 3 distinct common section(s).
             1  users=2     started=1970-01-01 00:01:40 UTC  updated=1970-01-01 00:02:30 UTC
             2  FAILED
-/

namespace Bulletin.LoadSummary

/-- A time: a date if its year can be written, the number of seconds if not. -/
def time (seconds : Int64) : String :=
  (Calendar.write? seconds.toInt).getD (Decimal.ofInt64 seconds)

/-- The start of a period's line. -/
def periodColumn (period : Period) : String :=
  "  " ++ Text.alignRight 8 (Decimal.ofInt64 period) ++ "  "

def loadedLine (period : Period) (e : Edition) : String :=
  periodColumn period ++ "users=" ++ Text.alignLeft 5 (Decimal.ofNat e.readers.size) ++
    " started=" ++ time e.metadata.started ++ "  updated=" ++ time e.metadata.updated

def failedLine (period : Period) : String := periodColumn period ++ "FAILED"

def totalLine (summary : LoadSummary) (contents : Contents) : String :=
  "Loaded " ++ Decimal.ofNat summary.loaded.length ++ " period(s), " ++
    Decimal.ofNat summary.failed.length ++ " failed, " ++
    Decimal.ofNat contents.size ++ " distinct common section(s)."

/-- What has been loaded, line by line. -/
def lines (summary : LoadSummary) (h : Holdings) : List String :=
  totalLine summary h.contents ::
    summary.loaded.filterMap (fun period => (h.editions.get? period).map (loadedLine period)) ++
    summary.failed.map failedLine

end Bulletin.LoadSummary
