import Bulletin.Files.Path
import Bulletin.Section.Basic
import Bulletin.Text.Decimal

/-!
# Where the archives are

Each period has one archive in a common directory, either a file such as `43.tar.gz` or a directory
such as `43`:

    periodOf?_archiveName : layout.periodOf? (layout.archiveName p) = some p
-/

namespace Bulletin

/-- What kind of thing an archive is. -/
inductive Layout where
  | tarball
  | directory
  deriving DecidableEq, Repr, Inhabited

namespace Layout

/-- What the names of archives end in. -/
def suffix : Layout → String
  | tarball => ".tar.gz"
  | directory => ""

def archiveName (layout : Layout) (period : Period) : String :=
  Decimal.ofInt64 period ++ layout.suffix

def archivePath (layout : Layout) (root : Path) (period : Period) : Path :=
  root.join (layout.archiveName period)

def periodOf? (layout : Layout) (name : String) : Option Period :=
  (Text.beforeTail? layout.suffix.toList name.toList).bind fun stem =>
    (Decimal.intOfChars? stem).bind Decimal.fit?

theorem periodOf?_archiveName (layout : Layout) (period : Period) :
    layout.periodOf? (layout.archiveName period) = some period := by
  have h : Text.beforeTail? layout.suffix.toList (layout.archiveName period).toList =
      some (Decimal.ofInt64 period).toList :=
    Text.beforeTail?_eq_some_iff.mpr String.toList_append
  rw [periodOf?, h]
  exact Decimal.int64?_ofInt64 period

end Layout

end Bulletin
