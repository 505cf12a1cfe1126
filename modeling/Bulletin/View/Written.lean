import Bulletin.Json.Value
import Bulletin.View

/-!
# Views as JSON

How what a viewer sees is written. Maps are written in the order of their keys, and the data of
users in the very text in which it came.
-/

namespace Bulletin

open Json (Value)

/-- The table of shared texts. -/
def Contents.written (t : Contents) : Value :=
  .object [("content_data", .object (t.entries.map fun (id, s) => (Decimal.ofNat id, .string s)))]

def writeCommon (common : SortedMap String ContentId) : Value :=
  .ofMap id (fun (n : ContentId) => .int n) common

/-- Sections of users, by name and user. -/
def writePersonal (personal : SortedMap String (SortedMap String String)) : Value :=
  .ofMap id (.ofMap id .string) personal

/-- Both kinds of sections of a period. -/
def writeSections (common : SortedMap String ContentId)
    (personal : SortedMap String (SortedMap String String)) : Value :=
  .object [("common_content", writeCommon common), ("user_content", writePersonal personal)]

def writeTitles (titles : SortedMap String String) : Value := .ofMap id .string titles

def Edition.written (e : Edition) : Value := writeSections e.common e.personal

/-- All that is kept. -/
def Holdings.written (h : Holdings) : Value :=
  .object [("dedup", h.contents.written),
    ("results", .ofMap Decimal.ofInt64 Edition.written h.editions),
    ("name_mapping", writeTitles h.titles)]

/-- What a viewer sees of a period. -/
def Report.written (r : Report) : Value :=
  .object [("dedup", r.contents.written),
    ("results", .object [(Decimal.ofInt64 r.period, writeSections r.common r.personal)]),
    ("name_mapping", writeTitles r.titles)]

def Times.written (t : Times) : Value :=
  .object [("started", .int t.started.toInt), ("updated", .int t.updated.toInt)]

def writePeriods (periods : SortedMap Period Times) : Value :=
  .ofMap Decimal.ofInt64 Times.written periods

def Metadata.written (m : Metadata) : Value :=
  .object [("started", .int m.started.toInt), ("updated", .int m.updated.toInt),
    ("data", .ofMap id .verbatim m.data)]

def RawData.written (d : RawData) : Value := .ofMap Decimal.ofInt64 Metadata.written d.periods

end Bulletin
