import Bulletin.Metadata
import Bulletin.Store.Contents

/-!
# What is kept of a period

Sections for everyone are kept once in a table of texts and named by their number; sections of one
user are kept for that user. Every section also gives its name a title. Of two sections with one
name the later one counts:

    commit : adds one user's sections, in order
-/

namespace Bulletin

/-- What is kept of one period. -/
structure Edition where
  metadata : Metadata
  /-- For each name the section that everyone gets. -/
  common : SortedMap String ContentId
  /-- For each name the sections of the users who have one. -/
  personal : SortedMap String (SortedMap String String)
  /-- The users who were sent a bulletin. -/
  readers : SortedSet String
  deriving DecidableEq, Inhabited

namespace Edition

/-- A period without bulletins. -/
def new (metadata : Metadata) : Edition :=
  ⟨metadata, SortedMap.empty, SortedMap.empty, SortedMap.empty⟩

/-- Whether a user was sent a bulletin. -/
def hasSeen (e : Edition) (user : String) : Bool := e.readers.contains user

/-- Notes that a user was sent a bulletin. -/
def addReader (e : Edition) (user : String) : Edition :=
  { e with readers := e.readers.insert user () }

/-- Gives everyone a section. -/
def setCommon (e : Edition) (name : String) (id : ContentId) : Edition :=
  { e with common := e.common.insert name id }

def setPersonal (e : Edition) (name user html : String) : Edition :=
  { e with personal :=
      e.personal.insert name (((e.personal.get? name).getD SortedMap.empty).insert user html) }

end Edition

/-- All that is kept: the periods, and the tables they share. -/
structure Holdings where
  contents : Contents
  editions : SortedMap Period Edition
  /-- For each name of a section its title. -/
  titles : SortedMap String String
  deriving DecidableEq, Inhabited

namespace Holdings

/-- Nothing is kept. -/
def empty : Holdings := ⟨Contents.empty, SortedMap.empty, SortedMap.empty⟩

def setTitle (h : Holdings) (name title : String) : Holdings :=
  { h with titles := h.titles.insert name title }

/-- Adds one of a user's sections to a period that is not kept yet. -/
def commitSection (user : String) (state : Holdings × Edition) (s : Section) :
    Holdings × Edition :=
  let (h, e) := state
  match s.audience with
  | .everyone =>
    let (contents, id) := h.contents.intern s.html
    ({ h with contents }.setTitle s.name s.title, e.setCommon s.name id)
  | .owner => (h.setTitle s.name s.title, e.setPersonal s.name user s.html)

/-- Adds a user's sections to a period that is not kept yet. -/
def commit (h : Holdings) (e : Edition) (user : String) (sections : List Section) :
    Holdings × Edition :=
  sections.foldl (commitSection user) (h, e)

end Holdings

end Bulletin
