import Bulletin.Html.Builder
import Bulletin.Section.CommonNames
import Bulletin.Section.Greeting
import Bulletin.Section.SelfReference

/-!
# Dividing a bulletin into sections

A bulletin is a run of elements in the body of a page. A section begins at a heading and at the
element that holds the anchor of the footer, and goes on to the next such element:

    <p>Hello</p>                          greeting, which needs no heading
    <h2><a name="news"></a>News</h2>      news
    <table>…</table>
    <p><a name="footer"></a>Bye</p>       footer, which goes on to the end
    <sub>…</sub>

A section is named by the `name` of the first element inside the one that opens it, and titled by
the text of that element. A bulletin without a footer, or with an opening element that names
nothing, cannot be divided.
-/

namespace Bulletin

/-- Why a bulletin cannot be divided. -/
inductive DivisionError where
  /-- The header has no `<head>`. -/
  | noHead
  /-- What follows the section has no name. -/
  | unnamed (after : String)
  deriving DecidableEq, Repr, Inhabited

/-- Where the page begins inside a header. -/
def headMarker : String := "<head>"

/-- The name of the section before the first opening element. -/
def greetingName : String := "greeting"

def footerName : String := "footer"

namespace Division

open Html (Element Document)

def isFooterAnchor (e : Element) : Bool :=
  e.name.tag == "a" && e.attribute? "name" == some footerName

def opens (e : Element) : Bool :=
  Html.headingTags.contains e.name.tag || e.childElements.any isFooterAnchor

def name? (e : Element) : Option String := e.childElements.head?.bind (·.attribute? "name")

def written (elements : List Element) : String := String.join (elements.map Element.outer)

/-- The sections from one on whose elements, as far as they have been read, are `html`. -/
def sectionsFrom (audience : String → Audience) (name title html : String) :
    List Element → Except DivisionError (List Section)
  | [] =>
    if name = footerName then .ok [⟨name, "Footer", html, audience name⟩]
    else .error (.unnamed name)
  | e :: rest =>
    if name = footerName then
      .ok [⟨name, "Footer", html ++ written (e :: rest), audience name⟩]
    else if opens e then
      match name? e with
      | none => .error (.unnamed name)
      | some next =>
        (sectionsFrom audience next e.content e.outer rest).map
          (⟨name, title, html, audience name⟩ :: ·)
    else sectionsFrom audience name title (html ++ e.outer) rest

/-- The elements that stand directly in the body of a document. -/
def topLevel (d : Document) : List Element :=
  match d.first? "body" with
  | some body => body.childElements
  | none => []

def ofDocument (d : Document) : Except DivisionError (List Section) :=
  match topLevel d with
  | [] => .ok []
  | first :: rest =>
    sectionsFrom (CommonNames.ofDocument d).audience greetingName "Greeting"
      (withGreetingAnchor first) rest

end Division

/-- The page a user was sent: from the marker in the header on, with neutral references. -/
def page (header body : String) (period : Period) (user : String) : Except DivisionError String :=
  match Text.from? headMarker.toList header.toList with
  | some start => .ok (neutralize period user (String.ofList start ++ body))
  | none => .error .noHead

/-- The sections of one user's bulletin, in order. -/
def divide (header body : String) (period : Period) (user : String) :
    Except DivisionError (List Section) := do
  let text ← page header body period user
  Division.ofDocument (Html.Document.parse text)

end Bulletin
