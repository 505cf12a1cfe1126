import Bulletin.Html.Node
import Bulletin.Text.Split

/-!
# The anchor of the greeting

The greeting has no heading of its own, so its first element gets an anchor as its first child:

    withGreetingAnchor (el "p" [text "Hi"]) = "<p><a name=\"greeting\"></a>Hi</p>"
    withGreetingAnchor (el "br" [])         = "<a name=\"greeting\"></a><br>"

An element in whose text the contents cannot be told from the start tag gets the anchor in front.
-/

namespace Bulletin

/-- The anchor by which the greeting is found. -/
def greetingAnchor : String := "<a name=\"greeting\"></a>"

/-- The text of an element with the anchor put in. -/
def withGreetingAnchor (e : Html.Element) : String :=
  let closing := Html.endTag e.name
  let inner := e.inner
  match (Text.beforeTail? closing.toList e.outer.toList).bind (Text.beforeTail? inner.toList) with
  | some opening => String.ofList opening ++ greetingAnchor ++ inner ++ closing
  | none => greetingAnchor ++ e.outer

end Bulletin
