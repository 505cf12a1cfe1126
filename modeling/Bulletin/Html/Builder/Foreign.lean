import Bulletin.Html.Builder.Head

/-!
# Drawings and formulas

Inside a drawing or a formula tags keep their own vocabulary: names get back the capitals the
lexer took from them, some attributes are qualified, and only a few HTML tags break out.
-/

namespace Bulletin.Html

/-- The elements of a drawing whose names have capitals. -/
def drawingTags : List String :=
  ["altGlyph", "altGlyphDef", "altGlyphItem", "animateColor", "animateMotion",
   "animateTransform", "clipPath", "feBlend", "feColorMatrix", "feComponentTransfer",
   "feComposite", "feConvolveMatrix", "feDiffuseLighting", "feDisplacementMap",
   "feDistantLight", "feDropShadow", "feFlood", "feFuncA", "feFuncB", "feFuncG", "feFuncR",
   "feGaussianBlur", "feImage", "feMerge", "feMergeNode", "feMorphology", "feOffset",
   "fePointLight", "feSpecularLighting", "feSpotLight", "feTile", "feTurbulence",
   "foreignObject", "glyphRef", "linearGradient", "radialGradient", "textPath"]

/-- The attributes of a drawing whose names have capitals. -/
def drawingAttributes : List String :=
  ["attributeName", "attributeType", "baseFrequency", "baseProfile", "calcMode",
   "clipPathUnits", "diffuseConstant", "edgeMode", "filterUnits", "glyphRef",
   "gradientTransform", "gradientUnits", "kernelMatrix", "kernelUnitLength", "keyPoints",
   "keySplines", "keyTimes", "lengthAdjust", "limitingConeAngle", "markerHeight",
   "markerUnits", "markerWidth", "maskContentUnits", "maskUnits", "numOctaves", "pathLength",
   "patternContentUnits", "patternTransform", "patternUnits", "pointsAtX", "pointsAtY",
   "pointsAtZ", "preserveAlpha", "preserveAspectRatio", "primitiveUnits", "refX", "refY",
   "repeatCount", "repeatDur", "requiredExtensions", "requiredFeatures", "specularConstant",
   "specularExponent", "spreadMethod", "startOffset", "stdDeviation", "stitchTiles",
   "surfaceScale", "systemLanguage", "tableValues", "targetX", "targetY", "textLength",
   "viewBox", "viewTarget", "xChannelSelector", "yChannelSelector", "zoomAndPan"]

/-- The spelling in `names` that equals `name` up to capitals, or `name` itself. -/
def restoreCapitals (names : List String) (name : String) : String :=
  (names.find? (·.toLower == name)).getD name

/-- The attributes that are qualified outside HTML. -/
def qualifiedAttributes : List (String × AttributeName) :=
  [("xlink:actuate", ⟨.xlink, "actuate"⟩), ("xlink:arcrole", ⟨.xlink, "arcrole"⟩),
   ("xlink:href", ⟨.xlink, "href"⟩), ("xlink:role", ⟨.xlink, "role"⟩),
   ("xlink:show", ⟨.xlink, "show"⟩), ("xlink:title", ⟨.xlink, "title"⟩),
   ("xlink:type", ⟨.xlink, "type"⟩), ("xml:lang", ⟨.xml, "lang"⟩),
   ("xml:space", ⟨.xml, "space"⟩), ("xmlns", ⟨.binding, "xmlns"⟩),
   ("xmlns:xlink", ⟨.prefixBinding, "xlink"⟩)]

def attributeNameIn (space : Namespace) (name : String) : AttributeName :=
  match space with
  | .html => ⟨.plain, name⟩
  | .svg => qualify (restoreCapitals drawingAttributes name)
  | .math => qualify (restoreCapitals ["definitionURL"] name)
where
  qualify (name : String) : AttributeName :=
    ((qualifiedAttributes.find? (·.1 == name)).map (·.2)).getD ⟨.plain, name⟩

def Tag.attributesIn (space : Namespace) (t : Tag) : List Attribute :=
  t.attributes.map fun (name, value) => ⟨attributeNameIn space name, value⟩

namespace Build

/-- Makes an element of a drawing or a formula, which stays open unless its tag closes itself. -/
def insertForeign (space : Namespace) (tag : String) (t : Tag) : Build (List Token) := do
  let e ← insert ⟨space, tag⟩ (t.attributesIn space)
  if !t.selfClosing then push e
  done

/-- A tag inside a drawing or a formula. -/
def foreignElement (t : Tag) : Build (List Token) := do
  let space := (← current).space
  let tag := if space == .svg then restoreCapitals drawingTags t.name else t.name
  insertForeign space tag t

/-- HTML tags that end a drawing or a formula. -/
def breakoutTags : List String :=
  ["b", "big", "blockquote", "body", "br", "center", "code", "dd", "div", "dl", "dt", "em",
   "embed", "h1", "h2", "h3", "h4", "h5", "h6", "head", "hr", "i", "img", "li", "listing",
   "menu", "meta", "nobr", "ol", "p", "pre", "ruby", "s", "small", "span", "strong", "strike",
   "sub", "sup", "table", "tt", "u", "ul", "var"]

/-- Whether a start tag ends a drawing or a formula. -/
def breaksOut (t : Tag) : Bool :=
  breakoutTags.contains t.name ||
    (t.name == "font" && t.attributes.any fun a => ["color", "face", "size"].contains a.1)

/-- Whether a token belongs to the drawing or formula that is open. -/
def isForeign (token : Token) : Build Bool := do
  match (← get).stack with
  | [] => return false
  | e :: _ =>
    if e.name.space == .html then return false
    match token with
    | .endOfFile => return false
    | .text _ | .null => return !(e.name.holdsMathText || e.name.holdsHtml)
    | .startTag t =>
      return !((e.name.holdsMathText && t.name != "mglyph" && t.name != "malignmark") ||
        e.name.holdsHtml || (e.name == ⟨.math, "annotation-xml"⟩ && t.name == "svg"))
    | _ => return true

/-- The open elements that an end tag in a drawing or a formula leaves open, looking outwards as
far as the first HTML element; `none` when that comes first. The document element stays. -/
def foreignEnd (tag : String) : List OpenElement → Option (Option (List OpenElement))
  | [] => some none
  | [_] => some none
  | e :: around :: rest =>
    if e.name.tag.toLower == tag then some (some (around :: rest))
    else if around.name.space == .html && !rest.isEmpty then none
    else foreignEnd tag (around :: rest)

/-- Inside a drawing or a formula. `rule` is what the mode says outside of one. -/
def foreignRule (rule : Rule) : Rule
  | .null => do addText "\ufffd"; done
  | .text s => do
    if s.toList.any (!isBlank ·) then keepBody
    addText s
    done
  | .comment s => do addComment s; done
  | .startTag t => if breaksOut t then breakOut (.startTag t) else foreignElement t
  | .endTag t => do
    if t.name == "br" || t.name == "p" then breakOut (.endTag t)
    else
      match foreignEnd t.name (← get).stack with
      | some (some stack) =>
        modify fun b => { b with stack }
        done
      | some none => done
      | none => rule (.endTag t)
  | token => rule token
where
  breakOut (token : Token) : Build (List Token) := do
    popTo fun name => name.space == .html || name.holdsMathText || name.holdsHtml
    rule token

end Build

end Bulletin.Html
