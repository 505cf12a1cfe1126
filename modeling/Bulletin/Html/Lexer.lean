import Bulletin.Html.Token
import Bulletin.Html.Reference

/-!
# Cutting a document into tokens

`next` takes the tokens at the front of the text. How the text is read depends on where the tree
builder stands, so it is told the kind of text, the last start tag (which alone can close a raw
text), and whether a `CDATA` section may begin here:

    next {} "<p>x".toList          = ([startTag p], "x")
    next {} "x<p>".toList          = ([text "x"], "<p>")
    next {kind := .raw, lastStart := "style"} "a<b</style>".toList
                                   = ([text "a<b"], "</style>")

Each call but one at the end of the text takes at least one character, so a document of `n`
characters gives its tokens in at most `n + 1` calls. A tag that the end of the text cuts short
is dropped.
-/

namespace Bulletin.Html.Lexer

/-- What the tokens at the front of the text depend on. -/
structure Context where
  kind : TextKind := .data
  lastStart : String := ""
  sections : Bool := false
  deriving Inhabited

/-- Blanks inside tags. Line ends have become newlines before. -/
def isGap (c : Char) : Bool := c == ' ' || c == '\t' || c == '\n' || c == '\x0c'

/-- The replacement for U+0000. -/
def visible (c : Char) : Char := if c == '\x00' then '\ufffd' else c

/-- A character of a name, in lower case. -/
def nameChar (c : Char) : Char := visible c.toLower

/-- Characters as a string, U+0000 replaced. -/
def visibleText (cs : List Char) : String := String.ofList (cs.map visible)

/-- The rest of the text behind `word`, which is matched without regard to case. -/
def afterWord? : List Char → List Char → Option (List Char)
  | [], rest => some rest
  | _ :: _, [] => none
  | w :: word, c :: rest => if c.toLower == w then afterWord? word rest else none

/-- The rest of the text behind `word`, matched exactly. -/
def afterExact? : List Char → List Char → Option (List Char)
  | [], rest => some rest
  | _ :: _, [] => none
  | w :: word, c :: rest => if c == w then afterExact? word rest else none

/-! ## Tags -/

def endsName (c : Char) : Bool := isGap c || c == '/' || c == '>' || c == '='

/-- The value behind `=`, and the rest; `none` if the text ends inside it. -/
def value (input : List Char) : Option (List Char × List Char) :=
  match input.dropWhile isGap with
  | '"' :: rest =>
    match rest.span (· != '"') with
    | (v, _ :: rest) => some (v, rest)
    | (_, []) => none
  | '\'' :: rest =>
    match rest.span (· != '\'') with
    | (v, _ :: rest) => some (v, rest)
    | (_, []) => none
  | '>' :: rest => some ([], '>' :: rest)
  | input => some (input.span fun c => !isGap c && c != '>')

/-- An attribute value with its references decoded. -/
def valueText (v : List Char) : String :=
  String.ofList (Reference.decode true (v.map visible))

/-- Adds an attribute unless its name is there already. -/
def addAttribute (attributes : List (String × String)) (name value : String) :
    List (String × String) :=
  if attributes.any (·.1 == name) then attributes else attributes ++ [(name, value)]

/-- The attributes of a tag up to its `>`, whether it closes itself, and the rest of the text. Each
round takes a character, so that as many rounds are enough as there are in the first text. -/
def attributes : List Char → List (String × String) → List Char →
    Option (List (String × String) × Bool × List Char)
  | _, _, [] => none
  | _, found, '>' :: rest => some (found, false, rest)
  | _, found, '/' :: '>' :: rest => some (found, true, rest)
  | [], _, _ => none
  | _ :: rounds, found, c :: rest =>
    if isGap c || c == '/' then attributes rounds found rest
    else
      let (tail, rest) := rest.span (!endsName ·)
      let name := String.ofList ((c :: tail).map nameChar)
      match rest.dropWhile isGap with
      | '=' :: rest =>
        match value rest with
        | some (v, rest) => attributes rounds (addAttribute found name (valueText v)) rest
        | none => none
      | rest => attributes rounds (addAttribute found name "") rest

/-- A tag from its name on, and the rest; `none` if the text ends inside it. -/
def tag (input : List Char) : Option (Tag × List Char) :=
  let (name, rest) := input.span fun c => !isGap c && c != '/' && c != '>'
  (attributes rest [] rest).map fun (found, closes, rest) =>
    (⟨String.ofList (name.map nameChar), found, closes⟩, rest)

/-- The end tag `</name` in front of the text, if something that ends a name follows. -/
def closes (name : List Char) : List Char → Bool
  | '<' :: '/' :: rest =>
    match afterWord? name rest with
    | some (c :: _) => isGap c || c == '/' || c == '>'
    | _ => false
  | _ => false

/-- The end tag whose name is in front of the text. -/
def closingTag (input : List Char) : List Token × List Char :=
  match tag input with
  | some (t, rest) => ([.endTag ⟨t.name, [], false⟩], rest)
  | none => ([.endOfFile], [])

/-! ## Comments and declarations -/

/-- How much of the end of a comment has been read. -/
inductive CommentState where
  | start
  | startDash
  | body
  | dash
  | dashes
  | bang

/-- A comment up to its end, gathered in reverse. -/
def comment : CommentState → List Char → List Char → List Char × List Char
  | _, text, [] => (text, [])
  | .start, text, '>' :: rest => (text, rest)
  | .start, text, '-' :: rest => comment .startDash text rest
  | .start, text, c :: rest => comment .body (visible c :: text) rest
  | .startDash, text, '>' :: rest => (text, rest)
  | .startDash, text, '-' :: rest => comment .dashes text rest
  | .startDash, text, c :: rest => comment .body (visible c :: '-' :: text) rest
  | .body, text, '-' :: rest => comment .dash text rest
  | .body, text, c :: rest => comment .body (visible c :: text) rest
  | .dash, text, '-' :: rest => comment .dashes text rest
  | .dash, text, c :: rest => comment .body (visible c :: '-' :: text) rest
  | .dashes, text, '>' :: rest => (text, rest)
  | .dashes, text, '!' :: rest => comment .bang text rest
  | .dashes, text, '-' :: rest => comment .dashes ('-' :: text) rest
  | .dashes, text, c :: rest => comment .body (visible c :: '-' :: '-' :: text) rest
  | .bang, text, '>' :: rest => (text, rest)
  | .bang, text, '-' :: rest => comment .dash ('!' :: '-' :: '-' :: text) rest
  | .bang, text, c :: rest => comment .body (visible c :: '!' :: '-' :: '-' :: text) rest

/-- The text up to the next `>`, which is dropped. -/
def upToBracket (input : List Char) : List Char × List Char :=
  let (text, rest) := input.span (· != '>')
  (text, rest.drop 1)

/-- Anything that looks like markup and is none becomes a comment. -/
def bogusComment (input : List Char) : List Token × List Char :=
  let (text, rest) := upToBracket input
  ([.comment (visibleText text)], rest)

/-- A quoted identifier of a declaration: the text, whether its quote was closed, the rest. -/
def identifier (quote : Char) (input : List Char) : String × Bool × List Char :=
  let (text, rest) := input.span fun c => c != quote && c != '>'
  match rest with
  | c :: tail => (visibleText text, c == quote, if c == quote then tail else rest)
  | [] => (visibleText text, false, [])

/-- Whether a character opens a quoted identifier. -/
def isQuote (c : Char) : Bool := c == '"' || c == '\''

/-- The end of a declaration behind its system identifier. -/
def doctypeTail (d : Doctype) (input : List Char) : Doctype × List Char :=
  match input.dropWhile isGap with
  | [] => (⟨d.name, d.publicId, d.systemId, true⟩, [])
  | rest => (d, (upToBracket rest).2)

/-- The system identifier of a declaration, if one stands here. -/
def doctypeSystem (d : Doctype) (required : Bool) (input : List Char) : Doctype × List Char :=
  match input.dropWhile isGap with
  | '>' :: rest => (⟨d.name, d.publicId, d.systemId, d.broken || required⟩, rest)
  | c :: rest =>
    if isQuote c then
      let (text, closed, rest) := identifier c rest
      let d : Doctype := ⟨d.name, d.publicId, some text, d.broken || !closed⟩
      if closed then doctypeTail d rest else (d, (upToBracket rest).2)
    else (⟨d.name, d.publicId, d.systemId, true⟩, (upToBracket rest).2)
  | [] => (⟨d.name, d.publicId, d.systemId, true⟩, [])

/-- The identifiers of a declaration, behind its name. -/
def doctypeIdentifiers (d : Doctype) (input : List Char) : Doctype × List Char :=
  match input.dropWhile isGap with
  | [] => (⟨d.name, none, none, true⟩, [])
  | '>' :: rest => (d, rest)
  | input =>
    match afterWord? "public".toList input, afterWord? "system".toList input with
    | some rest, _ =>
      match rest.dropWhile isGap with
      | c :: rest =>
        if isQuote c then
          let (text, closed, rest) := identifier c rest
          let d : Doctype := ⟨d.name, some text, none, d.broken || !closed⟩
          if closed then doctypeSystem d false rest else (d, (upToBracket rest).2)
        else (⟨d.name, none, none, true⟩, (upToBracket (c :: rest)).2)
      | [] => (⟨d.name, none, none, true⟩, [])
    | none, some rest => doctypeSystem d true rest
    | none, none => (⟨d.name, none, none, true⟩, (upToBracket input).2)

/-- A declaration behind the word that opens it. -/
def doctype (input : List Char) : Doctype × List Char :=
  match input.dropWhile isGap with
  | [] => (⟨none, none, none, true⟩, [])
  | '>' :: rest => (⟨none, none, none, true⟩, rest)
  | input =>
    let (name, rest) := input.span fun c => !isGap c && c != '>'
    doctypeIdentifiers ⟨some (String.ofList (name.map nameChar)), none, none, false⟩ rest

/-! ## Text -/

/-- Text as it is, as a token unless it is empty. -/
def plainText (cs : List Char) : List Token :=
  if cs.isEmpty then [] else [.text (String.ofList cs)]

/-- Text in which references count. Where it begins with a malformed one, that is noted in front. -/
def referencedText (cs : List Char) : List Token :=
  if cs.isEmpty then []
  else
    let text := [.text (String.ofList (Reference.decode false cs))]
    if Reference.startsUnclosed cs then .malformed :: text else text

/-- The text before the end tag `</name`, and the rest. -/
def beforeClosing (name : List Char) : List Char → List Char → List Char × List Char
  | text, [] => (text.reverse, [])
  | text, c :: rest =>
    if closes name (c :: rest) then (text.reverse, c :: rest)
    else beforeClosing name (visible c :: text) rest

/-- How deep a script is inside comment marks. -/
inductive ScriptDepth where
  | outside
  | escaped
  | doubled
  deriving DecidableEq

/-- Whether `word` and something that ends a name stand in front. -/
def startsName (word : List Char) (input : List Char) : Bool :=
  match afterWord? word input with
  | some (c :: _) => isGap c || c == '/' || c == '>'
  | _ => false

/-- The text of a script before its end tag. Inside `<!--` a nested `<script>` shields the end
tag; `dashes` counts the dashes just read. -/
def script : ScriptDepth → Nat → List Char → List Char → List Char × List Char
  | _, _, text, [] => (text.reverse, [])
  | depth, dashes, text, c :: rest =>
    if c == '<' then
      if depth != .doubled && closes "script".toList (c :: rest) then (text.reverse, c :: rest)
      else
        let depth :=
          match depth with
          | .outside => if (afterExact? "!--".toList rest).isSome then .escaped else .outside
          | .escaped => if startsName "script".toList rest then .doubled else .escaped
          | .doubled => if startsName "/script".toList rest then .escaped else .doubled
        script depth 0 (c :: text) rest
    else if c == '-' then script depth (dashes + 1) (c :: text) rest
    else if c == '>' && 2 ≤ dashes then script .outside 0 (c :: text) rest
    else script depth 0 (visible c :: text) rest

/-- The tokens of a `CDATA` section, its text gathered in reverse. -/
def cdata (text : List Char) : List Char → List Token × List Char
  | [] => (plainText text.reverse, [])
  | ']' :: ']' :: '>' :: rest => (plainText text.reverse, rest)
  | '\x00' :: rest =>
    let (tokens, rest) := cdata [] rest
    (plainText text.reverse ++ .null :: tokens, rest)
  | c :: rest => cdata (c :: text) rest

/-! ## The next tokens -/

/-- Markup behind `<!`. -/
def declaration (sections : Bool) (input : List Char) : List Token × List Char :=
  match afterExact? "--".toList input with
  | some rest =>
    let (text, rest) := comment .start [] rest
    ([.comment (String.ofList text.reverse)], rest)
  | none =>
    match afterWord? "doctype".toList input with
    | some rest =>
      let (d, rest) := doctype rest
      ([.doctype d], rest)
    | none =>
      match if sections then afterExact? "[CDATA[".toList input else none with
      | some rest => cdata [] rest
      | none => bogusComment input

/-- Markup or text behind `<`. -/
def markup (sections : Bool) : List Char → List Token × List Char
  | '!' :: rest => declaration sections rest
  | '?' :: rest => bogusComment ('?' :: rest)
  | '/' :: c :: rest =>
    if c.isAlpha then closingTag (c :: rest)
    else if c == '>' then ([.malformed], rest)
    else bogusComment (c :: rest)
  | ['/'] => ([.text "</"], [])
  | c :: rest =>
    if c.isAlpha then
      match tag (c :: rest) with
      | some (t, rest) => ([.startTag t], rest)
      | none => ([.endOfFile], [])
    else ([.text "<"], c :: rest)
  | [] => ([.text "<"], [])

/-- Text in front of the closing tag of a raw text, or that tag itself. -/
def closed (name : String) (text : List Token) (rest : List Char) : List Token × List Char :=
  if text.isEmpty then
    if closes name.toList rest then closingTag (rest.drop 2) else ([.endOfFile], [])
  else (text, rest)

/-- The tokens at the front of the text, and the rest of it. -/
def next (context : Context) (input : List Char) : List Token × List Char :=
  match input with
  | [] => ([.endOfFile], [])
  | c :: rest =>
    match context.kind with
    | .data =>
      if c == '<' then markup context.sections rest
      else if c == '\x00' then ([.null], rest)
      else
        let (text, rest) := input.span fun c => c != '<' && c != '\x00'
        (referencedText text, rest)
    | .referenced =>
      let (text, rest) := beforeClosing context.lastStart.toList [] input
      closed context.lastStart (referencedText text) rest
    | .raw =>
      let (text, rest) := beforeClosing context.lastStart.toList [] input
      closed context.lastStart (plainText text) rest
    | .script =>
      let (text, rest) := script .outside 0 [] input
      closed context.lastStart (plainText text) rest
    | .plain => (plainText (input.map visible), [])

/-- Every line end as one newline. -/
def newlines : List Char → List Char
  | '\r' :: '\n' :: rest => '\n' :: newlines rest
  | '\r' :: rest => '\n' :: newlines rest
  | c :: rest => c :: newlines rest
  | [] => []

/-- Text without the byte order mark it may begin with. -/
def withoutMark : List Char → List Char
  | '\ufeff' :: rest => rest
  | rest => rest

/-- A document's text as it is read: without a byte order mark, with plain line ends. -/
def source (text : String) : List Char := withoutMark (newlines text.toList)

end Bulletin.Html.Lexer
