import Bulletin.Html.Builder.Table

/-!
# Building the tree

`Document.parse` reads the text of a whole document, as a browser with scripting would, into a
tree. No text is refused: what the rules do not expect is mended or dropped.

    Document.parse "<p>a<p>b"  has the body  [p [a], p [b]]

The tokens are taken one group at a time because the lexer's next step depends on the builder.
-/

namespace Bulletin.Html

namespace Build

def afterBodyRule : Rule
  | .text s => splitText s (fun blanks => do let _ ← inBodyRule (.text blanks)) (again .inBody)
  | .comment s => do
    match (← get).stack.getLast? with
    | some e => addCommentTo e.id s
    | none => pure ()
    done
  | .startTag t => if t.name == "html" then mergeHtml t else again .inBody (.startTag t)
  | .endTag t =>
    if t.name == "html" then do
      setMode .afterAfterBody
      done
    else again .inBody (.endTag t)
  | .endOfFile => done
  | token => again .inBody token

/-- Behind the document element. -/
def afterAfterBodyRule : Rule
  | .text s => splitText s (fun blanks => do let _ ← inBodyRule (.text blanks)) (again .inBody)
  | .comment s => do addCommentTo Forest.root s; done
  | .startTag t => if t.name == "html" then mergeHtml t else again .inBody (.startTag t)
  | .endOfFile => done
  | token => again .inBody token

/-- Text between frames: only blanks stay. -/
def dropWord : Rule := fun _ => done

/-- In a set of frames. -/
def inFramesetRule : Rule
  | .text s => splitText s addText dropWord
  | .comment s => do addComment s; done
  | .startTag t => do
    if t.name == "html" then mergeHtml t
    else if t.name == "frameset" then
      let _ ← insertTag t
      done
    else if t.name == "frame" then
      let _ ← insertClosed t
      done
    else if t.name == "noframes" then headElement t
    else done
  | .endTag t => do
    if t.name == "frameset" && 1 < (← get).stack.length then
      pop
      if !(← currentIs "frameset") then setMode .afterFrameset
    done
  | _ => done

/-- Behind the frames. -/
def afterFramesetRule : Rule
  | .text s => splitText s addText dropWord
  | .comment s => do addComment s; done
  | .startTag t =>
    if t.name == "html" then mergeHtml t
    else if t.name == "noframes" then headElement t
    else done
  | .endTag t => do
    if t.name == "html" then setMode .afterAfterFrameset
    done
  | _ => done

/-- Behind a document element of frames. -/
def afterAfterFramesetRule : Rule
  | .text s => splitText s (fun blanks => do let _ ← inBodyRule (.text blanks)) dropWord
  | .comment s => do addCommentTo Forest.root s; done
  | .startTag t =>
    if t.name == "html" then mergeHtml t
    else if t.name == "noframes" then headElement t
    else done
  | _ => done

def ruleOf : Mode → Rule
  | .initial => initialRule
  | .beforeHtml => beforeHtmlRule
  | .beforeHead => beforeHeadRule
  | .inHead => inHeadRule
  | .afterHead => afterHeadRule
  | .inBody => inBodyRule
  | .text => textRule
  | .inTable => inTableRule
  | .inTableText => inTableTextRule
  | .inCaption => inCaptionRule
  | .inColumnGroup => inColumnGroupRule
  | .inTableBody => inTableBodyRule
  | .inRow => inRowRule
  | .inCell => inCellRule
  | .inSelect => inSelectRule
  | .inSelectInTable => inSelectInTableRule
  | .inTemplate => inTemplateRule
  | .afterBody => afterBodyRule
  | .inFrameset => inFramesetRule
  | .afterFrameset => afterFramesetRule
  | .afterAfterBody => afterAfterBodyRule
  | .afterAfterFrameset => afterAfterFramesetRule

/-- Handles one token by the rule of the mode, or as part of a drawing or formula. -/
def dispatch (token : Token) : Build (List Token) := do
  let rule := ruleOf (← get).mode
  if ← isForeign token then foreignRule rule token else rule token

/-- Handles tokens until none is left over. -/
def settle : Nat → List Token → Build Unit
  | 0, _ => return
  | _, [] => return
  | fuel + 1, token :: rest => do
    let more ← dispatch token
    settle fuel (more ++ rest)

/-- How often a token can be handed on: from mode to mode, and once for each open element and
each character of a text. -/
def patience (token : Token) : Build Nat := do
  let length := match token with
    | .text s => s.length
    | _ => 0
  return 64 + 4 * (length + (← get).stack.length)

/-! ## Declarations -/

/-- Whether a declaration leaves the rules of old browsers in force, by which a table does not end
the paragraph before it. Identifiers of old versions of HTML make no difference here. -/
def asksForOldRules (d : Doctype) : Bool := d.broken || d.name != some "html"

/-- A declaration, which counts only before everything else. -/
def declare (d : Doctype) : Build Unit := do
  if (← get).mode == .initial then
    let id ← make (.doctype (d.name.getD ""))
    onForest (·.append Forest.root id)
    modify fun b => { b with tablesInParagraphs := asksForOldRules d, mode := .beforeHtml }

/-! ## The whole document -/

def accept (token : Token) : Build Unit := do
  let skip := (← get).skipNewline
  modify fun b => { b with skipNewline := false }
  match token with
  | .doctype d => declare d
  | .text s =>
    let cs := if skip && s.toList.head? == some '\n' then s.toList.drop 1 else s.toList
    settle (← patience token) (textTokens cs)
  | .startTag t =>
    modify fun b => { b with context := { b.context with kind := .data, lastStart := t.name } }
    settle (← patience token) [token]
  | .endTag _ =>
    modify fun b => { b with context := { b.context with kind := .data } }
    settle (← patience token) [token]
  | .malformed => return
  | _ => settle (← patience token) [token]

/-- Whether a `CDATA` section may begin: only inside a drawing or a formula. -/
def allowsSections (b : Builder) : Bool :=
  match b.stack with
  | e :: _ => e.name.space != .html
  | [] => false

/-- Whether the tokens end a script. The text behind one is read like a text of its own, which may
begin with a byte order mark. -/
def endsScript (b : Builder) (tokens : List Token) : Bool :=
  b.mode == .text && tokens.any fun
    | .endTag t => t.name == "script"
    | _ => false

/-- Reads the rest of the text. Each round but the last takes a character at least. -/
def readAll : Nat → List Char → Builder → Builder
  | 0, _, b => b
  | fuel + 1, input, b =>
    let (tokens, rest) := Lexer.next { b.context with sections := allowsSections b } input
    let rest := if endsScript b tokens then Lexer.withoutMark rest else rest
    let b := ((tokens.forM accept).run b).2
    if tokens.contains .endOfFile then b else readAll fuel rest b

end Build

def Document.parse (text : String) : Document :=
  let input := Lexer.source text
  (Build.readAll (input.length + 1) input {}).forest.toDocument

end Bulletin.Html
