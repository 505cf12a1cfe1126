import Bulletin.Html.Node

/-!
# Nodes under construction

While a document is read its nodes still move: misplaced content leaves a table, and closing a
formatting element out of turn takes a part of the tree to another place. So the nodes are kept in
a numbered store in which each knows its parent and its children; node 0 is the document. `toNode`
reads a finished tree off the store.
-/

namespace Bulletin.Html

/-- The number of a node under construction. -/
abbrev NodeId := Nat

/-- What a node is, its relations apart. -/
inductive Content where
  | document
  | doctype (name : String)
  | comment (s : String)
  | text (s : String)
  | element (name : ElementName) (attributes : List Attribute)
  deriving Inhabited

/-- A node under construction. -/
structure Cell where
  content : Content
  parent : Option NodeId := none
  children : Array NodeId := #[]
  deriving Inhabited

/-- All nodes under construction. -/
structure Forest where
  cells : Array Cell
  deriving Inhabited

namespace Forest

def empty : Forest := ⟨#[{ content := .document }]⟩

def root : NodeId := 0

def cell (f : Forest) (id : NodeId) : Cell := f.cells.getD id { content := .document }

def modify (f : Forest) (id : NodeId) (change : Cell → Cell) : Forest :=
  ⟨f.cells.modify id change⟩

/-- Adds a node that stands nowhere yet. -/
def add (f : Forest) (content : Content) : Forest × NodeId :=
  (⟨f.cells.push { content }⟩, f.cells.size)

def parent? (f : Forest) (id : NodeId) : Option NodeId := (f.cell id).parent

/-- Takes a node, with all below it, out of where it stands. -/
def detach (f : Forest) (id : NodeId) : Forest :=
  match f.parent? id with
  | none => f
  | some p =>
    (f.modify p fun c => { c with children := c.children.filter (· != id) }).modify id
      fun c => { c with parent := none }

def append (f : Forest) (parent id : NodeId) : Forest :=
  ((f.detach id).modify parent fun c => { c with children := c.children.push id }).modify id
    fun c => { c with parent := some parent }

/-- Puts a node right before its new sibling; without a parent there is no such place. -/
def insertBefore (f : Forest) (sibling id : NodeId) : Forest :=
  let f := f.detach id
  match f.parent? sibling with
  | none => f
  | some p =>
    (f.modify p fun c =>
      { c with children := c.children.flatMap fun x => if x == sibling then #[id, x] else #[x] }
      ).modify id fun c => { c with parent := some p }

/-- Makes text the last child of `parent`, joined to text that ends it already. -/
def appendText (f : Forest) (parent : NodeId) (s : String) : Forest :=
  match (f.cell parent).children.back? with
  | some last =>
    match (f.cell last).content with
    | .text t => f.modify last fun c => { c with content := .text (t ++ s) }
    | _ => let (f, id) := f.add (.text s); f.append parent id
  | none => let (f, id) := f.add (.text s); f.append parent id

def insertTextBefore (f : Forest) (sibling : NodeId) (s : String) : Forest :=
  let (f, id) := f.add (.text s)
  f.insertBefore sibling id

def moveChildren (f : Forest) (source target : NodeId) : Forest :=
  (f.cell source).children.foldl (fun f id => f.append target id) f

/-- Gives an element the attributes it lacks. -/
def addAttributes (f : Forest) (id : NodeId) (more : List Attribute) : Forest :=
  f.modify id fun c =>
    match c.content with
    | .element name attributes =>
      let new := more.filter fun a => attributes.all (·.name != a.name)
      { c with content := .element name (attributes ++ new) }
    | _ => c

/-- The tree below a node. Trees are no higher than the number of nodes, which is the fuel. -/
def toNode (f : Forest) : Nat → NodeId → Node
  | 0, _ => .text ""
  | fuel + 1, id =>
    let c := f.cell id
    match c.content with
    | .document => .text ""
    | .doctype name => .doctype name
    | .comment s => .comment s
    | .text s => .text s
    | .element name attributes =>
      .element name (Attribute.arrange attributes) (c.children.toList.map (f.toNode fuel))

def toDocument (f : Forest) : Document :=
  ⟨(f.cell root).children.toList.map (f.toNode f.cells.size)⟩

end Forest

end Bulletin.Html
