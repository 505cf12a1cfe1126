import Bulletin.Html.Builder.State

/-!
# Closing a formatting element out of turn

In `<b><p>x</b>y` the end tag closes `b` while `p` is still open. The tree is then rearranged so
that both keep their meaning: the paragraph moves out, and copies of the formatting between the
two go around what it held. `adopt` carries this out for an end tag; where nothing is misplaced it
just closes the element.
-/

namespace Bulletin.Html.Build

/-- The open elements around the nearest one called `tag`, unless a special one is nearer. -/
def beyondOrdinary? (tag : String) : List OpenElement → Option (List OpenElement)
  | [] => none
  | e :: rest =>
    if e.name.isHtml tag then some rest
    else if e.name.isSpecial then none
    else beyondOrdinary? tag rest

/-- Closes an element that has no rule of its own; a stray end tag does nothing. -/
def closeOrdinary (tag : String) : Build Unit :=
  modify fun b =>
    match beyondOrdinary? tag b.stack with
    | some stack => { b with stack }
    | none => b

/-- The open elements inside `id`, innermost first, the element, and those around it. -/
def splitAtOpen? (id : NodeId) :
    List OpenElement → Option (List OpenElement × OpenElement × List OpenElement)
  | [] => none
  | e :: rest =>
    if e.id == id then some ([], e, rest)
    else (splitAtOpen? id rest).map fun (inner, x, outer) => (e :: inner, x, outer)

/-- The tag a formatting element was made from. -/
def formattingTag? (id : NodeId) : List Formatting → Option Tag
  | [] => none
  | .element other t :: rest => if other == id then some t else formattingTag? id rest
  | .marker :: rest => formattingTag? id rest

/-- What is left of the elements between a formatting element and the block inside it. -/
structure Between where
  /-- The copies that stay open, innermost first. -/
  kept : List OpenElement
  /-- The outermost node of the part that moves. -/
  outermost : NodeId
  /-- The formatting entry the new one goes behind. -/
  bookmark : Option NodeId

/-- Wraps the block `furthest` into copies of the elements around it, working outwards. From the
fourth element on, and where an element is no formatting, it is closed instead. -/
def wrapBetween (furthest : NodeId) : Nat → NodeId → Option NodeId → List OpenElement →
    Build Between
  | _, outermost, bookmark, [] => return ⟨[], outermost, bookmark⟩
  | count, outermost, bookmark, e :: rest => do
    if 3 ≤ count then
      dropFormatting e.id
      wrapBetween furthest (count + 1) outermost bookmark rest
    else
      match formattingTag? e.id (← get).formatting with
      | none => wrapBetween furthest (count + 1) outermost bookmark rest
      | some t =>
        let copy ← make (.element (.html t.name) t.plainAttributes)
        replaceFormatting e.id (.element copy t)
        let bookmark := if outermost == furthest then some copy else bookmark
        onForest (·.append copy outermost)
        let b ← wrapBetween furthest (count + 1) copy bookmark rest
        return { b with kept := ⟨copy, .html t.name⟩ :: b.kept }

/-- Puts the new formatting entry where the bookmark says, in the place of the old one. -/
def moveFormatting (old : NodeId) (entry : Formatting) (bookmark : Option NodeId) :
    Build Unit := do
  match bookmark with
  | none => replaceFormatting old entry
  | some mark =>
    modify fun b =>
      { b with
        formatting :=
          b.formatting.flatMap fun e => if e.holds mark then [entry, e] else [e] }
    dropFormatting old

/-- One round of the rearrangement; whether another may be needed. -/
def adoptOnce (tag : String) : Build Bool := do
  match (← recentFormatting).find? fun (_, t) => t.name == tag with
  | none =>
    closeOrdinary tag
    return false
  | some (id, t) =>
    match splitAtOpen? id (← get).stack with
    | none =>
      dropFormatting id
      return false
    | some (inner, element, outer) =>
      if !(← inScope ElementName.boundsScope (·.id == id)) then return false
      let (near, far) := inner.reverse.span fun e => !e.name.isSpecial
      match far with
      | [] =>
        modify fun b => { b with stack := outer }
        dropFormatting id
        return false
      | furthest :: above =>
        let b ← wrapBetween furthest.id 0 furthest.id none near.reverse
        modify fun s =>
          { s with stack := above.reverse ++ furthest :: b.kept ++ element :: outer }
        onForest (·.detach b.outermost)
        putAt (← place outer.head?) b.outermost
        let copy ← make (.element (.html t.name) t.plainAttributes)
        onForest fun f => (f.moveChildren furthest.id copy).append furthest.id copy
        moveFormatting id (.element copy t) b.bookmark
        modify fun s =>
          { s with
            stack := above.reverse ++ ⟨copy, .html t.name⟩ :: furthest :: b.kept ++ outer }
        return true

/-- Rounds of the rearrangement, at most so many. -/
def adoptRounds (tag : String) : Nat → Build Unit
  | 0 => return
  | n + 1 => do
    if ← adoptOnce tag then adoptRounds tag n

/-- Handles the end tag of a formatting element. -/
def adopt (tag : String) : Build Unit := do
  let b ← get
  match b.stack with
  | e :: _ =>
    if e.name.isHtml tag && !b.formatting.any (·.holds e.id) then pop else adoptRounds tag 8
  | [] => adoptRounds tag 8

/-- A link cannot stand inside a link: closes the one that is open. -/
def closeOpenLink : Build Unit := do
  match (← recentFormatting).find? fun (_, t) => t.name == "a" with
  | none => return
  | some (id, _) =>
    adopt "a"
    dropFormatting id
    dropOpen id

end Bulletin.Html.Build
