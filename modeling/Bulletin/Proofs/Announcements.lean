import Bulletin.Proofs.Classification

/-!
# An anchor anywhere in the page makes a name common

Whether a section is for everyone is decided by its name and by the whole page, so that it makes no
difference where in the page the anchor for the problems of that name stands: in front of the
section, in it or behind it, and below whatever other elements:

    Holds                 : an element is at some depth below nodes
    mem_elementsAll_iff   : the elements of nodes are those that they hold
    audience_iff_in_page  : the rule, for documents and for the sections of a bulletin
-/

namespace Bulletin

/-! ## Elements at any depth -/

namespace Html

/-- An element is one of the nodes, or below one of them. -/
inductive Holds : List Node → Element → Prop
  | among {nodes : List Node} {e : Element} (member : e.toNode ∈ nodes) : Holds nodes e
  | within {nodes : List Node} {e outer : Element} (member : outer.toNode ∈ nodes)
      (later : Holds outer.children e) : Holds nodes e

theorem Holds.mono {nodes more : List Node} {e : Element} (h : Holds nodes e)
    (hmore : nodes ⊆ more) : Holds more e := by
  cases h with
  | among member => exact .among (hmore member)
  | within member later => exact .within (hmore member) later

theorem elementsAll_eq_flatMap (nodes : List Node) :
    Node.elementsAll nodes = nodes.flatMap Node.elements := by
  induction nodes with
  | nil => rfl
  | cons n rest ih => rw [Node.elementsAll, ih, List.flatMap_cons]

theorem elements_toNode (e : Element) :
    e.toNode.elements = e :: Node.elementsAll e.children := by
  cases e
  rw [Element.toNode, Node.elements]

theorem mem_elementsAll_of_holds {nodes : List Node} {e : Element} (h : Holds nodes e) :
    e ∈ Node.elementsAll nodes := by
  induction h with
  | among member =>
    rw [elementsAll_eq_flatMap, List.mem_flatMap]
    exact ⟨_, member, by rw [elements_toNode]; exact List.mem_cons_self⟩
  | within member later ih =>
    rw [elementsAll_eq_flatMap, List.mem_flatMap]
    exact ⟨_, member, by rw [elements_toNode]; exact List.mem_cons_of_mem _ ih⟩

mutual

theorem holds_of_mem_elements {e : Element} :
    ∀ n : Node, e ∈ n.elements → Holds [n] e
  | .doctype _, h | .comment _, h | .text _, h => by simp [Node.elements] at h
  | .element name attributes children, h => by
    rw [Node.elements] at h
    rcases List.mem_cons.mp h with rfl | hbelow
    · exact .among List.mem_cons_self
    · have hmember : Element.toNode ⟨name, attributes, children⟩ ∈
          [Node.element name attributes children] := List.mem_cons_self
      exact .within hmember (holds_of_mem_elementsAll children hbelow)

theorem holds_of_mem_elementsAll {e : Element} :
    ∀ nodes : List Node, e ∈ Node.elementsAll nodes → Holds nodes e
  | [], h => by
    rw [Node.elementsAll] at h
    cases h
  | n :: rest, h => by
    rw [Node.elementsAll] at h
    rcases List.mem_append.mp h with hfirst | hrest
    · refine (holds_of_mem_elements n hfirst).mono ?_
      simp
    · exact (holds_of_mem_elementsAll rest hrest).mono (List.subset_cons_self n rest)

end

/-- The elements of nodes are those that they hold, at any depth. -/
theorem mem_elementsAll_iff {nodes : List Node} {e : Element} :
    e ∈ Node.elementsAll nodes ↔ Holds nodes e :=
  ⟨holds_of_mem_elementsAll nodes, mem_elementsAll_of_holds⟩

end Html

/-! ## The rule -/

/-- At some depth the document has an anchor that is named for the problems of a name. -/
def Html.Document.HasAnchorFor (d : Html.Document) (name : String) : Prop :=
  ∃ e, Html.Holds d.children e ∧ e.name.tag = "a" ∧
    e.attribute? "name" = some (name ++ problemsSuffix)

theorem Html.Document.announces_iff {d : Html.Document} {name : String} :
    d.Announces name ↔ d.HasAnchorFor name := by
  unfold Announces HasAnchorFor Html.Document.elements
  simp only [Html.mem_elementsAll_iff]

/-- What is divided is the page from the first marker in the header on, with neutral references. -/
theorem exists_page_of_divide {header body : String} {period : Period} {user : String}
    {sections : List Section} (h : divide header body period user = .ok sections) :
    ∃ start, Text.from? headMarker.toList header.toList = some start ∧
      Division.ofDocument (Html.Document.parse
        (neutralize period user (String.ofList start ++ body))) = .ok sections := by
  unfold divide page at h
  cases hstart : Text.from? headMarker.toList header.toList with
  | none =>
    rw [hstart] at h
    cases h
  | some start =>
    rw [hstart] at h
    dsimp only [bind, Except.bind] at h
    exact ⟨start, rfl, h⟩

/-- A name is common if it is one of the fixed ones, or if somewhere in the document there is an
anchor for its problems; a section is for everyone also if its suffix says so. All sections of a
bulletin are for whom this rule says, of the whole page with neutral references. -/
theorem audience_iff_in_page :
    (∀ (d : Html.Document) (name : String),
      ((CommonNames.ofDocument d).contains name ↔
          name ∈ fixedCommonNames ∨ d.HasAnchorFor name) ∧
        ((CommonNames.ofDocument d).audience name = .everyone ↔
          IsAlwaysCommon name ∨ d.HasAnchorFor name)) ∧
      ∀ header body period user sections, divide header body period user = .ok sections →
        ∃ start, Text.from? headMarker.toList header.toList = some start ∧
          ∀ s ∈ sections, s.audience = .everyone ↔ IsAlwaysCommon s.name ∨
            (Html.Document.parse
              (neutralize period user (String.ofList start ++ body))).HasAnchorFor s.name := by
  constructor
  · intro d name
    rw [CommonNames.contains_ofDocument, CommonNames.audience_ofDocument,
      Html.Document.announces_iff]
    exact ⟨Iff.rfl, Iff.rfl⟩
  · intro header body period user sections h
    obtain ⟨start, hstart, hdocument⟩ := exists_page_of_divide h
    refine ⟨start, hstart, fun s hs => ?_⟩
    rw [Division.audience_of_mem_ofDocument hdocument s hs, CommonNames.audience_ofDocument,
      Html.Document.announces_iff]

/-- The page has an anchor in front of a section whose name is empty, and one far behind the section
that it names. Both sections are for everyone, and the one in between is its owner's. -/
theorem audience_iff_in_page_scattered :
    let header := "<head>"
    let body := "<a name=_problems></a><h2><br name></h2><h2><br name=gpu></h2>" ++
      "<h2><br name=jobs></h2><p><a name=footer></a><div><a name=gpu_problems>"
    let audiences : List (String × Audience) := [("greeting", .everyone), ("", .everyone),
      ("gpu", .everyone), ("jobs", .owner), ("footer", .everyone)]
    ∃ sections start, divide header body 7 "alice" = .ok sections ∧
      sections.map (fun s => (s.name, s.audience)) = audiences ∧
      Text.from? headMarker.toList header.toList = some start ∧
      let d := Html.Document.parse (neutralize 7 "alice" (String.ofList start ++ body))
      d.HasAnchorFor "" ∧ d.HasAnchorFor "gpu" ∧ ¬ d.HasAnchorFor "jobs" := by
  intro header body audiences
  have haudiences : (divide header body 7 "alice").toOption.map
      (·.map fun s => (s.name, s.audience)) = some audiences := by decide +kernel
  cases hdivide : divide header body 7 "alice" with
  | error e =>
    rw [hdivide] at haudiences
    cases haudiences
  | ok sections =>
    rw [hdivide] at haudiences
    have hsections : sections.map (fun s => (s.name, s.audience)) = audiences :=
      Option.some.inj haudiences
    obtain ⟨start, hstart, hrule⟩ := audience_iff_in_page.2 header body 7 "alice" sections hdivide
    refine ⟨sections, start, rfl, hsections, hstart, ?_⟩
    -- the page is not looked at any more, or else it would be parsed once more
    generalize Html.Document.parse (neutralize 7 "alice" (String.ofList start ++ body)) = d
      at hrule ⊢
    have hsection : ∀ x ∈ audiences,
        x.2 = .everyone ↔ IsAlwaysCommon x.1 ∨ d.HasAnchorFor x.1 := by
      intro x hx
      rw [← hsections] at hx
      obtain ⟨s, hs, rfl⟩ := List.mem_map.mp hx
      exact hrule s hs
    have hplain : ∀ name ∈ ["", "gpu", "jobs"], ¬ IsAlwaysCommon name := by
      unfold IsAlwaysCommon
      simp only [← Text.endsWith_iff]
      decide
    have hempty := (hsection ("", .everyone) (by simp [audiences])).mp rfl
    have hgpu := (hsection ("gpu", .everyone) (by simp [audiences])).mp rfl
    have hjobs := (hsection ("jobs", .owner) (by simp [audiences])).mpr
    refine ⟨hempty.resolve_left (hplain "" (by simp)), hgpu.resolve_left (hplain "gpu" (by simp)),
      fun hanchor => ?_⟩
    cases hjobs (.inr hanchor)

end Bulletin
