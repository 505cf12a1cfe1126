import Bulletin.Section.Division
import Mathlib.Logic.ExistsUnique

/-!
# No element of a bulletin is lost, and none is in two sections

Dividing a page goes through the elements of its body once and carries along the section it is in.
What comes out can be said by places alone. The sections begin at the first element and at `starts`,
which are the first places behind it where an element opens a section; each goes on to the next
beginning, and the last, which is the footer, to the end:

    openings : the places behind the first where an element opens a section
    span     : the text of the elements from one place up to another
    Cut      : sections are the spans between 0, `starts` and the end
    divide_cut : what a bulletin is divided into is cut out of its elements
-/

namespace Bulletin.Division

open Html (Element Document)

/-! ## Places -/

/-- Whether the element at a place opens a section. -/
def opensAt (elements : List Element) (i : Nat) : Bool := (elements[i]?).any opens

/-- The name that the element at a place gives to its section. -/
def nameAt (elements : List Element) (i : Nat) : Option String := (elements[i]?).bind name?

/-- The running text of the element at a place. -/
def contentAt (elements : List Element) (i : Nat) : String :=
  ((elements[i]?).map Element.content).getD ""

/-- The places from `here` on where an element opens a section, in order. -/
def openingsFrom (elements : List Element) (here : Nat) : List Nat :=
  (List.range' here (elements.length - here)).filter (opensAt elements)

/-- The places behind the first where an element opens a section. -/
def openings (elements : List Element) : List Nat := openingsFrom elements 1

/-- The elements as they are written into sections, the first with the anchor of the greeting. -/
def pieces : List Element → List String
  | [] => []
  | first :: rest => withGreetingAnchor first :: rest.map Element.outer

/-- The text of the elements from place `i` up to place `j`. -/
def span (elements : List Element) (i j : Nat) : String :=
  String.join (((pieces elements).take j).drop i)

/-- The element at place `i` is one of section `j`, if sections begin at 0 and at `starts`. -/
def InSection (elements : List Element) (starts : List Nat) (i j : Nat) : Prop :=
  ∃ lo hi, (0 :: starts)[j]? = some lo ∧ (starts ++ [elements.length])[j]? = some hi ∧
    lo ≤ i ∧ i < hi

/-- Sections are what is cut out of elements at `starts`. -/
structure Cut (elements : List Element) (starts : List Nat) (sections : List Section) : Prop where
  starts_ne_nil : starts ≠ []
  /-- Sections begin where the first elements stand that open one. -/
  first : starts <+: openings elements
  increasing : (0 :: starts ++ [elements.length]).Pairwise (· < ·)
  length : sections.length = starts.length + 1
  html : sections.map (·.html) =
    List.zipWith (span elements) (0 :: starts) (starts ++ [elements.length])
  name : sections.map (fun s => some s.name) = some greetingName :: starts.map (nameAt elements)
  title : sections.map (·.title) =
    "Greeting" :: starts.dropLast.map (contentAt elements) ++ ["Footer"]
  /-- The last section is the only one that is the footer. -/
  footer : ∀ j, (sections[j]?).map (·.name) = some footerName ↔ j = starts.length
  /-- Every element is in one section and in no other. -/
  covers : ∀ i, i < elements.length → ∃! j, InSection elements starts i j

/-! ## Spans -/

theorem length_pieces (elements : List Element) : (pieces elements).length = elements.length := by
  cases elements with
  | nil => rfl
  | cons first rest => simp [pieces]

theorem pieces_append {before : List Element} (h : before ≠ []) (rest : List Element) :
    pieces (before ++ rest) = pieces before ++ rest.map Element.outer := by
  cases before with
  | nil => exact absurd rfl h
  | cons first more => simp [pieces]

theorem span_self (elements : List Element) (i : Nat) : span elements i i = "" := by
  unfold span
  rw [List.drop_eq_nil_of_le (List.length_take_le i _), String.join_nil]

/-- A span that goes on takes in the elements behind it as they are. -/
theorem span_append {before : List Element} (hne : before ≠ []) (middle rest : List Element)
    {start : Nat} (hstart : start ≤ before.length) :
    span (before ++ (middle ++ rest)) start (before.length + middle.length) =
      span (before ++ (middle ++ rest)) start before.length ++ written middle := by
  have hlen := length_pieces before
  have hmore : (pieces (before ++ (middle ++ rest))).take (before.length + middle.length) =
      pieces before ++ middle.map Element.outer := by
    rw [pieces_append hne, List.map_append, ← List.append_assoc]
    apply List.take_left'
    rw [List.length_append, List.length_map, hlen]
  have hless : (pieces (before ++ (middle ++ rest))).take before.length = pieces before := by
    rw [pieces_append hne]
    exact List.take_left' hlen
  unfold span written
  rw [hmore, hless, List.drop_append_of_le_length (by omega), String.join_append]

/-- The span of one element that is not the first. -/
theorem span_single {before : List Element} (hne : before ≠ []) (e : Element)
    (rest : List Element) :
    span (before ++ e :: rest) before.length (before.length + 1) = e.outer := by
  have h := span_append hne [e] rest (Nat.le_refl before.length)
  rw [span_self] at h
  refine h.trans ?_
  show "" ++ String.join [e.outer] = e.outer
  rw [String.join_cons, String.join_nil, String.empty_append, String.append_empty]

/-! ## The walk -/

section

variable {elements : List Element} {name title : String} {start here : Nat} {starts : List Nat}
  {sections : List Section}

theorem openingsFrom_of_opensAt (hlt : here < elements.length)
    (h : opensAt elements here = true) :
    openingsFrom elements here = here :: openingsFrom elements (here + 1) := by
  have hcount : elements.length - here = elements.length - (here + 1) + 1 := by omega
  unfold openingsFrom
  rw [hcount, List.range'_succ, List.filter_cons, if_pos h]

theorem openingsFrom_of_not_opensAt (hlt : here < elements.length)
    (h : opensAt elements here = false) :
    openingsFrom elements here = openingsFrom elements (here + 1) := by
  have hcount : elements.length - here = elements.length - (here + 1) + 1 := by omega
  unfold openingsFrom
  rw [hcount, List.range'_succ, List.filter_cons, h, if_neg Bool.false_ne_true]

/-- What the walk makes of the elements from `here` on, when it is in a section that began at
`start` and is called `name`. -/
structure CutFrom (elements : List Element) (name title : String) (start here : Nat)
    (starts : List Nat) (sections : List Section) : Prop where
  first : starts <+: openingsFrom elements here
  html : sections.map (·.html) =
    List.zipWith (span elements) (start :: starts) (starts ++ [elements.length])
  name : sections.map (fun s => some s.name) = some name :: starts.map (nameAt elements)
  title : sections.map (·.title) = (title :: starts.map (contentAt elements)).dropLast ++ ["Footer"]
  footer : ∀ j, (sections[j]?).map (·.name) = some footerName ↔ j = starts.length

/-- The footer goes on to the end. -/
theorem cutFrom_footer (elements : List Element) (title : String) (start here : Nat)
    (audience : Audience) :
    CutFrom elements footerName title start here []
      [⟨footerName, "Footer", span elements start elements.length, audience⟩] where
  first := List.nil_prefix
  html := rfl
  name := rfl
  title := rfl
  footer j := by
    cases j with
    | zero => simp
    | succ j => simp

/-- An element that opens a section ends the one before it, which is not the footer. -/
theorem CutFrom.opening {next : String} (hlt : here < elements.length) (hname : name ≠ footerName)
    (hopens : opensAt elements here = true) (hnext : nameAt elements here = some next)
    (audience : Audience)
    (h : CutFrom elements next (contentAt elements here) here (here + 1) starts sections) :
    CutFrom elements name title start here (here :: starts)
      (⟨name, title, span elements start here, audience⟩ :: sections) where
  first := by
    rw [openingsFrom_of_opensAt hlt hopens]
    exact List.cons_prefix_cons.mpr ⟨rfl, h.first⟩
  html := by
    rw [List.map_cons, h.html]
    rfl
  name := by rw [List.map_cons, h.name, List.map_cons, hnext]
  title := by
    rw [List.map_cons, h.title]
    rfl
  footer j := by
    cases j with
    | zero => simp [hname]
    | succ j => simpa using h.footer j

/-- An element that opens no section goes into the one before it. -/
theorem CutFrom.passing (hlt : here < elements.length) (hopens : opensAt elements here = false)
    (h : CutFrom elements name title start (here + 1) starts sections) :
    CutFrom elements name title start here starts sections where
  first := by
    rw [openingsFrom_of_not_opensAt hlt hopens]
    exact h.first
  html := h.html
  name := h.name
  title := h.title
  footer := h.footer

theorem CutFrom.length_eq (h : CutFrom elements name title start here starts sections) :
    sections.length = starts.length + 1 := by
  have hlength := congrArg List.length h.name
  rwa [List.length_map, List.length_cons, List.length_map] at hlength

/-- A section that is not the footer is not the last. -/
theorem CutFrom.starts_ne_nil (h : CutFrom elements name title start here starts sections)
    (hname : name ≠ footerName) : starts ≠ [] := by
  rintro rfl
  have hnames := h.name
  obtain ⟨s, hs, heq⟩ := Option.map_eq_some_iff.mp ((h.footer 0).mpr rfl)
  rw [List.map_nil, List.map_eq_singleton_iff] at hnames
  obtain ⟨only, rfl, honly⟩ := hnames
  cases hs
  exact hname (Option.some.inj honly ▸ heq)

end

theorem cutFrom_footer_of_before {before : List Element} {start : Nat}
    (hstart : start < before.length) (rest : List Element) (title : String) (audience : Audience) :
    CutFrom (before ++ rest) footerName title start before.length []
      [⟨footerName, "Footer", span (before ++ rest) start before.length ++ written rest,
        audience⟩] := by
  have hne : before ≠ [] := List.ne_nil_of_length_pos (by omega)
  have hspan := span_append hne rest [] (Nat.le_of_lt hstart)
  rw [List.append_nil, ← List.length_append] at hspan
  rw [← hspan]
  exact cutFrom_footer _ title start _ _

/-- What becomes of a walk: it ends with the footer, or goes on behind the next element, which may
begin a section of its own. -/
theorem sectionsFrom_cases {audience : String → Audience} {name title html : String}
    {elements : List Element} {sections : List Section}
    (h : sectionsFrom audience name title html elements = .ok sections) :
    (name = footerName ∧
        sections = [⟨name, "Footer", html ++ written elements, audience name⟩]) ∨
      (name ≠ footerName ∧ ∃ e rest, elements = e :: rest ∧
        ((opens e = false ∧
            sectionsFrom audience name title (html ++ e.outer) rest = .ok sections) ∨
          (opens e = true ∧ ∃ next later, name? e = some next ∧
            sectionsFrom audience next e.content e.outer rest = .ok later ∧
            sections = ⟨name, title, html, audience name⟩ :: later))) := by
  cases elements with
  | nil =>
    rw [sectionsFrom] at h
    by_cases hname : name = footerName
    · rw [if_pos hname] at h
      cases h
      exact .inl ⟨hname, by simp [written]⟩
    · rw [if_neg hname] at h
      cases h
  | cons e rest =>
    rw [sectionsFrom] at h
    by_cases hname : name = footerName
    · rw [if_pos hname] at h
      cases h
      exact .inl ⟨hname, rfl⟩
    · rw [if_neg hname] at h
      refine .inr ⟨hname, e, rest, rfl, ?_⟩
      by_cases hopens : opens e
      · rw [if_pos hopens] at h
        cases hnext : name? e with
        | none =>
          rw [hnext] at h
          cases h
        | some next =>
          rw [hnext] at h
          dsimp only at h
          cases hlater : sectionsFrom audience next e.content e.outer rest with
          | error error =>
            rw [hlater] at h
            cases h
          | ok later =>
            rw [hlater] at h
            cases h
            exact .inr ⟨hopens, next, later, rfl, hlater, rfl⟩
      · rw [if_neg hopens] at h
        exact .inl ⟨Bool.eq_false_iff.mpr hopens, h⟩

/-- The walk goes on behind `before`; all along, `html` is what is written from `start` up to it. -/
theorem sectionsFrom_cut (audience : String → Audience) {name title html : String} {start : Nat}
    {before rest : List Element} (hstart : start < before.length)
    (hhtml : html = span (before ++ rest) start before.length) {sections : List Section}
    (h : sectionsFrom audience name title html rest = .ok sections) :
    ∃ starts, CutFrom (before ++ rest) name title start before.length starts sections := by
  induction rest generalizing name title html start before sections with
  | nil =>
    rcases sectionsFrom_cases h with ⟨rfl, rfl⟩ | ⟨-, e, rest, hnil, -⟩
    · rw [hhtml]
      exact ⟨[], cutFrom_footer_of_before hstart [] title _⟩
    · cases hnil
  | cons e rest ih =>
    have hne : before ≠ [] := List.ne_nil_of_length_pos (by omega)
    rcases sectionsFrom_cases h with ⟨rfl, rfl⟩ | ⟨hname, e', rest', hcons, hgoes⟩
    · rw [hhtml]
      exact ⟨[], cutFrom_footer_of_before hstart (e :: rest) title _⟩
    · cases hcons
      have hsplit : (before ++ [e]) ++ rest = before ++ e :: rest := by simp
      have hlen : (before ++ [e]).length = before.length + 1 := by simp
      have hlt : before.length < (before ++ e :: rest).length := by simp
      rcases hgoes with ⟨hopens, hlater⟩ | ⟨hopens, next, later, hnext, hlater, rfl⟩
      · have hspan := span_append hne [e] rest (Nat.le_of_lt hstart)
        have hhtml' : html ++ e.outer =
            span ((before ++ [e]) ++ rest) start (before ++ [e]).length := by
          rw [hhtml, hlen, hsplit]
          refine Eq.trans ?_ hspan.symm
          simp [written, String.join_cons]
        have hstart' : start < (before ++ [e]).length := by omega
        obtain ⟨starts, hcut⟩ := ih hstart' hhtml' hlater
        rw [hsplit, hlen] at hcut
        exact ⟨starts, hcut.passing hlt (by simp [opensAt, hopens])⟩
      · -- the element begins the next section
        have hspan := span_single hne e rest
        rw [← hsplit, ← hlen] at hspan
        obtain ⟨starts, hcut⟩ := ih (by omega) hspan.symm hlater
        rw [hsplit, hlen] at hcut
        have hcontent : contentAt (before ++ e :: rest) before.length = e.content := by
          simp [contentAt]
        rw [← hcontent] at hcut
        rw [hhtml]
        exact ⟨before.length :: starts,
          hcut.opening hlt hname (by simp [opensAt, hopens]) (by simp [nameAt, hnext]) _⟩

/-! ## Places in order -/

theorem mem_openings {elements : List Element} {i : Nat} (h : i ∈ openings elements) :
    1 ≤ i ∧ i < elements.length := by
  have hrange := List.mem_range'_1.mp (List.mem_filter.mp h).1
  omega

theorem increasing_of_prefix {elements : List Element} (hne : elements ≠ []) {starts : List Nat}
    (h : starts <+: openings elements) :
    (0 :: starts ++ [elements.length]).Pairwise (· < ·) := by
  have hbounds : ∀ i ∈ starts, 1 ≤ i ∧ i < elements.length := fun i hi =>
    mem_openings (h.subset hi)
  have hrange : (List.range' 1 (elements.length - 1)).Pairwise (· < ·) := List.pairwise_lt_range'
  have hopenings : (openings elements).Pairwise (· < ·) := hrange.filter (opensAt elements)
  have hpos : 0 < elements.length := List.length_pos_iff.mpr hne
  rw [List.cons_append, List.pairwise_cons, List.pairwise_append]
  refine ⟨?_, hopenings.sublist h.sublist, List.pairwise_singleton _ _, ?_⟩
  · intro i hi
    rcases List.mem_append.mp hi with hi | hi
    · exact (hbounds i hi).1
    · rw [List.mem_singleton.mp hi]
      exact hpos
  · intro i hi j hj
    rw [List.mem_singleton.mp hj]
    exact (hbounds i hi).2

/-- Between increasing bounds every place is in one interval and in no other. -/
theorem existsUnique_interval {start stop : Nat} {starts : List Nat}
    (h : (start :: starts ++ [stop]).Pairwise (· < ·)) {i : Nat} (hlo : start ≤ i)
    (hhi : i < stop) :
    ∃! j : Nat, ∃ lo hi : Nat, (start :: starts)[j]? = some lo ∧
      (starts ++ [stop])[j]? = some hi ∧ lo ≤ i ∧ i < hi := by
  induction starts generalizing start with
  | nil =>
    refine ⟨0, ⟨start, stop, rfl, rfl, hlo, hhi⟩, ?_⟩
    rintro j ⟨lo, hi, hlo', -⟩
    cases j with
    | zero => rfl
    | succ j => simp at hlo'
  | cons next rest ih =>
    rw [List.cons_append, List.pairwise_cons] at h
    by_cases hi : i < next
    · -- later intervals begin at `next` or behind it
      refine ⟨0, ⟨start, next, rfl, rfl, hlo, hi⟩, ?_⟩
      rintro j ⟨lo, hi', hlo', -, hle, -⟩
      cases j with
      | zero => rfl
      | succ j =>
        have hmem : lo ∈ next :: rest := List.mem_of_getElem? hlo'
        have hnext : next ≤ lo := by
          rcases List.mem_cons.mp hmem with rfl | hmem
          · exact Nat.le_refl lo
          · have hlt := (List.pairwise_cons.mp h.2).1 lo (List.mem_append_left _ hmem)
            omega
        omega
    · obtain ⟨j, hj, hunique⟩ := ih h.2 (by omega)
      refine ⟨j + 1, hj, ?_⟩
      rintro k ⟨lo, hi', hlo', hhi', hle, hlt⟩
      cases k with
      | zero =>
        cases hhi'
        omega
      | succ k => rw [hunique k ⟨lo, hi', hlo', hhi', hle, hlt⟩]

/-! ## Bulletins -/

/-- The sections of a document, unless it has no elements, are cut out of its elements. -/
theorem ofDocument_cut {d : Document} {sections : List Section}
    (h : ofDocument d = .ok sections) (hne : sections ≠ []) :
    ∃ starts, Cut (topLevel d) starts sections := by
  unfold ofDocument at h
  cases htop : topLevel d with
  | nil =>
    rw [htop] at h
    cases h
    exact absurd rfl hne
  | cons first rest =>
    rw [htop] at h
    have hfirst : withGreetingAnchor first = span ([first] ++ rest) 0 [first].length := by
      simp [span, pieces, String.join_cons]
    obtain ⟨starts, hcut⟩ := sectionsFrom_cut _ (Nat.one_pos : 0 < [first].length) hfirst h
    have hstarts : starts ≠ [] := hcut.starts_ne_nil (by decide)
    have hincreasing := increasing_of_prefix (List.cons_ne_nil first rest) hcut.first
    refine ⟨starts, hstarts, hcut.first, hincreasing, hcut.length_eq, hcut.html, hcut.name, ?_,
      hcut.footer, fun i hi => existsUnique_interval hincreasing (Nat.zero_le i) hi⟩
    rw [hcut.title, List.dropLast_cons_of_ne_nil (by simpa using hstarts), List.map_dropLast]
    rfl

/-- What a bulletin is divided into, if it has any elements, is cut out of the elements of its page:
nothing is lost, nothing is in two sections, and the order is kept. -/
theorem divide_cut {header body : String} {period : Period} {user : String}
    {sections : List Section} (h : divide header body period user = .ok sections)
    (hne : sections ≠ []) :
    ∃ text starts, page header body period user = .ok text ∧
      Cut (topLevel (Document.parse text)) starts sections := by
  unfold divide at h
  cases hpage : page header body period user with
  | error e => rw [hpage] at h; cases h
  | ok text =>
    rw [hpage] at h
    dsimp only [bind, Except.bind] at h
    obtain ⟨starts, hcut⟩ := ofDocument_cut h hne
    exact ⟨text, starts, rfl, hcut⟩

/-- Of two headings side by side the first is a section by itself; one behind the footer is none. -/
theorem divide_cut_headings :
    let header := "<head>"
    let body := "<p>Hi</p><h2><a name='news'></a></h2><h2><a name='jobs'></a></h2>" ++
      "<p><a name='footer'></a></p><h2>Bye</h2>"
    ∃ sections, divide header body 7 "alice" = .ok sections ∧
      sections.map (·.name) = ["greeting", "news", "jobs", "footer"] ∧ sections ≠ [] ∧
      ∃ text starts, page header body 7 "alice" = .ok text ∧
        Cut (topLevel (Document.parse text)) starts sections := by
  intro header body
  have hnames : (divide header body 7 "alice").toOption.map (·.map (·.name)) =
      some ["greeting", "news", "jobs", "footer"] := by decide +kernel
  cases hdivide : divide header body 7 "alice" with
  | error e => rw [hdivide] at hnames; cases hnames
  | ok sections =>
    rw [hdivide] at hnames
    have hsections := Option.some.inj hnames
    have hne : sections ≠ [] := by
      rintro rfl
      cases hsections
    exact ⟨sections, rfl, hsections, hne, divide_cut hdivide hne⟩

end Bulletin.Division
