import Bulletin.Archive.Issue
import Bulletin.Proofs.Division

/-!
# Which bulletins can be divided

Whether a bulletin can be divided is a matter of the names that its opening elements give, in their
order: the footer must be named before an element names nothing. Of a bulletin that cannot be
divided the last section is named that was begun:

    names            ["news", "jobs", "footer", ..]     sections greeting, news, jobs, footer
    names            ["news", nothing, "footer"]        nothing follows news
    names            ["news", "jobs"]                   nothing follows jobs

Main statements:

    sectionsFrom_eq_error_iff : how a walk fails
    divide_eq_noHead_iff      : only the header is looked at for the marker
    divide_outcome            : what comes of dividing, for every bulletin
-/

namespace Bulletin

theorem Text.from?_eq_none_iff {word s : List Char} :
    Text.from? word s = none ↔ ¬ word <:+: s := by
  induction s with
  | nil =>
    rw [Text.from?, List.infix_nil]
    cases word <;> simp
  | cons c rest ih =>
    rw [Text.from?, List.infix_cons_iff, not_or, ← ih]
    by_cases hword : word.isPrefixOf (c :: rest)
    · have hprefix := List.isPrefixOf_iff_prefix.mp hword
      simp [hword, hprefix]
    · have hprefix := mt List.isPrefixOf_iff_prefix.mpr hword
      simp [hword, hprefix]

namespace Division

open Html (Element Document)

/-! ## The names of opening elements -/

/-- The names that the elements behind the first give to the sections they open, in order. -/
def openingNames (elements : List Element) : List (Option String) :=
  (openings elements).map (nameAt elements)

/-- The names in front of the first opening element that names nothing. -/
def leadingNames (names : List (Option String)) : List String :=
  (names.takeWhile Option.isSome).filterMap id

/-- The footer is named, and all opening elements in front of it name something. -/
def ReachesFooter (names : List (Option String)) : Prop :=
  ∃ j : Nat, names[j]? = some (some footerName) ∧
    ∀ i < j, ∃ name, names[i]? = some (some name)

@[simp]
theorem leadingNames_nil : leadingNames [] = [] := rfl

@[simp]
theorem leadingNames_none (names : List (Option String)) : leadingNames (none :: names) = [] := rfl

@[simp]
theorem leadingNames_some (name : String) (names : List (Option String)) :
    leadingNames (some name :: names) = name :: leadingNames names := rfl

theorem footerName_mem_leadingNames_iff {names : List (Option String)} :
    footerName ∈ leadingNames names ↔ ReachesFooter names := by
  unfold ReachesFooter
  induction names with
  | nil => simp
  | cons first rest ih =>
    cases first with
    | none =>
      constructor
      · intro hmem
        cases hmem
      · rintro ⟨j, hj, hbefore⟩
        cases j with
        | zero => cases hj
        | succ j =>
          obtain ⟨name, hname⟩ := hbefore 0 (Nat.succ_pos j)
          cases hname
    | some name =>
      rw [leadingNames_some, List.mem_cons, ih]
      constructor
      · rintro (rfl | ⟨j, hj, hbefore⟩)
        · exact ⟨0, rfl, fun i hi => absurd hi (Nat.not_lt_zero i)⟩
        · refine ⟨j + 1, hj, fun i hi => ?_⟩
          cases i with
          | zero => exact ⟨name, rfl⟩
          | succ i => exact hbefore i (Nat.lt_of_succ_lt_succ hi)
      · rintro ⟨j, hj, hbefore⟩
        cases j with
        | zero => exact .inl (Option.some.inj (Option.some.inj hj)).symm
        | succ j => exact .inr ⟨j, hj, fun i hi => hbefore (i + 1) (Nat.succ_lt_succ hi)⟩

/-- The places where sections open have the names of the elements there. -/
theorem map_nameAt_openingsFrom (before rest : List Element) :
    (openingsFrom (before ++ rest) before.length).map (nameAt (before ++ rest)) =
      (rest.filter opens).map name? := by
  induction rest generalizing before with
  | nil => simp [openingsFrom]
  | cons e rest ih =>
    have hsplit : (before ++ [e]) ++ rest = before ++ e :: rest := by simp
    have hlater := ih (before ++ [e])
    rw [hsplit, List.length_append, List.length_singleton] at hlater
    have hlt : before.length < (before ++ e :: rest).length := by simp
    by_cases hopens : opens e
    · have hat : opensAt (before ++ e :: rest) before.length = true := by simp [opensAt, hopens]
      have hname : nameAt (before ++ e :: rest) before.length = name? e := by simp [nameAt]
      rw [openingsFrom_of_opensAt hlt hat, List.filter_cons_of_pos hopens, List.map_cons,
        List.map_cons, hlater, hname]
    · have hat : opensAt (before ++ e :: rest) before.length = false := by simp [opensAt, hopens]
      rw [openingsFrom_of_not_opensAt hlt hat, List.filter_cons_of_neg hopens, hlater]

theorem openingNames_cons (first : Element) (rest : List Element) :
    openingNames (first :: rest) = (rest.filter opens).map name? :=
  map_nameAt_openingsFrom [first] rest

/-! ## How a walk ends -/

/-- The names of the sections that a walk comes to in front of an element that names nothing, when
it is in a section called `name`. -/
def walked (name : String) (names : List (Option String)) : List String := name :: leadingNames names

theorem walked_ne_nil (name : String) (names : List (Option String)) : walked name names ≠ [] :=
  List.cons_ne_nil _ _

theorem getLast_walked (name : String) (names : List (Option String)) :
    (walked name names).getLast (walked_ne_nil name names) = (leadingNames names).getLastD name :=
  List.getLast_eq_getLastD _

theorem footerName_mem_walked_iff {name : String} {names : List (Option String)} :
    footerName ∈ walked name names ↔ name = footerName ∨ ReachesFooter names := by
  rw [walked, List.mem_cons, footerName_mem_leadingNames_iff, eq_comm]

/-- A walk fails if it does not come to the footer, and then behind the last section it comes to. -/
theorem sectionsFrom_eq_error_iff (audience : String → Audience) {name title html : String}
    {elements : List Element} {error : DivisionError} :
    sectionsFrom audience name title html elements = .error error ↔
      footerName ∉ walked name ((elements.filter opens).map name?) ∧
        error = .unnamed ((walked name ((elements.filter opens).map name?)).getLast
          (walked_ne_nil _ _)) := by
  induction elements generalizing name title html with
  | nil =>
    rw [sectionsFrom]
    by_cases hname : name = footerName
    · simp [hname, walked]
    · simp [hname, walked, Ne.symm hname, eq_comm]
  | cons e rest ih =>
    rw [sectionsFrom]
    by_cases hname : name = footerName
    · simp [hname, walked]
    · rw [if_neg hname]
      by_cases hopens : opens e
      · rw [if_pos hopens, List.filter_cons_of_pos hopens, List.map_cons]
        cases hnext : name? e with
        | none => simp [walked, Ne.symm hname, eq_comm]
        | some next =>
          have hlater : sectionsFrom audience next e.content e.outer rest = .error error ↔
              footerName ∉ walked next ((rest.filter opens).map name?) ∧
                error = .unnamed ((walked next ((rest.filter opens).map name?)).getLast
                  (walked_ne_nil _ _)) := ih
          have hwalked : walked name (some next :: (rest.filter opens).map name?) =
              name :: walked next ((rest.filter opens).map name?) := rfl
          have hmem : footerName ∉ name :: walked next ((rest.filter opens).map name?) ↔
              footerName ∉ walked next ((rest.filter opens).map name?) := by
            simp [Ne.symm hname]
          have hlast : (name :: walked next ((rest.filter opens).map name?)).getLast
              (List.cons_ne_nil _ _) =
                (walked next ((rest.filter opens).map name?)).getLast (walked_ne_nil _ _) :=
            List.getLast_cons (walked_ne_nil _ _)
          simp only [hwalked, hmem, hlast]
          rw [← hlater]
          cases sectionsFrom audience next e.content e.outer rest with
          | error _ => rfl
          | ok _ => simp [Except.map]
      · rw [if_neg hopens, List.filter_cons_of_neg hopens]
        exact ih

/-- A walk that succeeds makes sections of names it comes to, from the first on. -/
theorem names_prefix_walked {audience : String → Audience} {name title html : String}
    {elements : List Element} {sections : List Section}
    (h : sectionsFrom audience name title html elements = .ok sections) :
    sections ≠ [] ∧ sections.map (·.name) <+: walked name ((elements.filter opens).map name?) := by
  induction elements generalizing name title html sections with
  | nil =>
    obtain ⟨-, rfl⟩ | ⟨-, e, rest, hnil, -⟩ := sectionsFrom_cases h
    · exact ⟨List.cons_ne_nil _ _, List.prefix_append [name] _⟩
    · cases hnil
  | cons e rest ih =>
    obtain ⟨-, rfl⟩ | ⟨-, e', rest', hcons, hgoes⟩ := sectionsFrom_cases h
    · exact ⟨List.cons_ne_nil _ _, List.prefix_append [name] _⟩
    · cases hcons
      obtain ⟨hopens, hlater⟩ | ⟨hopens, next, later, hnext, hlater, rfl⟩ := hgoes
      · rw [List.filter_cons_of_neg (by simp [hopens])]
        exact ih hlater
      · rw [List.filter_cons_of_pos hopens, List.map_cons, List.map_cons, hnext]
        exact ⟨List.cons_ne_nil _ _, List.cons_prefix_cons.mpr ⟨rfl, (ih hlater).2⟩⟩

/-- A walk comes to no more sections than there are elements, the first of which it is in. -/
theorem length_walked_le {elements : List Element} (hne : elements ≠ []) (name : String) :
    (walked name (openingNames elements)).length ≤ elements.length := by
  cases elements with
  | nil => exact absurd rfl hne
  | cons first rest =>
    rw [openingNames_cons]
    have hleading : (leadingNames ((rest.filter opens).map name?)).length ≤ rest.length :=
      calc (leadingNames ((rest.filter opens).map name?)).length
          ≤ (((rest.filter opens).map name?).takeWhile Option.isSome).length :=
            List.length_filterMap_le id _
        _ ≤ ((rest.filter opens).map name?).length := (List.takeWhile_sublist _).length_le
        _ = (rest.filter opens).length := List.length_map _
        _ ≤ rest.length := List.length_filter_le _ _
    exact Nat.succ_le_succ hleading

/-! ## Documents -/

/-- There is no body, or no element in it. -/
def HasNoElements (d : Document) : Prop :=
  d.first? "body" = none ∨ ∃ body, d.first? "body" = some body ∧ body.childElements = []

theorem topLevel_eq_nil_iff {d : Document} : topLevel d = [] ↔ HasNoElements d := by
  unfold topLevel HasNoElements
  cases d.first? "body" <;> simp

/-- What comes of dividing elements of which there are some. -/
structure Outcome (elements : List Element) (result : Except DivisionError (List Section)) :
    Prop where
  succeeds : (∃ sections, result = .ok sections) ↔ ReachesFooter (openingNames elements)
  /-- The section in front of the first element that names nothing is named, or the last. -/
  fails : ∀ error, result = .error error ↔
    ¬ ReachesFooter (openingNames elements) ∧
      error = .unnamed ((leadingNames (openingNames elements)).getLastD greetingName)
  names : ∀ sections, result = .ok sections →
    sections ≠ [] ∧ sections.map (·.name) <+: walked greetingName (openingNames elements)
  ends : (walked greetingName (openingNames elements)).length ≤ elements.length

theorem ofDocument_eq_error_iff {d : Document} (hne : topLevel d ≠ []) {error : DivisionError} :
    ofDocument d = .error error ↔
      ¬ ReachesFooter (openingNames (topLevel d)) ∧
        error = .unnamed ((leadingNames (openingNames (topLevel d))).getLastD greetingName) := by
  unfold ofDocument
  cases htop : topLevel d with
  | nil => exact absurd htop hne
  | cons first rest =>
    have hgreeting : footerName ≠ greetingName := by decide
    dsimp only
    rw [openingNames_cons, sectionsFrom_eq_error_iff, getLast_walked, footerName_mem_walked_iff,
      or_iff_right hgreeting.symm]

theorem ofDocument_outcome {d : Document} (hne : topLevel d ≠ []) :
    Outcome (topLevel d) (ofDocument d) where
  succeeds := by
    cases hresult : ofDocument d with
    | error error =>
      have hnot := (ofDocument_eq_error_iff hne).mp hresult
      simp [hnot.1]
    | ok sections =>
      have hreaches : ReachesFooter (openingNames (topLevel d)) := by
        refine Classical.not_not.mp fun hnot => ?_
        have herror := (ofDocument_eq_error_iff hne).mpr ⟨hnot, rfl⟩
        rw [hresult] at herror
        cases herror
      simp [hreaches]
  fails _ := ofDocument_eq_error_iff hne
  names sections h := by
    unfold ofDocument at h
    cases htop : topLevel d with
    | nil => exact absurd htop hne
    | cons first rest =>
      rw [htop] at h
      rw [openingNames_cons]
      exact names_prefix_walked h
  ends := length_walked_le hne greetingName

/-! ## Bulletins -/

theorem page_eq_error_iff {header body user : String} {period : Period} {error : DivisionError} :
    page header body period user = .error error ↔
      ¬ headMarker.toList <:+: header.toList ∧ error = .noHead := by
  rw [← Text.from?_eq_none_iff, page]
  cases Text.from? headMarker.toList header.toList <;> simp [eq_comm]

/-- What is divided is the document of the page, if there is one. -/
theorem divide_eq_of_page {header body user text : String} {period : Period}
    (h : page header body period user = .ok text) :
    divide header body period user = ofDocument (Document.parse text) := by
  unfold divide
  rw [h]
  dsimp only [bind, Except.bind]

theorem ofDocument_ne_noHead (d : Document) : ofDocument d ≠ .error .noHead := by
  by_cases hne : topLevel d = []
  · rw [ofDocument, hne]
    simp
  · intro h
    obtain ⟨-, hnamed⟩ := (ofDocument_eq_error_iff hne).mp h
    cases hnamed

theorem ofDocument_eq_nil_iff {d : Document} : ofDocument d = .ok [] ↔ HasNoElements d := by
  rw [← topLevel_eq_nil_iff]
  constructor
  · intro h
    refine Classical.not_not.mp fun hne => ?_
    exact ((ofDocument_outcome hne).names [] h).1 rfl
  · intro htop
    rw [ofDocument, htop]

/-- What comes of dividing a bulletin: without a marker in its header it has no page, and without
elements no sections. Otherwise it has sections if its elements name the footer before one of them
names nothing. Whatever is wrong is said of the user it was sent to. -/
theorem divide_outcome (header body : String) (period : Period) (user : String) :
    (divide header body period user = .error .noHead ↔ ¬ headMarker.toList <:+: header.toList) ∧
      (headMarker.toList <:+: header.toList →
        ∃ text, page header body period user = .ok text ∧
          (divide header body period user = .ok [] ↔ HasNoElements (Document.parse text)) ∧
          (¬ HasNoElements (Document.parse text) →
            Outcome (topLevel (Document.parse text)) (divide header body period user))) ∧
      ∀ r : Record, Text.decode r.header = header → Text.decode r.body = body → r.user = user →
        ∀ error, UserSections.ofRecord period r = .error error ↔
          ∃ cause, divide header body period user = .error cause ∧
            error = .undivided user cause := by
  refine ⟨?_, ?_, ?_⟩
  · cases hpage : page header body period user with
    | error error =>
      obtain ⟨hmarker, rfl⟩ := page_eq_error_iff.mp hpage
      rw [divide, hpage]
      exact ⟨fun _ => hmarker, fun _ => rfl⟩
    | ok text =>
      rw [divide_eq_of_page hpage]
      refine ⟨fun h => absurd h (ofDocument_ne_noHead _), fun hmarker => ?_⟩
      have herror : page header body period user = .error .noHead :=
        page_eq_error_iff.mpr ⟨hmarker, rfl⟩
      rw [hpage] at herror
      cases herror
  · intro hmarker
    cases hpage : page header body period user with
    | error error => exact absurd hmarker (page_eq_error_iff.mp hpage).1
    | ok text =>
      refine ⟨text, rfl, ?_⟩
      rw [divide_eq_of_page hpage]
      refine ⟨ofDocument_eq_nil_iff, fun hnonempty => ?_⟩
      exact ofDocument_outcome (mt topLevel_eq_nil_iff.mp hnonempty)
  · rintro r rfl rfl rfl error
    rw [UserSections.ofRecord]
    cases divide (Text.decode r.header) (Text.decode r.body) period r.user <;> simp [eq_comm]

/-- A heading without an anchor is missed behind the news, although a footer follows. -/
theorem divide_outcome_anchorless :
    let header := "<head>"
    let body := "<p>Hi<h2><a name=news></a></h2><h2>Jobs</h2><p><a name=footer>"
    headMarker.toList <:+: header.toList ∧
      ∃ text, page header body 7 "alice" = .ok text ∧ ¬ HasNoElements (Document.parse text) ∧
        ¬ ReachesFooter (openingNames (topLevel (Document.parse text))) ∧
        divide header body 7 "alice" = .error (.unnamed "news") := by
  intro header body
  have hmarker : headMarker.toList <:+: header.toList := by decide
  have hdivide : divide header body 7 "alice" = .error (.unnamed "news") := by
    have hcause : (match divide header body 7 "alice" with
        | .error error => some error
        | .ok _ => none) = some (.unnamed "news") := by decide +kernel
    cases hresult : divide header body 7 "alice" with
    | ok sections =>
      rw [hresult] at hcause
      cases hcause
    | error error =>
      rw [hresult] at hcause
      rw [Option.some.inj hcause]
  obtain ⟨-, hpages, -⟩ := divide_outcome header body 7 "alice"
  obtain ⟨text, hpage, hempty, houtcome⟩ := hpages hmarker
  have hnonempty : ¬ HasNoElements (Document.parse text) := fun h => by
    rw [hempty.mpr h] at hdivide
    cases hdivide
  exact ⟨hmarker, text, hpage, hnonempty, ((houtcome hnonempty).fails _).mp hdivide |>.1, hdivide⟩

end Division

end Bulletin
