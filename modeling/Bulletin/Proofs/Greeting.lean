import Bulletin.Section.Greeting

/-!
# Where the anchor of the greeting goes

The place behind a start tag is found by taking the end tag, and then the contents, off the end of
an element's text. Nothing in the values of the attributes or in the contents can mislead this:

    an element without an end tag : its text is a start tag, which ends with no end tag
    its contents written as in it : what is left of its text is the start tag
    its contents written with a reference where it has the character itself : they do not end its
                                    text, since a reference ends with a `;`, and no such character
                                    is one

    withGreetingAnchor_inserts : so the anchor stands in front of the contents, or of the element
-/

namespace Bulletin

namespace Html

/-! ## Characters that are written as references -/

/-- The characters of running text that are written as references. -/
def referred : List Char := ['&', '<', '>', '\u00a0']

theorem escapeTextChar_of_notMem {c : Char} (h : c ∉ referred) : escapeTextChar c = [c] := by
  unfold escapeTextChar
  split <;> simp_all [referred]

theorem exists_escapeTextChar_of_mem {c : Char} (h : c ∈ referred) :
    c ≠ ';' ∧ ∃ front, escapeTextChar c = front ++ [';'] := by
  simp only [referred, List.mem_cons, List.not_mem_nil, or_false] at h
  rcases h with rfl | rfl | rfl | rfl
  · exact ⟨by decide, ['&', 'a', 'm', 'p'], rfl⟩
  · exact ⟨by decide, ['&', 'l', 't'], rfl⟩
  · exact ⟨by decide, ['&', 'g', 't'], rfl⟩
  · exact ⟨by decide, ['&', 'n', 'b', 's', 'p'], rfl⟩

/-- Text without such characters is written as it is. -/
theorem flatMap_escapeTextChar_eq_self {cs : List Char} (h : ∀ c ∈ cs, c ∉ referred) :
    cs.flatMap escapeTextChar = cs := by
  induction cs with
  | nil => rfl
  | cons c cs ih =>
    rw [List.forall_mem_cons] at h
    rw [List.flatMap_cons, escapeTextChar_of_notMem h.1, ih h.2, List.singleton_append]

/-- Text with such characters does not end with its written form, whatever stands before it. -/
theorem not_suffix_flatMap_escapeTextChar {cs : List Char} (h : ∃ c ∈ cs, c ∈ referred)
    (before : List Char) : ¬ cs.flatMap escapeTextChar <:+ before ++ cs := by
  induction cs generalizing before with
  | nil =>
    obtain ⟨c, hc, -⟩ := h
    exact absurd hc List.not_mem_nil
  | cons c cs ih =>
    intro hsuffix
    rw [List.flatMap_cons] at hsuffix
    by_cases hlater : ∃ c ∈ cs, c ∈ referred
    · apply ih hlater (before ++ [c])
      rw [List.append_assoc, List.singleton_append]
      exact (List.suffix_append _ _).trans hsuffix
    · -- this is the last such character, and behind it both texts are the same
      have hplain : ∀ c ∈ cs, c ∉ referred := fun c hc hin => hlater ⟨c, hc, hin⟩
      have hreferred : c ∈ referred := by
        obtain ⟨c', hmem, hin⟩ := h
        rcases List.mem_cons.mp hmem with rfl | hmem
        · exact hin
        · exact absurd hin (hplain c' hmem)
      obtain ⟨hne, front, hfront⟩ := exists_escapeTextChar_of_mem hreferred
      rw [flatMap_escapeTextChar_eq_self hplain, hfront, List.append_cons before,
        List.suffix_append_self_iff] at hsuffix
      have hlast := (List.suffix_append_inj_of_length_eq (Eq.refl 1)).mp hsuffix
      exact hne (List.singleton_inj.mp hlast.2).symm

/-! ## Contents of raw text -/

/-- Among the nodes is text with a character that is written as a reference. -/
def HasReferred (nodes : List Node) : Prop :=
  ∃ s, .text s ∈ nodes ∧ ∃ c ∈ s.toList, c ∈ referred

/-- A node other than text is written in the same way wherever it stands, and so is text without
such characters. -/
theorem render_eq_render {n : Node} (h : ∀ s, n = .text s → ∀ c ∈ s.toList, c ∉ referred)
    (verbatim : Bool) : n.render verbatim = n.render false := by
  cases n with
  | doctype name => simp only [Node.render]
  | comment s => simp only [Node.render]
  | element name attributes children => simp only [Node.render]
  | text s =>
    have hself := flatMap_escapeTextChar_eq_self (h s rfl)
    cases verbatim with
    | false => rfl
    | true => simp only [Node.render, escapeText, hself, String.ofList_toList, if_true,
        Bool.false_eq_true, if_false]

theorem renderAll_eq_renderAll {nodes : List Node} (h : ¬ HasReferred nodes) (verbatim : Bool) :
    Node.renderAll verbatim nodes = Node.renderAll false nodes := by
  induction nodes with
  | nil => simp only [Node.renderAll]
  | cons n nodes ih =>
    have hhead : ∀ s, n = .text s → ∀ c ∈ s.toList, c ∉ referred := by
      rintro s rfl c hc hin
      exact h ⟨s, List.mem_cons_self, c, hc, hin⟩
    have hlater : ¬ HasReferred nodes := by
      rintro ⟨s, hs, hreferred⟩
      exact h ⟨s, List.mem_cons_of_mem n hs, hreferred⟩
    rw [Node.renderAll, Node.renderAll, render_eq_render hhead, ih hlater]

/-- Raw text with such characters does not end with its contents as other elements have them. -/
theorem not_suffix_renderAll {nodes : List Node} (h : HasReferred nodes) (before : List Char) :
    ¬ (Node.renderAll false nodes).toList <:+ before ++ (Node.renderAll true nodes).toList := by
  induction nodes generalizing before with
  | nil =>
    obtain ⟨s, hs, -⟩ := h
    exact absurd hs List.not_mem_nil
  | cons n nodes ih =>
    intro hsuffix
    rw [Node.renderAll, Node.renderAll, String.toList_append, String.toList_append] at hsuffix
    by_cases hlater : HasReferred nodes
    · apply ih hlater (before ++ (n.render true).toList)
      rw [List.append_assoc]
      exact (List.suffix_append _ _).trans hsuffix
    · obtain ⟨s, hmem, hreferred⟩ := h
      rcases List.mem_cons.mp hmem with rfl | hmem
      · rw [renderAll_eq_renderAll hlater true, ← List.append_assoc,
          List.suffix_append_self_iff] at hsuffix
        simp only [Node.render, escapeText, String.toList_ofList, if_true, Bool.false_eq_true,
          if_false] at hsuffix
        exact not_suffix_flatMap_escapeTextChar hreferred before hsuffix
      · exact hlater ⟨s, hmem, hreferred⟩

/-! ## Elements without an end tag -/

theorem exists_tag_of_isVoid {name : ElementName} (h : name.isVoid) :
    ∃ front c, name.tag.toList = front ++ [c] ∧ c ≠ '"' := by
  have hlast : ∀ tag ∈ voidTags, tag.toList.getLast?.any (· != '"') := by decide
  rw [ElementName.isVoid, ElementName.isHtmlIn, Bool.and_eq_true, List.contains_iff_mem] at h
  obtain ⟨c, hc, hne⟩ := (Option.any_eq_true _ _).mp (hlast name.tag h.2)
  obtain ⟨front, hfront⟩ := List.getLast?_eq_some_iff.mp hc
  exact ⟨front, c, hfront, bne_iff_ne.mp hne⟩

/-- The start tag of such an element does not end with its end tag: it is shorter, or there is a
quote before its end. -/
theorem not_suffix_startTag {name : ElementName} (h : name.isVoid) (attributes : List Attribute) :
    ¬ (endTag name).toList <:+ (startTag name attributes).toList := by
  intro hsuffix
  rcases List.eq_nil_or_concat attributes with rfl | ⟨others, a, rfl⟩
  · have hshort : (startTag name []).toList.length < (endTag name).toList.length := by
      simp [startTag, endTag]
    exact absurd hsuffix.length_le (Nat.not_le_of_lt hshort)
  · obtain ⟨letters, c, htag, hc⟩ := exists_tag_of_isVoid h
    have hend : (endTag name).toList = '<' :: '/' :: letters ++ [c, '>'] := by
      simp [endTag, htag]
    obtain ⟨front, hstart⟩ : ∃ front : List Char,
        (startTag name (others.concat a)).toList = front ++ ['"', '>'] := by
      refine ⟨("<" ++ name.tag ++ String.join (others.map Attribute.render) ++ " " ++
        a.name.written ++ "=\"" ++ escapeValue a.value).toList, ?_⟩
      simp [startTag, Attribute.render]
    rw [hend, hstart] at hsuffix
    have hlast := (List.suffix_append_inj_of_length_eq (Eq.refl 2)).mp hsuffix
    exact hc (List.cons_eq_cons.mp hlast.2).1

end Html

/-! ## The place of the anchor -/

namespace Html.Element

/-- An element in whose text the contents cannot be told from the start tag: it has none, or they
are raw text with a character that is otherwise written as a reference. -/
def IsSealed (e : Element) : Prop :=
  e.name.isVoid ∨ e.name.isRawText ∧ HasReferred e.children

/-- The text of an element with an end tag. -/
theorem outer_eq (e : Element) (h : ¬ e.name.isVoid) :
    e.outer = startTag e.name e.attributes ++
      (Node.renderAll e.name.isRawText e.children ++ endTag e.name) := by
  rw [outer, toNode, Node.render, if_neg h, String.append_assoc]

/-- An element that is not sealed has its contents in its text as `inner` writes them. -/
theorem inner_of_not_isSealed {e : Element} (h : ¬ e.IsSealed) :
    Node.renderAll e.name.isRawText e.children = e.inner := by
  by_cases hraw : e.name.isRawText
  · exact renderAll_eq_renderAll (fun hreferred => h (.inr ⟨hraw, hreferred⟩)) _
  · rw [eq_false_of_ne_true hraw, inner]

/-- The text of a sealed one does not end with them and an end tag. -/
theorem outer_ne_of_isSealed {e : Element} (h : e.IsSealed) (before : String) :
    e.outer ≠ before ++ (e.inner ++ endTag e.name) := by
  intro heq
  by_cases hvoid : e.name.isVoid
  · rw [outer, toNode, Node.render, if_pos hvoid, ← String.append_assoc] at heq
    apply not_suffix_startTag hvoid e.attributes
    rw [heq, String.toList_append]
    exact List.suffix_append _ _
  · obtain ⟨hraw, hreferred⟩ := h.resolve_left hvoid
    rw [outer_eq e hvoid, hraw] at heq
    have hchars := congrArg String.toList heq
    simp only [String.toList_append, ← List.append_assoc] at hchars
    exact not_suffix_renderAll hreferred _ ⟨_, (List.append_cancel_right hchars).symm⟩

end Html.Element

theorem withGreetingAnchor_of_outer_eq {e : Html.Element} {front : String}
    (h : e.outer = front ++ (e.inner ++ Html.endTag e.name)) :
    withGreetingAnchor e = front ++ greetingAnchor ++ (e.inner ++ Html.endTag e.name) := by
  have htail : Text.beforeTail? (Html.endTag e.name).toList e.outer.toList =
      some (front ++ e.inner).toList := by
    rw [Text.beforeTail?_eq_some_iff, h, ← String.append_assoc, String.toList_append]
  have hinner : Text.beforeTail? e.inner.toList (front ++ e.inner).toList = some front.toList :=
    Text.beforeTail?_eq_some_iff.mpr String.toList_append
  rw [withGreetingAnchor]
  simp only [htail, Option.bind_some, hinner, String.ofList_toList, String.append_assoc]

theorem withGreetingAnchor_of_outer_ne {e : Html.Element}
    (h : ∀ front, e.outer ≠ front ++ (e.inner ++ Html.endTag e.name)) :
    withGreetingAnchor e = greetingAnchor ++ e.outer := by
  rw [withGreetingAnchor]
  split
  · rename_i opening hopening
    obtain ⟨rest, hrest, hfront⟩ := Option.bind_eq_some_iff.mp hopening
    rw [Text.beforeTail?_eq_some_iff] at hrest hfront
    refine absurd (String.toList_inj.mp ?_) (h (String.ofList opening))
    rw [hrest, hfront]
    simp only [String.toList_append, String.toList_ofList, List.append_assoc]
  · rfl

/-- The anchor is put into an element's text at one place and changes nothing else: in front of an
element that is sealed, and behind the whole start tag of any other, before all it contains. -/
theorem withGreetingAnchor_inserts (e : Html.Element) :
    ∃ front back : String, e.outer = front ++ back ∧
      withGreetingAnchor e = front ++ greetingAnchor ++ back ∧
      (e.IsSealed ∧ front = "" ∨
        ¬ e.IsSealed ∧ front = Html.startTag e.name e.attributes ∧
          back = Html.Node.renderAll e.name.isRawText e.children ++ Html.endTag e.name) := by
  by_cases hsealed : e.IsSealed
  · refine ⟨"", e.outer, by rw [String.empty_append], ?_, .inl ⟨hsealed, rfl⟩⟩
    rw [withGreetingAnchor_of_outer_ne (Html.Element.outer_ne_of_isSealed hsealed),
      String.empty_append]
  · have houter := e.outer_eq fun hvoid => hsealed (.inl hvoid)
    refine ⟨_, _, houter, ?_, .inr ⟨hsealed, rfl, rfl⟩⟩
    rw [Html.Element.inner_of_not_isSealed hsealed] at houter ⊢
    exact withGreetingAnchor_of_outer_eq houter

/-- A style sheet with a child selector, whose contents would be written otherwise. -/
example : withGreetingAnchor ⟨.html "style", [], [.text "p>a"]⟩ =
    "<a name=\"greeting\"></a><style>p>a</style>" := by decide +kernel

end Bulletin
