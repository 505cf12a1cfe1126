import Bulletin.Proofs.Committing
import Bulletin.Proofs.Replacement

/-!
# Bulletins that are written from one template

Bulletins of a period are often the same but for the references in them to the reader's own view. A
template is what they have in common: pieces of text, between which the references stand.

    neutralize_writeOut : neutralize p user (writeOut p user pieces) = writeOut p "web" pieces
    divide_writeOut     : so the bulletins of two users are divided into the same sections, and the
                          sections of the second add nothing to what is shared

None of this depends on the users' names, which may look like a number with a colon themselves, nor
on where a header ends and its body begins.
-/

namespace Bulletin

/-- A template written out for a user: between its pieces stand references to the user's own view. -/
def writeOut (period : Period) (user : String) (pieces : List String) : String :=
  (String.ofList (reference period user)).intercalate pieces

/-- No piece has the number of the period with a colon behind it. -/
def IsTemplate (period : Period) (pieces : List String) : Prop :=
  ∀ piece ∈ pieces, ¬ Decimal.charsOfInt period.toInt ++ [':'] <:+: piece.toList

/-- A header and a body make up `lead` and then `text`, which begins with the first marker that there
is in the header. -/
structure IsSent (lead text header body : String) : Prop where
  whole : header ++ body = lead ++ text
  marked : lead.toList ++ headMarker.toList <+: header.toList
  first : ∀ front, front ++ headMarker.toList <+: header.toList → lead.toList.length ≤ front.length

/-! ## Neutral references -/

/-- What is left of the users in their bulletins is the same. -/
theorem neutralize_writeOut {period : Period} {pieces : List String}
    (h : IsTemplate period pieces) (user : String) :
    neutralize period user (writeOut period user pieces) =
      writeOut period neutralUser pieces := by
  have hpieces : ∀ piece ∈ pieces.map String.toList,
      ¬ Decimal.charsOfInt period.toInt ++ [':'] <:+: piece := by
    intro piece hmem
    obtain ⟨s, hs, rfl⟩ := List.mem_map.mp hmem
    exact h s hs
  unfold neutralize writeOut
  rw [← String.toList_inj, String.toList_intercalate, String.toList_intercalate,
    String.toList_ofList, String.toList_ofList, String.toList_ofList]
  exact Text.replaceAll_intercalate (Decimal.not_mem_charsOfInt rfl (by decide) _) hpieces

/-! ## The page -/

theorem Text.from?_append_of_first {word lead page : List Char} (hword : word ≠ [])
    (hmarked : word <+: page)
    (hfirst : ∀ front, front ++ word <+: lead ++ page → lead.length ≤ front.length) :
    Text.from? word (lead ++ page) = some page := by
  induction lead with
  | nil =>
    obtain ⟨c, rest, rfl⟩ := List.exists_cons_of_ne_nil (hmarked.ne_nil hword)
    rw [List.nil_append, Text.from?, if_pos (List.isPrefixOf_iff_prefix.mpr hmarked)]
  | cons c lead ih =>
    have hlater : ¬ word <+: c :: (lead ++ page) := by
      intro hprefix
      have := hfirst [] hprefix
      simp at this
    rw [List.cons_append, Text.from?, if_neg fun h => hlater (List.isPrefixOf_iff_prefix.mp h)]
    refine ih fun front hfront => ?_
    have := hfirst (c :: front) (by simpa using hfront)
    simpa using this

/-- The page of what was sent is its text with neutral references. -/
theorem IsSent.page_eq {lead text header body : String} (h : IsSent lead text header body)
    (period : Period) (user : String) :
    page header body period user = .ok (neutralize period user text) := by
  obtain ⟨rest, hrest⟩ := h.marked
  rw [List.append_assoc] at hrest
  have hstart : Text.from? headMarker.toList header.toList = some (headMarker.toList ++ rest) := by
    have hfirst := h.first
    rw [← hrest] at hfirst ⊢
    exact Text.from?_append_of_first (by decide) (List.prefix_append _ _) hfirst
  have htext : String.ofList (headMarker.toList ++ rest) ++ body = text := by
    have hwhole := congrArg String.toList h.whole
    rw [String.toList_append, String.toList_append, ← hrest, List.append_assoc] at hwhole
    rw [← String.toList_inj, String.toList_append, String.toList_ofList]
    exact List.append_cancel_left hwhole
  unfold page
  rw [hstart]
  dsimp only
  rw [htext]

theorem divide_of_isSent {period : Period} {pieces : List String} (h : IsTemplate period pieces)
    {user lead header body : String}
    (hsent : IsSent lead (writeOut period user pieces) header body) :
    divide header body period user =
      Division.ofDocument (Html.Document.parse (writeOut period neutralUser pieces)) := by
  unfold divide
  rw [hsent.page_eq, neutralize_writeOut h]
  dsimp only [bind, Except.bind]

/-! ## The sections -/

/-- Sections that have just been committed add nothing to what is shared. -/
theorem Holdings.commit_again (h : Holdings) (e : Edition) (user other : String)
    (sections : List Section) :
    let state := h.commit e user sections
    (state.1.commit state.2 other sections).1.contents = state.1.contents ∧
      (state.1.commit state.2 other sections).2.common = state.2.common := by
  intro state
  have hfirst := h.commits_commit e user sections
  have hagain := state.1.commits_commit state.2 other sections
  have hcontents := hagain.known fun text hmem => (hfirst.texts text).mpr (.inr hmem)
  refine ⟨hcontents, SortedMap.ext_get? fun name => ?_⟩
  rw [hagain.common name]
  cases hlast : Section.lastShared? name sections with
  | none => rfl
  | some text =>
    have hbefore := hfirst.common name
    rw [hlast] at hbefore
    dsimp only
    rw [hcontents]
    exact hbefore.symm

/-- The bulletins that two users get from one template are the same but for neutral references.
They are divided into the same sections, or refused for the same reason, and committing the
sections of the second behind those of the first adds nothing to what is shared. -/
theorem divide_writeOut {period : Period} {pieces : List String} (h : IsTemplate period pieces) :
    (∀ user, neutralize period user (writeOut period user pieces) =
        writeOut period neutralUser pieces) ∧
      ∀ a b leadA headerA bodyA leadB headerB bodyB,
        IsSent leadA (writeOut period a pieces) headerA bodyA →
        IsSent leadB (writeOut period b pieces) headerB bodyB →
        divide headerA bodyA period a = divide headerB bodyB period b ∧
          ∀ sectionsA sectionsB, divide headerA bodyA period a = .ok sectionsA →
            divide headerB bodyB period b = .ok sectionsB →
            ∀ (held : Holdings) (e : Edition),
              let state := held.commit e a sectionsA
              (state.1.commit state.2 b sectionsB).1.contents = state.1.contents ∧
                (state.1.commit state.2 b sectionsB).2.common = state.2.common := by
  refine ⟨neutralize_writeOut h, fun a b leadA headerA bodyA leadB headerB bodyB hA hB => ?_⟩
  have hsame : divide headerA bodyA period a = divide headerB bodyB period b := by
    rw [divide_of_isSent h hA, divide_of_isSent h hB]
  refine ⟨hsame, fun sectionsA sectionsB hokA hokB held e => ?_⟩
  have hsections : sectionsA = sectionsB := Except.ok.inj (hokA.symm.trans (hsame.trans hokB))
  rw [← hsections]
  exact held.commit_again e a b sectionsA

/-- There is no marker earlier where none begins at an earlier place. -/
theorem isSent_of_places {lead text header body : String} (hwhole : header ++ body = lead ++ text)
    (hmarked : lead.toList ++ headMarker.toList <+: header.toList)
    (hplaces : ∀ i < lead.toList.length, ¬ headMarker.toList <+: header.toList.drop i) :
    IsSent lead text header body := by
  refine ⟨hwhole, hmarked, fun front hfront => Nat.le_of_not_lt fun hshort => ?_⟩
  obtain ⟨rest, hrest⟩ := hfront
  refine hplaces front.length hshort ⟨rest, ?_⟩
  rw [← hrest, List.append_assoc, List.drop_left]

/-- The second user's name and what follows it look like another reference, and each bulletin is cut
in the midst of one. -/
theorem divide_writeOut_seam :
    let pieces := ["<head><p>17", ":1<p><a name=footer>", ""]
    let body := ":alice:1<p><a name=footer>7:alice"
    let body' := "x7:1<p><a name=footer>7:x7"
    let sections : List Section :=
      [⟨"greeting", "Greeting", "<p><a name=\"greeting\"></a>177:web:1</p>", .everyone⟩,
        ⟨"footer", "Footer", "<p><a name=\"footer\">7:web</a></p>", .everyone⟩]
    IsTemplate 7 pieces ∧
      IsSent "To: alice" (writeOut 7 "alice" pieces) "To: alice<head><p>177" body ∧
      IsSent "To: x7" (writeOut 7 "x7" pieces) "To: x7<head><p>177:" body' ∧
      neutralize 7 "x7" (writeOut 7 "x7" pieces) = "<head><p>177:web:1<p><a name=footer>7:web" ∧
      divide "To: alice<head><p>177" body 7 "alice" = .ok sections ∧
      divide "To: x7<head><p>177:" body' 7 "x7" = .ok sections ∧
      let state := Holdings.empty.commit (Edition.new ⟨1, 2, SortedMap.empty⟩) "alice" sections
      (state.1.commit state.2 "x7" sections).1.contents = state.1.contents ∧
        (state.1.commit state.2 "x7" sections).2.common = state.2.common := by
  intro pieces body body' sections
  have htemplate : IsTemplate 7 pieces := by
    have hnumber : Decimal.charsOfInt (7 : Period).toInt = ['7'] := by decide +kernel
    unfold IsTemplate
    rw [hnumber]
    decide +kernel
  have halice : IsSent "To: alice" (writeOut 7 "alice" pieces) "To: alice<head><p>177" body :=
    isSent_of_places (by decide +kernel) (by decide +kernel) (by decide +kernel)
  have hother : IsSent "To: x7" (writeOut 7 "x7" pieces) "To: x7<head><p>177:" body' :=
    isSent_of_places (by decide +kernel) (by decide +kernel) (by decide +kernel)
  have hok : divide "To: alice<head><p>177" body 7 "alice" = .ok sections :=
    eq_ok_of_toOption (by decide +kernel)
  obtain ⟨hneutral, hdivide⟩ := divide_writeOut htemplate
  obtain ⟨hsame, hcommit⟩ := hdivide "alice" "x7" _ _ _ _ _ _ halice hother
  have hok' := hsame.symm.trans hok
  have hplain : neutralize 7 "x7" (writeOut 7 "x7" pieces) =
      "<head><p>177:web:1<p><a name=footer>7:web" := (hneutral "x7").trans (by decide +kernel)
  exact ⟨htemplate, halice, hother, hplain, hok, hok',
    hcommit sections sections hok hok' Holdings.empty (Edition.new ⟨1, 2, SortedMap.empty⟩)⟩

end Bulletin
