import Bulletin.Proofs.Neutrality
import Bulletin.Proofs.Spelling
import Mathlib.Data.List.Basic

/-!
# References to other periods

A reference names a period by a number, and is looked for as plain text. So the number that is
looked for can be the end of a longer one, and a reference to pages of another period is taken for
one to the reader's own:

    in a bulletin of 7 for alice      becomes
    8:alice                           8:alice
    17:alice, -7:alice, 007:alice     17:web, -7:web, 007:web

That is all that can happen. All text outside of the occurrences stays, and a reference is changed
if its number ends in that of the period, and stays as it is otherwise, provided that no other
occurrence of the text that is looked for runs into it. None does if the user's name has no colon,
and no digit or minus sign at its end:

    7:x8:x8, for the user x8      7:web:x8     the number of the second is the end of the first

    Text.Replaces.exists_pieces : between the words that are replaced everything is kept
    Mentions.nothingRunsInto    : which references no occurrence runs into
    Mentions.neutralize_eq      : what becomes of a reference, and of the text around it
-/

namespace Bulletin

namespace Text

variable {old new : List Char}

/-! ## Between the words -/

/-- A text is words that are replaced, and pieces without a word that are kept. -/
theorem Replaces.exists_pieces (hold : old ≠ []) {s out : List Char} (h : Replaces old new s out) :
    ∃ piece pieces, s = old.intercalate (piece :: pieces) ∧
      out = new.intercalate (piece :: pieces) ∧ ∀ p ∈ piece :: pieces, ¬ old <:+: p := by
  have hnil : ¬ old <:+: [] := fun hinfix => hold (List.infix_nil.mp hinfix)
  induction h with
  | done => exact ⟨[], [], by simp, by simp, by simpa using hnil⟩
  | word later ih =>
    obtain ⟨piece, pieces, rfl, rfl, hpieces⟩ := ih
    exact ⟨[], piece :: pieces, by simp, by simp, List.forall_mem_cons.mpr ⟨hnil, hpieces⟩⟩
  | kept other later ih =>
    rename_i c rest out
    obtain ⟨piece, pieces, rfl, rfl, hpieces⟩ := ih
    have hfirst (sep : List Char) :
        sep.intercalate ((c :: piece) :: pieces) = c :: sep.intercalate (piece :: pieces) := by
      cases pieces <;> simp
    have hprefix : piece <+: old.intercalate (piece :: pieces) := by
      cases pieces <;> simp
    rw [List.forall_mem_cons] at hpieces
    refine ⟨c :: piece, pieces, (hfirst old).symm, (hfirst new).symm,
      List.forall_mem_cons.mpr ⟨?_, hpieces.2⟩⟩
    rw [List.infix_cons_iff, not_or]
    refine ⟨fun hword => other (hword.trans ?_), hpieces.1⟩
    exact List.cons_prefix_cons.mpr ⟨rfl, hprefix⟩

/-! ## Where a text is divided -/

theorem getLast_mem_getLast?_append {front back : List Char} (hback : back ≠ []) :
    back.getLast hback ∈ (front ++ back).getLast? := by
  rw [List.getLast?_append_of_ne_nil front hback]
  exact List.getLast?_eq_some_getLast hback

/-- Where no word runs from one text into the next, what becomes of the one does not depend on the
other. -/
theorem replaceAll_append (hold : old ≠ []) {front rest : List Char}
    (h : ∀ back, back <:+ front → back ≠ [] → old <+: back ++ rest → old <+: back) :
    replaceAll old new (front ++ rest) = replaceAll old new front ++ replaceAll old new rest := by
  induction hlength : front.length using Nat.strongRecOn generalizing front with
  | ind length ih =>
    cases front with
    | nil => rfl
    | cons c front =>
      by_cases hword : old <+: c :: front
      · obtain ⟨later, hlater⟩ := hword
        have hsuffix : later <:+ c :: front := ⟨old, hlater⟩
        have hpos := List.length_pos_iff.mpr hold
        have htotal := congrArg List.length hlater
        rw [List.length_append] at htotal
        have hrest := ih later.length (by omega)
          (fun back hback => h back (hback.trans hsuffix)) rfl
        rw [← hlater, List.append_assoc, replaceAll_word_append hold, replaceAll_word_append hold,
          hrest, List.append_assoc]
      · have hother : ¬ old <+: c :: (front ++ rest) := fun hprefix =>
          hword (h _ List.suffix_rfl (List.cons_ne_nil c front) hprefix)
        rw [List.length_cons] at hlength
        have hrest := ih front.length (by omega)
          (fun back hback => h back (hback.trans (List.suffix_cons c front))) rfl
        rw [List.cons_append, replaceAll_cons_of_no_match hother,
          replaceAll_cons_of_no_match hword, hrest, List.cons_append]

/-- No occurrence of a word runs into a stretch of text, or out of it: each is in front of it, or
behind it, or in it at its end. -/
def IsAlone (word front stretch behind : List Char) : Prop :=
  ∀ before after, before ++ word ++ after = front ++ stretch ++ behind →
    before ++ word <+: front ∨ word ++ after <:+ behind ∨ front <+: before ∧ after = behind

namespace IsAlone

variable {word front stretch behind : List Char} (h : IsAlone word front stretch behind)

include h

theorem prefix_of_front {back : List Char} (hback : back <:+ front) (hne : back ≠ [])
    (hword : word <+: back ++ (stretch ++ behind)) : word <+: back := by
  obtain ⟨lead, rfl⟩ := hback
  obtain ⟨after, hafter⟩ := hword
  have hpos := List.length_pos_iff.mpr hne
  have htotal := congrArg List.length hafter
  simp only [List.length_append] at htotal
  rcases h lead after (by simp [hafter]) with hfront | hbehind | ⟨hlead, -⟩
  · exact (List.prefix_append_right_inj lead).mp hfront
  · have hlength := hbehind.length_le
    rw [List.length_append] at hlength
    omega
  · have hlength := hlead.length_le
    rw [List.length_append] at hlength
    omega

theorem eq_of_stretch {back : List Char} (hold : word ≠ []) (hback : back <:+ stretch)
    (hne : back ≠ []) (hword : word <+: back ++ behind) : word = back := by
  obtain ⟨lead, rfl⟩ := hback
  obtain ⟨after, hafter⟩ := hword
  have hpos := List.length_pos_iff.mpr hold
  have hpos' := List.length_pos_iff.mpr hne
  have htotal := congrArg List.length hafter
  simp only [List.length_append] at htotal
  rcases h (front ++ lead) after (by simp [hafter]) with hfront | hbehind | ⟨-, rfl⟩
  · have hlength := hfront.length_le
    simp only [List.length_append] at hlength
    omega
  · have hlength := hbehind.length_le
    rw [List.length_append] at hlength
    omega
  · exact List.append_cancel_right hafter

/-- A stretch that does not end in the word is kept. -/
theorem replaceAll_of_not_suffix (hword : word ≠ []) (hends : ¬ word <:+ stretch) :
    replaceAll word new (front ++ stretch ++ behind) =
      replaceAll word new front ++ stretch ++ replaceAll word new behind := by
  have hkept : replaceAll word new (stretch ++ behind) = stretch ++ replaceAll word new behind :=
    replaceAll_kept_append fun back hback hne hprefix =>
      hends (h.eq_of_stretch hword hback hne hprefix ▸ hback)
  rw [List.append_assoc, replaceAll_append hword fun back => h.prefix_of_front, hkept,
    List.append_assoc]

/-- Of one that does, the end is replaced. -/
theorem replaceAll_of_append {lead : List Char} (hword : word ≠ []) (hends : stretch = lead ++ word) :
    replaceAll word new (front ++ stretch ++ behind) =
      replaceAll word new front ++ (lead ++ new) ++ replaceAll word new behind := by
  have hkept : replaceAll word new (lead ++ (word ++ behind)) =
      lead ++ replaceAll word new (word ++ behind) := by
    refine replaceAll_kept_append fun back hback hne hprefix => hne ?_
    have hend : back ++ word <:+ stretch := by
      obtain ⟨lead', rfl⟩ := hback
      exact ⟨lead', by rw [hends, List.append_assoc]⟩
    rw [← List.append_assoc] at hprefix
    have hself := h.eq_of_stretch hword hend (by simp [hne]) hprefix
    simpa using hself
  rw [List.append_assoc, replaceAll_append hword fun back => h.prefix_of_front, hends,
    List.append_assoc, hkept, replaceAll_word_append hword]
  simp only [List.append_assoc]

end IsAlone

end Text

/-! ## Numbers in a text -/

namespace Decimal

/-- What numbers are written with. -/
def IsFigure (c : Char) : Prop := ('0' ≤ c ∧ c ≤ '9') ∨ c = '-'

/-- Digits, perhaps with a minus sign. -/
inductive IsNumber : List Char → Prop
  | bare {digits : List Char} (h : AreDigits digits) : IsNumber digits
  | negative {digits : List Char} (h : AreDigits digits) : IsNumber ('-' :: digits)

/-- A number stands behind a text with all the digits that there are, and with its sign. -/
inductive StandsBehind (front : List Char) : List Char → Prop
  | bare {digits : List Char} (h : AreDigits digits)
      (whole : ∀ c ∈ front.getLast?, ¬ IsFigure c) : StandsBehind front digits
  | negative {digits : List Char} (h : AreDigits digits) : StandsBehind front ('-' :: digits)

variable {front before number written : List Char}

theorem AreDigits.minus_not_mem {digits : List Char} (h : AreDigits digits) : '-' ∉ digits :=
  fun hmem => absurd (h.2 '-' hmem).1 (by decide)

theorem IsNumber.isFigure (h : IsNumber number) : ∀ c ∈ number, IsFigure c := by
  intro c hc
  cases h with
  | bare hdigits => exact .inl (hdigits.2 c hc)
  | negative hdigits =>
    rcases List.mem_cons.mp hc with rfl | hc
    · exact .inr rfl
    · exact .inl (hdigits.2 c hc)

theorem IsNumber.colon_not_mem (h : IsNumber number) : ':' ∉ number := by
  intro hmem
  rcases h.isFigure ':' hmem with ⟨-, hhigh⟩ | heq
  · exact absurd hhigh (by decide)
  · exact absurd heq (by decide)

/-- A minus sign is at the beginning or nowhere. -/
theorem IsNumber.minus_not_mem_tail (h : IsNumber number) : '-' ∉ number.tail := by
  cases h with
  | bare hdigits => exact fun hmem => hdigits.minus_not_mem (List.mem_of_mem_tail hmem)
  | negative hdigits => exact hdigits.minus_not_mem

theorem IsPlain.isNumber (h : IsPlain number) : IsNumber number := by
  cases h with
  | zero => exact .bare (areDigits_digits 0)
  | positive hdigits => exact .bare hdigits
  | negative hdigits => exact .negative hdigits

theorem StandsBehind.isNumber (h : StandsBehind front number) : IsNumber number := by
  cases h with
  | bare hdigits => exact .bare hdigits
  | negative hdigits => exact .negative hdigits

/-- No number that ends where this one does begins further in front. -/
theorem StandsBehind.prefix_of_append_eq (h : StandsBehind front number)
    (hwritten : IsNumber written) (heq : before ++ written = front ++ number) :
    front <+: before := by
  rcases List.prefix_or_prefix_of_prefix ⟨number, heq.symm⟩ (List.prefix_append before written) with
    hin | ⟨more, rfl⟩
  · exact hin
  · rw [List.append_assoc] at heq
    obtain rfl := List.append_cancel_left heq
    by_cases hmore : more = []
    · simp [hmore]
    · exfalso
      cases h with
      | bare hdigits hwhole =>
        have hlast := List.mem_append_left number (List.getLast_mem hmore)
        exact hwhole _ (Text.getLast_mem_getLast?_append hmore) (hwritten.isFigure _ hlast)
      | negative hdigits =>
        refine hwritten.minus_not_mem_tail ?_
        rw [List.tail_append_of_ne_nil hmore]
        simp

end Decimal

/-! ## References that nothing runs into -/

namespace Text

variable {front number written name behind rest x : List Char}

/-- Where digits are followed by a colon, a name that ends in no digit ends in front of them. -/
theorem prefix_of_ends (hname : ':' ∉ name) (hlast : ∀ c ∈ name.getLast?, ¬ Decimal.IsFigure c)
    (hnumber : Decimal.IsNumber number) (h : name <+: x ++ number ++ ':' :: rest) : name <+: x := by
  rcases List.prefix_or_prefix_of_prefix (prefix_of_no_colon hname h)
    (List.prefix_append x number) with hin | ⟨y, rfl⟩
  · exact hin
  · by_cases hy : y = []
    · simp [hy]
    · exfalso
      have hsub : y <+: number :=
        (List.prefix_append_right_inj x).mp (prefix_of_no_colon hname h)
      exact hlast _ (getLast_mem_getLast?_append hy)
        (hnumber.isFigure _ (hsub.subset (List.getLast_mem hy)))

/-- A colon that is not in a number is in front of it. -/
theorem exists_of_append_eq {before after : List Char} (hnumber : ':' ∉ number)
    (h : front ++ number = before ++ ':' :: after) :
    ∃ x, front = before ++ ':' :: x ∧ after = x ++ number := by
  rcases List.append_eq_append_iff.mp h with ⟨as, -, hin⟩ | ⟨bs, hfront, hcons⟩
  · exact absurd (hin ▸ by simp) hnumber
  · cases bs with
    | nil => exact absurd (by rw [← List.nil_append number, ← hcons]; simp) hnumber
    | cons c x =>
      obtain ⟨rfl, hafter⟩ := List.cons_eq_cons.mp hcons
      exact ⟨x, hfront, hafter⟩

theorem isAlone_of_standsBehind (hname : ':' ∉ name)
    (hlast : ∀ c ∈ name.getLast?, ¬ Decimal.IsFigure c) (hwritten : Decimal.IsNumber written)
    (hnumber : Decimal.StandsBehind front number) :
    IsAlone (written ++ ':' :: name) front (number ++ ':' :: name) behind := by
  intro before after h
  have hcolons : (before ++ written) ++ ':' :: (name ++ after) =
      (front ++ number) ++ ':' :: (name ++ behind) := by simpa using h
  -- the colon of the one is that of the other, or it is in front of it or behind it
  rcases List.append_eq_append_iff.mp hcolons with ⟨as, hnumbers, hnames⟩ | ⟨bs, hnumbers, hnames⟩
  · cases as with
    | nil =>
      have hafter := List.append_cancel_left (List.cons_eq_cons.mp hnames).2
      rw [List.append_nil] at hnumbers
      exact .inr (.inr ⟨hnumber.prefix_of_append_eq hwritten hnumbers.symm, hafter⟩)
    | cons c as =>
      obtain ⟨rfl, hrest⟩ := List.cons_eq_cons.mp hnames
      obtain ⟨x, rfl, rfl⟩ := exists_of_append_eq hnumber.isNumber.colon_not_mem hnumbers
      have hin : name <+: x := prefix_of_ends hname hlast hnumber.isNumber ⟨after, hrest⟩
      refine .inl ?_
      rw [← List.append_assoc, List.prefix_append_right_inj]
      exact List.cons_prefix_cons.mpr ⟨rfl, hin⟩
  · cases bs with
    | nil =>
      have hafter := List.append_cancel_left (List.cons_eq_cons.mp hnames).2
      rw [List.append_nil] at hnumbers
      exact .inr (.inr ⟨hnumber.prefix_of_append_eq hwritten hnumbers, hafter.symm⟩)
    | cons c bs =>
      obtain ⟨rfl, hrest⟩ := List.cons_eq_cons.mp hnames
      obtain ⟨x, rfl, rfl⟩ := exists_of_append_eq hwritten.colon_not_mem hnumbers
      obtain ⟨z, rfl⟩ := prefix_of_ends hname hlast hwritten ⟨behind, hrest⟩
      refine .inr (.inl ⟨z, ?_⟩)
      have hbehind : name ++ behind = name ++ (z ++ (written ++ ':' :: name ++ after)) := by
        simpa using hrest
      exact (List.append_cancel_left hbehind).symm

end Text

/-! ## What becomes of references -/

/-- A text has a reference to a user's pages between two others, with the whole of its number. -/
structure Mentions (user content front number behind : String) : Prop where
  content_eq : content = front ++ (number ++ ":" ++ user) ++ behind
  whole : Decimal.StandsBehind front.toList number.toList

/-- No occurrence of what is replaced in a bulletin runs into a reference, or out of it. -/
def NothingRunsInto (period : Period) (user front number behind : String) : Prop :=
  Text.IsAlone (reference period user) front.toList (number ++ ":" ++ user).toList behind.toList

/-- A user's name has no colon, and no digit or minus sign at its end. -/
structure IsDelimited (user : String) : Prop where
  colon_not_mem : ':' ∉ user.toList
  ends : ∀ c ∈ user.toList.getLast?, ¬ Decimal.IsFigure c

section Mentions

variable {period : Period} {user content front number behind : String}

theorem Mentions.nothingRunsInto (h : Mentions user content front number behind)
    (huser : IsDelimited user) : NothingRunsInto period user front number behind := by
  have hstretch : (number ++ ":" ++ user).toList = number.toList ++ ':' :: user.toList := by simp
  unfold NothingRunsInto reference
  rw [hstretch]
  exact Text.isAlone_of_standsBehind huser.colon_not_mem huser.ends
    (Decimal.isPlain_charsOfInt _).isNumber h.whole

/-- A reference ends in one to pages of the period if its number ends in that of the period. -/
theorem reference_suffix_iff :
    reference period user <:+ (number ++ ":" ++ user).toList ↔
      Text.endsWith number (Decimal.ofInt64 period) = true := by
  unfold reference Text.endsWith Decimal.ofInt64 Decimal.ofInt
  rw [List.isSuffixOf_iff_suffix, String.toList_ofList, String.append_assoc, String.toList_append,
    String.toList_append]
  exact List.suffix_append_self_iff

theorem Mentions.neutralize_eq (h : Mentions user content front number behind)
    (hnothing : NothingRunsInto period user front number behind) :
    neutralize period user content =
      neutralize period user front ++
          (number ++ ":" ++
            if Text.endsWith number (Decimal.ofInt64 period) then neutralUser else user) ++
        neutralize period user behind := by
  have hne := reference_ne_nil period user
  have hcontent : content.toList =
      front.toList ++ (number ++ ":" ++ user).toList ++ behind.toList := by
    rw [h.content_eq, String.toList_append, String.toList_append]
  apply String.toList_inj.mp
  unfold neutralize
  simp only [String.toList_append, String.toList_ofList]
  rw [hcontent]
  split
  · rename_i hends
    obtain ⟨lead, rfl⟩ := Text.endsWith_iff.mp hends
    have hstretch : (lead ++ Decimal.ofInt64 period ++ ":" ++ user).toList =
        lead.toList ++ reference period user := by
      simp [reference, Decimal.ofInt64, Decimal.ofInt]
    rw [Text.IsAlone.replaceAll_of_append hnothing hne hstretch]
    simp [reference, Decimal.ofInt64, Decimal.ofInt]
  · rename_i hends
    rw [Text.IsAlone.replaceAll_of_not_suffix hnothing hne fun hsuffix =>
      hends (reference_suffix_iff.mp hsuffix)]
    simp

/-- A number does not end in a negative one, unless it is that. -/
theorem Mentions.denotes_of_endsWith (h : Mentions user content front number behind)
    (hneg : period.toInt < 0) (hends : Text.endsWith number (Decimal.ofInt64 period)) :
    Decimal.Denotes number.toList period.toInt := by
  obtain ⟨lead, rfl⟩ := Text.endsWith_iff.mp hends
  have hnumber := h.whole.isNumber
  have hperiod := Decimal.intOfChars?_eq_some_iff.mp (Decimal.intOfChars?_charsOfInt period.toInt)
  rw [Decimal.ofInt64, Decimal.ofInt, String.toList_append, String.toList_ofList] at hnumber ⊢
  obtain ⟨n, hn⟩ := Int.eq_negSucc_of_lt_zero hneg
  rw [hn] at hnumber hperiod ⊢
  have hlead : lead.toList = [] := by
    by_contra hne
    refine hnumber.minus_not_mem_tail ?_
    rw [List.tail_append_of_ne_nil hne, Decimal.charsOfInt]
    simp
  rwa [hlead, List.nil_append]

end Mentions

/-- In the content all text that is not a reference as it is looked for is kept. A reference with the
whole of its number is changed if that ends in the number of the period, and else it is kept, if
nothing runs into it. So for a period with a negative number no other is touched. -/
theorem neutralize_at_mentions (period : Period) (user content : String) :
    (∃ piece pieces,
        content.toList = (reference period user).intercalate (piece :: pieces) ∧
        (neutralize period user content).toList =
          (reference period neutralUser).intercalate (piece :: pieces) ∧
        ∀ p ∈ piece :: pieces, ¬ reference period user <:+: p) ∧
      ∀ front number behind, Mentions user content front number behind →
        IsDelimited user ∨ NothingRunsInto period user front number behind →
          (neutralize period user content =
            neutralize period user front ++
                (number ++ ":" ++
                  if Text.endsWith number (Decimal.ofInt64 period) then neutralUser else user) ++
              neutralize period user behind) ∧
          (period.toInt < 0 → ¬ Decimal.Denotes number.toList period.toInt →
            neutralize period user content =
              neutralize period user front ++ (number ++ ":" ++ user) ++
                neutralize period user behind) := by
  constructor
  · exact (replaces_neutralize period user content).exists_pieces (reference_ne_nil period user)
  · intro front number behind hmention hapart
    have hnothing : NothingRunsInto period user front number behind := by
      rcases hapart with huser | hnothing
      · exact hmention.nothingRunsInto huser
      · exact hnothing
    have hwhole := hmention.neutralize_eq hnothing
    refine ⟨hwhole, fun hneg hother => ?_⟩
    rwa [if_neg fun hends => hother (hmention.denotes_of_endsWith hneg hends)] at hwhole

/-- Of two references to other periods one is changed; in a bulletin of a negative period it is not. -/
theorem neutralize_at_mentions_seventeen :
    let content := "17:alice, 8:alice"
    IsDelimited "alice" ∧ Mentions "alice" content "" "17" ", 8:alice" ∧
      Mentions "alice" content "17:alice, " "8" "" ∧
      neutralize 7 "alice" content = "" ++ ("17" ++ ":" ++ neutralUser) ++ ", 8:alice" ∧
      neutralize 7 "alice" content = "17:web, " ++ ("8" ++ ":" ++ "alice") ++ "" ∧
      (-7 : Period).toInt < 0 ∧ ¬ Decimal.Denotes "17".toList (-7 : Period).toInt ∧
      neutralize (-7) "alice" content = "" ++ ("17" ++ ":" ++ "alice") ++ ", 8:alice" := by
  intro content
  have huser : IsDelimited "alice" := ⟨by decide, by simp [Decimal.IsFigure]⟩
  have hseventeen : Mentions "alice" content "" "17" ", 8:alice" :=
    ⟨by decide, .bare (Decimal.areDigits_digits 17) (by simp)⟩
  have height : Mentions "alice" content "17:alice, " "8" "" :=
    ⟨by decide, .bare (Decimal.areDigits_digits 8) (by simp [Decimal.IsFigure])⟩
  have hother : ¬ Decimal.Denotes "17".toList (-7 : Period).toInt := fun h =>
    absurd (Decimal.intOfChars?_eq_some_iff.mpr h) (by decide)
  have hchanged := ((neutralize_at_mentions 7 "alice" content).2 _ _ _ hseventeen (.inl huser)).1
  have hkept := ((neutralize_at_mentions 7 "alice" content).2 _ _ _ height (.inl huser)).1
  have hnegative := ((neutralize_at_mentions (-7) "alice" content).2 _ _ _ hseventeen
    (.inl huser)).2 (by decide) hother
  refine ⟨huser, hseventeen, height, hchanged.trans ?_, hkept.trans ?_, by decide, hother,
    hnegative.trans ?_⟩ <;> decide +kernel

/-- A reference to period 17 is changed in a bulletin of period 7. -/
theorem not_only_own_period :
    Mentions "alice" "17:alice" "" "17" "" ∧ Decimal.Denotes "17".toList 17 ∧
      (17 : Int) ≠ (7 : Period).toInt ∧ neutralize 7 "alice" "17:alice" = "17:web" :=
  ⟨⟨by decide, .bare (Decimal.areDigits_digits 17) (by simp)⟩,
    Decimal.intOfChars?_eq_some_iff.mp (by decide), by decide, by decide +kernel⟩

end Bulletin
