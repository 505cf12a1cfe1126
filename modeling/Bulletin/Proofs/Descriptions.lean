import Bulletin.Metadata
import Bulletin.Proofs.Json.Integers

/-!
# The data of a description is kept as it is written

A description is an object with a member `data`, or a list whose third element is the data. The data
is an object, or `null`, which says nothing. What is read of it is, for each user, the text of the
last value that is given for the user, byte for byte:

    Describes     : bytes are a description with such data
    ofBytes_sound : what is read is what the bytes describe
-/

namespace Bulletin

open Json
open Json.Reader (byte isBlank)

namespace Metadata

/-- For each user the data has the text of the last value that is given for the user. -/
def Keeps (data : SortedMap String String) (entries : List (String × List UInt8)) : Prop :=
  ∀ user, (data.get? user).map Text.encode = lastOf? user entries

/-- A text, if there is one, says which values are given for users. -/
inductive SaysData : List (String × List UInt8) → Option (List UInt8) → Prop where
  | missing : SaysData [] none
  | null : SaysData [] (some (word ['n', 'u', 'l', 'l']))
  | object {entries : List (String × List UInt8)} {text : List UInt8} (h : IsObject entries text) :
      SaysData entries (some text)

/-- Bytes are a description in which values are given for users. -/
inductive Describes : List (String × List UInt8) → List UInt8 → Prop where
  | named {entries members : List (String × List UInt8)} {before text behind : List UInt8}
      (hbefore : AreBlanks before) (hbehind : AreBlanks behind) (hobject : IsObject members text)
      (honce : (members.filter (·.1 = "data")).length ≤ 1)
      (hdata : SaysData entries (lastOf? "data" members)) :
      Describes entries (before ++ (text ++ behind))
  | listed {entries : List (String × List UInt8)} {values : List (List UInt8)}
      {before text behind : List UInt8}
      (hbefore : AreBlanks before) (hbehind : AreBlanks behind) (hlist : IsList values text)
      (hdata : SaysData entries values[2]?) : Describes entries (before ++ (text ++ behind))

/-! ## The data of users -/

theorem SaysData.isValue {entries : List (String × List UInt8)} {text : List UInt8}
    (h : SaysData entries (some text)) : IsValue text := by
  cases h with
  | null => exact .scalar .null
  | object h => exact h.isValue

theorem keeps_empty : Keeps SortedMap.empty [] := fun _ => rfl

/-- What a member of the data does to the data that has been read. -/
def Inserts (user : String) (value : List UInt8) (data data' : SortedMap String String) : Prop :=
  ∃ text, Text.encode text = value ∧ data' = data.insert user text

theorem get?_of_gathers {entries : List (String × List UInt8)} {data data' : SortedMap String String}
    (h : Reader.Gathers Inserts entries data data') (user : String) :
    (data'.get? user).map Text.encode =
      (lastOf? user entries).or ((data.get? user).map Text.encode) := by
  induction h with
  | nil => rfl
  | cons hfirst hrest ih =>
    rename_i name value members state state' state''
    obtain ⟨text, rfl, rfl⟩ := hfirst
    rw [ih, SortedMap.get?_insert, lastOf?_cons, Option.or_assoc]
    congr 1
    by_cases huser : user = name
    · rw [if_pos huser, if_pos huser]
      rfl
    · rw [if_neg huser, if_neg huser]
      rfl

theorem readsMember_user :
    Reader.ReadsMember (fun user data => do
      Reader.colon
      return data.insert user (← Reader.verbatim)) Inserts := by
  intro user data data' s t h
  obtain ⟨_, u, hcolon, hnext⟩ := Reader.bind_eq_ok.mp h
  obtain ⟨blanks, rfl, hblanks⟩ := Reader.takeMark_sound hcolon
  obtain ⟨text, v, hverbatim, hdone⟩ := Reader.bind_eq_ok.mp hnext
  cases hdone
  obtain ⟨hsplit, isvalue⟩ := Reader.verbatim_sound hverbatim
  obtain ⟨blanks', hblanks', hu⟩ := Reader.exists_blanks u
  rw [hsplit] at hu
  rw [hu]
  exact ⟨blanks, blanks', _, rfl, hblanks, hblanks', isvalue, text, rfl, rfl⟩

theorem userData_sound {s t : List UInt8} {data : SortedMap String String}
    (h : userData s = .ok data t) :
    ∃ entries text, s.dropWhile isBlank = text ++ t ∧ SaysData entries (some text) ∧
      Keeps data entries := by
  obtain ⟨c, rest, hrest, hnext⟩ := Reader.valueStart_cases h
  split at hnext
  · rename_i hc
    obtain rfl := eq_of_beq hc
    obtain ⟨_, u, hword, hdone⟩ := Reader.bind_eq_ok.mp (Reader.of_drop hnext)
    cases hdone
    refine ⟨[], word ['n', 'u', 'l', 'l'], ?_, .null, keeps_empty⟩
    rw [hrest, Reader.restOfWord_sound hword]
    rfl
  · obtain ⟨rest', u, hbrace, hmembers, hending⟩ := Reader.object_cases hnext
    obtain ⟨entries, text, rfl, ismembers, hgathers⟩ :=
      Reader.members_sound readsMember_user hmembers hending
    rw [← hrest, List.dropWhile_idempotent] at hbrace
    refine ⟨entries, _, hbrace, .object (.mk ismembers), fun user => ?_⟩
    rw [get?_of_gathers hgathers]
    simp

theorem readsValue_userData :
    Reader.ReadsValue userData fun text data => ∃ entries, SaysData entries (some text) ∧
      Keeps data entries := by
  intro s data t h
  obtain ⟨entries, text, hsplit, hsays, hkeeps⟩ := userData_sound h
  exact ⟨text, hsplit, hsays.isValue, entries, hsays, hkeeps⟩

/-! ## The members of a description -/

/-- What a member of a description does to the data that has been read: only that called `data` does
anything, and only if none was before it. -/
def Sets (name : String) (value : List UInt8) (m m' : Members) : Prop :=
  if name = "data" then
    m.data = none ∧ ∃ data entries, m'.data = some data ∧ SaysData entries (some value) ∧
      Keeps data entries
  else m'.data = m.data

theorem readsMember_member : Reader.ReadsMember member Sets := by
  intro name m m' s t h
  have hinteger : ∀ {before found : Option Int64},
      Reader.once name before Reader.integer s = .ok found t →
      ∃ blanks blanks' value, s = blanks ++ byte ':' :: (blanks' ++ (value ++ t)) ∧
        AreBlanks blanks ∧ AreBlanks blanks' ∧ IsValue value := by
    intro before found honce
    obtain ⟨-, blanks, blanks', value, n, hs, hblanks, hblanks', isvalue, -⟩ :=
      Reader.once_sound Reader.readsValue_integer honce
    exact ⟨blanks, blanks', value, hs, hblanks, hblanks', isvalue⟩
  unfold member at h
  split at h
  · obtain ⟨found, u, honce, hdone⟩ := Reader.bind_eq_ok.mp h
    cases hdone
    obtain ⟨blanks, blanks', value, hs, hblanks, hblanks', isvalue⟩ := hinteger honce
    exact ⟨blanks, blanks', value, hs, hblanks, hblanks', isvalue, by simp [Sets]⟩
  · obtain ⟨found, u, honce, hdone⟩ := Reader.bind_eq_ok.mp h
    cases hdone
    obtain ⟨blanks, blanks', value, hs, hblanks, hblanks', isvalue⟩ := hinteger honce
    exact ⟨blanks, blanks', value, hs, hblanks, hblanks', isvalue, by simp [Sets]⟩
  · obtain ⟨found, u, honce, hdone⟩ := Reader.bind_eq_ok.mp h
    cases hdone
    obtain ⟨hnone, blanks, blanks', text, data, hs, hblanks, hblanks', isvalue,
      ⟨entries, hsays, hkeeps⟩, rfl⟩ := Reader.once_sound readsValue_userData honce
    refine ⟨blanks, blanks', text, hs, hblanks, hblanks', isvalue, ?_⟩
    rw [Sets, if_pos rfl]
    exact ⟨hnone, data, entries, rfl, hsays, hkeeps⟩
  · rename_i hdata
    obtain ⟨rfl, blanks, blanks', value, hs, hblanks, hblanks', isvalue⟩ :=
      Reader.skipMember_sound h
    refine ⟨blanks, blanks', value, hs, hblanks, hblanks', isvalue, ?_⟩
    rw [Sets, if_neg hdata]

theorem Sets.data {value : List UInt8} {m m' : Members} (h : Sets "data" value m m') :
    m.data = none ∧ ∃ data, m'.data = some data ∧
      ∃ entries, SaysData entries (some value) ∧ Keeps data entries := by
  rw [Sets, if_pos rfl] at h
  obtain ⟨hnone, data, entries, hdata, hsays⟩ := h
  exact ⟨hnone, data, hdata, entries, hsays⟩

theorem Sets.other {name : String} {value : List UInt8} {m m' : Members} (hname : name ≠ "data")
    (h : Sets name value m m') : m'.data = m.data := by
  rwa [Sets, if_neg hname] at h

/-- The data that has been read is that of the only member with its name, if there is one. -/
theorem data_of_gathers {members : List (String × List UInt8)} {m m' : Members}
    (h : Reader.Gathers Sets members m m') :
    (members.filter (·.1 = "data") = [] ∧ lastOf? "data" members = none ∧ m'.data = m.data) ∨
      (m.data = none ∧ (members.filter (·.1 = "data")).length = 1 ∧ ∃ data entries,
        m'.data = some data ∧ SaysData entries (lastOf? "data" members) ∧ Keeps data entries) := by
  rw [← lastOf?_filter]
  rcases h.only Sets.data Sets.other with ⟨hfilter, hsame⟩ |
    ⟨hnone, value, data, hfilter, hdata, entries, hsays, hkeeps⟩
  · rw [hfilter]
    exact .inl ⟨rfl, rfl, hsame⟩
  · rw [hfilter]
    exact .inr ⟨hnone, rfl, data, entries, hdata, hsays, hkeeps⟩

/-! ## Descriptions -/

theorem describes_of_members {members : List (String × List UInt8)} {m : Members}
    (h : Reader.Gathers Sets members ⟨none, none, none⟩ m) {before text behind : List UInt8}
    (hbefore : AreBlanks before) (hbehind : AreBlanks behind) (hobject : IsObject members text) :
    ∃ entries, Describes entries (before ++ (text ++ behind)) ∧
      Keeps (ofMembers m).data entries := by
  rcases data_of_gathers h with ⟨hfilter, hlast, hnone⟩ | ⟨-, honce, data, entries, hdata, hsays,
    hkeeps⟩
  · refine ⟨[], .named hbefore hbehind hobject (by rw [hfilter]; exact Nat.zero_le 1)
      (by rw [hlast]; exact .missing), ?_⟩
    rw [ofMembers, hnone]
    exact keeps_empty
  · refine ⟨entries, .named hbefore hbehind hobject (Nat.le_of_eq honce) hsays, ?_⟩
    rw [ofMembers, hdata]
    exact hkeeps

/-- The third element of a list, if there is one, is the data. -/
theorem listed_sound {s u t : List UInt8} {m : Metadata} (h : listed s = .ok m u)
    (hending : Reader.endOfList u = .ok () t) :
    ∃ values text entries, s = text ++ t ∧ IsElements true values text ∧
      SaysData entries values[2]? ∧ Keeps m.data entries := by
  obtain ⟨closing, hclosing, hblanks⟩ := Reader.endOfList_sound hending
  obtain ⟨started, s₁, hstarted, hnext⟩ := Reader.bind_eq_ok.mp h
  obtain ⟨updated, s₂, hupdated, hlast⟩ := Reader.bind_eq_ok.mp hnext
  obtain ⟨data, s₃, hdata, hdone⟩ := Reader.bind_eq_ok.mp hlast
  cases hdone
  rcases Reader.element?_sound Reader.readsValue_integer hstarted with
    ⟨rfl, blanks, rest, rfl, rfl, hbefore⟩ |
    ⟨n, separator, text, rfl, rfl, hseparator, isvalue, -⟩
  · obtain ⟨rfl, rfl⟩ := Reader.element?_of_end hupdated
    obtain ⟨rfl, rfl⟩ := Reader.element?_of_end hdata
    refine ⟨[], (blanks ++ closing) ++ [byte ']'], [], by rw [hclosing]; simp, ?_, .missing,
      keeps_empty⟩
    exact .close (hbefore.append hblanks)
  rcases Reader.element?_sound Reader.readsValue_integer hupdated with
    ⟨rfl, blanks, rest, rfl, rfl, hbefore⟩ |
    ⟨n', separator', text', rfl, rfl, hseparator', isvalue', -⟩
  · obtain ⟨rfl, rfl⟩ := Reader.element?_of_end hdata
    refine ⟨[text], separator ++ (text ++ ((blanks ++ closing) ++ [byte ']'])), [],
      by rw [hclosing]; simp, ?_, .missing, keeps_empty⟩
    exact .next hseparator isvalue (.close (hbefore.append hblanks))
  rcases Reader.element?_sound readsValue_userData hdata with
    ⟨rfl, blanks, rest, rfl, rfl, hbefore⟩ |
    ⟨found, separator'', text'', rfl, rfl, hseparator'', isvalue'', entries, hsays, hkeeps⟩
  · refine ⟨[text, text'], separator ++ (text ++ (separator' ++ (text' ++
      ((blanks ++ closing) ++ [byte ']'])))), [], by rw [hclosing]; simp, ?_, .missing,
      keeps_empty⟩
    exact .next hseparator isvalue (.next hseparator' isvalue' (.close (hbefore.append hblanks)))
  · refine ⟨[text, text', text''], separator ++ (text ++ (separator' ++ (text' ++
      (separator'' ++ (text'' ++ (closing ++ [byte ']'])))))), entries, by rw [hclosing]; simp, ?_,
      hsays, hkeeps⟩
    exact .next hseparator isvalue (.next hseparator' isvalue' (.next hseparator'' isvalue''
      (.close hblanks)))

theorem SaysData.unique {entries entries' : List (String × List UInt8)}
    {text : Option (List UInt8)} (h : SaysData entries text) (h' : SaysData entries' text) :
    entries = entries' := by
  have hnull : ∀ {members : List (String × List UInt8)},
      ¬ IsObject members (word ['n', 'u', 'l', 'l']) := by
    intro members h
    generalize htext : word ['n', 'u', 'l', 'l'] = text at h
    obtain ⟨-⟩ := h
    exact absurd (List.cons.inj htext).1 (by decide)
  cases h with
  | missing =>
    cases h'
    rfl
  | null =>
    cases h' with
    | null => rfl
    | object h' => exact absurd h' hnull
  | object h =>
    cases h' with
    | null => exact absurd h hnull
    | object h' => exact h.members_eq h'

/-- A description gives one list of values for users. -/
theorem Describes.unique {entries entries' : List (String × List UInt8)} {bytes : List UInt8}
    (h : Describes entries bytes) (h' : Describes entries' bytes) : entries = entries' := by
  generalize heq : bytes = bytes' at h'
  cases h with
  | named hbefore _ hobject _ hdata =>
    obtain ⟨hmembers⟩ := hobject
    cases h' with
    | named hbefore' _ hobject' _ hdata' =>
      obtain ⟨hmembers'⟩ := hobject'
      obtain ⟨-, -, htext⟩ := eq_of_blanks hbefore hbefore' (by decide) (by decide) heq
      obtain ⟨rfl, -⟩ := hmembers.unique hmembers' htext
      exact hdata.unique hdata'
    | listed hbefore' _ hlist' =>
      obtain ⟨helements'⟩ := hlist'
      obtain ⟨-, hbracket, -⟩ := eq_of_blanks hbefore hbefore' (by decide) (by decide) heq
      exact absurd hbracket (by decide)
  | listed hbefore _ hlist hdata =>
    obtain ⟨helements⟩ := hlist
    cases h' with
    | named hbefore' _ hobject' =>
      obtain ⟨hmembers'⟩ := hobject'
      obtain ⟨-, hbracket, -⟩ := eq_of_blanks hbefore hbefore' (by decide) (by decide) heq
      exact absurd hbracket (by decide)
    | listed hbefore' _ hlist' hdata' =>
      obtain ⟨helements'⟩ := hlist'
      obtain ⟨-, -, htext⟩ := eq_of_blanks hbefore hbefore' (by decide) (by decide) heq
      obtain ⟨rfl, -⟩ := helements.unique helements' htext
      exact hdata.unique hdata'

/-- The values that a description gives are JSON. -/
theorem Describes.isValue {entries : List (String × List UInt8)} {bytes : List UInt8}
    (h : Describes entries bytes) {user : String} {value : List UInt8}
    (hlast : lastOf? user entries = some value) : IsValue value := by
  have hsays : ∃ text, SaysData entries text := by
    cases h with
    | named _ _ _ _ hdata => exact ⟨_, hdata⟩
    | listed _ _ _ hdata => exact ⟨_, hdata⟩
  obtain ⟨text, hsays⟩ := hsays
  cases hsays with
  | missing | null => cases hlast
  | object h =>
    obtain ⟨h⟩ := h
    exact h.isValue_of_mem _ (mem_of_lastOf? hlast)

/-- What is read of a description keeps the texts of values that it gives for users. -/
theorem ofBytes_sound {bytes : List UInt8} {m : Metadata} (h : ofBytes bytes = .ok m) :
    ∃ entries, Describes entries bytes ∧ Keeps m.data entries := by
  obtain ⟨before, rest, u, behind, hbefore, hbehind, hread⟩ := Reader.run_record_cases h
  rcases hread with ⟨rfl, hlisted, hending⟩ | ⟨rfl, hmap, hending⟩
  · obtain ⟨values, text, entries, rfl, iselements, hsays, hkeeps⟩ := listed_sound hlisted hending
    exact ⟨entries, .listed hbefore hbehind (.mk iselements) hsays, hkeeps⟩
  · obtain ⟨m', v, hmembers, hdone⟩ := Reader.bind_eq_ok.mp hmap
    cases hdone
    obtain ⟨members, text, rfl, ismembers, hgathers⟩ :=
      Reader.members_sound readsMember_member hmembers hending
    exact describes_of_members hgathers hbefore hbehind (.mk ismembers)

end Metadata

end Bulletin
