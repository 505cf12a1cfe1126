import Bulletin.Proofs.Json.Accepting
import Bulletin.Service.DataRequest

/-!
# What a request for data is

A request is an object with one member `periods`, or a list of one element. Either gives the periods
in a list, each an integer of 64 bits. Blanks may stand around all parts, and an object may have
other members, which are passed over:

    {"periods": [1, -2], "from": "alice"}      [[1, -2]]              are requests
    {"periods": 1}     {"periods": [1.0]}      [1, -2]    [[1], []]   are none

    ofBytes_eq_ok_iff : a request is read of bytes that are one, and of no others
-/

namespace Bulletin

open Json
open Json.Reader (byte)

namespace DataRequest

/-- A text is a list of periods, each as it is written. -/
def ArePeriods (periods : List Period) (text : List UInt8) : Prop :=
  IsList (periods.map fun p => Text.encode (Decimal.ofInt64 p)) text

/-- Bytes are a request for the data of periods. -/
inductive IsRequest : List Period → List UInt8 → Prop where
  | named {periods : List Period} {members : List (String × List UInt8)}
      {before text behind value : List UInt8} (hbefore : AreBlanks before)
      (hbehind : AreBlanks behind) (hobject : IsObject members text)
      (honly : members.filter (·.1 = "periods") = [("periods", value)])
      (hperiods : ArePeriods periods value) : IsRequest periods (before ++ (text ++ behind))
  | listed {periods : List Period} {before text behind value : List UInt8}
      (hbefore : AreBlanks before) (hbehind : AreBlanks behind) (hlist : IsList [value] text)
      (hperiods : ArePeriods periods value) : IsRequest periods (before ++ (text ++ behind))

/-! ## The periods wanted -/

theorem arePeriods_iff {periods : List Period} {text : List UInt8} :
    (∃ values, IsList values text ∧
      List.Forall₂ (fun value p => value = Text.encode (Decimal.ofInt64 p)) values periods) ↔
      ArePeriods periods text := by
  have hmap : ∀ values : List (List UInt8),
      List.Forall₂ (fun value p => value = Text.encode (Decimal.ofInt64 p)) values periods ↔
        values = periods.map fun p => Text.encode (Decimal.ofInt64 p) := by
    intro values
    have hsame := @List.forall₂_map_right_iff _ _ _ (fun value text : List UInt8 => value = text)
      (fun p => Text.encode (Decimal.ofInt64 p)) values periods
    rw [← hsame, List.forall₂_eq_eq_eq]
  constructor
  · rintro ⟨values, hlist, hall⟩
    rw [ArePeriods, ← (hmap values).mp hall]
    exact hlist
  · exact fun h => ⟨_, h, (hmap _).mpr rfl⟩

theorem readsValue_wanted :
    Reader.ReadsValue wanted fun text periods => ArePeriods periods text := by
  intro s periods t h
  obtain ⟨text, hsplit, isvalue, hlist⟩ :=
    Reader.readsValue_list Reader.readsValue_integer _ s periods t h
  exact ⟨text, hsplit, isvalue, arePeriods_iff.mp hlist⟩

theorem takes_wanted : Reader.Takes wanted fun text periods => ArePeriods periods text := by
  intro blanks text periods t hblanks hperiods ht
  exact Reader.takes_list Reader.integer_complete _ blanks text periods t hblanks
    (arePeriods_iff.mpr hperiods) ht

/-! ## The members of a request -/

/-- What a member of a request does to the periods that have been read: only that called `periods`
does anything, and only if none was before it. -/
def Sets (name : String) (value : List UInt8) (read read' : Option (List Period)) : Prop :=
  if name = "periods" then
    read = none ∧ ∃ periods, read' = some periods ∧ ArePeriods periods value
  else read' = read

theorem readsMember_member : Reader.ReadsMember member Sets := by
  intro name read read' s t h
  unfold member at h
  unfold Sets
  split at h
  · rename_i hname
    obtain ⟨hnone, blanks, blanks', text, periods, hs, hblanks, hblanks', isvalue, hperiods, rfl⟩ :=
      Reader.once_sound readsValue_wanted h
    refine ⟨blanks, blanks', text, hs, hblanks, hblanks', isvalue, ?_⟩
    rw [if_pos hname]
    exact ⟨hnone, periods, rfl, hperiods⟩
  · rename_i hname
    obtain ⟨rfl, blanks, blanks', value, hs, hblanks, hblanks', isvalue⟩ :=
      Reader.skipMember_sound h
    refine ⟨blanks, blanks', value, hs, hblanks, hblanks', isvalue, ?_⟩
    rw [if_neg hname]

theorem takesMember_member : Reader.TakesMember member Sets := by
  intro name read read' blanks blanks' value t hblanks hblanks' isvalue hsets ht
  unfold Sets at hsets
  unfold member
  split at hsets
  · rename_i hname
    obtain ⟨rfl, periods, rfl, hperiods⟩ := hsets
    rw [if_pos hname]
    exact Reader.once_complete takes_wanted name hblanks hblanks' hperiods ht
  · rename_i hname
    rw [if_neg hname, hsets]
    exact Reader.skipMember_complete hblanks hblanks' isvalue ht

theorem Sets.periods {value : List UInt8} {read read' : Option (List Period)}
    (h : Sets "periods" value read read') :
    read = none ∧ ∃ periods, read' = some periods ∧ ArePeriods periods value := by
  rwa [Sets, if_pos rfl] at h

theorem Sets.other {name : String} {value : List UInt8} {read read' : Option (List Period)}
    (hname : name ≠ "periods") (h : Sets name value read read') : read' = read := by
  rwa [Sets, if_neg hname] at h

theorem gathers_of_absent {members : List (String × List UInt8)}
    (h : members.filter (·.1 = "periods") = []) (read : Option (List Period)) :
    Reader.Gathers Sets members read read := by
  induction members with
  | nil => exact .nil
  | cons m rest ih =>
    obtain ⟨name, value⟩ := m
    obtain ⟨hname, hrest⟩ := List.forall_mem_cons.mp (List.filter_eq_nil_iff.mp h)
    refine .cons ?_ (ih (List.filter_eq_nil_iff.mpr hrest))
    rw [Sets, if_neg (by simpa using hname)]

theorem gathers_of_only {members : List (String × List UInt8)} {value : List UInt8}
    {periods : List Period} (h : members.filter (·.1 = "periods") = [("periods", value)])
    (hperiods : ArePeriods periods value) :
    Reader.Gathers Sets members none (some periods) := by
  induction members with
  | nil => cases h
  | cons m rest ih =>
    obtain ⟨name, value'⟩ := m
    by_cases hname : name = "periods"
    · rw [List.filter_cons_of_pos (by simpa using hname)] at h
      obtain ⟨hfirst, hrest⟩ := List.cons.inj h
      obtain ⟨-, rfl⟩ := Prod.mk.inj hfirst
      refine .cons ?_ (gathers_of_absent hrest (some periods))
      rw [Sets, if_pos hname]
      exact ⟨rfl, periods, rfl, hperiods⟩
    · rw [List.filter_cons_of_neg (by simpa using hname)] at h
      refine .cons ?_ (ih h)
      rw [Sets, if_neg hname]

/-! ## Requests -/

/-- What is read of the members of an object is read of its member `periods`. -/
theorem named_sound {s t u : List UInt8} {request : DataRequest} (h : named s = .ok request u)
    (hending : Reader.endOfObject u = .ok () t) :
    ∃ members text value, s = text ++ t ∧ IsMembers true members text ∧
      members.filter (·.1 = "periods") = [("periods", value)] ∧
      ArePeriods request.periods value := by
  obtain ⟨found, v, hmembers, hfound⟩ := Reader.bind_eq_ok.mp h
  cases found with
  | none => cases hfound
  | some periods =>
    cases hfound
    obtain ⟨members, text, rfl, ismembers, hgathers⟩ :=
      Reader.members_sound readsMember_member hmembers hending
    have hread := hgathers.only Sets.periods Sets.other
    rcases hread with ⟨-, hnone⟩ | ⟨-, value, _, honly, hsome, hperiods⟩
    · cases hnone
    · cases hsome
      exact ⟨members, text, value, rfl, ismembers, honly, hperiods⟩

theorem named_complete {members : List (String × List UInt8)} {text value : List UInt8}
    {periods : List Period} (ismembers : IsMembers true members text)
    (honly : members.filter (·.1 = "periods") = [("periods", value)])
    (hperiods : ArePeriods periods value) (t : List UInt8) :
    named (text ++ t) = .ok ⟨periods⟩ (byte '\x7d' :: t) :=
  Reader.bind_eq_ok.mpr ⟨some periods, _, Reader.members_complete takesMember_member ismembers
    (gathers_of_only honly hperiods), rfl⟩

/-- What is read of a list is read of its only element. -/
theorem listed_sound {s t u : List UInt8} {request : DataRequest} (h : listed s = .ok request u)
    (hending : Reader.endOfList u = .ok () t) :
    ∃ text value, s = text ++ t ∧ IsElements true [value] text ∧
      ArePeriods request.periods value := by
  obtain ⟨blanks, rfl, hblanks⟩ := Reader.endOfList_sound hending
  obtain ⟨found, v, helement, hfound⟩ := Reader.bind_eq_ok.mp h
  rcases Reader.element?_sound readsValue_wanted helement with
    ⟨rfl, -⟩ | ⟨periods, separator, value, rfl, rfl, hseparator, isvalue, hperiods⟩
  · cases hfound
  · cases hfound
    refine ⟨separator ++ (value ++ (blanks ++ [byte ']'])), value, by simp, ?_, hperiods⟩
    exact .next hseparator isvalue (.close hblanks)

theorem listed_complete {text value : List UInt8} {periods : List Period}
    (iselements : IsElements true [value] text) (hperiods : ArePeriods periods value)
    (t : List UInt8) :
    ∃ u, listed (text ++ t) = .ok ⟨periods⟩ u ∧ Reader.endOfList u = .ok () t := by
  cases iselements with
  | @next _ separator _ rest _ hseparator isvalue hrest =>
    have hread := Reader.element?_complete takes_wanted hseparator isvalue hperiods
      (hrest.isTail.stops t)
    cases hrest with
    | close hblanks =>
      simp only [List.append_assoc] at hread ⊢
      refine ⟨_, Reader.bind_eq_ok.mpr ⟨some periods, _, hread, rfl⟩, ?_⟩
      exact Reader.endOfList_complete hblanks

/-- A request is read of bytes that are one, and of no others. -/
theorem ofBytes_eq_ok_iff {bytes : List UInt8} {periods : List Period} :
    ofBytes bytes = .ok ⟨periods⟩ ↔ IsRequest periods bytes := by
  constructor
  · intro h
    obtain ⟨before, rest, u, behind, hbefore, hbehind, hread⟩ := Reader.run_record_cases h
    rcases hread with ⟨rfl, hlisted, hending⟩ | ⟨rfl, hnamed, hending⟩
    · obtain ⟨text, value, rfl, iselements, hperiods⟩ := listed_sound hlisted hending
      exact .listed hbefore hbehind (.mk iselements) hperiods
    · obtain ⟨members, text, value, rfl, ismembers, honly, hperiods⟩ := named_sound hnamed hending
      exact .named hbefore hbehind (.mk ismembers) honly hperiods
  · intro h
    cases h with
    | @named members before text behind value hbefore hbehind hobject honly hperiods =>
      obtain ⟨ismembers⟩ := hobject
      have hnamed := named_complete ismembers honly hperiods behind
      exact Reader.run_record_of_object hbefore hbehind hnamed rfl
    | @listed before text behind value hbefore hbehind hlist hperiods =>
      obtain ⟨iselements⟩ := hlist
      obtain ⟨u, hlisted, hending⟩ := listed_complete iselements hperiods behind
      exact Reader.run_record_of_list hbefore hbehind hlisted hending

end DataRequest

end Bulletin
