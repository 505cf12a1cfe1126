import Bulletin.Archive.Record
import Bulletin.Proofs.EntryNames

/-!
# The records that entries yield

`Gathering.accept` takes one entry at a time and may refuse it. Here the entries are taken all at
once: those that are refused are passed over, and every record counts that an entry completes or
that is open at the end:

    records                 : the records of a run of entries, in the order they are completed
    accept_cases            : all that taking an entry can do
    exists_accept_eq_ok_iff : which entries are not refused
    named_of_mem_records    : whose records there can be
-/

namespace Bulletin

/-! ## Entries that are not refused -/

/-- What can be the name of a user: not nothing, and no text with a dot. -/
def IsUserName (user : String) : Prop := user ≠ "" ∧ '.' ∉ user.toList

namespace Entry

/-- The name of the entry says something, and its bytes can be read if they are wanted. -/
def IsAcceptable (e : Entry) : Prop :=
  ∃ name, EntryName.ofString? e.name = some name ∧
    (name.kind = .header ∨ name.kind = .body → ∃ bytes, e.payload = some bytes)

theorem read_of_payload {e : Entry} {bytes : List UInt8} (h : e.payload = some bytes) :
    e.read = .ok bytes := by
  unfold read
  rw [h]

theorem read_of_payload_none {e : Entry} (h : e.payload = none) : e.read = .error .unreadable := by
  unfold read
  rw [h]

end Entry

namespace Gathering

/-! ## One entry -/

/-- All that taking an entry can do. -/
theorem accept_cases {g g' : Gathering} {e : Entry} {complete : Option Record}
    (h : g.accept e = .ok (g', complete)) :
    ∃ name, EntryName.ofString? e.name = some name ∧
      ((name.kind = .header ∧ ∃ bytes, e.payload = some bytes ∧
          g.header name.user bytes = (g', complete)) ∨
        (name.kind = .body ∧ ∃ bytes, e.payload = some bytes ∧ g' = g.body bytes ∧
          complete = none) ∨
        (name.kind = .blank ∧ g' = empty ∧ complete = none) ∨
        ∃ extension, name.kind = .other extension ∧ g' = g ∧ complete = none) := by
  unfold accept at h
  cases hname : EntryName.ofString? e.name with
  | none => rw [hname] at h; cases h
  | some name =>
    refine ⟨name, rfl, ?_⟩
    rw [hname] at h
    obtain ⟨user, kind⟩ := name
    cases kind with
    | header =>
      cases hp : e.payload with
      | none => rw [Entry.read_of_payload_none hp] at h; cases h
      | some bytes =>
        rw [Entry.read_of_payload hp] at h
        exact .inl ⟨rfl, bytes, rfl, Except.ok.inj h⟩
    | body =>
      cases hp : e.payload with
      | none => rw [Entry.read_of_payload_none hp] at h; cases h
      | some bytes =>
        rw [Entry.read_of_payload hp] at h
        cases h
        exact .inr (.inl ⟨rfl, bytes, rfl, rfl, rfl⟩)
    | blank =>
      cases h
      exact .inr (.inr (.inl ⟨rfl, rfl, rfl⟩))
    | other extension =>
      cases h
      exact .inr (.inr (.inr ⟨extension, rfl, rfl, rfl⟩))

/-- Whether an entry is refused has nothing to do with what is being gathered. -/
theorem exists_accept_eq_ok_iff (g : Gathering) (e : Entry) :
    (∃ out, g.accept e = .ok out) ↔ e.IsAcceptable := by
  constructor
  · rintro ⟨⟨g', complete⟩, h⟩
    obtain ⟨name, hname, hcases⟩ := accept_cases h
    refine ⟨name, hname, fun hkind => ?_⟩
    rcases hcases with ⟨-, bytes, hp, -⟩ | ⟨-, bytes, hp, -, -⟩ | ⟨hk, -, -⟩ | ⟨_, hk, -, -⟩
    · exact ⟨bytes, hp⟩
    · exact ⟨bytes, hp⟩
    · rw [hk] at hkind
      simp at hkind
    · rw [hk] at hkind
      simp at hkind
  · rintro ⟨⟨user, kind⟩, hname, hread⟩
    unfold accept
    rw [hname]
    cases kind with
    | header =>
      obtain ⟨bytes, hp⟩ := hread (.inl rfl)
      rw [Entry.read_of_payload hp]
      exact ⟨_, rfl⟩
    | body =>
      obtain ⟨bytes, hp⟩ := hread (.inr rfl)
      rw [Entry.read_of_payload hp]
      exact ⟨_, rfl⟩
    | blank => exact ⟨_, rfl⟩
    | other extension => exact ⟨_, rfl⟩

/-- What is being gathered behind an entry. One that is refused changes nothing. -/
def after (g : Gathering) (e : Entry) : Gathering :=
  match g.accept e with
  | .ok (g', _) => g'
  | .error _ => g

/-- The record that an entry completes. -/
def completed? (g : Gathering) (e : Entry) : Option Record :=
  match g.accept e with
  | .ok (_, complete) => complete
  | .error _ => none

theorem after_of_accept {g g' : Gathering} {e : Entry} {complete : Option Record}
    (h : g.accept e = .ok (g', complete)) : g.after e = g' := by
  unfold after
  rw [h]

theorem completed?_of_accept {g g' : Gathering} {e : Entry} {complete : Option Record}
    (h : g.accept e = .ok (g', complete)) : g.completed? e = complete := by
  unfold completed?
  rw [h]

theorem after_of_refused {g : Gathering} {e : Entry} {error : ArchiveError}
    (h : g.accept e = .error error) : g.after e = g := by
  unfold after
  rw [h]

theorem completed?_of_refused {g : Gathering} {e : Entry} {error : ArchiveError}
    (h : g.accept e = .error error) : g.completed? e = none := by
  unfold completed?
  rw [h]

/-! ## All entries -/

/-- The records that entries complete, and the one that is open behind them. -/
def recordsFrom : Gathering → List Entry → List Record
  | g, [] => g.finish.toList
  | g, e :: rest => (g.completed? e).toList ++ recordsFrom (g.after e) rest

/-- The records of a run of entries. -/
def records (entries : List Entry) : List Record := recordsFrom empty entries

/-! ## Whose records there are -/

/-- The open record is that of a user who has a name. -/
def Named (g : Gathering) : Prop := ∀ r, g.pending = some r → IsUserName r.user

theorem named_empty : empty.Named := by
  intro r h
  cases h

/-- What a header opens is a record of a user who has a name. -/
theorem isUserName_of_opened {user : String} {bytes : List UInt8} {r : Record}
    (hdot : '.' ∉ user.toList) (h : opened user bytes = some r) : IsUserName r.user := by
  unfold opened at h
  by_cases hu : user.isEmpty
  · rw [if_pos hu] at h
    cases h
  · rw [if_neg hu] at h
    cases h
    refine ⟨fun (hempty : user = "") => hu ?_, hdot⟩
    rw [hempty]
    rfl

/-- Taking an entry keeps the open record named, and so is the record it completes. -/
theorem Named.accept {g g' : Gathering} {e : Entry} {complete : Option Record} (hg : g.Named)
    (h : g.accept e = .ok (g', complete)) :
    g'.Named ∧ ∀ r, complete = some r → IsUserName r.user := by
  obtain ⟨name, hname, hcases⟩ := accept_cases h
  rcases hcases with ⟨-, bytes, -, hheader⟩ | ⟨-, bytes, -, rfl, rfl⟩ | ⟨-, rfl, rfl⟩ |
    ⟨_, -, rfl, rfl⟩
  · have hopened : (⟨opened name.user bytes⟩ : Gathering).Named := fun r hr =>
      isUserName_of_opened (EntryName.dot_not_mem_user hname) hr
    unfold header at hheader
    cases hp : g.pending with
    | none =>
      rw [hp] at hheader
      cases hheader
      refine ⟨hopened, fun r hr => ?_⟩
      cases hr
    | some held =>
      rw [hp] at hheader
      dsimp only at hheader
      by_cases hu : held.user = name.user
      · rw [if_pos hu] at hheader
        cases hheader
        refine ⟨fun r hr => ?_, fun r hr => ?_⟩
        · cases hr
          exact hg held hp
        · cases hr
      · rw [if_neg hu] at hheader
        cases hheader
        refine ⟨hopened, fun r hr => ?_⟩
        cases hr
        exact hg _ hp
  · refine ⟨fun r hr => ?_, fun r hr => ?_⟩
    · obtain ⟨held, hp, rfl⟩ := Option.map_eq_some_iff.mp hr
      exact hg held hp
    · cases hr
  · refine ⟨named_empty, fun r hr => ?_⟩
    cases hr
  · refine ⟨hg, fun r hr => ?_⟩
    cases hr

theorem Named.of_mem_recordsFrom {g : Gathering} {entries : List Entry} {r : Record}
    (hg : g.Named) (h : r ∈ recordsFrom g entries) : IsUserName r.user := by
  induction entries generalizing g with
  | nil => exact hg r (Option.mem_toList.mp h)
  | cons e rest ih =>
    rw [recordsFrom] at h
    cases haccept : g.accept e with
    | error error =>
      rw [after_of_refused haccept, completed?_of_refused haccept] at h
      exact ih hg h
    | ok out =>
      obtain ⟨g', complete⟩ := out
      obtain ⟨hg', hcomplete⟩ := hg.accept haccept
      rw [after_of_accept haccept, completed?_of_accept haccept] at h
      rcases List.mem_append.mp h with h | h
      · exact hcomplete r (Option.mem_toList.mp h)
      · exact ih hg' h

/-- Every record is that of a user who has a name. -/
theorem named_of_mem_records {entries : List Entry} {r : Record} (h : r ∈ records entries) :
    IsUserName r.user := named_empty.of_mem_recordsFrom h

end Gathering

end Bulletin
