import Bulletin.Proofs.Classification
import Bulletin.Proofs.OwnEntries
import Bulletin.Proofs.Reordering

/-!
# The order of users in an archive

A user's record is complete only when the next user's header comes, so in another order of the users
every record is completed somewhere else. What each user gets is the same all the same, and so is
what everyone gets, unless the users' sections of one name differ; then the last user's counts:

    records_allEntries     : the records are those of each user's entries
    addOwn_comm            : bulletins of different users can be noted in either order
    ingest_sameForUsers_of_perm : what does not depend on the order of users, and what else there is

## Algorithm

`records_allEntries` takes the run of entries apart, user by user; from there on the order is a
permutation of bulletins, whose users are different.
-/

namespace Bulletin

/-! ## The entries of one user -/

/-- The entries of one user: a header, and what stands behind it. -/
structure UserEntries where
  user : String
  opening : Entry
  rest : List Entry
  user_ne : user ≠ ""
  isHeader : EntryName.ofString? opening.name = some ⟨user, .header⟩
  own : ∀ e ∈ rest, e.user = user

namespace UserEntries

/-- All of them. -/
def entries (u : UserEntries) : List Entry := u.opening :: u.rest

/-- The entries of users, one user after the other. -/
def allEntries (users : List UserEntries) : List Entry := users.flatMap entries

/-- The records of users, each gathered from the user's own entries. -/
def records (users : List UserEntries) : List Record :=
  users.flatMap fun u => Gathering.records u.entries

end UserEntries

/-! ## Gathering user by user -/

namespace Gathering

/-- The open record, if there is one, is the user's. -/
def IsOf (user : String) (g : Gathering) : Prop := ∀ r, g.pending = some r → r.user = user

/-- The open record, if there is one, is someone else's. -/
def IsNotOf (user : String) (g : Gathering) : Prop := ∀ r, g.pending = some r → r.user ≠ user

section

variable {user : String} {g : Gathering} {e : Entry}

/-- A user's entry neither opens nor completes a record of someone else. -/
theorem IsOf.after (hg : g.IsOf user) (he : e.user = user) :
    (g.after e).IsOf user ∧ g.completed? e = none := by
  rw [after_eq, completed?_eq]
  cases hs : e.signal? with
  | none => exact ⟨hg, rfl⟩
  | some signal =>
    cases signal with
    | blank => exact ⟨fun r hr => (by cases hr), rfl⟩
    | body bytes =>
      refine ⟨fun r hr => ?_, rfl⟩
      obtain ⟨held, hp, rfl⟩ := Option.map_eq_some_iff.mp hr
      exact hg held hp
    | header owner bytes =>
      have howner : owner = user := (Entry.IsHeaderOf.eq_user ⟨bytes, hs⟩).symm.trans he
      subst howner
      dsimp only
      unfold header
      cases hp : g.pending with
      | none =>
        refine ⟨fun r hr => ?_, rfl⟩
        have hopened : opened owner bytes = some r := hr
        unfold opened at hopened
        split at hopened
        · cases hopened
        · cases hopened
          rfl
      | some held =>
        have hheld : held.user = owner := hg held hp
        dsimp only
        rw [if_pos hheld]
        refine ⟨fun r hr => ?_, rfl⟩
        cases hr
        exact hheld

/-- A user's entries yield nothing until others come. -/
theorem IsOf.recordsFrom_append (hg : g.IsOf user) {own : List Entry}
    (hown : ∀ e ∈ own, e.user = user) (later : List Entry) :
    recordsFrom g (own ++ later) = recordsFrom (own.foldl Gathering.after g) later ∧
      (own.foldl Gathering.after g).IsOf user := by
  induction own generalizing g with
  | nil => exact ⟨rfl, hg⟩
  | cons e rest ih =>
    obtain ⟨hafter, hnone⟩ := hg.after (hown e List.mem_cons_self)
    rw [List.cons_append, recordsFrom, hnone]
    exact ih hafter fun e' he' => hown e' (List.mem_cons_of_mem e he')

/-- A user's header completes what is open for someone else, and all is as if it came first. -/
theorem IsNotOf.recordsFrom_cons (hg : g.IsNotOf user) (he : e.IsHeaderOf user)
    (later : List Entry) :
    recordsFrom g (e :: later) = g.finish.toList ++ recordsFrom empty (e :: later) := by
  obtain ⟨bytes, hs⟩ := he
  have hboth : (g.header user bytes) = (⟨opened user bytes⟩, g.pending) := by
    unfold header
    cases hp : g.pending with
    | none => rfl
    | some held =>
      dsimp only
      rw [if_neg (hg held hp)]
  rw [recordsFrom, recordsFrom, after_eq, after_eq, completed?_eq, completed?_eq, hs]
  dsimp only
  rw [hboth]
  rfl

end

end Gathering

namespace UserEntries

open Gathering (recordsFrom)

variable {u : UserEntries} {users users' : List UserEntries}

theorem user_of_mem {e : Entry} (h : e ∈ u.entries) : e.user = u.user := by
  rcases List.mem_cons.mp h with rfl | h
  · exact EntryName.group_eq_user u.isHeader
  · exact u.own e h

/-- Unless it is refused, the first entry is a header of the user. -/
theorem isHeaderOf_opening (h : u.opening.IsAcceptable) : u.opening.IsHeaderOf u.user := by
  obtain ⟨name, hname, hread⟩ := h
  rw [u.isHeader] at hname
  cases hname
  obtain ⟨bytes, hp⟩ := hread (.inl rfl)
  refine ⟨bytes, ?_⟩
  unfold Entry.signal?
  rw [u.isHeader, hp]
  rfl

/-- The records of different users' entries are those of each user. -/
theorem recordsFrom_allEntries {g : Gathering} (hg : ∀ u ∈ users, g.IsNotOf u.user)
    (hdistinct : (users.map user).Nodup) (hread : ∀ u ∈ users, u.opening.IsAcceptable) :
    recordsFrom g (allEntries users) = g.finish.toList ++ records users := by
  induction users generalizing g with
  | nil => simp [allEntries, records, recordsFrom]
  | cons u rest ih =>
    rw [List.map_cons, List.nodup_cons] at hdistinct
    have hempty : Gathering.empty.IsOf u.user := fun r hr => (by cases hr)
    obtain ⟨hown, hclosing⟩ := hempty.recordsFrom_append (fun e => user_of_mem) (allEntries rest)
    obtain ⟨hone, -⟩ := hempty.recordsFrom_append (fun e => user_of_mem (u := u)) []
    have hothers : ∀ u' ∈ rest, (u.entries.foldl Gathering.after .empty).IsNotOf u'.user := by
      intro u' hu' r hr hsame
      refine hdistinct.1 (List.mem_map.mpr ⟨u', hu', ?_⟩)
      rw [← hsame]
      exact hclosing r hr
    have hlater := ih hothers hdistinct.2 fun u' hu' => hread u' (List.mem_cons_of_mem u hu')
    have hheader := isHeaderOf_opening (hread u List.mem_cons_self)
    have hsplit : allEntries (u :: rest) = u.opening :: (u.rest ++ allEntries rest) := rfl
    rw [hsplit, (hg u List.mem_cons_self).recordsFrom_cons hheader]
    show g.finish.toList ++ recordsFrom .empty (u.entries ++ allEntries rest) = _
    rw [List.append_nil] at hone
    rw [hown, hlater]
    show _ = g.finish.toList ++ (recordsFrom .empty u.entries ++ records rest)
    rw [hone]
    rfl

theorem records_allEntries (hdistinct : (users.map user).Nodup)
    (hread : ∀ u ∈ users, u.opening.IsAcceptable) :
    Gathering.records (allEntries users) = records users :=
  recordsFrom_allEntries (fun u _ r hr => (by cases hr)) hdistinct hread

/-- A user's entries yield at most one record, and that is the user's. -/
theorem records_entries (u : UserEntries) :
    ∃ g : Gathering, g.IsOf u.user ∧ Gathering.records u.entries = g.finish.toList := by
  have hempty : Gathering.empty.IsOf u.user := fun r hr => (by cases hr)
  obtain ⟨hone, hof⟩ := hempty.recordsFrom_append (fun e => user_of_mem (u := u)) []
  rw [List.append_nil] at hone
  exact ⟨_, hof, hone⟩

theorem users_records_sublist (users : List UserEntries) :
    ((records users).map (·.user)).Sublist (users.map user) := by
  induction users with
  | nil => exact .refl []
  | cons u rest ih =>
    obtain ⟨g, hof, hrecords⟩ := u.records_entries
    have hsplit : records (u :: rest) = Gathering.records u.entries ++ records rest := rfl
    rw [hsplit, hrecords, List.map_append, List.map_cons]
    unfold Gathering.finish
    cases hp : g.pending with
    | none => exact ih.cons u.user
    | some r =>
      have hr : r.user = u.user := hof r hp
      simp only [Option.toList_some, List.map_cons, List.map_nil, hr]
      exact ih.cons_cons u.user

end UserEntries

/-! ## Bulletins of different users -/

/-- What commutes step by step commutes all at once. -/
theorem foldl_foldl_comm {α β γ : Type} {f : β → α → β} {g : β → γ → β}
    (h : ∀ b a c, g (f b a) c = f (g b c) a) (l : List α) (l' : List γ) (b : β) :
    l'.foldl g (l.foldl f b) = l.foldl f (l'.foldl g b) := by
  induction l generalizing b with
  | nil => rfl
  | cons a rest ih =>
    have hone : l'.foldl g (f b a) = f (l'.foldl g b) a :=
      List.foldl_hom (fun b => f b a) fun b c => h b a c
    rw [List.foldl_cons, List.foldl_cons, ih, hone]

namespace Edition

variable {user user' : String}

theorem setPersonal_comm (h : user ≠ user') (e : Edition) (name name' html html' : String) :
    (e.setPersonal name user html).setPersonal name' user' html' =
      (e.setPersonal name' user' html').setPersonal name user html := by
  unfold setPersonal
  rw [Edition.mk.injEq]
  refine ⟨rfl, rfl, ?_, rfl⟩
  dsimp only
  by_cases hname : name = name'
  · subst hname
    rw [SortedMap.get?_insert_self, SortedMap.get?_insert_self, SortedMap.insert_insert_self,
      SortedMap.insert_insert_self, Option.getD_some, Option.getD_some, SortedMap.insert_comm _ h]
  · rw [SortedMap.get?_insert, if_neg (Ne.symm hname), SortedMap.get?_insert, if_neg hname,
      SortedMap.insert_comm _ hname]

theorem setOwn_comm (h : user ≠ user') (e : Edition) (s s' : Section) :
    setOwn user' (setOwn user e s) s' = setOwn user (setOwn user' e s') s := by
  unfold setOwn
  cases s.audience with
  | everyone => cases s'.audience <;> rfl
  | owner =>
    cases s'.audience with
    | everyone => rfl
    | owner => exact setPersonal_comm h e s.name s'.name s.html s'.html

theorem addReader_setOwn (e : Edition) (reader user : String) (s : Section) :
    setOwn user (e.addReader reader) s = (setOwn user e s).addReader reader := by
  unfold setOwn
  cases s.audience <;> rfl

theorem addReader_comm (h : user ≠ user') (e : Edition) :
    (e.addReader user).addReader user' = (e.addReader user').addReader user := by
  unfold addReader
  rw [SortedMap.insert_comm _ h]

/-- Bulletins of different users can be noted in either order. -/
theorem addOwn_comm {b b' : UserSections} (h : b.user ≠ b'.user) (e : Edition) :
    addOwn (addOwn e b) b' = addOwn (addOwn e b') b := by
  have hreader : ∀ (e : Edition) (reader user : String) (sections : List Section),
      sections.foldl (setOwn user) (e.addReader reader) =
        (sections.foldl (setOwn user) e).addReader reader := fun e reader user sections =>
    List.foldl_hom (fun e => e.addReader reader) fun e s => addReader_setOwn e reader user s
  unfold addOwn
  rw [hreader, hreader, addReader_comm h,
    foldl_foldl_comm (fun e s s' => setOwn_comm h e s s') b.sections b'.sections e]

theorem foldl_addOwn_of_perm {bulletins bulletins' : List UserSections}
    (hdistinct : (bulletins.map (·.user)).Nodup) (hperm : bulletins'.Perm bulletins)
    (e : Edition) : bulletins'.foldl addOwn e = bulletins.foldl addOwn e := by
  refine (hperm.symm.foldl_eq' (fun b hb b' hb' e => ?_) e).symm
  by_cases hsame : b = b'
  · rw [hsame]
  · have huser : b.user ≠ b'.user := fun hu =>
      hsame (List.inj_on_of_nodup_map hdistinct hb hb' hu)
    exact addOwn_comm huser e

end Edition

/-! ## What everyone gets -/

namespace Section

/-- The last section that has a name. -/
def last? (name : String) (sections : List Section) : Option Section :=
  (sections.filter fun s => s.name = name).getLast?

theorem mem_of_last? {name : String} {sections : List Section} {s : Section}
    (h : last? name sections = some s) : s ∈ sections ∧ s.name = name := by
  obtain ⟨hmem, hname⟩ := List.mem_filter.mp (List.mem_of_getLast? h)
  exact ⟨hmem, of_decide_eq_true hname⟩

theorem last?_append (name : String) (sections later : List Section) :
    last? name (sections ++ later) = (last? name later).or (last? name sections) := by
  unfold last?
  rw [List.filter_append, List.getLast?_append]

theorem exists_lastShared?_of_flatMap {α : Type} {f : α → List Section} {l : List α}
    {name text : String} (h : lastShared? name (l.flatMap f) = some text) :
    ∃ a ∈ l, lastShared? name (f a) = some text := by
  induction l with
  | nil => cases h
  | cons a rest ih =>
    rw [List.flatMap_cons, lastShared?_append, Option.or_eq_some_iff] at h
    rcases h with hlater | ⟨-, hhere⟩
    · obtain ⟨a', ha', htext⟩ := ih hlater
      exact ⟨a', List.mem_cons_of_mem a ha', htext⟩
    · exact ⟨a, List.mem_cons_self, hhere⟩

end Section

/-- In one record all sections of a name are for everyone or none, so the last for everyone is the
last of all. -/
theorem Record.exists_last?_of_lastShared? {period : Period} {r : Record} {name text : String}
    (h : Section.lastShared? name (r.sections period) = some text) :
    ∃ s, Section.last? name (r.sections period) = some s ∧ s.html = text := by
  obtain ⟨shared, hshared, hname, haudience⟩ :=
    Section.isSome_lastShared?_iff.mp (Option.isSome_of_eq_some h)
  have hrule := (audience_of_mem_sections hshared).mp haudience
  rw [hname] at hrule
  have hall : Section.sharedTexts ((r.sections period).filter fun s => s.name = name) =
      ((r.sections period).filter fun s => s.name = name).map (·.html) := by
    unfold Section.sharedTexts
    rw [← List.filterMap_eq_map]
    refine List.filterMap_congr fun s hs => ?_
    obtain ⟨hmem, hsame⟩ := List.mem_filter.mp hs
    have heveryone : s.audience = .everyone := by
      rw [audience_of_mem_sections hmem, of_decide_eq_true hsame]
      exact hrule
    unfold Section.sharedText?
    rw [heveryone]
    rfl
  unfold Section.lastShared? at h
  rw [hall, List.getLast?_map] at h
  exact Option.map_eq_some_iff.mp h

namespace Holdings

/-- The text that everyone gets under a name. -/
def commonText? (out : Holdings × Edition) (name : String) : Option String :=
  (out.2.common.get? name).bind out.1.contents.get?

theorem commonText?_build (h : Holdings) (issue : Issue) (name : String) :
    commonText? (h.build issue) name = Section.lastShared? name issue.sections := by
  have hsaid := (Edition.says_build h issue).common name
  unfold commonText?
  cases hid : (h.build issue).2.common.get? name with
  | none =>
    rw [hid] at hsaid
    cases hlast : Section.lastShared? name issue.sections with
    | none => rfl
    | some text =>
      rw [hlast] at hsaid
      cases hsaid
  | some id =>
    rw [hid] at hsaid
    obtain ⟨text, hlast, htext⟩ := Option.map_eq_some_iff.mp hsaid.symm
    rw [hlast, Option.bind_some, htext]

/-- What two archives leave behind is the same, but for the numbers of texts, the titles, and the
texts that everyone gets. -/
structure SameForUsers (out out' : Holdings × Edition) : Prop where
  metadata : out'.2.metadata = out.2.metadata
  readers : out'.2.readers = out.2.readers
  personal : out'.2.personal = out.2.personal
  common : ∀ name, out'.2.common.contains name ↔ out.2.common.contains name
  texts : ∀ text, text ∈ out'.1.contents.texts ↔ text ∈ out.1.contents.texts
  titles : ∀ name, out'.1.titles.contains name ↔ out.1.titles.contains name

/-- The order of bulletins of different users makes no difference to what each of them gets. -/
theorem sameForUsers_build_of_perm (h : Holdings) {issue issue' : Issue}
    (hmetadata : issue'.metadata = issue.metadata)
    (hdistinct : (issue.bulletins.map (·.user)).Nodup)
    (hperm : issue'.bulletins.Perm issue.bulletins) :
    SameForUsers (h.build issue) (h.build issue') := by
  have hrest : (h.build issue').2.withoutCommon = (h.build issue).2.withoutCommon := by
    rw [withoutCommon_build, withoutCommon_build, hmetadata,
      Edition.foldl_addOwn_of_perm hdistinct hperm]
  unfold Edition.withoutCommon at hrest
  rw [Edition.mk.injEq] at hrest
  obtain ⟨hmetadata', -, hpersonal, hreaders⟩ := hrest
  have hsections : ∀ s, s ∈ issue'.sections ↔ s ∈ issue.sections := fun s =>
    (hperm.flatMap_right UserSections.sections).mem_iff
  have hcommits := h.commits_build issue
  have hcommits' := h.commits_build issue'
  refine ⟨hmetadata', hreaders, hpersonal, fun name => ?_, fun text => ?_, fun name => ?_⟩
  · rw [contains_common_build, contains_common_build]
    simp only [hsections]
  · rw [hcommits.texts, hcommits'.texts]
    unfold Section.sharedTexts
    simp only [List.mem_filterMap, hsections]
  · rw [hcommits.titles, hcommits'.titles]
    simp only [hsections]

theorem commonText?_of_not_contains {out : Holdings × Edition} {name : String}
    (h : ¬ out.2.common.contains name) : commonText? out name = none := by
  unfold commonText?
  unfold SortedMap.contains at h
  rw [Option.not_isSome_iff_eq_none.mp h]
  rfl

/-- Everyone gets the last section of a name in one of the records. -/
theorem exists_last?_of_contains (h : Holdings) {period : Period} {issue : Issue}
    {records : List Record} (hrecords : issue.bulletins = records.map (·.bulletin period))
    {name : String} (hname : (h.build issue).2.common.contains name) :
    ∃ r ∈ records, ∃ s, Section.last? name (r.sections period) = some s ∧
      commonText? (h.build issue) name = some s.html := by
  rw [contains_common_build, ← Section.isSome_lastShared?_iff, Option.isSome_iff_exists] at hname
  obtain ⟨text, htext⟩ := hname
  have hsections : issue.sections = records.flatMap (Record.sections period) := by
    unfold Issue.sections
    rw [hrecords, List.flatMap_map]
    rfl
  have hlast := htext
  rw [hsections] at hlast
  obtain ⟨r, hr, hshared⟩ := Section.exists_lastShared?_of_flatMap hlast
  obtain ⟨s, hs, rfl⟩ := Record.exists_last?_of_lastShared? hshared
  exact ⟨r, hr, s, hs, by rw [commonText?_build, htext]⟩

end Holdings

/-! ## Archives -/

namespace UserEntries

variable {users users' : List UserEntries} {first : Entry} {failure : Option ArchiveError}
  {period : Period} {m : Metadata}

/-- What an archive delivers: an entry, and then the entries of users. -/
def delivery (first : Entry) (users : List UserEntries) (failure : Option ArchiveError) :
    Delivery := ⟨first :: allEntries users, failure⟩

theorem isSound_of_perm (hperm : users'.Perm users) (hdistinct : (users.map user).Nodup)
    {rest : List Entry} (h : (delivery first users failure).IsSound period m rest) :
    rest = allEntries users ∧ Gathering.records rest = records users ∧
      (delivery first users' failure).IsSound period m (allEntries users') ∧
      Gathering.records (allEntries users') = records users' := by
  obtain ⟨hwhole, ⟨bytes, hentries, hbytes⟩, hacceptable, hdivisible⟩ := h
  cases hentries
  have hopening : ∀ u ∈ users, u.opening.IsAcceptable := fun u hu =>
    hacceptable u.opening (List.mem_flatMap.mpr ⟨u, hu, List.mem_cons_self⟩)
  have hrecords := records_allEntries hdistinct hopening
  have hrecords' : Gathering.records (allEntries users') = records users' := by
    refine records_allEntries ((hperm.map user).nodup_iff.mpr hdistinct) fun u hu => ?_
    exact hopening u (hperm.mem_iff.mp hu)
  refine ⟨rfl, hrecords, ⟨hwhole, ⟨bytes, rfl, hbytes⟩, fun e he => ?_, fun r hr => ?_⟩, hrecords'⟩
  · exact hacceptable e ((hperm.flatMap_right entries).mem_iff.mp he)
  · rw [hrecords'] at hr
    refine hdivisible r ?_
    rw [hrecords]
    exact (hperm.flatMap_right fun u => Gathering.records u.entries).mem_iff.mp hr

end UserEntries

namespace Holdings

open UserEntries (delivery records)

variable {h : Holdings} {period : Period} {first : Entry} {failure : Option ArchiveError}
  {users users' : List UserEntries}

theorem exists_ingest_of_perm (hperm : users'.Perm users)
    (hdistinct : (users.map UserEntries.user).Nodup)
    (hout : ∃ out, h.ingest period (delivery first users failure) = .ok out) :
    ∃ out, h.ingest period (delivery first users' failure) = .ok out := by
  obtain ⟨out, hout⟩ := hout
  obtain ⟨m, rest, hsound, -⟩ := ingest_eq_ok_iff.mp hout
  obtain ⟨-, -, hsound', -⟩ := UserEntries.isSound_of_perm hperm hdistinct hsound
  exact ⟨_, ingest_eq_ok_iff.mpr ⟨m, _, hsound', rfl⟩⟩

/-- What an archive of users leaves behind is built from the metadata and the users' records. -/
theorem exists_issue_of_ingest (hdistinct : (users.map UserEntries.user).Nodup)
    {out : Holdings × Edition} (hout : h.ingest period (delivery first users failure) = .ok out) :
    ∃ issue : Issue, Metadata.ofEntry first = .ok issue.metadata ∧
      issue.bulletins = (records users).map (·.bulletin period) ∧ out = h.build issue := by
  obtain ⟨m, rest, hsound, hbuild⟩ := ingest_eq_ok_iff.mp hout
  obtain ⟨-, hrecords, -, -⟩ := UserEntries.isSound_of_perm (.refl users) hdistinct hsound
  obtain ⟨bytes, hentries, hbytes⟩ := hsound.opening
  obtain ⟨rfl, -⟩ := List.cons.inj hentries
  refine ⟨⟨m, (records users).map (·.bulletin period)⟩, ?_, rfl, ?_⟩
  · exact Metadata.ofEntry_eq_ok_iff.mpr ⟨bytes, rfl, hbytes⟩
  · rw [← hbuild, hrecords]

/-- The users of an archive may stand in any order: it is ingested in all orders or in none, and what
does not belong to everyone is the same. Everyone gets, under each name, the last section of one of
the users' records; where their sections of a name do not differ, that is the same, too. -/
theorem ingest_sameForUsers_of_perm (h : Holdings) (period : Period) (first : Entry)
    (failure : Option ArchiveError) {users users' : List UserEntries}
    (hdistinct : (users.map UserEntries.user).Nodup) (hperm : users'.Perm users) :
    ((∃ out, h.ingest period (delivery first users failure) = .ok out) ↔
      ∃ out, h.ingest period (delivery first users' failure) = .ok out) ∧
    ∀ out out', h.ingest period (delivery first users failure) = .ok out →
      h.ingest period (delivery first users' failure) = .ok out' →
      SameForUsers out out' ∧
      (∀ name, out.2.common.contains name →
        (∃ r ∈ records users, ∃ s, Section.last? name (r.sections period) = some s ∧
          commonText? out name = some s.html) ∧
        ∃ r ∈ records users, ∃ s, Section.last? name (r.sections period) = some s ∧
          commonText? out' name = some s.html) ∧
      ∀ name, (∀ r ∈ records users, ∀ r' ∈ records users, ∀ s ∈ r.sections period,
          ∀ s' ∈ r'.sections period, s.name = name → s'.name = name → s.html = s'.html) →
        commonText? out name = commonText? out' name := by
  have hdistinct' : (users'.map UserEntries.user).Nodup :=
    (hperm.map UserEntries.user).nodup_iff.mpr hdistinct
  refine ⟨⟨?_, ?_⟩, fun out out' hout hout' => ?_⟩
  · exact exists_ingest_of_perm hperm hdistinct
  · exact exists_ingest_of_perm hperm.symm hdistinct'
  obtain ⟨issue, hread, hbulletins, rfl⟩ := exists_issue_of_ingest hdistinct hout
  obtain ⟨issue', hread', hbulletins', rfl⟩ := exists_issue_of_ingest hdistinct' hout'
  have hmetadata : issue'.metadata = issue.metadata :=
    Except.ok.inj (hread'.symm.trans hread)
  have hrecords : (records users').Perm (records users) := hperm.flatMap_right _
  have husers : (issue.bulletins.map (·.user)).Nodup := by
    rw [hbulletins, List.map_map]
    exact (UserEntries.users_records_sublist users).nodup hdistinct
  have hbulletinsPerm : issue'.bulletins.Perm issue.bulletins := by
    rw [hbulletins, hbulletins']
    exact hrecords.map _
  have hsame := h.sameForUsers_build_of_perm hmetadata husers hbulletinsPerm
  have hlast {name : String} (hname : (h.build issue).2.common.contains name) :=
    h.exists_last?_of_contains hbulletins hname
  have hlast' {name : String} (hname : (h.build issue).2.common.contains name) :=
    h.exists_last?_of_contains hbulletins' ((hsame.common name).mpr hname)
  simp only [hrecords.mem_iff] at hlast'
  refine ⟨hsame, fun name hname => ⟨hlast hname, hlast' hname⟩, fun name hidentical => ?_⟩
  by_cases hname : (h.build issue).2.common.contains name
  · obtain ⟨r, hr, s, hs, htext⟩ := hlast hname
    obtain ⟨r', hr', s', hs', htext'⟩ := hlast' hname
    obtain ⟨hmem, hsname⟩ := Section.mem_of_last? hs
    obtain ⟨hmem', hsname'⟩ := Section.mem_of_last? hs'
    rw [htext, htext', hidentical r hr r' hr' s hmem s' hmem' hsname hsname']
  · rw [commonText?_of_not_contains hname,
      commonText?_of_not_contains (mt (hsame.common name).mp hname)]

/-- A user's entries with a greeting of the user's own. -/
def aliceEntries : UserEntries where
  user := "alice"
  opening := textEntry "alice.mail.header" "<head>"
  rest := [textEntry "alice.mail" "<p>A<h2><a name=jobs></a>Hers</h2><p><a name=footer>"]
  user_ne := by decide
  isHeader := by decide +kernel
  own := by decide +kernel

/-- Another user's, with a second header and a file that means nothing. -/
def bobEntries : UserEntries where
  user := "bob"
  opening := textEntry "bob.mail.header" "no page"
  rest := [textEntry "bob.mail.header" "<head>",
    textEntry "bob.mail" "<p>B<h2><a name=jobs></a>His</h2><p><a name=footer>",
    textEntry "bob.notes.txt" ""]
  user_ne := by decide
  isHeader := by decide +kernel
  own := by decide +kernel

/-- The bulletin of such a user. -/
def jobsBulletin (user letter whose : String) : UserSections where
  user := user
  sections :=
    [⟨"greeting", "Greeting", "<p><a name=\"greeting\"></a>" ++ letter ++ "</p>", .everyone⟩,
      ⟨"jobs", whose, "<h2><a name=\"jobs\"></a>" ++ whose ++ "</h2>", .owner⟩,
      ⟨"footer", "Footer", "<p><a name=\"footer\"></a></p>", .everyone⟩]

/-- What an archive says that has nothing but these bulletins. -/
def jobsIssue (bulletins : List UserSections) : Issue := ⟨⟨0, 0, SortedMap.empty⟩, bulletins⟩

/-- What such an archive delivers. -/
def jobsDelivery (users : List UserEntries) : Delivery :=
  delivery (textEntry "raw.json" "\x7b\x7d") users none

theorem ofDelivery_aliceThenBob : Issue.ofDelivery 7 (jobsDelivery [aliceEntries, bobEntries]) =
    .ok (jobsIssue [jobsBulletin "alice" "A" "Hers", jobsBulletin "bob" "B" "His"]) :=
  eq_ok_of_toOption (by decide +kernel)

theorem ofDelivery_bobThenAlice : Issue.ofDelivery 7 (jobsDelivery [bobEntries, aliceEntries]) =
    .ok (jobsIssue [jobsBulletin "bob" "B" "His", jobsBulletin "alice" "A" "Hers"]) :=
  eq_ok_of_toOption (by decide +kernel)

theorem html_of_footer {r : Record} (hr : r ∈ records [aliceEntries, bobEntries]) {s : Section}
    (hs : s ∈ r.sections 7) (hname : s.name = "footer") :
    s.html = "<p><a name=\"footer\"></a></p>" := by
  obtain ⟨rest, hsound, hbulletins⟩ := Issue.ofDelivery_eq_ok_iff.mp ofDelivery_aliceThenBob
  have hdistinct : ([aliceEntries, bobEntries].map UserEntries.user).Nodup := by decide
  obtain ⟨-, hrecords, -⟩ := UserEntries.isSound_of_perm (.refl _) hdistinct hsound
  have hmem : r.bulletin 7 ∈ (records [aliceEntries, bobEntries]).map (·.bulletin 7) :=
    List.mem_map_of_mem hr
  rw [← hrecords, ← hbulletins] at hmem
  have hall : ∀ b ∈ [jobsBulletin "alice" "A" "Hers", jobsBulletin "bob" "B" "His"],
      ∀ s ∈ b.sections, s.name = "footer" → s.html = "<p><a name=\"footer\"></a></p>" := by
    decide
  exact hall _ hmem s hs hname

/-- Each of two users has jobs, in both orders; the greeting is that of the last user, and the
footer, which is the same for both, is the same in both orders. -/
theorem ingest_sameForUsers_of_perm_two :
    ∃ out out', empty.ingest 7 (jobsDelivery [aliceEntries, bobEntries]) = .ok out ∧
      empty.ingest 7 (jobsDelivery [bobEntries, aliceEntries]) = .ok out' ∧
      SameForUsers out out' ∧
      commonText? out "greeting" = some "<p><a name=\"greeting\"></a>B</p>" ∧
      commonText? out' "greeting" = some "<p><a name=\"greeting\"></a>A</p>" ∧
      commonText? out "footer" = commonText? out' "footer" ∧
      out.2.personal.get? "jobs" = some ((SortedMap.empty.insert "alice"
        "<h2><a name=\"jobs\"></a>Hers</h2>").insert "bob"
        "<h2><a name=\"jobs\"></a>His</h2>") := by
  have hdistinct : ([aliceEntries, bobEntries].map UserEntries.user).Nodup := by decide
  have hperm : [bobEntries, aliceEntries].Perm [aliceEntries, bobEntries] :=
    .swap aliceEntries bobEntries []
  have hout := congrArg (Except.map empty.build) ofDelivery_aliceThenBob
  have hout' := congrArg (Except.map empty.build) ofDelivery_bobThenAlice
  obtain ⟨-, hall⟩ := ingest_sameForUsers_of_perm empty 7 (textEntry "raw.json" "\x7b\x7d") none
    hdistinct hperm
  obtain ⟨hsame, -, hidentical⟩ := hall _ _ hout hout'
  have hfooter := hidentical "footer" fun r hr r' hr' s hs s' hs' hname hname' =>
    (html_of_footer hr hs hname).trans (html_of_footer hr' hs' hname').symm
  exact ⟨_, _, hout, hout', hsame, by decide +kernel, by decide +kernel, hfooter,
    by decide +kernel⟩

end Holdings

end Bulletin
