import Bulletin.Proofs.Gathering
import Bulletin.Store

/-!
# Reading an archive entry by entry, and all at once

`Issue.ofDelivery` goes through what is delivered once and stops at the first fault. What it comes
to can be said without the order of its steps. Either there is a fault, and the first one refuses
the archive:

    h.ingest period d = .error e ↔ (faults period d).head? = some e

or there is none, and the records of the entries behind the metadata are committed in order:

    h.ingest period d = .ok (h', e) ↔ … h' = (h.batch period m (records rest)).1 …

## Algorithm

`faultsFrom` lists what is wrong with each entry, as if one went on behind it; `batch` commits the
sections of records without anything in between.
-/

namespace Bulletin

/-- There is no fault where there is a result. -/
theorem eq_ok_of_toOption {ε α : Type} {x : Except ε α} {a : α} (h : x.toOption = some a) :
    x = .ok a := by
  cases x with
  | error e => cases h
  | ok b => exact congrArg Except.ok (Option.some.inj h)

/-! ## Faults -/

namespace Record

/-- The sections of a record; none if it cannot be divided. -/
def sections (period : Period) (r : Record) : List Section :=
  ((divide (Text.decode r.header) (Text.decode r.body) period r.user).toOption).getD []

/-- The record can be divided into sections. -/
def IsDivisible (period : Period) (r : Record) : Prop :=
  ∃ sections, divide (Text.decode r.header) (Text.decode r.body) period r.user = .ok sections

/-- Why a record cannot be divided. -/
def fault? (period : Period) (r : Record) : Option ArchiveError :=
  match divide (Text.decode r.header) (Text.decode r.body) period r.user with
  | .ok _ => none
  | .error e => some (.undivided r.user e)

/-- A record with its sections. -/
def bulletin (period : Period) (r : Record) : UserSections := ⟨r.user, r.sections period⟩

theorem fault?_eq_none_iff {period : Period} {r : Record} :
    r.fault? period = none ↔ r.IsDivisible period := by
  unfold fault? IsDivisible
  cases divide (Text.decode r.header) (Text.decode r.body) period r.user with
  | ok sections => exact ⟨fun _ => ⟨sections, rfl⟩, fun _ => rfl⟩
  | error e =>
    constructor
    · intro h
      cases h
    · rintro ⟨sections, h⟩
      cases h

theorem ofRecord_eq (period : Period) (r : Record) :
    UserSections.ofRecord period r =
      match r.fault? period with
      | none => .ok (r.bulletin period)
      | some e => .error e := by
  unfold UserSections.ofRecord fault? bulletin sections
  cases divide (Text.decode r.header) (Text.decode r.body) period r.user with
  | ok sections => rfl
  | error e => rfl

end Record

namespace Gathering

/-- What is wrong with an entry behind the metadata: it is refused, or it completes a record that
cannot be divided. -/
def fault? (period : Period) (g : Gathering) (e : Entry) : Option ArchiveError :=
  match g.accept e with
  | .error error => some error
  | .ok (_, complete) => complete.bind (Record.fault? period)

/-- All that is wrong with entries behind the metadata, in their order, and with the end. Either the
delivery fails there, or the record may be at fault that is still open. -/
def faultsFrom (period : Period) (failure : Option ArchiveError) :
    Gathering → List Entry → List ArchiveError
  | g, [] => (failure.or (g.finish.bind (Record.fault? period))).toList
  | g, e :: rest => (g.fault? period e).toList ++ faultsFrom period failure (g.after e) rest

end Gathering

namespace Delivery

/-- Why an entry does not hold the metadata. -/
def metadataFault? (e : Entry) : Option ArchiveError :=
  match Metadata.ofEntry e with
  | .ok _ => none
  | .error error => some error

/-- All that is wrong with a delivery, in the order of its entries. Without entries the metadata is
missing, unless it is the delivery that failed. -/
def faults (period : Period) (d : Delivery) : List ArchiveError :=
  match d.entries with
  | [] => [d.failure.getD (.noMetadata none)]
  | first :: rest =>
    (metadataFault? first).toList ++ Gathering.empty.faultsFrom period d.failure rest

/-- All of an archive is delivered, first its metadata and then `rest`, and nothing is wrong with
any of it. -/
structure IsSound (period : Period) (metadata : Metadata) (rest : List Entry) (d : Delivery) :
    Prop where
  whole : d.failure = none
  opening : ∃ bytes, d.entries = ⟨metadataName, some bytes⟩ :: rest ∧
    Metadata.ofBytes bytes = .ok metadata
  acceptable : ∀ e ∈ rest, e.IsAcceptable
  divisible : ∀ r ∈ Gathering.records rest, r.IsDivisible period

end Delivery

/-! ## The run -/

namespace IssueReading

theorem add_some (period : Period) (bulletins : List UserSections) (r : Record) :
    add period bulletins (some r) =
      match r.fault? period with
      | none => .ok (bulletins ++ [r.bulletin period])
      | some e => .error e := by
  show (UserSections.ofRecord period r).map (fun b => bulletins ++ [b]) = _
  rw [Record.ofRecord_eq]
  cases r.fault? period with
  | none => rfl
  | some e => rfl

/-- Reading an entry behind the metadata, step by step. -/
theorem accept_some (period : Period) (m : Metadata) (g : Gathering)
    (bulletins : List UserSections) (e : Entry) :
    accept period ⟨some m, g, bulletins⟩ e =
      match g.fault? period e with
      | none =>
        .ok ⟨some m, g.after e, bulletins ++ (g.completed? e).toList.map (·.bulletin period)⟩
      | some error => .error error := by
  unfold accept Gathering.fault?
  cases haccept : g.accept e with
  | error error => rfl
  | ok out =>
    obtain ⟨g', complete⟩ := out
    rw [Gathering.after_of_accept haccept, Gathering.completed?_of_accept haccept]
    cases complete with
    | none =>
      show Except.ok (⟨some m, g', bulletins⟩ : IssueReading) = _
      simp
    | some r =>
      show (add period bulletins (some r) >>= fun bulletins =>
        pure (⟨some m, g', bulletins⟩ : IssueReading)) = _
      simp only [add_some, Option.bind_some]
      cases r.fault? period with
      | none => rfl
      | some error => rfl

end IssueReading

/-- What becomes of a reading once all entries have been read. -/
def IssueReading.close (period : Period) (failure : Option ArchiveError) (reading : IssueReading) :
    Except ArchiveError Issue :=
  match failure with
  | some e => .error e
  | none => reading.finish period

namespace IssueReading

/-- Reading all entries behind the metadata comes to the first fault, or to the bulletins of all
records. -/
theorem foldlM_accept (period : Period) (failure : Option ArchiveError) (m : Metadata)
    (g : Gathering) (bulletins : List UserSections) (entries : List Entry) :
    (entries.foldlM (accept period) ⟨some m, g, bulletins⟩ >>= close period failure) =
      match g.faultsFrom period failure entries with
      | [] => .ok ⟨m, bulletins ++ (g.recordsFrom entries).map (·.bulletin period)⟩
      | error :: _ => .error error := by
  induction entries generalizing g bulletins with
  | nil =>
    show close period failure ⟨some m, g, bulletins⟩ = _
    unfold close Gathering.faultsFrom Gathering.recordsFrom
    cases failure with
    | some e => rfl
    | none =>
      unfold finish
      cases hfinish : g.finish with
      | none => simp [add, Except.map]
      | some r =>
        simp only [add_some, Option.bind_some, Option.or]
        cases r.fault? period with
        | none => rfl
        | some error => rfl
  | cons e rest ih =>
    rw [List.foldlM_cons, accept_some, Gathering.faultsFrom, Gathering.recordsFrom]
    cases g.fault? period e with
    | some error => rfl
    | none =>
      show (rest.foldlM (accept period) ⟨some m, g.after e, _⟩ >>= close period failure) = _
      rw [ih]
      simp

end IssueReading

/-- What is delivered is the metadata's fault, or that of what is behind it, or an issue. -/
theorem Issue.ofDelivery_cons (period : Period) (first : Entry) (rest : List Entry)
    (failure : Option ArchiveError) :
    Issue.ofDelivery period ⟨first :: rest, failure⟩ =
      match Metadata.ofEntry first with
      | .error e => .error e
      | .ok m =>
        match Gathering.empty.faultsFrom period failure rest with
        | [] => .ok ⟨m, (Gathering.records rest).map (·.bulletin period)⟩
        | error :: _ => .error error := by
  show ((first :: rest).foldlM (IssueReading.accept period) .empty >>=
    IssueReading.close period failure) = _
  rw [List.foldlM_cons]
  show ((Metadata.ofEntry first).map (fun m => (⟨some m, .empty, []⟩ : IssueReading)) >>=
    fun reading => rest.foldlM (IssueReading.accept period) reading) >>=
      IssueReading.close period failure = _
  cases Metadata.ofEntry first with
  | error e => rfl
  | ok m =>
    show (rest.foldlM (IssueReading.accept period) ⟨some m, .empty, []⟩ >>=
      IssueReading.close period failure) = _
    rw [IssueReading.foldlM_accept]
    rfl

theorem Issue.ofDelivery_nil (period : Period) (failure : Option ArchiveError) :
    Issue.ofDelivery period ⟨[], failure⟩ = .error (failure.getD (.noMetadata none)) := by
  cases failure with
  | none => rfl
  | some e => rfl

/-! ## Without a fault -/

namespace Gathering

theorem fault?_eq_none_iff {period : Period} {g : Gathering} {e : Entry} :
    g.fault? period e = none ↔
      e.IsAcceptable ∧ ∀ r ∈ (g.completed? e).toList, r.IsDivisible period := by
  rw [← exists_accept_eq_ok_iff g e]
  unfold fault?
  cases haccept : g.accept e with
  | error error =>
    constructor
    · intro h
      cases h
    · rintro ⟨⟨out, h⟩, -⟩
      cases h
  | ok out =>
    obtain ⟨g', complete⟩ := out
    rw [completed?_of_accept haccept]
    cases complete with
    | none => simp
    | some r => simp [Record.fault?_eq_none_iff]

/-- Nothing is wrong just if the delivery does not fail, no entry is refused, and every record can
be divided. -/
theorem faultsFrom_eq_nil_iff {period : Period} {failure : Option ArchiveError} {g : Gathering}
    {entries : List Entry} :
    g.faultsFrom period failure entries = [] ↔
      failure = none ∧ (∀ e ∈ entries, e.IsAcceptable) ∧
        ∀ r ∈ g.recordsFrom entries, r.IsDivisible period := by
  induction entries generalizing g with
  | nil =>
    unfold faultsFrom recordsFrom
    cases failure with
    | some e => simp
    | none =>
      cases g.finish with
      | none => simp
      | some r => simp [Record.fault?_eq_none_iff]
  | cons e rest ih =>
    rw [faultsFrom, recordsFrom, List.append_eq_nil_iff, Option.toList_eq_nil_iff,
      fault?_eq_none_iff, ih]
    simp only [List.forall_mem_cons, List.forall_mem_append]
    constructor
    · rintro ⟨⟨he, hr⟩, hfailure, hrest, hrecords⟩
      exact ⟨hfailure, ⟨he, hrest⟩, hr, hrecords⟩
    · rintro ⟨hfailure, ⟨he, hrest⟩, hr, hrecords⟩
      exact ⟨⟨he, hr⟩, hfailure, hrest, hrecords⟩

end Gathering

theorem Metadata.ofEntry_eq_ok_iff {e : Entry} {m : Metadata} :
    Metadata.ofEntry e = .ok m ↔
      ∃ bytes, e = ⟨metadataName, some bytes⟩ ∧ Metadata.ofBytes bytes = .ok m := by
  obtain ⟨name, payload⟩ := e
  unfold Metadata.ofEntry
  by_cases hname : name = metadataName
  · subst hname
    cases payload with
    | none => simp [Entry.read, bind, Except.bind]
    | some bytes =>
      cases hbytes : Metadata.ofBytes bytes with
      | ok m' => simp [Entry.read, bind, Except.bind, hbytes, pure, Except.pure]
      | error error => simp [Entry.read, bind, Except.bind, hbytes]
  · simp [hname, bind, Except.bind, throw, throwThe, MonadExceptOf.throw]

/-- An issue is read from what is sound, and from nothing else. -/
theorem Issue.ofDelivery_eq_ok_iff {period : Period} {d : Delivery} {issue : Issue} :
    Issue.ofDelivery period d = .ok issue ↔
      ∃ rest, d.IsSound period issue.metadata rest ∧
        issue.bulletins = (Gathering.records rest).map (·.bulletin period) := by
  obtain ⟨entries, failure⟩ := d
  cases entries with
  | nil =>
    rw [Issue.ofDelivery_nil]
    constructor
    · intro h
      cases h
    · rintro ⟨rest, ⟨-, ⟨bytes, hentries, -⟩, -, -⟩, -⟩
      cases hentries
  | cons first rest =>
    rw [Issue.ofDelivery_cons]
    constructor
    · intro h
      cases hm : Metadata.ofEntry first with
      | error e => rw [hm] at h; cases h
      | ok m =>
        rw [hm] at h
        cases hfaults : Gathering.empty.faultsFrom period failure rest with
        | cons error later => rw [hfaults] at h; cases h
        | nil =>
          rw [hfaults] at h
          cases h
          obtain ⟨hfailure, hrest, hrecords⟩ := Gathering.faultsFrom_eq_nil_iff.mp hfaults
          obtain ⟨bytes, rfl, hbytes⟩ := Metadata.ofEntry_eq_ok_iff.mp hm
          exact ⟨rest, ⟨hfailure, ⟨bytes, rfl, hbytes⟩, hrest, hrecords⟩, rfl⟩
    · rintro ⟨rest', ⟨hfailure, ⟨bytes, hentries, hbytes⟩, hrest, hrecords⟩, hbulletins⟩
      cases hentries
      have hm := Metadata.ofEntry_eq_ok_iff.mpr ⟨bytes, rfl, hbytes⟩
      have hfaults : Gathering.empty.faultsFrom period failure rest = [] :=
        Gathering.faultsFrom_eq_nil_iff.mpr ⟨hfailure, hrest, hrecords⟩
      rw [hm, hfaults]
      show Except.ok (⟨issue.metadata, _⟩ : Issue) = .ok issue
      rw [← hbulletins]

/-- What refuses an archive is the first of its faults. -/
theorem Issue.ofDelivery_eq_error_iff {period : Period} {d : Delivery} {error : ArchiveError} :
    Issue.ofDelivery period d = .error error ↔ (d.faults period).head? = some error := by
  obtain ⟨entries, failure⟩ := d
  cases entries with
  | nil =>
    rw [Issue.ofDelivery_nil]
    simp [Delivery.faults]
  | cons first rest =>
    rw [Issue.ofDelivery_cons]
    unfold Delivery.faults Delivery.metadataFault?
    cases hm : Metadata.ofEntry first with
    | error e => simp [hm]
    | ok m =>
      cases hfaults : Gathering.empty.faultsFrom period failure rest with
      | nil => simp [hm, hfaults]
      | cons error later => simp [hm, hfaults]

/-! ## Committing the records -/

namespace Holdings

/-- Builds the edition of a period from what is delivered. -/
def ingest (h : Holdings) (period : Period) (d : Delivery) :
    Except ArchiveError (Holdings × Edition) :=
  (Issue.ofDelivery period d).map h.build

/-- Commits the sections of a record. -/
def commitRecord (period : Period) (state : Holdings × Edition) (r : Record) :
    Holdings × Edition :=
  state.1.commit state.2 r.user (r.sections period)

/-- Commits the sections of records, one record after the other. -/
def batch (h : Holdings) (period : Period) (m : Metadata) (records : List Record) :
    Holdings × Edition :=
  records.foldl (commitRecord period) (h, Edition.new m)

/-- Readers and the users of records. -/
def withUsers (readers : SortedSet String) (records : List Record) : SortedSet String :=
  records.foldl (fun readers r => readers.insert r.user ()) readers

/-- Committing a section neither reads nor changes who was sent a bulletin. -/
theorem commitSection_readers (user : String) (h : Holdings) (e : Edition)
    (readers : SortedSet String) (s : Section) :
    commitSection user (h, { e with readers }) s =
      ((commitSection user (h, e) s).1, { (commitSection user (h, e) s).2 with readers }) := by
  unfold commitSection
  cases s.audience with
  | everyone => rfl
  | owner => rfl

theorem commit_readers (h : Holdings) (e : Edition) (readers : SortedSet String) (user : String)
    (sections : List Section) :
    h.commit { e with readers } user sections =
      ((h.commit e user sections).1, { (h.commit e user sections).2 with readers }) := by
  unfold commit
  induction sections generalizing h e with
  | nil => rfl
  | cons s rest ih =>
    rw [List.foldl_cons, List.foldl_cons, commitSection_readers]
    exact ih _ _

/-- Committing sections leaves what the archive says of its period. -/
theorem commit_metadata (h : Holdings) (e : Edition) (user : String) (sections : List Section) :
    (h.commit e user sections).2.metadata = e.metadata := by
  unfold commit
  induction sections generalizing h e with
  | nil => rfl
  | cons s rest ih =>
    rw [List.foldl_cons, ih]
    unfold commitSection
    cases s.audience with
    | everyone => rfl
    | owner => rfl

theorem foldl_commitRecord_metadata (period : Period) (records : List Record) (h : Holdings)
    (e : Edition) :
    (records.foldl (commitRecord period) (h, e)).2.metadata = e.metadata := by
  induction records generalizing h e with
  | nil => rfl
  | cons r rest ih => exact (ih _ _).trans (commit_metadata h e r.user (r.sections period))

/-- Noting the readers in between makes no difference to what is committed. -/
theorem foldl_addBulletin (period : Period) (records : List Record) (h : Holdings) (e : Edition)
    (readers : SortedSet String) :
    (records.map (·.bulletin period)).foldl addBulletin (h, { e with readers }) =
      ((records.foldl (commitRecord period) (h, e)).1,
        { (records.foldl (commitRecord period) (h, e)).2 with
          readers := withUsers readers records }) := by
  induction records generalizing h e readers with
  | nil => rfl
  | cons r rest ih =>
    have hadd : addBulletin (h, { e with readers }) (r.bulletin period) =
        ((h.commit e r.user (r.sections period)).1,
          { (h.commit e r.user (r.sections period)).2 with
            readers := readers.insert r.user () }) := by
      unfold addBulletin
      dsimp only [Record.bulletin]
      rw [commit_readers]
      rfl
    rw [List.map_cons, List.foldl_cons, List.foldl_cons, hadd]
    exact ih _ _ _

theorem contains_withUsers (records : List Record) (readers : SortedSet String) (user : String) :
    (withUsers readers records).contains user ↔
      readers.contains user ∨ ∃ r ∈ records, r.user = user := by
  unfold withUsers
  induction records generalizing readers with
  | nil => simp
  | cons r rest ih =>
    rw [List.foldl_cons, ih, SortedMap.contains_insert]
    simp only [List.mem_cons, exists_eq_or_imp]
    constructor
    · rintro ((rfl | hreader) | hrest)
      · exact .inr (.inl rfl)
      · exact .inl hreader
      · exact .inr (.inr hrest)
    · rintro (hreader | rfl | hrest)
      · exact .inl (.inr hreader)
      · exact .inl (.inl rfl)
      · exact .inr hrest

/-- Building an edition commits all records and notes their users. -/
theorem build_records (h : Holdings) (period : Period) (m : Metadata) (records : List Record) :
    h.build ⟨m, records.map (·.bulletin period)⟩ =
      ((h.batch period m records).1, { (h.batch period m records).2 with
        readers := withUsers SortedMap.empty records }) :=
  foldl_addBulletin period records h (Edition.new m) SortedMap.empty

theorem ingest_eq_ok_iff {h : Holdings} {period : Period} {d : Delivery}
    {out : Holdings × Edition} :
    h.ingest period d = .ok out ↔
      ∃ m rest, d.IsSound period m rest ∧
        h.build ⟨m, (Gathering.records rest).map (·.bulletin period)⟩ = out := by
  unfold ingest
  constructor
  · intro hout
    cases hissue : Issue.ofDelivery period d with
    | error e => rw [hissue] at hout; cases hout
    | ok issue =>
      rw [hissue] at hout
      obtain ⟨rest, hsound, hbulletins⟩ := Issue.ofDelivery_eq_ok_iff.mp hissue
      refine ⟨issue.metadata, rest, hsound, ?_⟩
      rw [← hbulletins]
      exact Except.ok.inj hout
  · rintro ⟨m, rest, hsound, hbuild⟩
    have hissue : Issue.ofDelivery period d =
        .ok ⟨m, (Gathering.records rest).map (·.bulletin period)⟩ :=
      Issue.ofDelivery_eq_ok_iff.mpr ⟨rest, hsound, rfl⟩
    rw [hissue, ← hbuild]
    rfl

theorem ingest_eq_error_iff {h : Holdings} {period : Period} {d : Delivery}
    {error : ArchiveError} :
    h.ingest period d = .error error ↔ (d.faults period).head? = some error := by
  rw [← Issue.ofDelivery_eq_error_iff]
  unfold ingest
  cases Issue.ofDelivery period d with
  | error e => exact ⟨fun heq => by cases heq; rfl, fun heq => by cases heq; rfl⟩
  | ok issue =>
    constructor
    · intro heq
      cases heq
    · intro heq
      cases heq

/-- Reading what is delivered entry by entry comes to the same as reading it all at once: it
succeeds just if nothing is wrong, keeps then what the records say in their order, and is refused
otherwise by the first fault. -/
theorem ingest_eq_batch (h : Holdings) (period : Period) (d : Delivery) :
    ((∃ out, h.ingest period d = .ok out) ↔ ∃ m rest, d.IsSound period m rest) ∧
      (∀ h' e, h.ingest period d = .ok (h', e) ↔
        ∃ m rest, d.IsSound period m rest ∧
          e.metadata = m ∧
          (∀ user, e.hasSeen user ↔ ∃ r ∈ Gathering.records rest, r.user = user) ∧
          e.common = (h.batch period m (Gathering.records rest)).2.common ∧
          e.personal = (h.batch period m (Gathering.records rest)).2.personal ∧
          h' = (h.batch period m (Gathering.records rest)).1) ∧
      ∀ error, h.ingest period d = .error error ↔ (d.faults period).head? = some error := by
  refine ⟨⟨?_, ?_⟩, fun h' e => ⟨?_, ?_⟩, fun error => ingest_eq_error_iff⟩
  · rintro ⟨out, hout⟩
    obtain ⟨m, rest, hsound, -⟩ := ingest_eq_ok_iff.mp hout
    exact ⟨m, rest, hsound⟩
  · rintro ⟨m, rest, hsound⟩
    exact ⟨_, ingest_eq_ok_iff.mpr ⟨m, rest, hsound, rfl⟩⟩
  · intro hout
    obtain ⟨m, rest, hsound, hbuild⟩ := ingest_eq_ok_iff.mp hout
    rw [build_records, Prod.mk.injEq] at hbuild
    obtain ⟨rfl, rfl⟩ := hbuild
    refine ⟨m, rest, hsound, foldl_commitRecord_metadata period _ h _, fun user => ?_, rfl, rfl,
      rfl⟩
    refine (contains_withUsers _ SortedMap.empty user).trans ?_
    exact or_iff_right Bool.false_ne_true
  · rintro ⟨m, rest, hsound, hmetadata, hreaders, hcommon, hpersonal, rfl⟩
    refine ingest_eq_ok_iff.mpr ⟨m, rest, hsound, ?_⟩
    rw [build_records, Prod.mk.injEq]
    refine ⟨rfl, ?_⟩
    -- an edition is its four parts, and the readers are known by who is among them
    obtain ⟨metadata, common, personal, readers⟩ := e
    have hm : (h.batch period m (Gathering.records rest)).2.metadata = m :=
      foldl_commitRecord_metadata period _ h _
    have hr : withUsers SortedMap.empty (Gathering.records rest) = readers := by
      apply SortedSet.ext_contains
      intro user
      rw [Bool.eq_iff_iff, contains_withUsers]
      exact (or_iff_right Bool.false_ne_true).trans (hreaders user).symm
    rw [hr, Edition.mk.injEq]
    exact ⟨hm.trans hmetadata.symm, hcommon.symm, hpersonal.symm, rfl⟩

/-- A record is looked at when it is complete: the name behind it is refused before alice's header,
which has no marker. -/
example :
    let entry (name text : String) : Entry := ⟨name, some text.toUTF8.toList⟩
    (⟨[entry "raw.json" "{}", entry "alice.mail.header" "Subject: x", entry "notes" ""],
      none⟩ : Delivery).faults 7 = [.badEntryName "notes", .undivided "alice" .noHead] := by
  decide +kernel

end Holdings

end Bulletin
