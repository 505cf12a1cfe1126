import Bulletin.Proofs.Answers
import Bulletin.Proofs.Classification
import Bulletin.Proofs.Descriptions
import Bulletin.Proofs.Json.Depth
import Bulletin.Proofs.Json.Writing

/-!
# The data of users is served as it came

What a description gives for a user is never looked into. It is kept as the bytes it is written in,
and whoever may see it is sent these bytes, inside an answer that is JSON itself:

    isJson_of_runAll       : all data that is kept is JSON, as it was read so
    lookup_of_isLatest     : behind a run, a period has what its last archive says
    isAt_of_asksFor        : what is answered when such a store is asked
    respond_verbatim       : from the bytes of a description to the bytes of an answer
-/

namespace Bulletin

open Json

/-! ## Descriptions that are kept -/

namespace Metadata

variable {m : Metadata}

/-- The data of users is JSON. -/
def IsJson (m : Metadata) : Prop :=
  ∀ user text, m.data.get? user = some text → IsValue (Text.encode text)

theorem isJson_of_ofBytes {bytes : List UInt8} (h : ofBytes bytes = .ok m) : m.IsJson := by
  obtain ⟨entries, hdescribes, hkeeps⟩ := ofBytes_sound h
  intro user text hget
  have hlast := hkeeps user
  rw [hget] at hlast
  exact hdescribes.isValue hlast.symm

theorem IsJson.filter (h : m.IsJson) (p : String → String → Bool) :
    IsJson { m with data := m.data.filter p } := by
  intro user text hget
  have hfilter : (m.data.filter p).get? user = some text := hget
  rw [SortedMap.get?_filter, Option.filter_eq_some_iff] at hfilter
  exact h user text hfilter.1

theorem IsJson.isWritten_members (h : m.IsJson) :
    ∀ member ∈ [("started", Value.int m.started.toInt), ("updated", .int m.updated.toInt),
      ("data", .ofMap id .verbatim m.data)], member.2.IsWritten := by
  intro member hmember
  simp only [List.mem_cons, List.not_mem_nil, or_false] at hmember
  rcases hmember with rfl | rfl | rfl
  · exact Value.isWritten_int _
  · exact Value.isWritten_int _
  · exact Value.isWritten_ofMap h

theorem IsJson.isWritten_written (h : m.IsJson) : m.written.IsWritten :=
  Value.isWritten_object h.isWritten_members

/-- What is kept for a user is written under the name of the user, as it is. -/
theorem IsJson.isAt_written (h : m.IsJson) {user text : String}
    (hget : m.data.get? user = some text) :
    IsAt ["data", user] (Text.encode text) (Text.encode m.written.compact) := by
  have hwritten : ∀ user text, m.data.get? user = some text → (Value.verbatim text).IsWritten := h
  have hdata := Value.isAt_ofMap hwritten Function.injective_id hget .here
  exact Value.isAt_object h.isWritten_members rfl hdata

end Metadata

theorem RawData.isWritten_written {d : RawData}
    (h : ∀ p m, d.periods.get? p = some m → m.IsJson) : d.written.IsWritten :=
  Value.isWritten_ofMap fun p m hm => (h p m hm).isWritten_written

/-- The data of a period is written under its number. -/
theorem RawData.isAt_written {d : RawData} (h : ∀ p m, d.periods.get? p = some m → m.IsJson)
    {p : Period} {m : Metadata} (hperiod : d.periods.get? p = some m) {user text : String}
    (hget : m.data.get? user = some text) :
    IsAt [Decimal.ofInt64 p, "data", user] (Text.encode text) (Text.encode d.written.compact) :=
  Value.isAt_ofMap (fun p m hm => (h p m hm).isWritten_written) Decimal.ofInt64_injective hperiod
    ((h p m hperiod).isAt_written hget)

/-! ## The last archive of a period -/

/-- Among the archives that a run ingests, this is the last of its period. -/
def Attempt.IsLatest (a : Attempt) (calls : List (ArchiveRoot × FileTree × Call)) : Prop :=
  ∃ before later, Call.allAttempts calls = before ++ a :: later ∧ a.Succeeds ∧
    ∀ b ∈ later, b.period = a.period → ¬ b.Succeeds

/-- The archive can be opened, and the first that it delivers is its metadata in these bytes. -/
def Attempt.OpensWith (a : Attempt) (bytes : List UInt8) : Prop :=
  ∃ source rest, Source.openAt a.layout a.files a.path = .ok source ∧
    (source.deliver a.files).1.entries = ⟨metadataName, some bytes⟩ :: rest

theorem Attempt.IsLatest.exists_result {a : Attempt} {calls : List (ArchiveRoot × FileTree × Call)}
    (h : a.IsLatest calls) : ∃ issue, a.result = .ok issue := by
  obtain ⟨_, _, -, hsucceeds, -⟩ := h
  cases hresult : a.result with
  | ok issue => exact ⟨issue, rfl⟩
  | error e =>
    unfold Attempt.Succeeds at hsucceeds
    rw [hresult] at hsucceeds
    cases hsucceeds

theorem Attempt.OpensWith.ofBytes_eq {a : Attempt} {bytes : List UInt8} (h : a.OpensWith bytes)
    {issue : Issue} (hresult : a.result = .ok issue) :
    Metadata.ofBytes bytes = .ok issue.metadata := by
  obtain ⟨source, rest, hopen, hentries⟩ := h
  unfold Attempt.result at hresult
  rw [Issue.read_of_openAt hopen] at hresult
  obtain ⟨rest', ⟨-, ⟨bytes', hentries', hread⟩, -, -⟩, -⟩ := Issue.ofDelivery_eq_ok_iff.mp hresult
  rw [hentries] at hentries'
  cases hentries'
  exact hread

theorem Issue.IsRead.isJson {x : Period × Issue} (h : Issue.IsRead x) : x.2.metadata.IsJson := by
  obtain ⟨d, hd⟩ := h
  obtain ⟨rest, ⟨-, ⟨bytes, -, hread⟩, -, -⟩, -⟩ := Issue.ofDelivery_eq_ok_iff.mp hd
  exact Metadata.isJson_of_ofBytes hread

theorem Holdings.metadata_build (h : Holdings) (issue : Issue) :
    (h.build issue).2.metadata = issue.metadata := by
  have hfoldl : ∀ (bulletins : List UserSections) (h : Holdings) (e : Edition),
      (bulletins.foldl addBulletin (h, e)).2.metadata = e.metadata := by
    intro bulletins
    induction bulletins with
    | nil => exact fun _ _ => rfl
    | cons b rest ih =>
      intro h e
      exact (ih _ _).trans (h.commit_metadata e b.user b.sections)
  exact hfoldl issue.bulletins h (Edition.new issue.metadata)

namespace Store

variable {s : Store} {calls : List (ArchiveRoot × FileTree × Call)} {p : Period} {e : Edition}

/-- Behind every run, the data that is kept is JSON. -/
theorem isJson_of_runAll
    (he : (Call.runAll calls empty).2.holdings.editions.get? p = some e) : e.metadata.IsJson := by
  rcases builtFrom_of_runAll he with hold | ⟨a, -, -, issue, h, hresult, rfl⟩
  · cases hold
  · rw [h.metadata_build]
    exact (Issue.isRead_of_read hresult).isJson

theorem afterAttempts_phase (s : Store) (phase : Phase) (attempts : List Attempt) :
    { s with phase }.afterAttempts attempts = { s.afterAttempts attempts with phase } := by
  unfold afterAttempts publishAll
  generalize attempts.filterMap Attempt.issue? = issues
  induction issues generalizing s with
  | nil => rfl
  | cons x rest ih => exact ih (s.publish x.1 x.2)

/-- A run comes to the archives that it attempts to ingest, and to a phase. -/
theorem runAll_eq (s : Store) (calls : List (ArchiveRoot × FileTree × Call)) :
    ∃ phase, (Call.runAll calls s).2 = { s.afterAttempts (Call.allAttempts calls) with phase } := by
  induction calls generalizing s with
  | nil => exact ⟨s.phase, rfl⟩
  | cons call rest ih =>
    obtain ⟨r, t, c⟩ := call
    have hone : ∃ phase, (c.run r t s).2 = { s.afterAttempts (c.attempts r t) with phase } := by
      rcases c.store_run r t s with ⟨-, hstore⟩ | ⟨-, hstore⟩
      · exact ⟨.warm, hstore⟩
      · exact ⟨_, hstore⟩
    obtain ⟨phase, hone⟩ := hone
    obtain ⟨phase', hrest⟩ := ih (c.run r t s).2
    refine ⟨phase', ?_⟩
    rw [Call.allAttempts_cons, afterAttempts_append]
    show (Call.runAll rest (c.run r t s).2).2 = _
    rw [hrest, hone, afterAttempts_phase]

/-- Behind a run, what the last archive of a period says is kept as it was published. -/
theorem exists_keeps_of_isLatest {a : Attempt} (h : a.IsLatest calls) {issue : Issue}
    (hresult : a.result = .ok issue) :
    ∃ s' : Store, Keeps a.period (s'.publish a.period issue) (Call.runAll calls s).2 := by
  obtain ⟨before, later, hattempts, -, hlater⟩ := h
  obtain ⟨phase, hrun⟩ := s.runAll_eq calls
  rw [hattempts, afterAttempts_append, afterAttempts_cons_of_ok hresult] at hrun
  have hkeeps := ((s.afterAttempts before).publish a.period issue).keeps_afterAttempts hlater
  refine ⟨s.afterAttempts before, ?_⟩
  rw [hrun]
  exact ⟨hkeeps.available, hkeeps.edition, hkeeps.tables⟩

/-- Behind a run, a period has what its last archive says. -/
theorem lookup_of_isLatest {a : Attempt} (h : a.IsLatest calls) {issue : Issue}
    (hresult : a.result = .ok issue) :
    ∃ e, (Call.runAll calls s).2.lookup a.period = .found e ∧ e.metadata = issue.metadata := by
  obtain ⟨s', hkeeps⟩ := exists_keeps_of_isLatest (s := s) h hresult
  refine ⟨(s'.holdings.build issue).2, ?_, s'.holdings.metadata_build issue⟩
  rw [hkeeps.lookup_eq, lookup_eq_found_iff, isAvailable_publish, get?_editions_publish,
    if_pos rfl, if_pos rfl]
  exact ⟨rfl, rfl⟩

/-! ## What viewers are sent -/

/-- The data of a period has for a viewer what is kept for the users that the viewer may see. -/
theorem exists_rawOf {v : Viewer} (hlookup : s.lookup p = .found e) {user text : String}
    (hget : e.metadata.data.get? user = some text) (hview : v.canView user) :
    ∃ m, s.rawOf v p = .ok m ∧ m.data.get? user = some text := by
  have hfilter : (e.metadata.data.filter fun user _ => v.canView user).get? user = some text := by
    rw [Viewer.get?_filter_canView, if_pos hview, hget]
  have hsome : (e.metadata.data.filter fun user _ => v.canView user).isEmpty = false := by
    have hentry := SortedMap.get?_eq_some_iff.mp hfilter
    exact List.isEmpty_eq_false_iff.mpr (List.ne_nil_of_mem hentry)
  refine ⟨{ e.metadata with data := e.metadata.data.filter fun user _ => v.canView user }, ?_,
    hfilter⟩
  unfold rawOf
  rw [hlookup]
  dsimp only
  rw [hsome]
  rfl

/-- Behind every run, the data that viewers are sent is JSON. -/
theorem isJson_of_rawOf {v : Viewer} {m : Metadata}
    (h : (Call.runAll calls empty).2.rawOf v p = .ok m) : m.IsJson := by
  unfold rawOf at h
  cases hlookup : (Call.runAll calls empty).2.lookup p with
  | notFound => rw [hlookup] at h; cases h
  | unavailable => rw [hlookup] at h; cases h
  | found e =>
    rw [hlookup] at h
    dsimp only at h
    split at h
    · cases h
    · cases h
      obtain ⟨-, he⟩ := lookup_eq_found_iff.mp hlookup
      exact (isJson_of_runAll he).filter _

end Store

namespace Service

open Http (Request Response)

/-- A request for the data of periods, this one among them, by somebody who may see what belongs to
a user. -/
structure AsksFor (s : Service) (r : Request) (p : Period) (user : String) : Prop where
  method : r.method = "POST"
  path : r.target.path = "/api/data"
  body : ∃ bytes wanted, r.body = .bytes bytes ∧ bytes.length ≤ s.maxBody ∧
    DataRequest.ofBytes bytes = .ok wanted ∧ p ∈ wanted.periods
  viewer : (s.viewer r).canView user

/-- What is said in answer to a request for data that somebody may see is there. -/
theorem AsksFor.isSaidBy {s : Service} {r : Request} {p : Period} {user : String}
    (h : s.AsksFor r p user) {store : Store} {e : Edition} (hlookup : store.lookup p = .found e)
    {text : String} (hget : e.metadata.data.get? user = some text) :
    ∃ (d : RawData) (m : Metadata), Reply.IsSaidBy ⟨200, d.note, d.written⟩ (s.respond store r) ∧
      d.periods.get? p = some m ∧ m.data.get? user = some text ∧
      ∀ p' m', d.periods.get? p' = some m' → store.rawOf (s.viewer r) p' = .ok m' := by
  obtain ⟨bytes, wanted, hbody, hfits, hread, hwanted⟩ := h.body
  obtain ⟨m, hraw, hdata⟩ := Store.exists_rawOf hlookup hget h.viewer
  refine ⟨store.raw wanted.periods (s.viewer r), m, ?_, ?_, hdata, fun p' m' hm' => ?_⟩
  · have hasks : Asks r := .inr ⟨h.method, h.path⟩
    have hrow : DataRow s.maxBody store (s.viewer r) r.body
        ⟨200, (store.raw wanted.periods (s.viewer r)).note,
          (store.raw wanted.periods (s.viewer r)).written⟩ := by
      rw [hbody]
      exact .served hfits (DataRequest.ofBytes_eq_ok_iff.mp hread) ⟨p, hwanted, m, hraw⟩
    have hreply := (row_iff hasks).mp (.data h.method h.path (sentBy_iff.mpr rfl) hrow)
    rw [respond_eq hasks, ← hreply]
    exact isSaidBy_apply _ _
  · rw [Store.get?_periods_raw, if_pos hwanted, hraw]
    rfl
  · rw [Store.get?_periods_raw, Option.ite_none_right_eq_some] at hm'
    exact eq_ok_of_toOption hm'.2

/-- What is kept for a user is answered as it is. -/
theorem isAt_of_asksFor {s : Service} {r : Request} {p : Period} {user : String}
    (hasks : s.AsksFor r p user) {calls : List (ArchiveRoot × FileTree × Call)} {e : Edition}
    (hlookup : (Call.runAll calls Store.empty).2.lookup p = .found e) {text : String}
    (hget : e.metadata.data.get? user = some text) :
    let response := s.respond (Call.runAll calls Store.empty).2 r
    response.status = 200 ∧
      IsAt ["payload", Decimal.ofInt64 p, "data", user] (Text.encode text)
        (Text.encode response.body) := by
  obtain ⟨d, m, hsaid, hperiod, hdata, hraw⟩ := hasks.isSaidBy hlookup hget
  have hjson : ∀ p' m', d.periods.get? p' = some m' → m'.IsJson :=
    fun p' m' hm' => Store.isJson_of_rawOf (hraw p' m' hm')
  have hmembers : ∀ member ∈ [("ok", Value.bool (decide (200 = 200))), ("msg", .string d.note),
      ("payload", d.written)], member.2.IsWritten := by
    intro member hmember
    simp only [List.mem_cons, List.not_mem_nil, or_false] at hmember
    rcases hmember with rfl | rfl | rfl
    · exact Value.isWritten_bool _
    · exact Value.isWritten_string _
    · exact RawData.isWritten_written hjson
  refine ⟨hsaid.status, ?_⟩
  rw [hsaid.body]
  exact Value.isAt_object hmembers rfl (RawData.isAt_written hjson hperiod hdata)

/-- Every value is kept in the bytes in which it is written, however deep it is nested, and so is
what a description gives for a user, of several values the last one. Behind every run in which the
archive with this description is the last of its period, whoever may see it is answered with these
bytes, where the data of the user is to be found, and with no others. -/
theorem respond_verbatim {bytes : List UInt8} {m : Metadata} (h : Metadata.ofBytes bytes = .ok m) :
    (∀ (blanks : List UInt8) (text : String) (t : List UInt8), AreBlanks blanks →
      IsValue (Text.encode text) → Stops isNumeral t →
      Reader.verbatim (blanks ++ (Text.encode text ++ t)) = .ok text t) ∧
    ∃ entries, Metadata.Describes entries bytes ∧
      (∀ other, Metadata.Describes other bytes → other = entries) ∧
      Metadata.Keeps m.data entries ∧ (entries = [] → m.data = SortedMap.empty) ∧
      (∀ user value, lastOf? user entries = some value → AreTrimmed value) ∧
      ∀ (calls : List (ArchiveRoot × FileTree × Call)) (a : Attempt), a.IsLatest calls →
        a.OpensWith bytes → ∀ (s : Service) (r : Request) (user : String) (value : List UInt8),
        s.AsksFor r a.period user → lastOf? user entries = some value →
        let response := s.respond (Call.runAll calls Store.empty).2 r
        let path := ["payload", Decimal.ofInt64 a.period, "data", user]
        response.status = 200 ∧ IsAt path value (Text.encode response.body) ∧
          ∀ other, IsAt path other (Text.encode response.body) → other = value := by
  obtain ⟨entries, hdescribes, hkeeps⟩ := Metadata.ofBytes_sound h
  refine ⟨fun _ _ _ hblanks hvalue ht => Reader.verbatim_complete hblanks hvalue ht, entries,
    hdescribes, fun other hother => hother.unique hdescribes, hkeeps, ?_,
    fun user value hlast => (hdescribes.isValue hlast).areTrimmed, ?_⟩
  · rintro rfl
    exact SortedMap.ext_get? fun user => Option.map_eq_none_iff.mp (hkeeps user)
  · intro calls a hlatest hopens s r user value hasks hlast response path
    obtain ⟨issue, hresult⟩ := hlatest.exists_result
    have hmetadata := hopens.ofBytes_eq hresult
    rw [h] at hmetadata
    cases hmetadata
    obtain ⟨e, hlookup, hedition⟩ := Store.lookup_of_isLatest hlatest hresult
    obtain ⟨text, hget, rfl⟩ := Option.map_eq_some_iff.mp ((hkeeps user).trans hlast)
    rw [← hedition] at hget
    obtain ⟨hstatus, hat⟩ := isAt_of_asksFor hasks hlookup hget
    exact ⟨hstatus, hat, fun other hother => hother.unique hat⟩

/-- The last value that is given for alice below. -/
def nestedText : String := "[1, 2.0e1 ,\x7b\"x\":1,\"x\":[\"\\u0041\",[ [] ]]\x7d]"

/-- A description in which two values are given for alice. -/
def nestedDescription : String :=
  "\x7b\"started\":1, \"data\":\x7b\"alice\":0,\"bob\":\x7b\x7d, \"alice\" : " ++ nestedText ++
    " \x7d\x7d"

/-- An archive with this description and nothing else. -/
def nestedArchive : FileTree :=
  ⟨[(["a"], .directory), (["a", "1"], .directory),
    (["a", "1", "raw.json"], Store.textFile nestedDescription)], [], []⟩

/-- Alice is sent the last value, with its blanks, its numbers, its names and its escapes as they
are. -/
theorem respond_verbatim_nested :
    let root : ArchiveRoot := ⟨⟨"a"⟩, .directory⟩
    let s : Service := ⟨[], "x-user", 100⟩
    let r : Request := ⟨"POST", ⟨"/api/data", ""⟩, [⟨"x-user", Text.encode "alice@home"⟩],
      .bytes (Text.encode "[[1]]")⟩
    let response := s.respond (Call.runAll [(root, nestedArchive, .reload 1)] Store.empty).2 r
    response.status = 200 ∧
      IsAt ["payload", "1", "data", "alice"] (Text.encode nestedText)
        (Text.encode response.body) := by
  intro root s r response
  have hread : Metadata.ofBytes (Text.encode nestedDescription) =
      .ok ⟨1, 0, SortedMap.ofList [("alice", nestedText), ("bob", "\x7b\x7d")]⟩ :=
    eq_ok_of_toOption (by decide +kernel)
  obtain ⟨-, entries, -, -, hkeeps, -, -, hresponds⟩ := respond_verbatim hread
  have hlatest : (root.reloadAttempt nestedArchive 1).IsLatest [(root, nestedArchive, .reload 1)] :=
    ⟨[], [], rfl, by decide +kernel, fun b hb => absurd hb List.not_mem_nil⟩
  have hopen : Source.openAt .directory nestedArchive (root.archivePath 1) =
      .ok (.directory ⟨"a/1"⟩ ["raw.json"]) := eq_ok_of_toOption (by decide +kernel)
  have hentries : (Source.deliverFiles nestedArchive ⟨"a/1"⟩ ["raw.json"]).entries =
      [⟨metadataName, some (Text.encode nestedDescription)⟩] := by decide +kernel
  have hopens : (root.reloadAttempt nestedArchive 1).OpensWith (Text.encode nestedDescription) :=
    ⟨_, [], hopen, hentries⟩
  have hasks : s.AsksFor r 1 "alice" :=
    ⟨rfl, rfl, ⟨_, ⟨[1]⟩, rfl, by decide +kernel, eq_ok_of_toOption (by decide +kernel),
      List.mem_singleton.mpr rfl⟩, by decide +kernel⟩
  have hlast : lastOf? "alice" entries = some (Text.encode nestedText) := by
    rw [← hkeeps "alice"]
    rfl
  obtain ⟨hstatus, hat, -⟩ := hresponds _ _ hlatest hopens s r "alice" _ hasks hlast
  exact ⟨hstatus, hat⟩

end Service

end Bulletin
