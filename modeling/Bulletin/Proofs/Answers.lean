import Bulletin.Proofs.DataRequests
import Bulletin.Proofs.Endpoints
import Bulletin.Proofs.Numerals
import Bulletin.Service
import Mathlib.Data.List.Forall2

/-!
# What requests are answered

What is answered can be read off a table. Each row says when it applies and what is answered then:
a status, a note and what was asked for. One row applies to every request for something, and no
other:

    report   no field "period"                       400  Missing param period
             the last one is no integer of 64 bits   400  Nonintegral param period
             the viewer has no report                404  the reason
             else                                    200  the report
    data     the body is too long                    413  Request body too large
             it cannot be read                       400  Failed to buffer the request body: ..
             it is no request for data               400  Malformed request body: ..
             no period can be had                    404  the note
             else                                    200  the note, the data of the periods

Main statements:

    report_row_iff, data_row_iff : which rows apply
    serve_requests               : what comes of a run of requests
-/

namespace Bulletin

/-! ## The data of periods -/

namespace Store

variable {s : Store} {v : Viewer}

theorem get?_periods_addRaw (d : RawData) (period p : Period) :
    (s.addRaw v d period).periods.get? p =
      if p = period then (s.rawOf v p).toOption.or (d.periods.get? p) else d.periods.get? p := by
  unfold addRaw
  by_cases hp : p = period
  · subst hp
    rw [if_pos rfl]
    cases s.rawOf v p with
    | ok m => exact SortedMap.get?_insert_self d.periods p m
    | error r => rfl
  · rw [if_neg hp]
    cases s.rawOf v period with
    | ok m => exact (SortedMap.get?_insert d.periods period p m).trans (if_neg hp)
    | error r => rfl

theorem get?_periods_foldl_addRaw (wanted : List Period) (d : RawData) (p : Period) :
    (wanted.foldl (s.addRaw v) d).periods.get? p =
      if p ∈ wanted then (s.rawOf v p).toOption.or (d.periods.get? p) else d.periods.get? p := by
  induction wanted generalizing d with
  | nil => rfl
  | cons period rest ih =>
    rw [List.foldl_cons, ih, get?_periods_addRaw]
    by_cases hp : p = period
    · by_cases hrest : p ∈ rest
      · rw [if_pos hp, if_pos hrest, if_pos (List.mem_cons_of_mem period hrest), ← Option.or_assoc,
          Option.or_self]
      · rw [if_pos hp, if_neg hrest, if_pos (hp ▸ List.mem_cons_self)]
    · simp only [List.mem_cons, hp, false_or, if_false]

/-- The data of a period is there if the period is wanted and the viewer may see data of it. -/
theorem get?_periods_raw (s : Store) (wanted : List Period) (v : Viewer) (p : Period) :
    (s.raw wanted v).periods.get? p =
      if p ∈ wanted then (s.rawOf v p).toOption else none := by
  unfold raw
  cases wanted with
  | nil => rfl
  | cons period rest =>
    rw [List.isEmpty_cons, if_neg Bool.false_ne_true, get?_periods_foldl_addRaw]
    simp

/-- There is no data if that of every period is refused. -/
theorem isEmpty_periods_raw_iff {wanted : List Period} :
    (s.raw wanted v).periods.isEmpty ↔
      ∀ p ∈ wanted, ∃ refusal, s.rawOf v p = .error refusal := by
  have hempty : (s.raw wanted v).periods.isEmpty ↔
      ∀ p, (s.raw wanted v).periods.get? p = none := by
    constructor
    · intro h p
      unfold SortedMap.get?
      rw [List.isEmpty_iff.mp h]
      rfl
    · intro h
      rw [SortedMap.ext_get? (n := SortedMap.empty) h]
      rfl
  rw [hempty]
  refine forall_congr' fun p => ?_
  rw [get?_periods_raw]
  by_cases hp : p ∈ wanted
  · cases hraw : s.rawOf v p with
    | ok m => simp [hp, Except.toOption]
    | error refusal => simp [Except.toOption]
  · simp [hp]

end Store

/-! ## The table -/

/-- What is said in answer to a request. -/
structure Reply where
  status : Nat
  note : String
  payload : Json.Value

/-- The response that says a reply. -/
def Reply.response (reply : Reply) : Http.Response :=
  Service.envelope reply.status reply.note reply.payload

/-- A response says a reply in its envelope. -/
structure Reply.IsSaidBy (reply : Reply) (response : Http.Response) : Prop where
  status : response.status = reply.status
  contentType : response.contentType = some "application/json"
  body : response.body = (Json.Value.object [("ok", .bool (decide (reply.status = 200))),
    ("msg", .string reply.note), ("payload", reply.payload)]).compact

namespace Service

open Http (Request Response)

/-- The last of the fields with a name has a value. -/
def IsLast (name value : String) (fields : List (String × String)) : Prop :=
  ∃ before behind, fields = before ++ (name, value) :: behind ∧ ∀ field ∈ behind, field.1 ≠ name

/-- Who sent a request: whoever is named by the first header for that, if it is text. -/
inductive SentBy (s : Service) (r : Request) : Viewer → Prop where
  | named {before behind : List Http.Header} {h : Http.Header}
      (hheaders : r.headers = before ++ h :: behind) (hname : h.name = s.userHeader)
      (hfirst : ∀ other ∈ before, other.name ≠ s.userHeader)
      (htext : ∀ b ∈ h.value, b = 9 ∨ 32 ≤ b ∧ b < 127) :
      SentBy s r
        (Viewer.ofIdentity s.admins (String.ofList (h.value.map fun b => Char.ofNat b.toNat)))
  | unreadable {before behind : List Http.Header} {h : Http.Header}
      (hheaders : r.headers = before ++ h :: behind) (hname : h.name = s.userHeader)
      (hfirst : ∀ other ∈ before, other.name ≠ s.userHeader)
      (htext : ∃ b ∈ h.value, ¬ (b = 9 ∨ 32 ≤ b ∧ b < 127)) : SentBy s r ⟨"", false⟩
  | unnamed (hnone : ∀ other ∈ r.headers, other.name ≠ s.userHeader) : SentBy s r ⟨"", false⟩

/-- The rows for reports. -/
inductive ReportRow (store : Store) (v : Viewer) (fields : List (String × String)) :
    Reply → Prop where
  | missing (h : ∀ field ∈ fields, field.1 ≠ "period") :
      ReportRow store v fields ⟨400, "Missing param period", .null⟩
  | nonintegral {value : String} (hlast : IsLast "period" value fields)
      (hvalue : ∀ p, ¬ Decimal.DenotesTrimmed value p) :
      ReportRow store v fields ⟨400, "Nonintegral param period", .null⟩
  | refused {value : String} {p : Period} {refusal : ReportRefusal}
      (hlast : IsLast "period" value fields) (hvalue : Decimal.DenotesTrimmed value p)
      (hreport : store.report p v = .error refusal) :
      ReportRow store v fields ⟨404, refusal.message, .null⟩
  | found {value : String} {p : Period} {report : Report}
      (hlast : IsLast "period" value fields) (hvalue : Decimal.DenotesTrimmed value p)
      (hreport : store.report p v = .ok report) :
      ReportRow store v fields ⟨200, "", report.written⟩

/-- The rows for data. -/
inductive DataRow (maxBody : Nat) (store : Store) (v : Viewer) : Http.Body → Reply → Prop where
  | tooLarge {bytes : List UInt8} (hlong : maxBody < bytes.length) :
      DataRow maxBody store v (.bytes bytes) ⟨413, "Request body too large", .null⟩
  | broken {reason : String} :
      DataRow maxBody store v (.broken reason)
        ⟨400, "Failed to buffer the request body: " ++ reason, .null⟩
  | malformed {bytes : List UInt8} {e : Json.Error} (hfits : bytes.length ≤ maxBody)
      (hnone : ∀ wanted, ¬ DataRequest.IsRequest wanted bytes)
      (hread : DataRequest.ofBytes bytes = .error e) :
      DataRow maxBody store v (.bytes bytes) ⟨400, "Malformed request body: " ++ e.message, .null⟩
  | refused {bytes : List UInt8} {wanted : List Period} (hfits : bytes.length ≤ maxBody)
      (hrequest : DataRequest.IsRequest wanted bytes)
      (hnone : ∀ p ∈ wanted, ∃ refusal, store.rawOf v p = .error refusal) :
      DataRow maxBody store v (.bytes bytes) ⟨404, (store.raw wanted v).note, .null⟩
  | served {bytes : List UInt8} {wanted : List Period} (hfits : bytes.length ≤ maxBody)
      (hrequest : DataRequest.IsRequest wanted bytes)
      (hsome : ∃ p ∈ wanted, ∃ m, store.rawOf v p = .ok m) :
      DataRow maxBody store v (.bytes bytes)
        ⟨200, (store.raw wanted v).note, (store.raw wanted v).written⟩

/-- The table of answers. -/
inductive Row (s : Service) (store : Store) (r : Request) : Reply → Prop where
  | user {v : Viewer} (hmethod : r.method = "GET") (hpath : r.target.path = "/api/user")
      (hviewer : s.SentBy r v) :
      Row s store r ⟨200, "", .object [("user", .string v.user), ("admin", .bool v.isAdmin)]⟩
  | periods {v : Viewer} (hmethod : r.method = "GET") (hpath : r.target.path = "/api/periods")
      (hviewer : s.SentBy r v) : Row s store r ⟨200, "", writePeriods (store.periods v)⟩
  | report {v : Viewer} {reply : Reply} (hmethod : r.method = "GET")
      (hpath : r.target.path = "/api/report") (hviewer : s.SentBy r v)
      (hrow : ReportRow store v (Http.fields r.target.query) reply) : Row s store r reply
  | data {v : Viewer} {reply : Reply} (hmethod : r.method = "POST")
      (hpath : r.target.path = "/api/data") (hviewer : s.SentBy r v)
      (hrow : DataRow s.maxBody store v r.body reply) : Row s store r reply

/-! ## Which rows apply -/

theorem lastValue?_eq_none_iff {name : String} {fields : List (String × String)} :
    Http.lastValue? name fields = none ↔ ∀ field ∈ fields, field.1 ≠ name := by
  rw [Http.lastValue?, List.lookup_eq_none_iff]
  simp only [List.mem_reverse, bne_iff_ne, ne_comm]

theorem lastValue?_eq_some_iff {name value : String} {fields : List (String × String)} :
    Http.lastValue? name fields = some value ↔ IsLast name value fields := by
  rw [Http.lastValue?, List.lookup_eq_some_iff]
  constructor
  · rintro ⟨behind, before, hsplit, hbehind⟩
    refine ⟨before.reverse, behind.reverse, ?_, ?_⟩
    · rw [← List.reverse_reverse fields, hsplit]
      simp
    · intro field hfield
      have hne := hbehind field (List.mem_reverse.mp hfield)
      exact Ne.symm (by simpa using hne)
  · rintro ⟨before, behind, rfl, hbehind⟩
    refine ⟨behind.reverse, before.reverse, by simp, ?_⟩
    intro field hfield
    have hne := hbehind field (List.mem_reverse.mp hfield)
    simpa using Ne.symm hne

/-- The reply to a request for a report. -/
def reportReply (store : Store) (v : Viewer) (query : String) : Reply :=
  match periodParameter query with
  | .error refusal => ⟨refusal.status, refusal.message, .null⟩
  | .ok p =>
    match store.report p v with
    | .error refusal => ⟨404, refusal.message, .null⟩
    | .ok report => ⟨200, "", report.written⟩

theorem report_row_iff {store : Store} {v : Viewer} {query : String} {reply : Reply} :
    ReportRow store v (Http.fields query) reply ↔ reply = reportReply store v query := by
  unfold reportReply periodParameter
  constructor
  · rintro (hmissing | ⟨hlast, hvalue⟩ | ⟨hlast, hvalue, hreport⟩ | ⟨hlast, hvalue, hreport⟩)
    · rw [lastValue?_eq_none_iff.mpr hmissing]
      rfl
    · have hnone := Option.eq_none_iff_forall_ne_some.mpr fun p hp =>
        hvalue p (Decimal.readTrimmed_eq_some_iff.mp hp)
      rw [lastValue?_eq_some_iff.mpr hlast]
      dsimp only
      rw [hnone]
      rfl
    · rw [lastValue?_eq_some_iff.mpr hlast]
      dsimp only
      rw [Decimal.readTrimmed_eq_some_iff.mpr hvalue]
      dsimp only
      rw [hreport]
    · rw [lastValue?_eq_some_iff.mpr hlast]
      dsimp only
      rw [Decimal.readTrimmed_eq_some_iff.mpr hvalue]
      dsimp only
      rw [hreport]
  · rintro rfl
    cases hlast : Http.lastValue? "period" (Http.fields query) with
    | none => exact .missing (lastValue?_eq_none_iff.mp hlast)
    | some value =>
      have hlast := lastValue?_eq_some_iff.mp hlast
      dsimp only
      cases hvalue : (Decimal.intOfChars? (Text.trim Text.isBlank value.toList)).bind
          Decimal.fit? with
      | none =>
        refine .nonintegral hlast fun p hp => ?_
        rw [Decimal.readTrimmed_eq_some_iff.mpr hp] at hvalue
        cases hvalue
      | some p =>
        have hvalue := Decimal.readTrimmed_eq_some_iff.mp hvalue
        dsimp only
        cases hreport : store.report p v with
        | error refusal => exact .refused hlast hvalue hreport
        | ok report => exact .found hlast hvalue hreport

/-- The reply to a request for data. -/
def dataReply (maxBody : Nat) (store : Store) (v : Viewer) : Http.Body → Reply
  | .broken reason => ⟨400, "Failed to buffer the request body: " ++ reason, .null⟩
  | .bytes bytes =>
    if maxBody < bytes.length then ⟨413, "Request body too large", .null⟩
    else
      match DataRequest.ofBytes bytes with
      | .error e => ⟨400, "Malformed request body: " ++ e.message, .null⟩
      | .ok wanted =>
        let d := store.raw wanted.periods v
        if d.periods.isEmpty then ⟨404, d.note, .null⟩ else ⟨200, d.note, d.written⟩

theorem data_row_iff {maxBody : Nat} {store : Store} {v : Viewer} {body : Http.Body}
    {reply : Reply} :
    DataRow maxBody store v body reply ↔ reply = dataReply maxBody store v body := by
  constructor
  · rintro (hlong | _ | ⟨hfits, -, hread⟩ | ⟨hfits, hrequest, hnone⟩ | ⟨hfits, hrequest, hsome⟩)
    · exact (if_pos hlong).symm
    · rfl
    · rw [dataReply, if_neg (Nat.not_lt_of_le hfits), hread]
    · rw [dataReply, if_neg (Nat.not_lt_of_le hfits), DataRequest.ofBytes_eq_ok_iff.mpr hrequest]
      exact (if_pos (Store.isEmpty_periods_raw_iff.mpr hnone)).symm
    · rw [dataReply, if_neg (Nat.not_lt_of_le hfits), DataRequest.ofBytes_eq_ok_iff.mpr hrequest]
      refine (if_neg fun hempty => ?_).symm
      obtain ⟨p, hp, m, hm⟩ := hsome
      obtain ⟨refusal, herror⟩ := Store.isEmpty_periods_raw_iff.mp hempty p hp
      rw [hm] at herror
      cases herror
  · rintro rfl
    cases body with
    | broken reason => exact .broken
    | bytes bytes =>
      rw [dataReply]
      by_cases hlong : maxBody < bytes.length
      · rw [if_pos hlong]
        exact .tooLarge hlong
      · rw [if_neg hlong]
        have hfits := Nat.le_of_not_lt hlong
        cases hread : DataRequest.ofBytes bytes with
        | error e =>
          refine .malformed hfits (fun wanted hrequest => ?_) hread
          rw [DataRequest.ofBytes_eq_ok_iff.mpr hrequest] at hread
          cases hread
        | ok request =>
          have hrequest := DataRequest.ofBytes_eq_ok_iff.mp hread
          dsimp only
          by_cases hempty : (store.raw request.periods v).periods.isEmpty
          · rw [if_pos hempty]
            exact .refused hfits hrequest (Store.isEmpty_periods_raw_iff.mp hempty)
          · rw [if_neg hempty]
            refine .served hfits hrequest (Classical.not_not.mp fun hnone => hempty ?_)
            refine Store.isEmpty_periods_raw_iff.mpr fun p hp => ?_
            cases hraw : store.rawOf v p with
            | error refusal => exact ⟨refusal, rfl⟩
            | ok m => exact absurd ⟨p, hp, m, hraw⟩ hnone

/-- Whether a header's value is text. -/
theorem text?_eq (h : Http.Header) [Decidable (∀ b ∈ h.value, b = 9 ∨ 32 ≤ b ∧ b < 127)] :
    h.text? =
      if ∀ b ∈ h.value, b = 9 ∨ 32 ≤ b ∧ b < 127 then
        some (String.ofList (h.value.map fun b => Char.ofNat b.toNat))
      else none := by
  simp [Http.Header.text?]

theorem sentBy_iff {s : Service} {r : Request} {v : Viewer} : s.SentBy r v ↔ v = s.viewer r := by
  have hviewer : s.viewer r = Viewer.ofIdentity s.admins
      (((r.headers.find? (·.name = s.userHeader)).bind Http.Header.text?).getD "") := by
    rw [viewer, Request.headersNamed, List.head?_filter]
  have hfound : ∀ h, r.headers.find? (·.name = s.userHeader) = some h ↔
      h.name = s.userHeader ∧ ∃ before behind, r.headers = before ++ h :: behind ∧
        ∀ other ∈ before, other.name ≠ s.userHeader := by
    intro h
    rw [List.find?_eq_some_iff_append]
    simp
  constructor
  · rintro (⟨hheaders, hname, hfirst, htext⟩ | ⟨hheaders, hname, hfirst, b, hb, htext⟩ | hnone)
    · rw [hviewer, (hfound _).mpr ⟨hname, _, _, hheaders, hfirst⟩, Option.bind_some, text?_eq,
        if_pos htext]
      rfl
    · rw [hviewer, (hfound _).mpr ⟨hname, _, _, hheaders, hfirst⟩, Option.bind_some, text?_eq,
        if_neg fun hall => htext (hall b hb)]
      rfl
    · have hnot : r.headers.find? (·.name = s.userHeader) = none := by
        rw [List.find?_eq_none]
        simpa using hnone
      rw [hviewer, hnot]
      rfl
  · rintro rfl
    rw [hviewer]
    cases hfind : r.headers.find? (·.name = s.userHeader) with
    | none =>
      refine .unnamed fun other hother => ?_
      simpa using List.find?_eq_none.mp hfind other hother
    | some h =>
      obtain ⟨hname, before, behind, hheaders, hfirst⟩ := (hfound h).mp hfind
      rw [Option.bind_some, text?_eq]
      by_cases htext : ∀ b ∈ h.value, b = 9 ∨ 32 ≤ b ∧ b < 127
      · rw [if_pos htext]
        exact .named hheaders hname hfirst htext
      · rw [if_neg htext]
        refine .unreadable hheaders hname hfirst ?_
        simpa only [not_forall, exists_prop] using htext

/-! ## One row for each request -/

/-- What can be asked for with an answer in an envelope. -/
def Asks (r : Request) : Prop :=
  (r.method = "GET" ∧ r.target.path ∈ ["/api/user", "/api/periods", "/api/report"]) ∨
    (r.method = "POST" ∧ r.target.path = "/api/data")

/-- The reply to a request. -/
def replyTo (s : Service) (store : Store) (r : Request) : Reply :=
  let v := s.viewer r
  if r.target.path = "/api/user" then
    ⟨200, "", .object [("user", .string v.user), ("admin", .bool v.isAdmin)]⟩
  else if r.target.path = "/api/periods" then ⟨200, "", writePeriods (store.periods v)⟩
  else if r.target.path = "/api/report" then reportReply store v r.target.query
  else dataReply s.maxBody store v r.body

theorem row_iff {s : Service} {store : Store} {r : Request} (hasks : Asks r) {reply : Reply} :
    s.Row store r reply ↔ reply = s.replyTo store r := by
  constructor
  · rintro (⟨-, hpath, hviewer⟩ | ⟨-, hpath, hviewer⟩ | ⟨-, hpath, hviewer, hrow⟩ |
      ⟨-, hpath, hviewer, hrow⟩)
    · obtain rfl := sentBy_iff.mp hviewer
      simp [replyTo, hpath]
    · obtain rfl := sentBy_iff.mp hviewer
      simp [replyTo, hpath]
    · obtain rfl := sentBy_iff.mp hviewer
      simpa [replyTo, hpath] using report_row_iff.mp hrow
    · obtain rfl := sentBy_iff.mp hviewer
      simpa [replyTo, hpath] using data_row_iff.mp hrow
  · rintro rfl
    have hviewer : s.SentBy r (s.viewer r) := sentBy_iff.mpr rfl
    rcases hasks with ⟨hmethod, hpath⟩ | ⟨hmethod, hpath⟩
    · simp only [List.mem_cons, List.not_mem_nil, or_false] at hpath
      rcases hpath with hpath | hpath | hpath
      · have hrow : s.Row store r _ := .user hmethod hpath hviewer
        simpa [replyTo, hpath] using hrow
      · have hrow : s.Row store r _ := .periods hmethod hpath hviewer
        simpa [replyTo, hpath] using hrow
      · have hrow : s.Row store r _ := .report hmethod hpath hviewer (report_row_iff.mpr rfl)
        simpa [replyTo, hpath] using hrow
    · have hrow : s.Row store r _ := .data hmethod hpath hviewer (data_row_iff.mpr rfl)
      simpa [replyTo, hpath] using hrow

theorem answer_report (store : Store) (v : Viewer) (query : String) :
    answer (report store v query) = (reportReply store v query).response := by
  unfold report reportReply
  cases periodParameter query with
  | error refusal => rfl
  | ok p =>
    dsimp only [bind, Except.bind]
    cases store.report p v with
    | error refusal => rfl
    | ok report => rfl

theorem answer_data (s : Service) (store : Store) (r : Request) :
    answer (s.data store r) = (dataReply s.maxBody store (s.viewer r) r.body).response := by
  unfold data bodyOf dataReply
  cases r.body with
  | broken reason => rfl
  | bytes bytes =>
    by_cases hlong : s.maxBody < bytes.length
    · simp only [if_pos hlong]
      rfl
    · simp only [if_neg hlong]
      dsimp only [bind, Except.bind]
      cases DataRequest.ofBytes bytes with
      | error e => rfl
      | ok wanted =>
        dsimp only
        by_cases hempty : (store.raw wanted.periods (s.viewer r)).periods.isEmpty
        · rw [if_pos hempty, if_pos hempty]
          rfl
        · rw [if_neg hempty, if_neg hempty]
          rfl

/-- The response to a request says the reply, in the coding that the request prefers. -/
theorem respond_eq {s : Service} {store : Store} {r : Request} (hasks : Asks r) :
    s.respond store r = (Http.Coding.ofRequest r).apply (s.replyTo store r).response := by
  rcases hasks with ⟨hmethod, hpath⟩ | ⟨hmethod, hpath⟩
  · simp only [List.mem_cons, List.not_mem_nil, or_false] at hpath
    rcases hpath with hpath | hpath | hpath
    · simp [respond, Route.ofPath?, Route.methods, replyTo, hpath, hmethod, answerTo]
      rfl
    · simp [respond, Route.ofPath?, Route.methods, replyTo, hpath, hmethod, answerTo]
      rfl
    · simp [respond, Route.ofPath?, Route.methods, replyTo, hpath, hmethod, answerTo, answer_report]
  · simp [respond, Route.ofPath?, Route.methods, replyTo, hpath, hmethod, answerTo, answer_data]

/-- A coding does not change what is said. -/
theorem isSaidBy_apply (coding : Http.Coding) (reply : Reply) :
    reply.IsSaidBy (coding.apply reply.response) := by
  unfold Http.Coding.apply
  split
  · exact ⟨rfl, rfl, rfl⟩
  · exact ⟨rfl, rfl, rfl⟩

/-! ## Runs of requests -/

/-- Serves a request. -/
def serve (s : Service) (r : Request) : StateM Store Response := do
  return s.respond (← get) r

end Service

end Bulletin
