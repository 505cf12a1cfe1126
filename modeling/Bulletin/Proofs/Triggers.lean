import Bulletin.Proofs.Refusal
import Bulletin.Proofs.Removal

/-!
# Files that ask for reloads

What a run of events comes to, told without the program: the files that have been created are gone
through, one after the other. A file in the root whose name is that of an archive, followed by
`.renew`, is handled if that archive is there: the archive is loaded again, as the files are then,
and the file is removed. Any other file is passed over.

    Asks                 : a file asks for a period, and its archive is there
    Handles              : the files are gone through, and these are handled
    Handles.find?_files  : only what has been handled is removed
    follow_eq_of_handles : to follow events is to go through the files they say have been created
-/

namespace Bulletin

/-! ## What a file asks for -/

/-- Two paths lead to the same place. If it cannot be told where both of them lead, they have the
same parts. -/
def FileTree.SamePlace (t : FileTree) (p q : Path) : Prop :=
  (∃ l, t.locate true p = .ok l ∧ t.locate true q = .ok l) ∨
    (((∃ e, t.locate true p = .error e) ∨ ∃ e, t.locate true q = .error e) ∧ p.parts = q.parts)

namespace ArchiveRoot

/-- A file asks for a period to be loaded again, and that period's archive is there. -/
structure Asks (r : ArchiveRoot) (t : FileTree) (trigger : Path) (period : Period) : Prop where
  /-- The file is named for the archive. -/
  name : ∃ name archive, trigger.fileName? = some name ∧ name.text = archive ++ triggerSuffix ∧
    r.layout.periodOf? archive = some period
  /-- The file is in the root. -/
  place : ∃ parent, trigger.parent? = some parent ∧ t.SamePlace parent r.path
  archive : t.exists? (r.archivePath period)

variable {r : ArchiveRoot} {t : FileTree} {trigger : Path} {period : Period}

theorem requested?_eq_some_iff {archive : String} :
    requested? trigger = some archive ↔
      ∃ name, trigger.fileName? = some name ∧ name.text = archive ++ triggerSuffix := by
  unfold requested?
  rw [Option.bind_eq_some_iff]
  simp only [Text.map_beforeTail?_eq_some_iff]

theorem isUnder_iff :
    r.isUnder t trigger ↔
      ∃ parent, trigger.parent? = some parent ∧ t.SamePlace parent r.path := by
  unfold isUnder FileTree.SamePlace
  cases trigger.parent? with
  | none => simp
  | some parent =>
    simp only [Option.some.injEq, exists_eq_left']
    have hsame : parent.same r.path ↔ parent.parts = r.path.parts := beq_iff_eq
    -- where the paths lead is left alone, or else it would be computed
    generalize t.locate true parent = place
    generalize t.locate true r.path = root
    cases place with
    | error e => simp [hsame]
    | ok l =>
      cases root with
      | error e => simp [hsame]
      | ok l' => simp [eq_comm (a := l')]

theorem asked?_eq_some_iff : r.asked? t trigger = some period ↔ r.Asks t trigger period := by
  unfold asked?
  constructor
  · intro h
    obtain ⟨archive, hrequested, hrest⟩ := Option.bind_eq_some_iff.mp h
    by_cases hunder : r.isUnder t trigger
    · rw [if_pos hunder] at hrest
      obtain ⟨hperiod, hexists⟩ := Option.filter_eq_some_iff.mp hrest
      obtain ⟨name, hname, htext⟩ := requested?_eq_some_iff.mp hrequested
      exact ⟨⟨name, archive, hname, htext, hperiod⟩, isUnder_iff.mp hunder, hexists⟩
    · rw [if_neg hunder] at hrest
      cases hrest
  · rintro ⟨⟨name, archive, hname, htext, hperiod⟩, hplace, hexists⟩
    refine Option.bind_eq_some_iff.mpr
      ⟨archive, requested?_eq_some_iff.mpr ⟨name, hname, htext⟩, ?_⟩
    rw [if_pos (isUnder_iff.mpr hplace)]
    exact Option.filter_eq_some_iff.mpr ⟨hperiod, hexists⟩

/-! ## One file -/

theorem site_handleTrigger_of_asks {site : Site} (h : r.Asks site.files trigger period) :
    ((r.handleTrigger trigger).run.run site).2 =
      ⟨site.files.unlink trigger, ((r.reload site.files period).run.run site.store).2⟩ := by
  have hrun := r.run_handleTrigger trigger site
  rw [asked?_eq_some_iff.mpr h] at hrun
  rw [hrun, run_reload]

theorem site_handleTrigger_of_not_asks {site : Site}
    (h : ∀ period, ¬ r.Asks site.files trigger period) :
    ((r.handleTrigger trigger).run.run site).2 = site := by
  have hrun := r.run_handleTrigger trigger site
  have hasked : r.asked? site.files trigger = none := by
    rw [Option.eq_none_iff_forall_ne_some]
    intro period hperiod
    exact h period (asked?_eq_some_iff.mp hperiod)
  rw [hasked] at hrun
  obtain ⟨result, -, hsame⟩ := hrun
  rw [hsame]

/-! ## One file after the other -/

/-- A file that is handled, with the files as they are then and the period that it asks for. -/
structure Handling where
  files : FileTree
  trigger : Path
  period : Period
  deriving DecidableEq, Repr, Inhabited

/-- Paths are gone through one after the other, and these are handled. -/
inductive Handles (r : ArchiveRoot) : Site → List Path → List Handling → Site → Prop
  | done (site : Site) : Handles r site [] [] site
  /-- The archive is loaded again, and the file is removed. -/
  | loaded {site site' : Site} {store : Store} {trigger : Path} {period : Period}
      {rest : List Path} {handled : List Handling}
      (asks : r.Asks site.files trigger period)
      (reload : (r.reload site.files period).run.run site.store = (.ok (), store))
      (later : Handles r ⟨site.files.unlink trigger, store⟩ rest handled site') :
      Handles r site (trigger :: rest) (⟨site.files, trigger, period⟩ :: handled) site'
  /-- The archive is refused, and the file is removed all the same. -/
  | refused {site site' : Site} {e : ArchiveError} {store : Store} {trigger : Path}
      {period : Period} {rest : List Path} {handled : List Handling}
      (asks : r.Asks site.files trigger period)
      (reload : (r.reload site.files period).run.run site.store = (.error e, store))
      (later : Handles r ⟨site.files.unlink trigger, site.store⟩ rest handled site') :
      Handles r site (trigger :: rest) (⟨site.files, trigger, period⟩ :: handled) site'
  /-- The path asks for nothing that is there, and is passed over. -/
  | passed {site site' : Site} {trigger : Path} {rest : List Path} {handled : List Handling}
      (asks : ∀ period, ¬ r.Asks site.files trigger period)
      (later : Handles r site rest handled site') :
      Handles r site (trigger :: rest) handled site'

theorem site_handleAll_cons (r : ArchiveRoot) (trigger : Path) (rest : List Path) (site : Site) :
    ((r.handleAll (trigger :: rest)).run site).2 =
      ((r.handleAll rest).run ((r.handleTrigger trigger).run.run site).2).2 := rfl

/-- The files can be gone through, which leads to what handling all of them leads to. -/
theorem exists_handles (r : ArchiveRoot) (paths : List Path) (site : Site) :
    ∃ handled, r.Handles site paths handled ((r.handleAll paths).run site).2 := by
  induction paths generalizing site with
  | nil => exact ⟨[], .done site⟩
  | cons trigger rest ih =>
    rw [site_handleAll_cons]
    by_cases hany : ∃ period, r.Asks site.files trigger period
    · obtain ⟨period, hasks⟩ := hany
      rw [site_handleTrigger_of_asks hasks]
      cases hreload : (r.reload site.files period).run.run site.store with
      | mk result store =>
        obtain ⟨handled, hrest⟩ := ih ⟨site.files.unlink trigger, store⟩
        cases result with
        | ok done => exact ⟨⟨site.files, trigger, period⟩ :: handled, .loaded hasks hreload hrest⟩
        | error e =>
          -- whatever the program goes on with, it is the store from before
          obtain rfl : store = site.store := store_eq_of_reload_error hreload
          exact ⟨⟨site.files, trigger, period⟩ :: handled, .refused hasks hreload hrest⟩
    · have hnone : ∀ period, ¬ r.Asks site.files trigger period :=
        fun period hasks => hany ⟨period, hasks⟩
      rw [site_handleTrigger_of_not_asks hnone]
      obtain ⟨handled, hrest⟩ := ih site
      exact ⟨handled, .passed hnone hrest⟩

/-- There is one site only that going through the files leads to. -/
theorem Handles.eq_handleAll {site site' : Site} {paths : List Path} {handled : List Handling}
    (h : r.Handles site paths handled site') : site' = ((r.handleAll paths).run site).2 := by
  induction h with
  | done site => rfl
  | loaded asks reload later ih =>
    rw [site_handleAll_cons, site_handleTrigger_of_asks asks, reload]
    exact ih
  | refused asks reload later ih =>
    have hstore := store_eq_of_reload_error reload
    rw [site_handleAll_cons, site_handleTrigger_of_asks asks, reload, hstore]
    exact ih
  | passed asks later ih =>
    rw [site_handleAll_cons, site_handleTrigger_of_not_asks asks]
    exact ih

/-- Going through files publishes archives, which leaves the phase. -/
theorem Handles.phase_store {site site' : Site} {paths : List Path} {handled : List Handling}
    (h : r.Handles site paths handled site') : site'.store.phase = site.store.phase := by
  rw [h.eq_handleAll, run_handleAll]
  exact Store.phase_publishAll _ _

open Classical in
theorem find?_of_find?_unlink (hground : t.IsGrounded) {t' : FileTree} {handled : List Handling}
    {l : Location}
    (h : t'.find? l =
      if ∃ x ∈ handled, x.files.Removes x.trigger l then none else (t.unlink trigger).find? l) :
    t'.find? l =
      if ∃ x ∈ (⟨t, trigger, period⟩ : Handling) :: handled, x.files.Removes x.trigger l then none
      else t.find? l := by
  rw [h, hground.find?_unlink]
  by_cases hremoves : t.Removes trigger l
  · rw [if_pos hremoves, ite_self, if_pos ⟨_, List.mem_cons_self, hremoves⟩]
  · have hlater : (∃ x ∈ (⟨t, trigger, period⟩ : Handling) :: handled,
        x.files.Removes x.trigger l) ↔ ∃ x ∈ handled, x.files.Removes x.trigger l := by
      rw [List.exists_mem_cons_iff]
      exact or_iff_right hremoves
    rw [if_neg hremoves]
    exact if_congr hlater.symm rfl rfl

open Classical in
/-- Only files that are handled are removed, and nothing else is touched. -/
theorem Handles.find?_files {site site' : Site} {paths : List Path} {handled : List Handling}
    (h : r.Handles site paths handled site') (hground : site.files.IsGrounded) (l : Location) :
    site'.files.find? l =
      if ∃ x ∈ handled, x.files.Removes x.trigger l then none else site.files.find? l := by
  induction h with
  | done site => simp
  | loaded asks reload later ih => exact find?_of_find?_unlink hground (ih (hground.unlink _))
  | refused asks reload later ih => exact find?_of_find?_unlink hground (ih (hground.unlink _))
  | passed asks later ih => exact ih hground

/-! ## A run of events -/

open Classical in
/-- To follow events is to go through the files that they say have been created, which is possible
and leads to one site only. The phase of the store stays, and whatever is not a file that has been
handled stays where it is and as it is. -/
theorem follow_eq_of_handles (r : ArchiveRoot) (events : List FileEvent) (site : Site) :
    let site' := ((r.follow events).run site).2
    let created := events.flatMap FileEvent.newPaths
    (∀ site'', (∃ handled, r.Handles site created handled site'') ↔ site'' = site') ∧
      site'.store.phase = site.store.phase ∧
      (site.files.IsGrounded → ∀ handled, r.Handles site created handled site' →
        ∀ l, site'.files.find? l =
          if ∃ x ∈ handled, x.files.Removes x.trigger l then none else site.files.find? l) := by
  intro site' created
  have hfollow : site' = ((r.handleAll created).run site).2 := by
    show ((r.follow events).run site).2 = _
    rw [follow_eq_handleAll]
  obtain ⟨handled, hhandles⟩ := r.exists_handles created site
  rw [← hfollow] at hhandles
  refine ⟨?_, hhandles.phase_store, ?_⟩
  · intro site''
    constructor
    · rintro ⟨handled', h⟩
      rw [h.eq_handleAll, hfollow]
    · rintro rfl
      exact ⟨handled, hhandles⟩
  · intro hground handled' h l
    exact h.find?_files hground l

/-- The archive of the first period, and files that ask for those of the first and the second. -/
def twoTriggers : FileTree :=
  ⟨[(["srv"], .directory), (["srv", "1"], .directory),
    (["srv", "1", "raw.json"],
      .file "\x7b\"started\":1,\"updated\":2,\"data\":\x7b\x7d\x7d".toUTF8.toList),
    (["srv", "1.renew"], .file []), (["srv", "2.renew"], .file [])], [], []⟩

/-- The same, where nothing may be removed. -/
def keptTriggers : FileTree := { twoTriggers with denied := [(["srv"], .change)] }

/-- The first period is loaded again, and only the file that asks for it is removed. Where the root
may not be changed that file stays as well. -/
theorem follow_eq_of_handles_twoTriggers :
    let r : ArchiveRoot := ⟨⟨"/srv"⟩, .directory⟩
    let site : Site := ⟨twoTriggers, Store.empty⟩
    let events : List FileEvent :=
      [.other [⟨"/srv/1.renew"⟩], .created [⟨"/srv/1.renew"⟩], .fault, .created [⟨"/srv/2.renew"⟩]]
    let handled : List Handling := [⟨twoTriggers, ⟨"/srv/1.renew"⟩, 1⟩]
    let site' := ((r.follow events).run site).2
    site.files.IsGrounded ∧ r.Handles site [⟨"/srv/1.renew"⟩, ⟨"/srv/2.renew"⟩] handled site' ∧
      site'.store.phase = .cold ∧ site'.files.find? ["srv", "1.renew"] = none ∧
      site'.files.find? ["srv", "2.renew"] = some (.file []) ∧ keptTriggers.IsGrounded ∧
      ((r.follow [.created [⟨"/srv/1.renew"⟩]]).run ⟨keptTriggers, Store.empty⟩).2.files.find?
        ["srv", "1.renew"] = some (.file []) := by
  intro r site events handled
  dsimp only
  have hreload (t : FileTree) (h : ((r.reload t 1).run.run Store.empty).1.toOption = some ()) :
      (r.reload t 1).run.run Store.empty = (.ok (), ((r.reload t 1).run.run Store.empty).2) :=
    Prod.ext (eq_ok_of_toOption h) rfl
  obtain ⟨hsites, hphase, hfiles⟩ := follow_eq_of_handles r events site
  have hground : site.files.IsGrounded := by decide
  have hasks : r.Asks site.files ⟨"/srv/1.renew"⟩ 1 := asked?_eq_some_iff.mp (by decide +kernel)
  have hnot : ∀ period, ¬ r.Asks (site.files.unlink ⟨"/srv/1.renew"⟩) ⟨"/srv/2.renew"⟩ period := by
    intro period h
    have hnone : r.asked? (site.files.unlink ⟨"/srv/1.renew"⟩) ⟨"/srv/2.renew"⟩ = none := by
      decide +kernel
    rw [asked?_eq_some_iff.mpr h] at hnone
    cases hnone
  have hgone := Handles.loaded hasks (hreload site.files (by decide +kernel))
    (.passed hnot (.done _))
  have hsame := (hsites _).mp ⟨_, hgone⟩
  rw [hsame] at hgone
  have hremoves : twoTriggers.Removes ⟨"/srv/1.renew"⟩ ["srv", "1.renew"] :=
    ⟨by decide +kernel, .inl ⟨[], by decide +kernel⟩, by decide⟩
  obtain ⟨hclosed, -, hkept⟩ :=
    follow_eq_of_handles r [.created [⟨"/srv/1.renew"⟩]] ⟨keptTriggers, Store.empty⟩
  have hground' : keptTriggers.IsGrounded := by decide
  have hasks' : r.Asks keptTriggers ⟨"/srv/1.renew"⟩ 1 := asked?_eq_some_iff.mp (by decide +kernel)
  have hstuck : r.Handles ⟨keptTriggers, Store.empty⟩ [⟨"/srv/1.renew"⟩]
      [⟨keptTriggers, ⟨"/srv/1.renew"⟩, 1⟩] _ :=
    .loaded hasks' (hreload keptTriggers (by decide +kernel)) (.done _)
  rw [(hclosed _).mp ⟨_, hstuck⟩] at hstuck
  refine ⟨hground, hgone, hphase, ?_, ?_, hground', ?_⟩
  · have hfind := hfiles hground handled hgone ["srv", "1.renew"]
    rw [if_pos ⟨_, List.mem_cons_self, hremoves⟩] at hfind
    exact hfind
  · have hfind := hfiles hground handled hgone ["srv", "2.renew"]
    have hstays : ¬ ∃ x ∈ handled, x.files.Removes x.trigger ["srv", "2.renew"] := by
      rintro ⟨x, hx, hother⟩
      rw [List.mem_singleton.mp hx] at hother
      exact absurd (hremoves.unique hother) (by decide)
    rw [if_neg hstays] at hfind
    exact hfind
  · have hfind := hkept hground' _ hstuck ["srv", "1.renew"]
    have hstays : ¬ ∃ x ∈ [(⟨keptTriggers, ⟨"/srv/1.renew"⟩, 1⟩ : Handling)],
        x.files.Removes x.trigger ["srv", "1.renew"] := by
      rintro ⟨x, hx, hremoved⟩
      rw [List.mem_singleton.mp hx] at hremoved
      exact absurd hremoved.permitted (by decide)
    rw [if_neg hstays] at hfind
    exact hfind

end ArchiveRoot

end Bulletin
