import Bulletin.Proofs.Loading

/-!
# Runs of the loader

The store is changed by four calls and by nothing else. A run is a list of them; each call has its
own root and finds its own files, so that anything may have happened to the files between two calls.

    Call.run       : one call, on the store, with its answer
    Call.runAll    : a run
    Call.store_run : a call comes to the archives that it attempts to ingest
    runAll_reloads : what it comes to when periods are loaded again
-/

namespace Bulletin

/-- What can be asked of the loader. -/
inductive Call where
  | loadAll
  | reload (period : Period)
  | handleTrigger (trigger : Path)
  | follow (events : List FileEvent)
  deriving DecidableEq, Repr, Inhabited

/-- What the loader answers. -/
inductive Answer where
  | loaded (result : Except LoadError LoadSummary)
  | reloaded (result : Except ArchiveError Unit)
  | handled (result : Except ArchiveError (Option Period))
  | followed
  deriving Inhabited

/-- The answer to a call for a reload that has not failed. -/
def Answer.isReloaded : Answer → Bool
  | .reloaded result => result.isOk
  | _ => false

/-- The answer to a call for a complete load that has not failed. -/
def Answer.IsCompleteLoad (a : Answer) : Prop := ∃ summary, a = .loaded (.ok summary)

namespace Call

/-- Carries out a call. -/
def run (r : ArchiveRoot) (t : FileTree) (c : Call) (s : Store) : Answer × Store :=
  match c with
  | loadAll =>
    let (result, s') := (r.loadAll t).run.run s
    (.loaded result, s')
  | reload period =>
    let (result, s') := (r.reload t period).run.run s
    (.reloaded result, s')
  | handleTrigger trigger =>
    let (result, site) := (r.handleTrigger trigger).run.run ⟨t, s⟩
    (.handled result, site.store)
  | follow events =>
    let (_, site) := (r.follow events).run ⟨t, s⟩
    (.followed, site.store)

/-- Carries out calls, one after the other. -/
def runAll : List (ArchiveRoot × FileTree × Call) → Store → List Answer × Store
  | [], s => ([], s)
  | (r, t, c) :: calls, s =>
    let (answer, s') := c.run r t s
    let (answers, s'') := runAll calls s'
    (answer :: answers, s'')

/-- The archives that a call attempts to ingest, whatever is in the store. -/
def attempts (r : ArchiveRoot) (t : FileTree) : Call → List Attempt
  | loadAll =>
    if t.isDirectory r.path then
      match r.discover t with
      | .ok archives => archives.map (r.attempt t)
      | .error _ => []
    else []
  | reload period => [r.reloadAttempt t period]
  | handleTrigger trigger => r.triggered t [trigger]
  | follow events => r.triggered t (events.flatMap FileEvent.newPaths)

/-- A call comes to its attempts, and makes the store warm if it completes a load. -/
theorem store_run (r : ArchiveRoot) (t : FileTree) (c : Call) (s : Store) :
    ((c.run r t s).1.IsCompleteLoad ∧
        (c.run r t s).2 = { s.afterAttempts (c.attempts r t) with phase := .warm }) ∨
      (¬ (c.run r t s).1.IsCompleteLoad ∧ (c.run r t s).2 = s.afterAttempts (c.attempts r t)) := by
  cases c with
  | loadAll =>
    have hrun := r.run_loadAll t s
    unfold run attempts
    by_cases hroot : t.isDirectory r.path
    · rw [if_pos hroot] at hrun ⊢
      cases hdiscover : r.discover t with
      | error e =>
        rw [hdiscover] at hrun
        rw [hrun]
        refine .inr ⟨?_, rfl⟩
        rintro ⟨summary, h⟩
        cases h
      | ok archives =>
        rw [hdiscover] at hrun
        rw [hrun]
        exact .inl ⟨⟨_, rfl⟩, rfl⟩
    · rw [if_neg hroot] at hrun ⊢
      rw [hrun]
      refine .inr ⟨?_, rfl⟩
      rintro ⟨summary, h⟩
      cases h
  | reload period =>
    refine .inr ⟨?_, congrArg Prod.snd (r.run_reload t period s)⟩
    rintro ⟨summary, h⟩
    cases h
  | handleTrigger trigger =>
    refine .inr ⟨?_, r.run_handleAll [trigger] ⟨t, s⟩⟩
    rintro ⟨summary, h⟩
    cases h
  | follow events =>
    refine .inr ⟨?_, r.run_follow events ⟨t, s⟩⟩
    rintro ⟨summary, h⟩
    cases h

/-- A call that completes a load publishes what archives say and makes the store warm; any other
call only publishes. -/
theorem growsTo_run (r : ArchiveRoot) (t : FileTree) (c : Call) (s : Store) :
    ((c.run r t s).1.IsCompleteLoad ∧
        ∃ s', s.GrowsTo s' ∧ (c.run r t s).2 = { s' with phase := .warm }) ∨
      (¬ (c.run r t s).1.IsCompleteLoad ∧ s.GrowsTo (c.run r t s).2) := by
  have hgrows := s.growsTo_afterAttempts (c.attempts r t)
  rcases c.store_run r t s with ⟨hcomplete, hstore⟩ | ⟨hcomplete, hstore⟩
  · exact .inl ⟨hcomplete, _, hgrows, hstore⟩
  · exact .inr ⟨hcomplete, hstore ▸ hgrows⟩

end Call

namespace ArchiveRoot

/-! ## Loading periods again -/

/-- The calls that load periods again, one after the other. -/
def reloads (r : ArchiveRoot) (t : FileTree) (periods : List Period) :
    List (ArchiveRoot × FileTree × Call) :=
  periods.map fun period => (r, t, .reload period)

theorem runAll_reloads (r : ArchiveRoot) (t : FileTree) (periods : List Period) (s : Store) :
    Call.runAll (r.reloads t periods) s =
      (periods.map fun period => .reloaded ((r.reloadAttempt t period).result.map fun _ => ()),
        s.afterAttempts (periods.map (r.reloadAttempt t))) := by
  induction periods generalizing s with
  | nil => rfl
  | cons period rest ih =>
    have hone := r.run_reload t period s
    have hrest := ih (s.afterAttempts [r.reloadAttempt t period])
    rw [← Store.afterAttempts_append] at hrest
    have hrun : (Call.reload period).run r t s =
        (.reloaded ((r.reloadAttempt t period).result.map fun _ => ()),
          s.afterAttempts [r.reloadAttempt t period]) := by
      show (let (result, s') := (r.reload t period).run.run s
        (Answer.reloaded result, s')) = _
      rw [hone]
    unfold reloads at hrest ⊢
    rw [List.map_cons, Call.runAll, hrun]
    dsimp only
    rw [hrest]
    rfl

end ArchiveRoot

end Bulletin
