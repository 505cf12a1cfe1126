import Bulletin.Proofs.Run

/-!
# What holds of the store in every run

The parts of the store are written by different steps and have to fit together: a flag and its
edition, a number and its text, a name and its title, a section and the readers. They do from the
empty store on, whatever is called in whatever order:

    Consistent.publish : publishing what an archive says keeps the parts together
    consistent_runAll  : so they fit together behind every run

While an edition is built it is not kept yet, and a section may belong to a user who is noted as a
reader only afterwards. `Adds` says what committing sections does in between.
-/

namespace Bulletin

/-! ## Editions and the tables they share -/

namespace Holdings

/-- Texts that have a number keep it, and names that have a title still have one. -/
structure Extends (h h' : Holdings) : Prop where
  contents : ∀ id html, h.contents.get? id = some html → h'.contents.get? id = some html
  titles : ∀ name, h.titles.contains name → h'.titles.contains name

theorem Extends.refl (h : Holdings) : h.Extends h := ⟨fun _ _ hid => hid, fun _ hname => hname⟩

theorem Extends.trans {h h' h'' : Holdings} (hl : h.Extends h') (hr : h'.Extends h'') :
    h.Extends h'' :=
  ⟨fun id html hid => hr.contents id html (hl.contents id html hid),
    fun name hname => hr.titles name (hl.titles name hname)⟩

theorem extends_setTitle (h : Holdings) (name title : String) :
    h.Extends (h.setTitle name title) := by
  refine ⟨fun id html hid => hid, fun name' hname => ?_⟩
  exact (SortedMap.contains_insert h.titles name name' title).mpr (.inr hname)

theorem contains_titles_setTitle (h : Holdings) (name title : String) :
    (h.setTitle name title).titles.contains name :=
  (SortedMap.contains_insert h.titles name name title).mpr (.inl rfl)

theorem extends_intern (h : Holdings) (html : String) :
    h.Extends { h with contents := (h.contents.intern html).1 } :=
  ⟨fun _ _ hid => Contents.get?_intern_of_some html hid, fun _ hname => hname⟩

end Holdings

namespace Edition

/-- A user has a section. -/
def Owns (e : Edition) (user : String) : Prop :=
  ∃ name byUser, e.personal.get? name = some byUser ∧ byUser.contains user

/-- The numbers of an edition have texts, its names have titles, and no name is kept without a
section. -/
structure KeptIn (h : Holdings) (e : Edition) : Prop where
  resolves : ∀ name id, e.common.get? name = some id → ∃ html, h.contents.get? id = some html
  common : ∀ name, e.common.contains name → h.titles.contains name
  personal : ∀ name, e.personal.contains name → h.titles.contains name
  inhabited : ∀ name byUser, e.personal.get? name = some byUser → byUser.isEmpty = false

/-- An edition that is kept is complete: whoever has a section is a reader, and the readers are
users with names. -/
structure IsComplete (h : Holdings) (e : Edition) : Prop extends e.KeptIn h where
  owners : ∀ user, e.Owns user → e.hasSeen user
  readers : ∀ user, e.hasSeen user → IsUserName user

theorem KeptIn.of_extends {h h' : Holdings} {e : Edition} (hk : e.KeptIn h) (hx : h.Extends h') :
    e.KeptIn h' where
  resolves name id hid := by
    obtain ⟨html, hhtml⟩ := hk.resolves name id hid
    exact ⟨html, hx.contents id html hhtml⟩
  common name hname := hx.titles name (hk.common name hname)
  personal name hname := hx.titles name (hk.personal name hname)
  inhabited := hk.inhabited

theorem IsComplete.of_extends {h h' : Holdings} {e : Edition} (he : e.IsComplete h)
    (hx : h.Extends h') : e.IsComplete h' :=
  ⟨he.toKeptIn.of_extends hx, he.owners, he.readers⟩

/-- A section for everyone has to have a text and a title. -/
theorem KeptIn.setCommon {h : Holdings} {e : Edition} {name html : String} {id : ContentId}
    (hk : e.KeptIn h) (hid : h.contents.get? id = some html) (hname : h.titles.contains name) :
    (e.setCommon name id).KeptIn h where
  resolves name' id' hget := by
    unfold Edition.setCommon at hget
    rw [SortedMap.get?_insert] at hget
    by_cases hn : name' = name
    · rw [if_pos hn] at hget
      cases hget
      exact ⟨html, hid⟩
    · rw [if_neg hn] at hget
      exact hk.resolves name' id' hget
  common name' hcontains := by
    rcases (SortedMap.contains_insert e.common name name' id).mp hcontains with rfl | hold
    · exact hname
    · exact hk.common name' hold
  personal := hk.personal
  inhabited := hk.inhabited

/-- A section of one user has to have a title. -/
theorem KeptIn.setPersonal {h : Holdings} {e : Edition} {name : String} (hk : e.KeptIn h)
    (hname : h.titles.contains name) (user html : String) :
    (e.setPersonal name user html).KeptIn h where
  resolves := hk.resolves
  common := hk.common
  personal name' hcontains := by
    rcases (SortedMap.contains_insert e.personal name name' _).mp hcontains with rfl | hold
    · exact hname
    · exact hk.personal name' hold
  inhabited name' byUser hget := by
    unfold Edition.setPersonal at hget
    rw [SortedMap.get?_insert] at hget
    by_cases hn : name' = name
    · rw [if_pos hn] at hget
      cases hget
      exact SortedMap.isEmpty_insert _ user html
    · rw [if_neg hn] at hget
      exact hk.inhabited name' byUser hget

theorem owns_setPersonal {e : Edition} {name user html user' : String}
    (h : (e.setPersonal name user html).Owns user') : user' = user ∨ e.Owns user' := by
  obtain ⟨name', byUser, hget, hcontains⟩ := h
  unfold setPersonal at hget
  rw [SortedMap.get?_insert] at hget
  by_cases hn : name' = name
  · rw [if_pos hn] at hget
    cases hget
    rcases (SortedMap.contains_insert _ user user' html).mp hcontains with heq | hold
    · exact .inl heq
    · -- the sections that the name had before, if any
      cases hbefore : e.personal.get? name with
      | none => rw [hbefore] at hold; cases hold
      | some before =>
        rw [hbefore] at hold
        exact .inr ⟨name, before, hbefore, hold⟩
  · rw [if_neg hn] at hget
    exact .inr ⟨name', byUser, hget, hcontains⟩

end Edition

/-! ## Building an edition -/

namespace Holdings

/-- What committing sections of a user does: the tables grow, nothing that is kept changes, and
the edition gets sections of that user only. -/
structure Adds (user : String) (state state' : Holdings × Edition) : Prop where
  tables : state.1.Extends state'.1
  editions : state'.1.editions = state.1.editions
  readers : state'.2.readers = state.2.readers
  kept : state.2.KeptIn state.1 → state'.2.KeptIn state'.1
  owners : ∀ user', state'.2.Owns user' → user' = user ∨ state.2.Owns user'

theorem Adds.refl (user : String) (state : Holdings × Edition) : Adds user state state :=
  ⟨.refl _, rfl, rfl, id, fun _ h => .inr h⟩

theorem Adds.trans {user : String} {state state' state'' : Holdings × Edition}
    (h : Adds user state state') (h' : Adds user state' state'') : Adds user state state'' where
  tables := h.tables.trans h'.tables
  editions := h'.editions.trans h.editions
  readers := h'.readers.trans h.readers
  kept hk := h'.kept (h.kept hk)
  owners user' ho := by
    rcases h'.owners user' ho with heq | ho
    · exact .inl heq
    · exact h.owners user' ho

theorem adds_commitSection (user : String) (h : Holdings) (e : Edition) (s : Section) :
    Adds user (h, e) (commitSection user (h, e) s) := by
  unfold commitSection
  cases s.audience with
  | everyone =>
    have htables : h.Extends ({ h with contents := (h.contents.intern s.html).1 }.setTitle
        s.name s.title) :=
      (h.extends_intern s.html).trans (extends_setTitle _ s.name s.title)
    refine ⟨htables, rfl, rfl, fun hk => ?_, fun user' ho => .inr ho⟩
    exact (hk.of_extends htables).setCommon (h.contents.get?_intern s.html)
      (contains_titles_setTitle _ s.name s.title)
  | owner =>
    have htables : h.Extends (h.setTitle s.name s.title) := h.extends_setTitle s.name s.title
    refine ⟨htables, rfl, rfl, fun hk => ?_, fun user' ho => Edition.owns_setPersonal ho⟩
    exact (hk.of_extends htables).setPersonal (contains_titles_setTitle h s.name s.title) user
      s.html

theorem adds_commit (h : Holdings) (e : Edition) (user : String) (sections : List Section) :
    Adds user (h, e) (h.commit e user sections) := by
  unfold commit
  induction sections generalizing h e with
  | nil => exact .refl user (h, e)
  | cons s rest ih => exact (adds_commitSection user h e s).trans (ih _ _)

/-- The user of a bulletin becomes a reader with its sections. -/
theorem isComplete_addBulletin {h : Holdings} {e : Edition} {b : UserSections}
    (hb : IsUserName b.user) (he : e.IsComplete h) :
    (addBulletin (h, e) b).2.IsComplete (addBulletin (h, e) b).1 := by
  have hadds := h.adds_commit e b.user b.sections
  have hseen : ∀ user, (addBulletin (h, e) b).2.hasSeen user ↔ user = b.user ∨ e.hasSeen user := by
    intro user
    refine (SortedMap.contains_insert _ b.user user ()).trans ?_
    show user = b.user ∨ (h.commit e b.user b.sections).2.readers.contains user ↔ _
    rw [hadds.readers]
    rfl
  have hkept : (addBulletin (h, e) b).2.KeptIn (addBulletin (h, e) b).1 := by
    have hk := hadds.kept he.toKeptIn
    exact ⟨hk.resolves, hk.common, hk.personal, hk.inhabited⟩
  refine ⟨hkept, fun user ho => (hseen user).mpr ?_, fun user hs => ?_⟩
  · exact (hadds.owners user ho).imp id (he.owners user)
  · rcases (hseen user).mp hs with rfl | hs
    · exact hb
    · exact he.readers user hs

theorem isComplete_new (h : Holdings) (m : Metadata) : (Edition.new m).IsComplete h := by
  refine ⟨⟨?_, ?_, ?_, ?_⟩, ?_, ?_⟩
  · intro name id hget
    cases hget
  · intro name hcontains
    cases hcontains
  · intro name hcontains
    cases hcontains
  · intro name byUser hget
    cases hget
  · rintro user ⟨name, byUser, hget, -⟩
    cases hget
  · intro user hseen
    cases hseen

/-- Building an edition extends the tables, and leaves what is kept. -/
theorem extends_build (h : Holdings) (issue : Issue) :
    h.Extends (h.build issue).1 ∧ (h.build issue).1.editions = h.editions := by
  unfold build
  generalize Edition.new issue.metadata = e
  generalize issue.bulletins = bulletins
  induction bulletins generalizing h e with
  | nil => exact ⟨.refl h, rfl⟩
  | cons b rest ih =>
    have hadds := h.adds_commit e b.user b.sections
    obtain ⟨htables, heditions⟩ := ih (addBulletin (h, e) b).1 (addBulletin (h, e) b).2
    exact ⟨hadds.tables.trans htables, heditions.trans hadds.editions⟩

/-- The edition that is built is complete. -/
theorem isComplete_build (h : Holdings) {issue : Issue}
    (hissue : ∀ b ∈ issue.bulletins, IsUserName b.user) :
    (h.build issue).2.IsComplete (h.build issue).1 := by
  unfold build
  have hnew := h.isComplete_new issue.metadata
  generalize Edition.new issue.metadata = e at hnew
  generalize issue.bulletins = bulletins at hissue
  induction bulletins generalizing h e with
  | nil => exact hnew
  | cons b rest ih =>
    have hb := isComplete_addBulletin (hissue b List.mem_cons_self) hnew
    exact ih (addBulletin (h, e) b).1 _ hb fun b' hb' => hissue b' (List.mem_cons_of_mem b hb')

end Holdings

/-! ## The store -/

/-- The users of an issue that has been read have names. -/
theorem Issue.IsRead.named {x : Period × Issue} (h : Issue.IsRead x) :
    ∀ b ∈ x.2.bulletins, IsUserName b.user := by
  obtain ⟨d, hd⟩ := h
  obtain ⟨rest, -, hbulletins⟩ := Issue.ofDelivery_eq_ok_iff.mp hd
  intro b hb
  rw [hbulletins] at hb
  obtain ⟨r, hr, rfl⟩ := List.mem_map.mp hb
  exact Gathering.named_of_mem_records hr

namespace Store

/-- The parts of a store fit together. -/
structure Consistent (s : Store) : Prop where
  available_iff : ∀ period, s.isAvailable period ↔ s.holdings.editions.contains period
  complete : ∀ period e, s.holdings.editions.get? period = some e → e.IsComplete s.holdings

theorem consistent_empty : empty.Consistent := by
  refine ⟨fun period => Iff.rfl, fun period e h => ?_⟩
  cases h

theorem get?_editions_publish (s : Store) (period : Period) (issue : Issue) (p : Period) :
    (s.publish period issue).holdings.editions.get? p =
      if p = period then some (s.holdings.build issue).2 else s.holdings.editions.get? p := by
  show ((s.holdings.build issue).1.editions.insert period (s.holdings.build issue).2).get? p = _
  rw [(s.holdings.extends_build issue).2, SortedMap.get?_insert]

theorem isAvailable_publish (s : Store) (period : Period) (issue : Issue) (p : Period) :
    (s.publish period issue).isAvailable p = if p = period then true else s.isAvailable p := by
  show ((s.flags.insert period true).get? p).getD false = _
  rw [SortedMap.get?_insert]
  by_cases hp : p = period
  · rw [if_pos hp, if_pos hp]
    rfl
  · rw [if_neg hp, if_neg hp]
    rfl

theorem extends_publish (s : Store) (period : Period) (issue : Issue) :
    s.holdings.Extends (s.publish period issue).holdings := by
  obtain ⟨htables, -⟩ := s.holdings.extends_build issue
  exact ⟨htables.contents, htables.titles⟩

theorem Consistent.publish {s : Store} (hs : s.Consistent) (period : Period) {issue : Issue}
    (hissue : ∀ b ∈ issue.bulletins, IsUserName b.user) :
    (s.publish period issue).Consistent := by
  constructor
  · intro p
    unfold SortedMap.contains
    rw [isAvailable_publish, get?_editions_publish]
    by_cases hp : p = period
    · rw [if_pos hp, if_pos hp]
      simp
    · rw [if_neg hp, if_neg hp]
      exact hs.available_iff p
  · intro p e he
    rw [get?_editions_publish] at he
    by_cases hp : p = period
    · rw [if_pos hp] at he
      cases he
      have hcomplete := s.holdings.isComplete_build hissue
      exact hcomplete.of_extends ⟨fun _ _ hid => hid, fun _ hname => hname⟩
    · rw [if_neg hp] at he
      exact (hs.complete p e he).of_extends (s.extends_publish period issue)

/-- Whatever archives say, publishing it keeps the parts of the store together and its phase. -/
theorem Consistent.of_growsTo {s s' : Store} (hs : s.Consistent) (h : s.GrowsTo s') :
    s'.Consistent ∧ s'.phase = s.phase := by
  obtain ⟨issues, hread, rfl⟩ := h
  unfold publishAll
  induction issues generalizing s with
  | nil => exact ⟨hs, rfl⟩
  | cons x rest ih =>
    have hx : (s.publish x.1 x.2).Consistent := hs.publish x.1 (hread x List.mem_cons_self).named
    exact ih hx fun y hy => hread y (List.mem_cons_of_mem x hy)

theorem Consistent.lookup_ne_unavailable {s : Store} (hs : s.Consistent) (period : Period) :
    s.lookup period ≠ .unavailable := by
  unfold lookup
  by_cases ha : s.isAvailable period
  · obtain ⟨e, he⟩ := Option.isSome_iff_exists.mp ((hs.available_iff period).mp ha)
    rw [if_pos ha, he]
    intro h
    cases h
  · rw [if_neg ha]
    intro h
    cases h

/-- A run keeps the parts of the store together, and makes the store warm just if it completes a
load. -/
theorem Consistent.runAll {s : Store} (hs : s.Consistent)
    (calls : List (ArchiveRoot × FileTree × Call)) :
    (Call.runAll calls s).2.Consistent ∧
      ((Call.runAll calls s).2.phase = .warm ↔
        s.phase = .warm ∨ ∃ a ∈ (Call.runAll calls s).1, a.IsCompleteLoad) := by
  induction calls generalizing s with
  | nil => exact ⟨hs, by simp [Call.runAll]⟩
  | cons call rest ih =>
    obtain ⟨r, t, c⟩ := call
    rw [Call.runAll]
    dsimp only
    rcases Call.growsTo_run r t c s with ⟨hcomplete, s', hgrows, heq⟩ | ⟨hcomplete, hgrows⟩
    · obtain ⟨hs', -⟩ := hs.of_growsTo hgrows
      have hwarm : (c.run r t s).2.Consistent := by
        rw [heq]
        exact ⟨hs'.available_iff, hs'.complete⟩
      obtain ⟨hrest, hphase⟩ := ih hwarm
      refine ⟨hrest, ?_⟩
      rw [hphase, heq]
      simp [hcomplete]
    · obtain ⟨hs', hsame⟩ := hs.of_growsTo hgrows
      obtain ⟨hrest, hphase⟩ := ih hs'
      refine ⟨hrest, ?_⟩
      rw [hphase, hsame]
      simp [hcomplete]

/-- Behind every run the parts of the store fit together, so that no period is found unavailable,
and the store is warm just if a load has been completed. -/
theorem consistent_runAll (calls : List (ArchiveRoot × FileTree × Call)) :
    let (answers, s) := Call.runAll calls empty
    s.Consistent ∧ (∀ period, s.lookup period ≠ .unavailable) ∧
      (s.phase = .warm ↔ ∃ a ∈ answers, a.IsCompleteLoad) := by
  obtain ⟨hconsistent, hphase⟩ := consistent_empty.runAll calls
  refine ⟨hconsistent, hconsistent.lookup_ne_unavailable, hphase.trans ?_⟩
  refine or_iff_right fun h => ?_
  cases h

end Store

end Bulletin
