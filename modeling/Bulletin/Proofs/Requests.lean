import Bulletin.Proofs.Creation
import Bulletin.Proofs.Discovery
import Bulletin.Proofs.Spelling
import Bulletin.Proofs.Triggers

/-!
# The archive that a file asks for

Archives are found by their names, and loaded again by their periods: from a name its period is
read, and for a period its name is written. These are not inverse to each other. A period that is
not spelled plainly is read all the same, so that a period can be found under several names, and
what asks for `05` to be loaded again has `5` loaded:

    in the root        found                   asked for by 05.renew
    05                 5 at 05                 5, which is not there
    5 and 05           5 at 05, and 5 at 5     5

    handleTrigger_write   : it is always the archive with the written name that is loaded
    reloaded_of_discover  : so it is the one that was found if its period is spelled plainly
-/

namespace Bulletin

/-! ## Reading beside a new file -/

namespace FileTree

variable {t : FileTree} {p : Path} {place : Location} {name trigger : RawText} {node : FileNode}
  {bytes : List UInt8}

/-- The files of a file system: no place is taken twice, whatever there is is in a directory, and
what is in a directory has the name of a file. -/
structure IsSound (t : FileTree) : Prop where
  proper : t.IsProper
  grounded : t.IsGrounded
  named : ∀ n ∈ t.nodes, ∀ name ∈ n.1, IsFileName name

theorem IsSound.isFileName (h : t.IsSound) (hfind : t.find? (place ++ [name]) = some node) :
    IsFileName name := by
  obtain ⟨n, hn, hplace⟩ := exists_node_of_find? (concat_ne_nil place name) (by rw [hfind]; rfl)
  exact h.named n hn name (by simp [hplace])

/-- A new file is in no other directory than its own. -/
theorem children_create {l : Location} (h : l ≠ place) :
    (t.create (place ++ [name]) bytes).children l = t.children l := by
  have hother : childName? l (place ++ [name]) = none := by
    unfold childName?
    rw [List.dropLast_concat, if_neg (Ne.symm h)]
  unfold children
  rw [nodes_create, List.filterMap_append]
  simp [hother]

/-- In a directory beside the new file there is the same. -/
theorem HasRoom.listing_create (h : t.HasRoom p place trigger) (bytes : List UInt8)
    (name : RawText) :
    (t.create (place ++ [trigger]) bytes).listing (place ++ [name]) =
      t.listing (place ++ [name]) := by
  have hbelow (x : RawText) : (t.create (place ++ [trigger]) bytes).find? (place ++ [name] ++ [x]) =
      t.find? (place ++ [name] ++ [x]) := by
    rw [find?_create (concat_ne_nil place trigger) h.absent, if_neg (by simp)]
  unfold listing
  rw [children_create (by simp)]
  simp only [hbelow]

namespace HasRoom

variable (h : t.HasRoom p place trigger) (henter : t.permits .enter place = true)
  (hname : IsFileName name) (hfind : t.find? (place ++ [name]) = some node)

include h henter hname hfind

theorem locate_join_create (hlink : ∀ target, node ≠ .link target) (bytes : List UInt8) :
    (t.create (place ++ [trigger]) bytes).locate true (p.join name) = .ok (place ++ [name]) :=
  locate_join_of_find? (h.locate_create bytes) (h.find?_create_of_some h.directory bytes) henter
    hname (h.find?_create_of_some hfind bytes) hlink

theorem at?_join_create (hlink : ∀ target, node ≠ .link target) (bytes : List UInt8) :
    (t.create (place ++ [trigger]) bytes).at? (p.join name) = .ok node :=
  at?_of_locate (h.locate_join_create henter hname hfind hlink bytes)
    (h.find?_create_of_some hfind bytes)

end HasRoom

/-- From the directories beside the new file the same is read. -/
theorem HasRoom.read_directory_create (h : t.HasRoom p place trigger)
    (henter : t.permits .enter place = true) (ht : t.IsSound)
    (hfind : t.find? (place ++ [name]) = some .directory) (bytes : List UInt8) (period : Period) :
    Issue.read .directory (t.create (place ++ [trigger]) bytes) (p.join name) period =
      Issue.read .directory t (p.join name) period := by
  have hname := ht.isFileName hfind
  have hlocate := locate_join_of_find? h.located h.directory henter hname hfind (by simp)
  have hlocate' := h.locate_join_create henter hname hfind (by simp) bytes
  have hfind' := h.find?_create_of_some hfind bytes
  have hlist := list_of_locate hlocate hfind
  have hlist' := list_of_locate hlocate' hfind'
  rw [permits_create, h.listing_create] at hlist'
  cases hread : t.permits .read (place ++ [name]) with
  | false =>
    rw [hread, if_neg Bool.false_ne_true] at hlist hlist'
    rw [Issue.read_of_list_error (isDirectory_of_locate hlocate hfind) hlist,
      Issue.read_of_list_error (isDirectory_of_locate hlocate' hfind') hlist']
  | true =>
    rw [hread, if_pos rfl] at hlist hlist'
    rw [Issue.read_of_list (isDirectory_of_locate hlocate hfind) hlist,
      Issue.read_of_list (isDirectory_of_locate hlocate' hfind') hlist']
    congr 1
    refine Source.deliverFiles_eq fun entry hentry => ?_
    obtain ⟨contents, hlisted⟩ := Source.mem_fileNames_iff.mp hentry
    have hfile := mem_listing_iff.mp hlisted
    have hfile' := h.find?_create_of_some hfile bytes
    rw [open?_join_of_file hlocate hfind (ht.isFileName hfile) hfile,
      open?_join_of_file hlocate' hfind' (ht.isFileName hfile) hfile', permits_create]

/-- To read an archive it makes no difference that there is a new file beside it. -/
theorem HasRoom.read_create (h : t.HasRoom p place trigger) (henter : t.permits .enter place = true)
    (ht : t.IsSound) {layout : Layout} (hfind : t.find? (place ++ [name]) = some node)
    (hnode : ArchiveRoot.isCandidate layout node) (bytes : List UInt8) (period : Period) :
    Issue.read layout (t.create (place ++ [trigger]) bytes) (p.join name) period =
      Issue.read layout t (p.join name) period := by
  cases node with
  | link target => cases hnode
  | directory =>
    cases layout with
    | tarball => cases hnode
    | directory => exact h.read_directory_create henter ht hfind bytes period
  | file contents =>
    cases layout with
    | directory => cases hnode
    | tarball =>
      have hname := ht.isFileName hfind
      have hopen := open?_join_of_file h.located h.directory hname hfind
      have hopen' := open?_join_of_file (h.locate_create bytes)
        (h.find?_create_of_some h.directory bytes) hname (h.find?_create_of_some hfind bytes)
      exact Issue.read_tarball_of_open? (hopen'.trans hopen.symm) period

end FileTree

namespace ArchiveRoot

variable {r : ArchiveRoot} {t : FileTree} {archives : List (Period × Path)}

/-! ## Archives that are found -/

/-- An archive has a name in which its period is spelled plainly. -/
def IsPlain (r : ArchiveRoot) (p : Path) : Prop :=
  ∃ name, p.fileName? = some name ∧ r.layout.IsPlain name.text

/-- The path of the file that asks for the archive at a path. -/
def triggerPath (archive : Path) : Path := ⟨archive.raw ++ RawText.ofString triggerSuffix⟩

/-- An archive is found in the root under a name. -/
structure FindsAs (r : ArchiveRoot) (t : FileTree) (archive : Period × Path) (place : Location)
    (name : RawText) (node : FileNode) : Prop where
  located : t.locate true r.path = .ok place
  directory : t.find? place = some .directory
  entry : t.find? (place ++ [name]) = some node
  candidate : r.candidate? name node = some archive.1
  path : archive.2 = r.path.join name

theorem exists_list_of_discover (h : r.discover t = .ok archives) :
    ∃ place listing, t.locate true r.path = .ok place ∧ t.list r.path = .ok listing ∧
      archives = (r.sorted listing).map fun archive => (archive.1, r.path.join archive.2) := by
  cases hlist : t.list r.path with
  | error reason =>
    rw [discover_of_error hlist] at h
    cases h
  | ok listing =>
    rw [discover_of_list hlist] at h
    obtain ⟨place, hlocate, -⟩ := FileTree.exists_place_of_list hlist
    exact ⟨place, listing, hlocate, rfl, (Except.ok.inj h).symm⟩

theorem exists_findsAs_of_mem_sorted (ht : t.IsGrounded) {place : Location}
    {listing : List (RawText × FileNode)} (hlocate : t.locate true r.path = .ok place)
    (hlist : t.list r.path = .ok listing) {found : Period × RawText}
    (h : found ∈ r.sorted listing) :
    ∃ node, r.FindsAs t (found.1, r.path.join found.2) place found.2 node := by
  obtain ⟨node, hnode, hcandidate⟩ := mem_found_iff.mp (mem_sorted_iff.mp h)
  have hentry := (FileTree.mem_list_iff hlocate hlist _ _).mp hnode
  exact ⟨node, hlocate, ht.directory_of_concat (by rw [hentry]; rfl), hentry, hcandidate, rfl⟩

/-- What is found is found in the root, under some name. -/
theorem exists_findsAs (ht : t.IsGrounded) (h : r.discover t = .ok archives) :
    ∃ place, t.locate true r.path = .ok place ∧
      ∀ archive ∈ archives, ∃ name node, r.FindsAs t archive place name node := by
  obtain ⟨place, listing, hlocate, hlist, rfl⟩ := exists_list_of_discover h
  refine ⟨place, hlocate, fun archive hmem => ?_⟩
  obtain ⟨found, hfound, rfl⟩ := List.mem_map.mp hmem
  obtain ⟨node, hnode⟩ := exists_findsAs_of_mem_sorted ht hlocate hlist hfound
  exact ⟨found.2, node, hnode⟩

/-- The name of a file that asks for an archive. -/
theorem isFileName_append_triggerSuffix {name : RawText} (h : IsFileName name) :
    IsFileName (name ++ RawText.ofString triggerSuffix) := by
  have hlong : ∀ other : String, (RawText.ofString other).bytes.length < 6 →
      name ++ RawText.ofString triggerSuffix ≠ other := by
    intro other hother heq
    have hsuffix : (RawText.ofString triggerSuffix).bytes.length = 6 := by decide
    rw [← heq, RawText.bytes_append, List.length_append] at hother
    omega
  refine isFileName_iff.mpr ⟨hlong _ (by decide), hlong _ (by decide), hlong _ (by decide), ?_⟩
  rw [RawText.bytes_append, List.mem_append, not_or]
  exact ⟨h.plain, by decide⟩

namespace FindsAs

variable {archive : Period × Path} {place : Location} {name : RawText} {node : FileNode}
  (h : r.FindsAs t archive place name node)

include h

theorem periodOf?_name : r.layout.periodOf? name.text = some archive.1 :=
  (candidate?_eq_some_iff.mp h.candidate).2.2

theorem isCandidate_node : isCandidate r.layout node := (candidate?_eq_some_iff.mp h.candidate).1

theorem ofString_text_name : RawText.ofString name.text = name :=
  Layout.ofString_text_of_periodOf? h.periodOf?_name

theorem isFileName_name : IsFileName name := by
  rw [← h.ofString_text_name]
  exact Layout.isFileName_of_periodOf? h.periodOf?_name

theorem isEmpty_path : r.path.isEmpty = false := FileTree.isEmpty_of_locate h.located

/-- It has the path of its period if its name is the one that is written. -/
theorem path_eq_iff : archive.2 = r.archivePath archive.1 ↔
    name.text = r.layout.archiveName archive.1 := by
  rw [h.path, ← RawText.ofString_inj, h.ofString_text_name]
  exact Path.join_inj h.isEmpty_path h.isFileName_name (r.layout.isFileName_archiveName _)

/-- It has the path of its period if its period is spelled plainly. -/
theorem path_eq_iff_isPlain : archive.2 = r.archivePath archive.1 ↔ r.IsPlain archive.2 := by
  have hfile : archive.2.fileName? = some name := by
    rw [h.path]
    exact Path.fileName?_join r.path h.isFileName_name
  rw [h.path_eq_iff, Layout.eq_archiveName_iff h.periodOf?_name]
  constructor
  · intro hplain
    exact ⟨name, hfile, hplain⟩
  · rintro ⟨other, hother, hplain⟩
    rw [hfile] at hother
    rw [Option.some.inj hother]
    exact hplain

theorem triggerPath_eq :
    triggerPath archive.2 = r.path.join (name ++ RawText.ofString triggerSuffix) := by
  rw [triggerPath, h.path, Path.join_append h.isFileName_name]

theorem hasRoom (ht : t.IsGrounded) (hfree : t.IsFree (triggerPath archive.2)) :
    t.HasRoom r.path place (name ++ RawText.ofString triggerSuffix) := by
  have htrigger := isFileName_append_triggerSuffix h.isFileName_name
  rw [h.triggerPath_eq] at hfree
  exact ⟨h.located, h.directory, htrigger, hfree.find?_eq_none ht h.located htrigger⟩

/-! ## Files that ask for them -/

/-- A file next to an archive asks for it by its name, and is in the root. -/
theorem requested?_trigger : requested? (triggerPath archive.2) = some name.text := by
  refine requested?_eq_some_iff.mpr ⟨name ++ RawText.ofString triggerSuffix, ?_, ?_⟩
  · rw [h.triggerPath_eq]
    exact Path.fileName?_join r.path (isFileName_append_triggerSuffix h.isFileName_name)
  · rw [← RawText.text_ofString (name.text ++ triggerSuffix), RawText.ofString_append,
      h.ofString_text_name]

theorem isUnder_create (ht : t.IsGrounded) (hfree : t.IsFree (triggerPath archive.2))
    (bytes : List UInt8) :
    r.isUnder (t.create (place ++ [name ++ RawText.ofString triggerSuffix]) bytes)
      (triggerPath archive.2) := by
  have hroom := h.hasRoom ht hfree
  have hroot := hroom.locate_create bytes
  refine isUnder_iff.mpr ⟨Path.ofParts r.path.parts, ?_, .inl ⟨place, ?_, hroot⟩⟩
  · rw [h.triggerPath_eq, Path.parent?_join h.isEmpty_path hroom.fileName]
  · exact FileTree.locate_ofParts hroot

theorem write_eq_create (ht : t.IsGrounded) (hfree : t.IsFree (triggerPath archive.2))
    (bytes : List UInt8) :
    t.write (triggerPath archive.2) bytes =
      t.create (place ++ [name ++ RawText.ofString triggerSuffix]) bytes := by
  rw [← (h.hasRoom ht hfree).write_join ht bytes, ← h.triggerPath_eq]

/-- Where an archive can be looked for in the root, the root may be looked into. -/
theorem enter_of_at? (ht : t.IsGrounded) (hfree : t.IsFree (triggerPath archive.2))
    {bytes : List UInt8} {archive' : Path} {other : RawText} (hother : IsFileName other)
    (hpath : archive' = r.path.join other) {node' : FileNode}
    (hat : (t.write (triggerPath archive.2) bytes).at? archive' = .ok node') :
    t.permits .enter place = true := by
  have hroom := h.hasRoom ht hfree
  rw [h.write_eq_create ht hfree, hpath] at hat
  cases henter : t.permits .enter place with
  | true => rfl
  | false =>
    rw [FileTree.at?_join_of_denied (hroom.locate_create bytes)
      (hroom.find?_create_of_some h.directory bytes) henter hother] at hat
    cases hat

/-- When that file is written and handled, the archive is loaded that has the written name of the
period, and the files are as they were, if the root may be changed; or there is no such archive, and
nothing happens. -/
theorem handleTrigger_write (ht : t.IsGrounded) (hfree : t.IsFree (triggerPath archive.2))
    (bytes : List UInt8) (s : Store) :
    let t' := t.write (triggerPath archive.2) bytes
    (r.handleTrigger (triggerPath archive.2)).run.run ⟨t', s⟩ =
      match t'.at? (r.archivePath archive.1) with
      | .ok _ => (.ok (some archive.1), ⟨if t.permits .change place then t else t',
          ((r.reload t' archive.1).run.run s).2⟩)
      | .error reason =>
        (.error (.cannotOpen (r.archivePath archive.1).text reason), ⟨t', s⟩) := by
  intro t'
  have hroom := h.hasRoom ht hfree
  have hrequested := h.requested?_trigger
  have hwrite : t' = t.create (place ++ [name ++ RawText.ofString triggerSuffix]) bytes :=
    h.write_eq_create ht hfree bytes
  have hunder : r.isUnder t' (triggerPath archive.2) = true :=
    hwrite ▸ h.isUnder_create ht hfree bytes
  have hget (k : Site → ExceptT ArchiveError (StateM Site) (Option Period)) :
      (get >>= k).run.run ⟨t', s⟩ = (k ⟨t', s⟩).run.run ⟨t', s⟩ := rfl
  unfold handleTrigger
  rw [hget]
  dsimp only
  rw [hrequested]
  dsimp only
  rw [hunder, h.periodOf?_name]
  dsimp only
  cases hat : t'.at? (r.archivePath archive.1) with
  | error reason => rfl
  | ok node =>
    have henter := h.enter_of_at? ht hfree (r.layout.isFileName_archiveName _) rfl hat
    have hunlink : t'.unlink (triggerPath archive.2) =
        if t.permits .change place then t else t' := by
      rw [hwrite, h.triggerPath_eq, hroom.unlink_create ht, henter, Bool.true_and]
    dsimp only
    rw [hunlink]
    rfl

theorem handleTrigger_write_of_error (ht : t.IsGrounded) (hfree : t.IsFree (triggerPath archive.2))
    {bytes : List UInt8} (s : Store) {reason : OpenFailure}
    (hat : (t.write (triggerPath archive.2) bytes).at? (r.archivePath archive.1) =
      .error reason) :
    (r.handleTrigger (triggerPath archive.2)).run.run
        ⟨t.write (triggerPath archive.2) bytes, s⟩ =
      (.error (.cannotOpen (r.archivePath archive.1).text reason),
        ⟨t.write (triggerPath archive.2) bytes, s⟩) := by
  have hrun := h.handleTrigger_write ht hfree bytes s
  dsimp only at hrun
  rw [hat] at hrun
  exact hrun

/-- Where the archive has the written name, it is the one that is loaded, as it was before the file
was written, if the root may be looked into. -/
theorem handleTrigger_of_path_eq (ht : t.IsSound) (hfree : t.IsFree (triggerPath archive.2))
    (hpath : archive.2 = r.archivePath archive.1) (bytes : List UInt8) (s : Store) :
    let t' := t.write (triggerPath archive.2) bytes
    (r.handleTrigger (triggerPath archive.2)).run.run ⟨t', s⟩ =
      if t.permits .enter place then
        (.ok (some archive.1), ⟨if t.permits .change place then t else t',
          ((r.loadOne t archive.1 archive.2).run.run s).2⟩)
      else (.error (.cannotOpen archive.2.text .denied), ⟨t', s⟩) := by
  intro t'
  have hroom := h.hasRoom ht.grounded hfree
  have hrun := h.handleTrigger_write ht.grounded hfree bytes s
  have hwrite : t' = t.create (place ++ [name ++ RawText.ofString triggerSuffix]) bytes :=
    h.write_eq_create ht.grounded hfree bytes
  have hlink : ∀ target, node ≠ .link target := by
    rintro target rfl
    cases h.isCandidate_node
  dsimp only at hrun
  rw [hrun, ← hpath]
  cases henter : t.permits .enter place with
  | true =>
    have hat : t'.at? archive.2 = .ok node := by
      rw [hwrite, h.path]
      exact hroom.at?_join_create henter h.isFileName_name h.entry hlink bytes
    have hread : Issue.read r.layout t' archive.2 archive.1 =
        Issue.read r.layout t archive.2 archive.1 := by
      rw [hwrite, h.path]
      exact hroom.read_create henter ht h.entry h.isCandidate_node bytes archive.1
    have hreload : r.reload t' archive.1 = r.loadOne t archive.1 archive.2 := by
      unfold reload loadOne
      rw [← hpath, hread]
    rw [hat, hreload, if_pos rfl]
  | false =>
    have hat : t'.at? archive.2 = .error .denied := by
      rw [hwrite, h.path]
      exact FileTree.at?_join_of_denied (hroom.locate_create bytes)
        (hroom.find?_create_of_some h.directory bytes) henter h.isFileName_name
    rw [hat, if_neg Bool.false_ne_true]

end FindsAs

/-- Of the archives that are found, those have the paths of their periods whose periods are spelled
plainly. Of these none is found twice, and to create the file that asks for one and to handle it is
to load that archive, as a complete load does, and leaves the files as they were, as far as the root
may be looked into and changed. The file that asks for another has the archive loaded whose name is
written, if there is one. -/
theorem reloaded_of_discover (r : ArchiveRoot) (t : FileTree) (ht : t.IsSound)
    (h : r.discover t = .ok archives) :
    (∀ archive ∈ archives, archive.2 = r.archivePath archive.1 ↔ r.IsPlain archive.2) ∧
      (archives.Pairwise fun a b => r.IsPlain a.2 → r.IsPlain b.2 → a.1 < b.1) ∧
      ∃ place, t.locate true r.path = .ok place ∧ ∀ archive ∈ archives, ∀ bytes s,
        let trigger := triggerPath archive.2
        let t' := t.write trigger bytes
        t.IsFree trigger →
          (r.IsPlain archive.2 → (r.handleTrigger trigger).run.run ⟨t', s⟩ =
            if t.permits .enter place then
              (.ok (some archive.1), ⟨if t.permits .change place then t else t',
                ((r.loadOne t archive.1 archive.2).run.run s).2⟩)
            else (.error (.cannotOpen archive.2.text .denied), ⟨t', s⟩)) ∧
          (¬ r.IsPlain archive.2 → r.archivePath archive.1 ≠ archive.2 ∧
            (r.handleTrigger trigger).run.run ⟨t', s⟩ =
              match t'.at? (r.archivePath archive.1) with
              | .ok _ => (.ok (some archive.1), ⟨if t.permits .change place then t else t',
                  ((r.reload t' archive.1).run.run s).2⟩)
              | .error reason =>
                (.error (.cannotOpen (r.archivePath archive.1).text reason), ⟨t', s⟩)) := by
  obtain ⟨place, hlocate, hfinds⟩ := exists_findsAs ht.grounded h
  have hpath : ∀ archive ∈ archives, archive.2 = r.archivePath archive.1 ↔ r.IsPlain archive.2 := by
    intro archive hmem
    obtain ⟨name, node, hfound⟩ := hfinds archive hmem
    exact hfound.path_eq_iff_isPlain
  refine ⟨hpath, ?_, place, hlocate, ?_⟩
  · obtain ⟨place, listing, hlocate, hlist, rfl⟩ := exists_list_of_discover h
    rw [List.pairwise_map]
    refine (pairwise_lt_sorted ht.proper hlist).imp_of_mem fun {a b} ha hb hlt hplain hplain' => ?_
    obtain ⟨node, hfound⟩ := exists_findsAs_of_mem_sorted ht.grounded hlocate hlist ha
    obtain ⟨node', hfound'⟩ := exists_findsAs_of_mem_sorted ht.grounded hlocate hlist hb
    rw [← hfound.path_eq_iff_isPlain, hfound.path_eq_iff] at hplain
    rw [← hfound'.path_eq_iff_isPlain, hfound'.path_eq_iff] at hplain'
    exact hlt (by rw [← hplain, hfound.ofString_text_name])
      (by rw [← hplain', hfound'.ofString_text_name])
  · intro archive hmem bytes s trigger t' hfree
    obtain ⟨name, node, hfound⟩ := hfinds archive hmem
    constructor
    · intro hplain
      exact hfound.handleTrigger_of_path_eq ht hfree ((hpath archive hmem).mpr hplain) bytes s
    · intro hplain
      exact ⟨fun heq => hplain ((hpath archive hmem).mp heq.symm),
        hfound.handleTrigger_write ht.grounded hfree bytes s⟩

/-- Archives of which two are of the first period, and none has the name that is written for the
fifth. -/
def oddSpellings : FileTree :=
  let raw : FileNode := .file "\x7b\"started\":1,\"updated\":2,\"data\":\x7b\x7d\x7d".toUTF8.toList
  ⟨[(["a"], .directory), (["a", "+1"], .directory), (["a", "1"], .directory),
    (["a", "1", "raw.json"], raw), (["a", "05"], .directory), (["a", "05", "raw.json"], raw)],
    [], []⟩

theorem discover_oddSpellings :
    (⟨⟨"a"⟩, .directory⟩ : ArchiveRoot).discover oddSpellings =
      .ok [(1, ⟨"a/+1"⟩), (1, ⟨"a/1"⟩), (5, ⟨"a/05"⟩)] := by
  have hlist : oddSpellings.list ⟨"a"⟩ =
      .ok [("+1", .directory), ("1", .directory), ("05", .directory)] := rfl
  unfold discover
  rw [hlist]
  dsimp only
  rw [List.mergeSort_of_pairwise (by decide +kernel)]
  rfl

theorem isFree_oddSpellings {name : String} (h : name = "a/1" ∨ name = "a/05") :
    oddSpellings.IsFree (triggerPath ⟨name⟩) := by
  intro l hl
  rcases h with rfl | rfl
  · cases hl
    decide
  · cases hl
    decide

/-- The archive at `1` is found once under its plain name, and is loaded when its file is created. -/
theorem reloaded_of_discover_oddSpellings :
    let r : ArchiveRoot := ⟨⟨"a"⟩, .directory⟩
    let t := oddSpellings
    let s := Store.empty
    t.IsSound ∧ (r.discover t).toOption.isSome ∧ r.IsPlain ⟨"a/1"⟩ ∧ ¬ r.IsPlain ⟨"a/05"⟩ ∧
      t.IsFree ⟨"a/1.renew"⟩ ∧
      (r.handleTrigger ⟨"a/1.renew"⟩).run.run ⟨t.write ⟨"a/1.renew"⟩ [], s⟩ =
        (.ok (some 1), ⟨t, ((r.loadOne t 1 ⟨"a/1"⟩).run.run s).2⟩) := by
  intro r t s
  have hsound : t.IsSound := by
    refine ⟨?_, by decide, by decide⟩
    unfold FileTree.IsProper
    decide
  have hdiscover : r.discover t = .ok [(1, ⟨"a/+1"⟩), (1, ⟨"a/1"⟩), (5, ⟨"a/05"⟩)] :=
    discover_oddSpellings
  obtain ⟨hpath, -, place, hlocate, hloaded⟩ := r.reloaded_of_discover t hsound hdiscover
  have hplace : t.locate true r.path = .ok ["a"] := rfl
  rw [hplace] at hlocate
  cases hlocate
  have hfree : t.IsFree (triggerPath ⟨"a/1"⟩) := isFree_oddSpellings (.inl rfl)
  have hplain : r.IsPlain ⟨"a/1"⟩ := (hpath (1, ⟨"a/1"⟩) (by simp)).mp (by decide)
  have hodd : ¬ r.IsPlain ⟨"a/05"⟩ := fun hplain =>
    absurd ((hpath (5, ⟨"a/05"⟩) (by simp)).mpr hplain) (by decide)
  exact ⟨hsound, hdiscover ▸ rfl, hplain, hodd, hfree,
    (hloaded (1, ⟨"a/1"⟩) (by simp) [] s hfree).1 hplain⟩

/-- The first period is found twice. The fifth is found where it is not looked for, so that the file
that asks for its archive stays, and nothing is loaded. -/
theorem not_reloaded_oddSpellings :
    let r : ArchiveRoot := ⟨⟨"a"⟩, .directory⟩
    let t' := oddSpellings.write ⟨"a/05.renew"⟩ []
    ∃ archives, r.discover oddSpellings = .ok archives ∧
      ¬ (archives.map Prod.fst).Nodup ∧
      (5, ⟨"a/05"⟩) ∈ archives ∧ r.archivePath 5 ≠ ⟨"a/05"⟩ ∧
      (r.handleTrigger ⟨"a/05.renew"⟩).run.run ⟨t', Store.empty⟩ =
        (.error (.cannotOpen "a/5" .missing), ⟨t', Store.empty⟩) := by
  intro r t'
  have hmem : ((5, ⟨"a/05"⟩) : Period × Path) ∈
      [(1, ⟨"a/+1"⟩), (1, ⟨"a/1"⟩), (5, ⟨"a/05"⟩)] := by simp
  have hground : oddSpellings.IsGrounded := by decide
  obtain ⟨place, -, hfinds⟩ := exists_findsAs hground discover_oddSpellings
  obtain ⟨name, node, hfound⟩ := hfinds _ hmem
  have hnone : t'.at? (r.archivePath 5) = .error .missing := by decide +kernel
  exact ⟨_, discover_oddSpellings, by decide, hmem, by decide,
    hfound.handleTrigger_write_of_error hground (isFree_oddSpellings (.inr rfl)) Store.empty hnone⟩

end ArchiveRoot

end Bulletin
