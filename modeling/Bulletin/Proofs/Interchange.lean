import Bulletin.Proofs.Packing
import Bulletin.Proofs.Places
import Bulletin.Proofs.Refusal
import Bulletin.Proofs.Sorting
import Mathlib.Data.List.Forall2

/-!
# Archives of both kinds say the same

A tarball hands out its members in the order in which they were written, a directory its files in
the order of archives. Where members are written in that order it makes no difference how they are
kept:

    deliver_of_packs     : what a tarball with some files delivers
    deliver_of_unpacks   : what a directory with some files delivers
    ingestAt_eq_of_packs : the same comes of both
-/

namespace Bulletin

/-- What files deliver, if all of them can be read. -/
def Delivery.ofFiles (files : List (String × List UInt8)) : Delivery :=
  ⟨files.map fun file => ⟨file.1, some file.2⟩, none⟩

/-- Files that an archive can have, in the order of archives. -/
structure AreInOrder (files : List (String × List UInt8)) : Prop where
  named : ∀ file ∈ files, IsFileName file.1
  distinct : (files.map Prod.fst).Nodup
  ordered : (files.map Prod.fst).Pairwise fun a b => EntryName.precedes a b = true

/-! ## Tarballs -/

namespace Tarball

/-- A member that has been read is a file, whose name may come with the directory it is in. -/
structure Reading.IsFile (m : Reading) (file : String × List UInt8) : Prop where
  name : m.name = file.1 ∨ m.name = "./" ++ file.1
  payload : m.payload = some file.2

theorem Reading.entry?_of_isFile {m : Reading} {file : String × List UInt8} (h : m.IsFile file)
    (hname : IsFileName file.1) (hdirectory : m.isDirectory = false) :
    m.entry? = some ⟨file.1, some file.2⟩ := by
  unfold entry?
  rw [hdirectory, if_neg Bool.false_ne_true, h.payload]
  rcases h.name with hplain | hdotted
  · -- a name without slashes does not begin with a dot and a slash
    have hnone : Text.afterLead? ['.', '/'] m.name.toList = none := by
      cases hlead : Text.afterLead? ['.', '/'] m.name.toList with
      | none => rfl
      | some rest =>
        have hslash := (isFileName_ofString.mp hname).2.2.2
        rw [← hplain, Text.afterLead?_eq_some_iff.mp hlead] at hslash
        simp at hslash
    rw [hnone, hplain]
  · have hlead : Text.afterLead? ['.', '/'] m.name.toList = some file.1.toList :=
      Text.afterLead?_eq_some_iff.mpr (by rw [hdotted, String.toList_append]; rfl)
    rw [hlead]
    simp

/-- The entries are those of the files, whatever directories are between them. -/
theorem filterMap_entry? {members : List Reading} {files : List (String × List UInt8)}
    (hnamed : ∀ file ∈ files, IsFileName file.1)
    (h : List.Forall₂ Reading.IsFile (members.filter fun m => !m.isDirectory) files) :
    members.filterMap Reading.entry? = (Delivery.ofFiles files).entries := by
  induction members generalizing files with
  | nil =>
    cases h
    rfl
  | cons m rest ih =>
    cases hdirectory : m.isDirectory with
    | true =>
      have hnone : m.entry? = none := by
        unfold Reading.entry?
        rw [hdirectory]
        rfl
      rw [List.filter_cons_of_neg (by simp [hdirectory])] at h
      rw [List.filterMap_cons_none hnone]
      exact ih hnamed h
    | false =>
      rw [List.filter_cons_of_pos (by simp [hdirectory])] at h
      cases h with
      | cons hfile hrest =>
        rename_i file files
        have hentry := Reading.entry?_of_isFile hfile (hnamed file List.mem_cons_self) hdirectory
        rw [List.filterMap_cons_some hentry,
          ih (fun other hother => hnamed other (List.mem_cons_of_mem _ hother)) hrest]
        rfl

end Tarball

/-- At a path a tarball can be read whose members are files and directories. -/
def Packs (t : FileTree) (p : Path) (files : List (String × List UInt8)) : Prop :=
  ∃ bytes members, t.open? p = .ok (.file bytes) ∧
    Tarball.read (Tarball.Gzip.unpack bytes) = ⟨members, none⟩ ∧
    List.Forall₂ Tarball.Reading.IsFile (members.filter fun m => !m.isDirectory) files

namespace Source

variable {t : FileTree} {p : Path} {files : List (String × List UInt8)}

theorem deliver_of_packs (hfiles : AreInOrder files) (h : Packs t p files) :
    ∃ source, openAt .tarball t p = .ok source ∧ (source.deliver t).1 = .ofFiles files := by
  obtain ⟨bytes, members, hopen, hread, hmembers⟩ := h
  refine ⟨_, openAt_of_file hopen, ?_⟩
  show Tarball.deliver (Tarball.Gzip.unpack bytes) = _
  unfold Tarball.deliver
  rw [hread, Tarball.filterMap_entry? hfiles.named hmembers]
  rfl

end Source

/-! ## Directories -/

/-- A file of a directory: its name, which need not be a text, and what it holds. -/
abbrev RawFile := RawText × List UInt8

/-- A path leads to a directory that may be listed and looked into, with some files that may be read,
and whatever else that is no file. -/
structure UnpacksAt (t : FileTree) (p : Path) (files : List RawFile) (place : Location) : Prop where
  located : t.locate true p = .ok place
  directory : t.find? place = some .directory
  listed : t.permits .read place = true
  entered : t.permits .enter place = true
  holds : ∀ name bytes, t.find? (place ++ [name]) = some (.file bytes) ↔ (name, bytes) ∈ files
  read : ∀ file ∈ files, t.permits .read (place ++ [file.1]) = true

/-- A path leads to some place where there are these files. -/
def Unpacks (t : FileTree) (p : Path) (files : List RawFile) : Prop :=
  ∃ place, UnpacksAt t p files place

/-- A file with its name as it reads. -/
def asRead (file : RawFile) : String × List UInt8 := (file.1.text, file.2)

/-- A file with its name as it is kept. -/
def asKept (file : String × List UInt8) : RawFile := (file.1, file.2)

@[simp]
theorem asRead_asKept (file : String × List UInt8) : asRead (asKept file) = file := by
  simp [asRead, asKept]

/-- Files in the order of archives, which is that of what their names read as. -/
def inOrder (files : List RawFile) : List RawFile :=
  files.mergeSort fun a b => EntryName.precedes a.1.text b.1.text

theorem inOrder_perm (files : List RawFile) : (inOrder files).Perm files :=
  List.mergeSort_perm files _

/-- What the names read as that are in order. -/
theorem texts_inOrder (files : List RawFile) :
    (inOrder files).map (fun file => file.1.text) =
      (files.map fun file => file.1.text).mergeSort (notBehind EntryName.order) :=
  List.map_mergeSort fun _ _ _ _ => rfl

/-- Where names read differently there is one order of the files only. -/
theorem inOrder_eq_of_perm {files listed : List RawFile} (h : listed.Perm files)
    (hdistinct : (files.map fun file => file.1.text).Nodup) : inOrder listed = inOrder files := by
  have hordered (files : List RawFile) :
      (inOrder files).Pairwise fun a b => EntryName.precedes a.1.text b.1.text = true := by
    have htexts : ((inOrder files).map fun file => file.1.text).Pairwise fun a b =>
        EntryName.precedes a b = true := by
      rw [texts_inOrder]
      exact pairwise_mergeSort_notBehind _
    exact List.pairwise_map.mp htexts
  have hperm : (inOrder listed).Perm (inOrder files) :=
    ((inOrder_perm listed).trans h).trans (inOrder_perm files).symm
  refine List.Perm.eq_of_pairwise (fun a b ha hb hab hba => ?_) (hordered listed) (hordered files)
    hperm
  have ha' : a ∈ files := h.mem_iff.mp ((inOrder_perm listed).mem_iff.mp ha)
  exact List.inj_on_of_nodup_map hdistinct ha' ((inOrder_perm files).mem_iff.mp hb)
    (eq_of_notBehind hab hba)

namespace Source

variable {t : FileTree} {p : Path} {files : List RawFile} {place : Location}

/-- What is listed, if it is a file. -/
def file? (entry : RawText × FileNode) : Option RawFile :=
  match entry.2 with
  | .file bytes => some (entry.1, bytes)
  | _ => none

theorem file?_eq_some_iff {entry : RawText × FileNode} {file : RawFile} :
    file? entry = some file ↔ entry = (file.1, .file file.2) := by
  obtain ⟨name, node⟩ := entry
  obtain ⟨name', bytes⟩ := file
  cases node <;> simp [file?]

theorem fileNames_eq (listing : List (RawText × FileNode)) :
    fileNames listing = (inOrder (listing.filterMap file?)).map Prod.fst := by
  have hnames : fileNames listing = ((listing.filterMap file?).map Prod.fst).mergeSort fun a b =>
      EntryName.precedes a.text b.text := by
    unfold fileNames
    rw [List.map_filterMap]
    congr 1
    refine List.filterMap_congr fun entry _ => ?_
    obtain ⟨name, node⟩ := entry
    cases node <;> rfl
  rw [hnames, inOrder, List.map_mergeSort]
  exact fun _ _ _ _ => rfl

/-- The files in a directory, in the order in which they are listed. -/
def listedFiles (t : FileTree) (l : Location) : List RawFile := (t.listing l).filterMap file?

/-- The files that are listed are those that are there. -/
theorem listedFiles_perm (hproper : t.IsProper) (hdistinct : (files.map Prod.fst).Nodup)
    (h : UnpacksAt t p files place) : (listedFiles t place).Perm files := by
  have hlist : t.list p = .ok (t.listing place) := by
    rw [FileTree.list_of_locate h.located h.directory, if_pos h.listed]
  have hnames : (listedFiles t place).Pairwise fun a b => a.1 ≠ b.1 :=
    hproper.pairwise_filterMap hlist fun entry file hfile => by rw [file?_eq_some_iff.mp hfile]
  refine (List.perm_ext_iff_of_nodup (List.Pairwise.imp ?_ hnames) hdistinct.of_map).mpr
    fun (name, bytes) => ?_
  · rintro a b hne rfl
    exact hne rfl
  · rw [listedFiles, List.mem_filterMap, ← h.holds, ← FileTree.mem_listing_iff]
    simp only [file?_eq_some_iff, exists_eq_right]

/-- The files of a directory deliver what they hold, one after the other. -/
theorem deliverFiles_of_unpacks (h : UnpacksAt t p files place)
    (hnamed : ∀ file ∈ files, IsFileName file.1) {some : List RawFile} (hsome : some ⊆ files) :
    deliverFiles t p (some.map Prod.fst) = .ofFiles (some.map asRead) := by
  induction some with
  | nil => rfl
  | cons file rest ih =>
    obtain ⟨hfile, hrest⟩ := List.cons_subset.mp hsome
    have hopen := FileTree.open?_join_of_file h.located h.directory (hnamed file hfile)
      ((h.holds file.1 file.2).mpr hfile)
    rw [h.entered, h.read file hfile, Bool.and_self, if_pos rfl] at hopen
    rw [List.map_cons, deliverFiles_cons, hopen, ih hrest]
    rfl

/-- A directory delivers its files in the order of archives, and those in the order in which they
are listed whose names read alike. -/
theorem deliver_of_unpacksAt (hproper : t.IsProper) (hnamed : ∀ file ∈ files, IsFileName file.1)
    (hdistinct : (files.map Prod.fst).Nodup) (h : UnpacksAt t p files place) :
    ∃ source, openAt .directory t p = .ok source ∧
      (source.deliver t).1 = .ofFiles ((inOrder (listedFiles t place)).map asRead) := by
  have hlist : t.list p = .ok (t.listing place) := by
    rw [FileTree.list_of_locate h.located h.directory, if_pos h.listed]
  refine ⟨_, openAt_of_list (FileTree.isDirectory_of_locate h.located h.directory) hlist, ?_⟩
  show deliverFiles t p (fileNames (t.listing place)) = _
  rw [fileNames_eq]
  exact deliverFiles_of_unpacks h hnamed fun file hfile =>
    (listedFiles_perm hproper hdistinct h).mem_iff.mp ((inOrder_perm _).mem_iff.mp hfile)

theorem deliver_of_unpacks (hproper : t.IsProper) (hnamed : ∀ file ∈ files, IsFileName file.1)
    (hdistinct : (files.map Prod.fst).Nodup) (h : Unpacks t p files) :
    ∃ source listed, listed.Perm files ∧ openAt .directory t p = .ok source ∧
      (source.deliver t).1 = .ofFiles ((inOrder listed).map asRead) := by
  obtain ⟨place, h⟩ := h
  obtain ⟨source, hopen, hdeliver⟩ := deliver_of_unpacksAt hproper hnamed hdistinct h
  exact ⟨source, _, listedFiles_perm hproper hdistinct h, hopen, hdeliver⟩

end Source

/-! ## Both -/

/-- Opens an archive, and builds the edition of a period from what it delivers. -/
def Holdings.ingestAt (layout : Layout) (t : FileTree) (p : Path) (period : Period) (h : Holdings) :
    Except ArchiveError (Holdings × Edition) := do
  let source ← Source.openAt layout t p
  h.ingest period (source.deliver t).1

/-- Files that are in the order of archives are delivered so from a directory. -/
theorem Source.deliver_asKept {t : FileTree} {p : Path} {files : List (String × List UInt8)}
    (hproper : t.IsProper) (hfiles : AreInOrder files) (h : Unpacks t p (files.map asKept)) :
    ∃ source, openAt .directory t p = .ok source ∧ (source.deliver t).1 = .ofFiles files := by
  have htexts : ((files.map asKept).map fun file => file.1.text) = files.map Prod.fst := by
    rw [List.map_map]
    exact List.map_congr_left fun file _ => congrArg Prod.fst (asRead_asKept file)
  have hdistinct : ((files.map asKept).map Prod.fst).Nodup := by
    refine List.Nodup.of_map RawText.text ?_
    rw [List.map_map]
    exact htexts ▸ hfiles.distinct
  have hordered : inOrder (files.map asKept) = files.map asKept := by
    have hpairs := hfiles.ordered
    rw [← htexts, List.pairwise_map] at hpairs
    exact List.mergeSort_of_pairwise hpairs
  obtain ⟨source, listed, hperm, hopen, hdeliver⟩ := deliver_of_unpacks hproper
    (List.forall_mem_map.mpr hfiles.named) hdistinct h
  refine ⟨source, hopen, ?_⟩
  rw [hdeliver, inOrder_eq_of_perm hperm (htexts ▸ hfiles.distinct), hordered, List.map_map]
  congr 1
  exact List.map_id'' asRead_asKept files

/-- Files in the order of archives are delivered as they are, whether they are packed or not, and
the same comes of them, or the same fault. -/
theorem ingestAt_eq_of_packs {files : List (String × List UInt8)} (hfiles : AreInOrder files)
    {t t' : FileTree} {p q : Path} (hpacks : Packs t p files) (hproper : t'.IsProper)
    (hunpacks : Unpacks t' q (files.map asKept)) :
    (∃ packed unpacked, Source.openAt .tarball t p = .ok packed ∧
        Source.openAt .directory t' q = .ok unpacked ∧
        (packed.deliver t).1 = .ofFiles files ∧ (unpacked.deliver t').1 = .ofFiles files) ∧
      (∀ period, Issue.read .tarball t p period = Issue.read .directory t' q period) ∧
      ∀ period (h : Holdings),
        h.ingestAt .tarball t p period = h.ingestAt .directory t' q period := by
  obtain ⟨packed, hpacked, hdeliver⟩ := Source.deliver_of_packs hfiles hpacks
  obtain ⟨unpacked, hunpacked, hdeliver'⟩ := Source.deliver_asKept hproper hfiles hunpacks
  refine ⟨⟨packed, unpacked, hpacked, hunpacked, hdeliver, hdeliver'⟩, fun period => ?_,
    fun period h => ?_⟩
  · rw [Issue.read_of_openAt hpacked, Issue.read_of_openAt hunpacked, hdeliver, hdeliver']
  · unfold Holdings.ingestAt
    rw [hpacked, hunpacked]
    dsimp only [bind, Except.bind]
    rw [hdeliver, hdeliver']

/-- The files of an archive with a bulletin for alice that begins with a word. -/
def bulletinFiles (word : String) : List (String × List UInt8) :=
  [("raw.json", Text.encode "\x7b\"started\":1,\"updated\":2,\"data\":\x7b\x7d\x7d"),
    ("alice.mail.header", Text.encode "<head>"),
    ("alice.mail", Text.encode ("<p>" ++ word ++ "<p><a name=footer>"))]

theorem areInOrder_bulletinFiles (word : String) : AreInOrder (bulletinFiles word) := by
  have hnames : (bulletinFiles word).map Prod.fst =
      ["raw.json", "alice.mail.header", "alice.mail"] := rfl
  refine ⟨?_, hnames ▸ by decide, hnames ▸ by decide +kernel⟩
  have hnamed : ∀ name ∈ (bulletinFiles word).map Prod.fst, IsFileName name := by
    rw [hnames]
    decide
  exact fun file hfile => hnamed file.1 (List.mem_map_of_mem hfile)

/-- Files in the directory at a place. -/
def placedIn (l : Location) (files : List (String × List UInt8)) : List (Location × FileNode) :=
  files.map fun file => (l ++ [RawText.ofString file.1], .file file.2)

/-- These files as members, the first with the directory it is in, and with directories between
them. -/
def bulletinMembers : List Tarball.Member :=
  [⟨"./", [], true⟩, ⟨"./raw.json", (bulletinFiles "Hi")[0].2, false⟩,
    ⟨"alice.mail.header", (bulletinFiles "Hi")[1].2, false⟩, ⟨"drafts", [], true⟩,
    ⟨"alice.mail", (bulletinFiles "Hi")[2].2, false⟩]

/-- The same files once packed and once not, where there is a directory among them too. -/
def bothKinds : FileTree :=
  ⟨[(["1.tar.gz"], .file (Tarball.pack bulletinMembers)), (["1"], .directory),
    (["1", "alice.mail"], .file (bulletinFiles "Hi")[2].2), (["1", "drafts"], .directory),
    (["1", "drafts", "alice.mail"], .file []), (["1", "raw.json"], .file (bulletinFiles "Hi")[0].2),
    (["1", "alice.mail.header"], .file (bulletinFiles "Hi")[1].2)], [], []⟩

/-- What is read of a member. -/
def Tarball.Member.asRead (m : Member) : Reading := ⟨m.name, some m.contents, m.isDirectory⟩

-- the members take up some thousand bytes
set_option maxRecDepth 100000 in
theorem read_bulletinMembers :
    Tarball.read ⟨Tarball.packMembers bulletinMembers, .clean⟩ =
      ⟨bulletinMembers.map Tarball.Member.asRead, none⟩ := by
  decide +kernel

theorem packs_bothKinds : Packs bothKinds ⟨"1.tar.gz"⟩ (bulletinFiles "Hi") := by
  refine ⟨Tarball.pack bulletinMembers, bulletinMembers.map Tarball.Member.asRead, rfl, ?_, ?_⟩
  · unfold Tarball.pack
    rw [Tarball.Gzip.unpack_pack]
    exact read_bulletinMembers
  · exact .cons ⟨.inr rfl, rfl⟩ (.cons ⟨.inl rfl, rfl⟩ (.cons ⟨.inl rfl, rfl⟩ .nil))

theorem isProper_bothKinds : bothKinds.IsProper := by
  unfold FileTree.IsProper
  decide

theorem unpacks_bothKinds : Unpacks bothKinds ⟨"1"⟩ ((bulletinFiles "Hi").map asKept) := by
  refine ⟨["1"], rfl, rfl, rfl, rfl, fun name bytes => ?_, fun file _ => rfl⟩
  rw [isProper_bothKinds.find?_concat_eq_some_iff]
  simp [bothKinds, bulletinFiles, asKept, or_comm, or_left_comm, or_assoc]

/-- Both are delivered alike, and as they say of their period what can be ingested, so it is. -/
theorem ingestAt_eq_of_packs_bothKinds :
    AreInOrder (bulletinFiles "Hi") ∧ Packs bothKinds ⟨"1.tar.gz"⟩ (bulletinFiles "Hi") ∧
      bothKinds.IsProper ∧ Unpacks bothKinds ⟨"1"⟩ ((bulletinFiles "Hi").map asKept) ∧
      (∀ period (h : Holdings),
        h.ingestAt .tarball bothKinds ⟨"1.tar.gz"⟩ period =
          h.ingestAt .directory bothKinds ⟨"1"⟩ period) ∧
      (Holdings.empty.ingestAt .tarball bothKinds ⟨"1.tar.gz"⟩ 1).isOk := by
  obtain ⟨⟨packed, unpacked, hpacked, -, hdeliver, -⟩, -, hingest⟩ :=
    ingestAt_eq_of_packs (areInOrder_bulletinFiles "Hi") packs_bothKinds isProper_bothKinds
      unpacks_bothKinds
  refine ⟨areInOrder_bulletinFiles "Hi", packs_bothKinds, isProper_bothKinds, unpacks_bothKinds,
    hingest, ?_⟩
  unfold Holdings.ingestAt
  rw [hpacked]
  dsimp only [bind, Except.bind]
  rw [hdeliver]
  decide +kernel

end Bulletin
