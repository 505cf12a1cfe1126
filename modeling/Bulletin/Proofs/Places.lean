import Bulletin.Files.Tree
import Bulletin.Proofs.RawTexts
import Mathlib.Data.List.Nodup

/-!
# Where paths lead

A path is followed from segment to segment, and through links. Of something in a directory all that
counts is where the path of the directory leads and what is there under the name:

    locate_join  : the path of a file in a directory leads to the file's place
    entry?_join  : and what is there is what the directory has under the file's name
    mem_list_iff : which is also what is listed

To look for it the directory must be one that may be entered, and to list it one that may be read.

Of a tree in which every place is taken once, each name is listed once, and the order in which a tree
was made makes no difference to where paths lead.
-/

namespace Bulletin

open Text (cutAll)

/-! ## Names and segments -/

section

variable {α : Type} [DecidableEq α] {sep : α} {s : List α}

theorem Text.cutAll_ne_nil (sep : α) (s : List α) : cutAll sep s ≠ [] := by
  cases s with
  | nil => simp [cutAll]
  | cons c s =>
    rw [cutAll]
    split
    · simp
    · split <;> simp

theorem Text.cutAll_append_sep (sep : α) (s rest : List α) :
    cutAll sep (s ++ sep :: rest) = cutAll sep s ++ cutAll sep rest := by
  induction s with
  | nil => simp [cutAll]
  | cons c s ih =>
    rw [List.cons_append, cutAll, cutAll, ih]
    by_cases hc : c = sep
    · simp [hc]
    · obtain ⟨part, parts, hparts⟩ := List.exists_cons_of_ne_nil (Text.cutAll_ne_nil sep s)
      simp [hc, hparts]

theorem Text.cutAll_of_not_mem (h : sep ∉ s) : cutAll sep s = [s] := by
  induction s with
  | nil => rfl
  | cons c s ih =>
    rw [List.mem_cons, not_or] at h
    rw [cutAll, if_neg (Ne.symm h.1), ih h.2]

end

/-- What can be the name of a file in a directory. -/
structure IsFileName (name : RawText) : Prop where
  part : Path.part? name = some (.name name)
  plain : Path.slash ∉ name.bytes

theorem isFileName_iff {name : RawText} :
    IsFileName name ↔ name ≠ "" ∧ name ≠ "." ∧ name ≠ ".." ∧ Path.slash ∉ name.bytes := by
  have hpart : Path.part? name = some (.name name) ↔ name ≠ "" ∧ name ≠ "." ∧ name ≠ ".." := by
    unfold Path.part?
    by_cases hup : name = ".."
    · simp [hup]
    · by_cases hhere : name = "" ∨ name = "."
      · rcases hhere with rfl | rfl <;> simp
      · rw [not_or] at hhere
        simp [hup, hhere.1, hhere.2]
  constructor
  · rintro ⟨hname, hplain⟩
    obtain ⟨hempty, hhere, hup⟩ := hpart.mp hname
    exact ⟨hempty, hhere, hup, hplain⟩
  · rintro ⟨hempty, hhere, hup, hplain⟩
    exact ⟨hpart.mpr ⟨hempty, hhere, hup⟩, hplain⟩

instance (name : RawText) : Decidable (IsFileName name) := decidable_of_iff _ isFileName_iff.symm

namespace IsFileName

variable {name : RawText} (h : IsFileName name)

include h

theorem ne_empty : name ≠ "" := (isFileName_iff.mp h).1

theorem head?_ne : name.bytes.head? ≠ some Path.slash := by
  intro hhead
  exact h.plain (List.mem_of_head? hhead)

end IsFileName

/-- A text is the name of a file if it is not empty, is not made of dots that lead nowhere or up, and
has no slashes. -/
theorem isFileName_ofString {name : String} :
    IsFileName name ↔ name ≠ "" ∧ name ≠ "." ∧ name ≠ ".." ∧ '/' ∉ name.toList := by
  simp only [isFileName_iff, ne_eq, RawText.ofString_inj, RawText.slash_mem_iff]

namespace Path

variable {directory : Path} {name : RawText}

theorem isEmpty_eq_false_iff : directory.isEmpty = false ↔ directory.raw.bytes ≠ [] := by
  rw [isEmpty, List.isEmpty_eq_false_iff]

/-- The bytes of a path in a directory: where the directory does not end in a slash, one is put
in. -/
theorem join_cases (hdirectory : directory.isEmpty = false) (hname : IsFileName name) :
    (∃ front, directory.raw.bytes = front ++ [slash] ∧
        (directory.join name).raw.bytes = front ++ slash :: name.bytes) ∨
      (directory.join name).raw.bytes = directory.raw.bytes ++ slash :: name.bytes := by
  unfold join
  rw [if_neg (by simp [hname.head?_ne, hdirectory])]
  by_cases hslash : directory.raw.bytes.getLast? = some slash
  · obtain ⟨front, hfront⟩ := List.getLast?_eq_some_iff.mp hslash
    refine .inl ⟨front, hfront, ?_⟩
    rw [if_pos hslash, RawText.bytes_append, hfront]
    simp
  · refine .inr ?_
    rw [if_neg hslash]

/-- The segments of a path in a directory are those of the directory, without the empty one behind
a slash at its end, and the name. -/
theorem segments_join (hdirectory : directory.isEmpty = false) (hname : IsFileName name) :
    ∃ front pad, (pad = [] ∨ pad = [RawText.ofString ""]) ∧ directory.segments = front ++ pad ∧
      (directory.join name).segments = front ++ [name] := by
  unfold segments
  rcases join_cases hdirectory hname with ⟨front, hfront, hjoin⟩ | hjoin
  · refine ⟨(cutAll slash front).map RawText.mk, [RawText.ofString ""], .inr rfl, ?_, ?_⟩
    · rw [hfront, Text.cutAll_append_sep, List.map_append]
      rfl
    · rw [hjoin, Text.cutAll_append_sep, Text.cutAll_of_not_mem hname.plain, List.map_append]
      rfl
  · refine ⟨(cutAll slash directory.raw.bytes).map RawText.mk, [], .inl rfl, ?_, ?_⟩
    · rw [List.append_nil]
    · rw [hjoin, Text.cutAll_append_sep, Text.cutAll_of_not_mem hname.plain, List.map_append]
      rfl

theorem isAbsolute_join (hdirectory : directory.isEmpty = false) (hname : IsFileName name) :
    (directory.join name).isAbsolute = directory.isAbsolute := by
  unfold isAbsolute
  rcases join_cases hdirectory hname with ⟨front, hfront, hjoin⟩ | hjoin
  · rw [hfront, hjoin]
    cases front <;> rfl
  · obtain ⟨b, rest, hcons⟩ := List.exists_cons_of_ne_nil (isEmpty_eq_false_iff.mp hdirectory)
    rw [hjoin, hcons]
    rfl

theorem isEmpty_join (hdirectory : directory.isEmpty = false) (hname : IsFileName name) :
    (directory.join name).isEmpty = false := by
  rw [isEmpty_eq_false_iff]
  rcases join_cases hdirectory hname with ⟨front, -, hjoin⟩ | hjoin
  · simp [hjoin]
  · simp [hjoin]

/-- The name can be read off the path. -/
theorem getLast?_segments_join (hdirectory : directory.isEmpty = false) (hname : IsFileName name) :
    (directory.join name).segments.getLast? = some name := by
  obtain ⟨front, pad, -, -, hjoin⟩ := segments_join hdirectory hname
  rw [hjoin, List.getLast?_concat]

/-- Whatever the directory is, the name in it is the last part. -/
theorem fileName?_join (directory : Path) (hname : IsFileName name) :
    (directory.join name).fileName? = some name := by
  have hsegments : ∃ front, (directory.join name).segments = front ++ [name] := by
    cases hdirectory : directory.isEmpty with
    | true =>
      refine ⟨[], ?_⟩
      rw [join, if_pos (by simp [hdirectory]), segments, Text.cutAll_of_not_mem hname.plain]
      rfl
    | false =>
      obtain ⟨front, pad, -, -, hjoin⟩ := segments_join hdirectory hname
      exact ⟨front, hjoin⟩
  obtain ⟨front, hfront⟩ := hsegments
  have hlast : (directory.join name).parts.getLast? = some (.name name) := by
    unfold parts
    rw [hfront, List.filterMap_append, List.filterMap_cons_some hname.part, List.filterMap_nil]
    dsimp only
    split
    · rw [← List.cons_append, List.getLast?_concat]
    · split
      · rw [← List.cons_append, List.getLast?_concat]
      · rw [List.getLast?_concat]
  rw [fileName?, hlast]

theorem join_inj {name' : RawText} (hdirectory : directory.isEmpty = false)
    (hname : IsFileName name) (hname' : IsFileName name') :
    directory.join name = directory.join name' ↔ name = name' := by
  constructor
  · intro hsame
    have hlast := getLast?_segments_join hdirectory hname
    rw [hsame, getLast?_segments_join hdirectory hname'] at hlast
    exact (Option.some.inj hlast).symm
  · rintro rfl
    rfl

end Path

namespace FileTree

open Bulletin.Path (part?)

variable {t : FileTree}

/-! ## A path in a directory -/

/-- The place of a name in a directory, if that may be looked into and has something there. -/
def placeIn (t : FileTree) (l : Location) (name : RawText) : Except OpenFailure Location :=
  if !t.permits .enter l then .error .denied
  else
    match t.find? (l ++ [name]) with
    | none => .error .missing
    | some _ => .ok (l ++ [name])

/-- A link is followed unless it is at the end and is not to be, or is not let be seen. -/
def StopsAt (t : FileTree) (followLast : Bool) (l : Location) (name : RawText) : Prop :=
  followLast = false ∨ t.permits .enter l = false ∨
    ∀ target, t.find? (l ++ [name]) ≠ some (.link target)

theorem walkWith_name {follow : Location → List RawText → Except OpenFailure Location}
    {followLast : Bool} {l : Location} {name : RawText} (hname : IsFileName name)
    (hstops : t.StopsAt followLast l name) :
    walkWith follow t followLast l [name] = t.placeIn l name := by
  unfold placeIn
  rw [walkWith, hname.part, decide_eq_true hname.ne_empty, Bool.true_and]
  dsimp only
  refine ite_congr rfl (fun _ => rfl) fun henter => ?_
  cases hfind : t.find? (l ++ [name]) with
  | none => rfl
  | some node =>
    cases node with
    | directory => rfl
    | file bytes => rfl
    | link target =>
      rcases hstops with rfl | hdenied | hno
      · rfl
      · rw [hdenied] at henter
        exact absurd rfl henter
      · exact absurd hfind (hno target)

/-- Where a directory is reached, something in it is reached by one more segment, if that is so of
the paths that links are replaced by. -/
theorem walkWith_concat {follow follow' : Location → List RawText → Except OpenFailure Location}
    {followLast : Bool} {pad : List RawText} {place : Location} {name : RawText}
    (hpad : pad = [] ∨ pad = [RawText.ofString ""]) (hname : IsFileName name)
    (hplace : t.find? place = some .directory) (hstops : t.StopsAt followLast place name)
    (hfollow : ∀ l segments, follow l (segments ++ pad) = .ok place →
      follow' l (segments ++ [name]) = t.placeIn place name)
    (segments : List RawText) (l : Location)
    (h : walkWith follow t true l (segments ++ pad) = .ok place) :
    walkWith follow' t followLast l (segments ++ [name]) = t.placeIn place name := by
  induction segments generalizing l with
  | nil =>
    have hhere : l = place := by
      rcases hpad with rfl | rfl
      · exact Except.ok.inj h
      · exact Except.ok.inj h
    rw [List.nil_append, hhere]
    exact walkWith_name hname hstops
  | cons segment rest ih =>
    rw [List.cons_append, walkWith] at h ⊢
    split at h
    · cases h
    rename_i henter
    rw [if_neg henter]
    cases hpart : part? segment with
    | none =>
      rw [hpart] at h
      exact ih l h
    | some part =>
      rw [hpart] at h
      cases part with
      | root => exact ih l h
      | here => exact ih l h
      | up => exact ih _ h
      | name s =>
        dsimp only at h ⊢
        cases hfind : t.find? (l ++ [s]) with
        | none =>
          rw [hfind] at h
          cases h
        | some node =>
          rw [hfind] at h
          cases node with
          | directory => exact ih _ h
          | file bytes =>
            -- a file is no directory, and nothing is behind it
            dsimp only at h
            split at h
            · rw [← Except.ok.inj h, hfind] at hplace
              cases hplace
            · cases h
          | link target =>
            dsimp only at h ⊢
            rw [Bool.not_true, Bool.and_false, if_neg Bool.false_ne_true] at h
            rw [if_neg (by simp)]
            split at h
            · cases h
            · rename_i hleads
              rw [if_neg hleads, ← List.append_assoc]
              rw [← List.append_assoc] at h
              exact hfollow _ _ h

theorem walk_concat {followLast : Bool} {pad : List RawText} {place : Location} {name : RawText}
    (hpad : pad = [] ∨ pad = [RawText.ofString ""]) (hname : IsFileName name)
    (hplace : t.find? place = some .directory) (hstops : t.StopsAt followLast place name)
    (links : Nat) (l : Location) (segments : List RawText)
    (h : walk t true links l (segments ++ pad) = .ok place) :
    walk t followLast links l (segments ++ [name]) = t.placeIn place name := by
  induction links generalizing l segments with
  | zero =>
    refine walkWith_concat hpad hname hplace hstops (fun l segments hl => ?_) segments l h
    cases hl
  | succ links ih =>
    exact walkWith_concat hpad hname hplace hstops (fun l segments hl => ih l segments hl)
      segments l h

theorem isEmpty_of_locate {followLast : Bool} {p : Path} {place : Location}
    (h : t.locate followLast p = .ok place) : p.isEmpty = false := by
  unfold locate at h
  split at h
  · cases h
  · exact eq_false_of_ne_true ‹_›

/-- A path in a directory leads to a place in the place of the directory. -/
theorem locate_join {followLast : Bool} {p : Path} {place : Location} {name : RawText}
    (h : t.locate true p = .ok place) (hplace : t.find? place = some .directory)
    (hname : IsFileName name) (hstops : t.StopsAt followLast place name) :
    t.locate followLast (p.join name) = t.placeIn place name := by
  have hp := isEmpty_of_locate h
  have hjoined := Path.isEmpty_join hp hname
  obtain ⟨front, pad, hpad, hsegments, hjoin⟩ := Path.segments_join hp hname
  unfold locate at h ⊢
  rw [hp, if_neg Bool.false_ne_true, hsegments] at h
  rw [hjoined, if_neg Bool.false_ne_true, hjoin, start, Path.isAbsolute_join hp hname]
  exact walk_concat hpad hname hplace hstops maxLinks _ front h

/-- Nothing is found in a directory that may not be looked into. -/
theorem locate_join_of_denied (followLast : Bool) {p : Path} {place : Location} {name : RawText}
    (h : t.locate true p = .ok place) (hplace : t.find? place = some .directory)
    (henter : t.permits .enter place = false) (hname : IsFileName name) :
    t.locate followLast (p.join name) = .error .denied := by
  rw [locate_join h hplace hname (.inr (.inl henter)), placeIn, henter]
  rfl

/-- What a path leads to, where a link at its end is not followed. -/
def entry? (t : FileTree) (p : Path) : Option FileNode :=
  (t.locate false p).toOption.bind t.find?

/-- What is at a path in a directory that may be looked into is what the directory has under the
name. -/
theorem entry?_join {p : Path} {place : Location} {name : RawText}
    (h : t.locate true p = .ok place) (hplace : t.find? place = some .directory)
    (henter : t.permits .enter place = true) (hname : IsFileName name) :
    t.entry? (p.join name) = t.find? (place ++ [name]) := by
  unfold entry?
  rw [locate_join h hplace hname (.inl rfl)]
  unfold placeIn
  rw [henter, Bool.not_true, if_neg Bool.false_ne_true]
  cases hfind : t.find? (place ++ [name]) with
  | none => rfl
  | some node => exact hfind

theorem at?_join_of_denied {p : Path} {place : Location} {name : RawText}
    (h : t.locate true p = .ok place) (hplace : t.find? place = some .directory)
    (henter : t.permits .enter place = false) (hname : IsFileName name) :
    t.at? (p.join name) = .error .denied := by
  unfold at?
  rw [locate_join_of_denied true h hplace henter hname]
  rfl

theorem at?_of_locate {p : Path} {place : Location} {node : FileNode}
    (h : t.locate true p = .ok place) (hfind : t.find? place = some node) : t.at? p = .ok node := by
  unfold at?
  rw [h]
  simp [Except.bind, hfind]

theorem open?_of_locate {p : Path} {place : Location} {node : FileNode}
    (h : t.locate true p = .ok place) (hfind : t.find? place = some node) :
    t.open? p = if t.permits .read place then .ok node else .error .denied := by
  unfold open?
  rw [h]
  simp [Except.bind, hfind]

/-- The path of something in a directory that may be looked into leads to its place, unless it is a
link. -/
theorem locate_join_of_find? {p : Path} {place : Location} {name : RawText} {node : FileNode}
    (h : t.locate true p = .ok place) (hplace : t.find? place = some .directory)
    (henter : t.permits .enter place = true) (hname : IsFileName name)
    (hfind : t.find? (place ++ [name]) = some node) (hlink : ∀ target, node ≠ .link target) :
    t.locate true (p.join name) = .ok (place ++ [name]) := by
  have hstops : t.StopsAt true place name := by
    refine .inr (.inr fun target hother => ?_)
    rw [hfind] at hother
    exact hlink target (Option.some.inj hother)
  rw [locate_join h hplace hname hstops, placeIn, henter, hfind]
  rfl

/-- What a file in a directory holds can be read if the directory may be looked into and the file may
be read. -/
theorem open?_join_of_file {p : Path} {place : Location} {name : RawText} {bytes : List UInt8}
    (h : t.locate true p = .ok place) (hplace : t.find? place = some .directory)
    (hname : IsFileName name) (hfile : t.find? (place ++ [name]) = some (.file bytes)) :
    t.open? (p.join name) =
      if t.permits .enter place && t.permits .read (place ++ [name]) then .ok (.file bytes)
      else .error .denied := by
  cases henter : t.permits .enter place with
  | true =>
    have hlocate := locate_join_of_find? h hplace henter hname hfile (by simp)
    rw [open?_of_locate hlocate hfile, Bool.true_and]
  | false =>
    unfold open?
    rw [locate_join_of_denied true h hplace henter hname]
    rfl

theorem isDirectory_of_locate {p : Path} {place : Location} (h : t.locate true p = .ok place)
    (hplace : t.find? place = some .directory) : t.isDirectory p := by
  rw [isDirectory, at?_of_locate h hplace]

theorem exists_place_of_isDirectory {p : Path} (h : t.isDirectory p) :
    ∃ place, t.locate true p = .ok place ∧ t.find? place = some .directory := by
  unfold isDirectory at? at h
  cases hlocate : t.locate true p with
  | error reason =>
    rw [hlocate] at h
    cases h
  | ok place =>
    rw [hlocate] at h
    refine ⟨place, rfl, ?_⟩
    cases hfind : t.find? place with
    | none => simp [Except.bind, hfind] at h
    | some node =>
      cases node with
      | directory => rfl
      | file bytes => simp [Except.bind, hfind] at h
      | link target => simp [Except.bind, hfind] at h

/-! ## Listing a directory -/

theorem find?_concat (t : FileTree) (l : Location) (name : RawText) :
    t.find? (l ++ [name]) = (t.nodes.find? fun n => n.1 = l ++ [name]).map Prod.snd := by
  unfold find?
  rw [if_neg (by simp)]

theorem childName?_eq_some_iff {parent l : Location} {name : RawText} :
    childName? parent l = some name ↔ l = parent ++ [name] := by
  unfold childName?
  constructor
  · intro h
    split at h
    · rename_i hparent
      obtain ⟨front, hfront⟩ := List.getLast?_eq_some_iff.mp h
      rw [hfront, List.dropLast_concat] at hparent
      rw [hfront, hparent]
    · cases h
  · rintro rfl
    rw [if_pos List.dropLast_concat, List.getLast?_concat]

theorem mem_children_iff {l : Location} {name : RawText} :
    name ∈ t.children l ↔ (t.find? (l ++ [name])).isSome := by
  unfold children
  rw [find?_concat, List.mem_filterMap, Option.isSome_map, List.find?_isSome]
  simp only [childName?_eq_some_iff, decide_eq_true_eq]

/-- What is directly in a directory, by its names. -/
def listing (t : FileTree) (l : Location) : List (RawText × FileNode) :=
  (t.children l).filterMap fun name => (t.find? (l ++ [name])).map fun n => (name, n)

theorem mem_listing_iff {l : Location} {name : RawText} {node : FileNode} :
    (name, node) ∈ t.listing l ↔ t.find? (l ++ [name]) = some node := by
  rw [listing, List.mem_filterMap]
  constructor
  · rintro ⟨name', -, hmap⟩
    obtain ⟨node', hnode, heq⟩ := Option.map_eq_some_iff.mp hmap
    cases heq
    exact hnode
  · intro hfind
    refine ⟨name, mem_children_iff.mpr (hfind ▸ rfl), ?_⟩
    rw [hfind]
    rfl

theorem list_eq (t : FileTree) (p : Path) :
    t.list p = (t.locate true p).bind fun l =>
      if t.find? l = some .directory && !t.permits .read l then .error .denied
      else .ok (t.listing l) := rfl

/-- A directory is listed if it may be read. -/
theorem list_of_locate {p : Path} {place : Location} (h : t.locate true p = .ok place)
    (hplace : t.find? place = some .directory) :
    t.list p = if t.permits .read place then .ok (t.listing place) else .error .denied := by
  rw [list_eq, h, Except.bind, decide_eq_true hplace, Bool.true_and]
  cases t.permits .read place <;> rfl

theorem exists_place_of_list {p : Path} {listing : List (RawText × FileNode)}
    (hlist : t.list p = .ok listing) :
    ∃ place, t.locate true p = .ok place ∧ listing = t.listing place := by
  rw [list_eq] at hlist
  cases hlocate : t.locate true p with
  | error reason =>
    rw [hlocate] at hlist
    cases hlist
  | ok place =>
    rw [hlocate, Except.bind] at hlist
    split at hlist
    · cases hlist
    · exact ⟨place, rfl, (Except.ok.inj hlist).symm⟩

/-- What is listed of a directory is what it has under any names. -/
theorem mem_list_iff {p : Path} {place : Location} {listing : List (RawText × FileNode)}
    (h : t.locate true p = .ok place) (hlist : t.list p = .ok listing) (name : RawText)
    (node : FileNode) : (name, node) ∈ listing ↔ t.find? (place ++ [name]) = some node := by
  obtain ⟨place', hplace', rfl⟩ := exists_place_of_list hlist
  rw [h] at hplace'
  cases hplace'
  exact mem_listing_iff

/-! ## Trees in which every place is taken once -/

/-- No place is taken twice. -/
def IsProper (t : FileTree) : Prop := (t.nodes.map Prod.fst).Nodup

theorem IsProper.put (h : t.IsProper) (l : Location) (n : FileNode) : (t.put l n).IsProper := by
  unfold IsProper FileTree.put
  by_cases hl : (t.nodes.any fun m => m.1 = l) = true
  · have hplaces : (t.nodes.map fun m => if m.1 = l then (l, n) else m).map Prod.fst =
        t.nodes.map Prod.fst := by
      rw [List.map_map]
      refine List.map_congr_left fun m _ => ?_
      by_cases hm : m.1 = l
      · simp [hm]
      · simp [hm]
    rw [if_pos hl, hplaces]
    exact h
  · rw [if_neg hl, List.map_append, List.nodup_append]
    refine ⟨h, by simp, fun a ha b hb => ?_⟩
    rw [List.map_singleton, List.mem_singleton] at hb
    rintro rfl
    obtain ⟨m, hm, rfl⟩ := List.mem_map.mp ha
    exact hl (List.any_eq_true.mpr ⟨m, hm, by simp [hb]⟩)

theorem IsProper.erase (h : t.IsProper) (l : Location) : (t.erase l).IsProper :=
  (List.filter_sublist.map Prod.fst).nodup h

/-! ### Changes keep a tree proper -/

theorem IsProper.makeDirectory (h : t.IsProper) (p : Path) : (t.makeDirectory p).IsProper := by
  unfold FileTree.makeDirectory
  split
  · exact h
  · split
    · exact h.put _ _
    · exact h

theorem IsProper.makeDirectories (h : t.IsProper) (p : Path) : (t.makeDirectories p).IsProper := by
  unfold FileTree.makeDirectories
  dsimp only
  generalize List.range (p.parts.length + 1) = counts
  induction counts generalizing t with
  | nil => exact h
  | cons n rest ih => exact ih (h.makeDirectory _)

theorem IsProper.makeParents (h : t.IsProper) (p : Path) : (t.makeParents p).IsProper := by
  unfold FileTree.makeParents
  split
  · exact h.makeDirectories _
  · exact h

theorem IsProper.write (h : t.IsProper) (p : Path) (bytes : List UInt8) :
    (t.write p bytes).IsProper := by
  unfold FileTree.write
  dsimp only
  split
  · exact (h.makeParents p).put _ _
  · exact h.makeParents p

theorem IsProper.link (h : t.IsProper) (p target : Path) : (t.link p target).IsProper := by
  unfold FileTree.link
  dsimp only
  split
  · exact (h.makeParents p).put _ _
  · exact h.makeParents p

theorem IsProper.remove (h : t.IsProper) (p : Path) : (t.remove p).IsProper := by
  unfold FileTree.remove
  split
  · exact h.erase _
  · exact h

theorem IsProper.unlink (h : t.IsProper) (p : Path) : (t.unlink p).IsProper := by
  have hone (l : Location) : (if t.permits .change l.dropLast then t.erase l else t).IsProper := by
    split
    · exact h.erase l
    · exact h
  unfold FileTree.unlink
  split
  · split
    · exact hone _
    · exact hone _
    · exact h
  · exact h

/-! ### Names are listed once -/

theorem IsProper.nodup_children (h : t.IsProper) (l : Location) : (t.children l).Nodup := by
  have hplaces : t.children l = (t.nodes.map Prod.fst).filterMap (childName? l) := by
    rw [List.filterMap_map]
    rfl
  rw [hplaces]
  refine List.Nodup.filterMap ?_ h
  intro a b name ha hb
  rw [Option.mem_def, childName?_eq_some_iff] at ha hb
  rw [ha, hb]

/-- Each name is listed once. -/
theorem IsProper.nodup_list (h : t.IsProper) {p : Path} {listing : List (RawText × FileNode)}
    (hlist : t.list p = .ok listing) : (listing.map Prod.fst).Nodup := by
  obtain ⟨place, -, rfl⟩ := exists_place_of_list hlist
  rw [FileTree.listing, List.map_filterMap]
  refine List.Nodup.filterMap ?_ (h.nodup_children place)
  intro a b name ha hb
  simp only [Option.map_map, Option.mem_def, Option.map_eq_some_iff, Function.comp] at ha hb
  obtain ⟨_, _, rfl⟩ := ha
  obtain ⟨_, _, rfl⟩ := hb
  rfl

/-- What is picked from a listing under the names that are listed has distinct names. -/
theorem IsProper.pairwise_filterMap (h : t.IsProper) {p : Path}
    {listing : List (RawText × FileNode)} (hlist : t.list p = .ok listing) {α : Type}
    {pick : RawText × FileNode → Option α} {name : α → RawText}
    (hpick : ∀ entry a, pick entry = some a → name a = entry.1) :
    (listing.filterMap pick).Pairwise fun a b => name a ≠ name b := by
  have hnames : listing.Pairwise fun x y => x.1 ≠ y.1 := List.pairwise_map.mp (h.nodup_list hlist)
  refine hnames.filterMap _ fun x y hne a ha b hb => ?_
  rw [hpick x a ha, hpick y b hb]
  exact hne

/-! ## The order in which a tree was made -/

/-- The tree with other things in it. -/
def withNodes (t : FileTree) (nodes : List (Location × FileNode)) : FileTree := { t with nodes }

section

variable {nodes : List (Location × FileNode)}

theorem IsProper.of_perm (h : t.IsProper) (hperm : nodes.Perm t.nodes) :
    (t.withNodes nodes).IsProper := (hperm.map Prod.fst).nodup_iff.mpr h

theorem IsProper.find?_nodes_eq_some_iff (h : t.IsProper) {l : Location} {m : Location × FileNode} :
    (t.nodes.find? fun n => n.1 = l) = some m ↔ m ∈ t.nodes ∧ m.1 = l := by
  constructor
  · intro hfind
    exact ⟨List.mem_of_find?_eq_some hfind, by simpa using List.find?_some hfind⟩
  · rintro ⟨hmem, hl⟩
    cases hfind : t.nodes.find? fun n => n.1 = l with
    | none => simpa [hl] using List.find?_eq_none.mp hfind m hmem
    | some m' =>
      have hl' : m'.1 = l := by simpa using List.find?_some hfind
      have hmem' := List.mem_of_find?_eq_some hfind
      rw [List.inj_on_of_nodup_map h hmem' hmem (hl'.trans hl.symm)]

theorem IsProper.find?_concat_eq_some_iff (h : t.IsProper) {l : Location} {name : RawText}
    {node : FileNode} : t.find? (l ++ [name]) = some node ↔ (l ++ [name], node) ∈ t.nodes := by
  rw [find?_concat, Option.map_eq_some_iff]
  constructor
  · rintro ⟨m, hm, rfl⟩
    obtain ⟨hmem, hl⟩ := h.find?_nodes_eq_some_iff.mp hm
    rw [← hl]
    exact hmem
  · intro hmem
    exact ⟨_, h.find?_nodes_eq_some_iff.mpr ⟨hmem, rfl⟩, rfl⟩

theorem IsProper.find?_withNodes (h : t.IsProper) (hperm : nodes.Perm t.nodes) :
    (t.withNodes nodes).find? = t.find? := by
  funext l
  have hnodes : (nodes.find? fun n => n.1 = l) = t.nodes.find? fun n => n.1 = l := by
    apply Option.ext
    intro m
    have hmem := (h.of_perm hperm).find?_nodes_eq_some_iff (l := l) (m := m)
    rw [h.find?_nodes_eq_some_iff, ← hperm.mem_iff]
    exact hmem
  unfold find? withNodes
  rw [hnodes]

theorem walkWith_withNodes (h : (t.withNodes nodes).find? = t.find?)
    (follow : Location → List RawText → Except OpenFailure Location) (followLast : Bool)
    (l : Location) (segments : List RawText) :
    walkWith follow (t.withNodes nodes) followLast l segments =
      walkWith follow t followLast l segments := by
  induction segments generalizing l with
  | nil => rfl
  | cons segment rest ih =>
    rw [walkWith, walkWith, h]
    simp only [ih]
    rfl

/-- Where paths lead is a matter of what is at each place. -/
theorem locate_withNodes (h : (t.withNodes nodes).find? = t.find?) (followLast : Bool) (p : Path) :
    (t.withNodes nodes).locate followLast p = t.locate followLast p := by
  have hwalk : ∀ links, walk (t.withNodes nodes) followLast links = walk t followLast links := by
    intro links
    induction links with
    | zero =>
      funext l segments
      exact walkWith_withNodes h _ followLast l segments
    | succ links ih =>
      funext l segments
      show walkWith (walk (t.withNodes nodes) followLast links) (t.withNodes nodes) followLast l
          segments = walkWith (walk t followLast links) t followLast l segments
      rw [ih]
      exact walkWith_withNodes h _ followLast l segments
  unfold locate
  rw [hwalk]
  rfl

theorem IsProper.listing_perm (h : t.IsProper) (hperm : nodes.Perm t.nodes) (l : Location) :
    ((t.withNodes nodes).listing l).Perm (t.listing l) := by
  unfold listing
  rw [h.find?_withNodes hperm]
  exact (hperm.filterMap _).filterMap _

/-- The same is listed, in whatever order, or for the same reason nothing. -/
theorem IsProper.list_withNodes (h : t.IsProper) (hperm : nodes.Perm t.nodes) (p : Path) :
    (∃ reason, (t.withNodes nodes).list p = .error reason ∧ t.list p = .error reason) ∨
      ∃ listing listing', (t.withNodes nodes).list p = .ok listing' ∧ t.list p = .ok listing ∧
        listing'.Perm listing := by
  have hfind := h.find?_withNodes hperm
  rw [list_eq, list_eq, locate_withNodes hfind, hfind]
  cases t.locate true p with
  | error reason => exact .inl ⟨reason, rfl, rfl⟩
  | ok place =>
    have hpermits : (t.withNodes nodes).permits = t.permits := rfl
    rw [Except.bind, Except.bind, hpermits]
    split
    · exact .inl ⟨_, rfl, rfl⟩
    · exact .inr ⟨_, _, rfl, rfl, h.listing_perm hperm place⟩

end

end FileTree

end Bulletin
