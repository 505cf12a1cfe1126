import Bulletin.Proofs.Walking

/-!
# Creating a file in a directory

To write a file is to make the directories that it is in, and then the file. Where the directory is
there and has nothing under the file's name, that is to put one file into the tree; so all that was
there stays, and to remove the file again undoes it:

    write_join    : what there is when the file has been written
    unlink_create : what there is when it has been removed again
-/

namespace Bulletin

/-! ## The path of something in a directory -/

namespace Path

variable {p : Path} {name : RawText}

theorem lead_join (hp : p.isEmpty = false) (hname : IsFileName name) :
    (p.join name).lead = p.lead := by
  obtain ⟨front, pad, hpad, hsegments, hjoined⟩ := segments_join hp hname
  have hhere : ((p.join name).segments.head? = some (RawText.ofString ".")) ↔
      p.segments.head? = some (RawText.ofString ".") := by
    rw [hsegments, hjoined]
    cases front with
    | cons first front => simp
    | nil =>
      have hdot : name ≠ "." := (isFileName_iff.mp hname).2.1
      rcases hpad with rfl | rfl
      · simp [hdot]
      · simp [hdot]
  rw [lead, lead, isAbsolute_join hp hname]
  exact ite_congr rfl (fun _ => rfl) fun _ => if_congr hhere rfl rfl

theorem parts_join (hp : p.isEmpty = false) (hname : IsFileName name) :
    (p.join name).parts = p.parts ++ [.name name] := by
  obtain ⟨front, pad, hpad, hsegments, hjoined⟩ := segments_join hp hname
  have hparts : (p.join name).segments.filterMap part? =
      p.segments.filterMap part? ++ [.name name] := by
    rw [hsegments, hjoined, List.filterMap_append, List.filterMap_append]
    rcases hpad with rfl | rfl
    · simp [hname.part]
    · simp [hname.part, show part? "" = none by decide]
  rw [parts_eq, parts_eq, lead_join hp hname, hparts, List.append_assoc]

theorem parent?_join (hp : p.isEmpty = false) (hname : IsFileName name) :
    (p.join name).parent? = some (ofParts p.parts) := by
  rw [parent?, parts_join hp hname, List.getLast?_concat]
  dsimp only
  rw [List.dropLast_concat]

/-- What follows the name in a path is a part of the name. -/
theorem join_append (hname : IsFileName name) (suffix : RawText) :
    (⟨(p.join name).raw ++ suffix⟩ : Path) = p.join (name ++ suffix) := by
  obtain ⟨b, rest, hbytes⟩ := List.exists_cons_of_ne_nil
    (fun hnil => hname.ne_empty (congrArg RawText.mk hnil) : name.bytes ≠ [])
  have hhead : (name ++ suffix).bytes.head? = name.bytes.head? := by
    rw [RawText.bytes_append, hbytes]
    rfl
  unfold join
  rw [hhead]
  split
  · rfl
  · split
    · exact congrArg (fun bytes => (⟨⟨bytes⟩⟩ : Path)) (List.append_assoc _ _ _)
    · exact congrArg (fun bytes => (⟨⟨bytes⟩⟩ : Path)) (List.append_assoc _ _ _)

end Path

namespace FileTree

variable {t : FileTree} {p : Path} {l place : Location} {name : RawText} {bytes : List UInt8}

/-! ## Directories that are there -/

theorem exists_find?_of_locate (hground : t.IsGrounded) (h : t.locate true p = .ok place) :
    ∃ node, t.find? place = some node := by
  have hhome : (t.find? t.home).isSome := by
    rw [hground.home]
    rfl
  have hfound := (locate_eq_ok_iff.mp h).2.isSome_find? hground (isSome_find?_start hhome p)
  exact Option.isSome_iff_exists.mp hfound

theorem exists_of_locate (hground : t.IsGrounded) (h : t.locate true p = .ok place) :
    t.exists? p := by
  obtain ⟨node, hnode⟩ := exists_find?_of_locate hground h
  unfold exists? at?
  rw [h]
  simp [Except.bind, hnode, Except.isOk, Except.toBool]

/-- Directories that are there are not made. -/
theorem makeDirectories_eq_self (hground : t.IsGrounded) (h : t.locate true p = .ok place) :
    t.makeDirectories p = t := by
  have hone (n : Nat) : t.makeDirectory (Path.ofParts (p.parts.take n)) = t := by
    unfold makeDirectory
    cases n with
    | zero =>
      -- no parts at all are the path of nothing
      have htarget : t.target? (Path.ofParts []) = none := rfl
      rw [List.take_zero, htarget]
      split <;> rfl
    | succ n =>
      obtain ⟨stop, hstop⟩ := exists_locate_ofParts_take h n
      rw [if_pos (exists_of_locate hground hstop)]
  unfold makeDirectories
  dsimp only
  generalize List.range (p.parts.length + 1) = counts
  induction counts with
  | nil => rfl
  | cons n rest ih => rw [List.foldl_cons, hone, ih]

/-! ## One more file -/

theorem concat_ne_nil (l : Location) (name : RawText) : l ++ [name] ≠ [] := by simp

/-- The tree with one more file. -/
def create (t : FileTree) (l : Location) (bytes : List UInt8) : FileTree :=
  t.withNodes (t.nodes ++ [(l, .file bytes)])

theorem nodes_create (t : FileTree) (l : Location) (bytes : List UInt8) :
    (t.create l bytes).nodes = t.nodes ++ [(l, .file bytes)] := rfl

theorem permits_create (t : FileTree) (l : Location) (bytes : List UInt8) :
    (t.create l bytes).permits = t.permits := rfl

theorem find?_create (hl : l ≠ []) (habsent : t.find? l = none) (l' : Location) :
    (t.create l bytes).find? l' = if l' = l then some (.file bytes) else t.find? l' := by
  by_cases hsame : l' = l
  · rw [hsame, if_pos rfl]
    unfold find? at habsent ⊢
    rw [if_neg hl, Option.map_eq_none_iff] at habsent
    rw [if_neg hl, nodes_create, List.find?_append, habsent]
    simp
  · rw [if_neg hsame]
    unfold find?
    rw [nodes_create, List.find?_append]
    simp [Ne.symm hsame]

/-- Where nothing is, nothing is below. -/
theorem IsGrounded.not_prefix_of_find? (hground : t.IsGrounded) (hl : l ≠ [])
    (habsent : t.find? l = none) {m : Location × FileNode} (hm : m ∈ t.nodes) : ¬ l <+: m.1 := by
  rintro ⟨below, hbelow⟩
  have hne : m.1 ≠ [] := by
    rw [← hbelow]
    exact fun hnil => hl (List.append_eq_nil_iff.mp hnil).1
  have hfound : (t.find? m.1).isSome := by
    unfold find?
    rw [if_neg hne, Option.isSome_map, List.find?_isSome]
    exact ⟨m, hm, decide_eq_true rfl⟩
  rw [← hbelow] at hfound
  by_cases hnone : below = []
  · rw [hnone, List.append_nil, habsent] at hfound
    cases hfound
  · rw [hground.directory_of_prefix l below hnone hfound] at habsent
    cases habsent

/-- Where a path leads to nothing, something with that path is made in the directory. -/
theorem target?_join_of_error (hlocate : t.locate true p = .ok place) (hname : IsFileName name)
    {reason : OpenFailure} (h : t.locate true (p.join name) = .error reason) :
    t.target? (p.join name) = some (place ++ [name]) := by
  have hparent := locate_ofParts hlocate
  unfold target?
  rw [h, Path.fileName?_join p hname, Path.parent?_join (isEmpty_of_locate hlocate) hname]
  dsimp only [Option.bind_eq_bind, Option.bind_some]
  rw [if_neg (by simp [isEmpty_of_locate hparent]), hparent]
  rfl

/-- There is nothing where something with a path would be made. -/
def IsFree (t : FileTree) (p : Path) : Prop := ∀ l, t.target? p = some l → t.find? l = none

theorem IsFree.find?_eq_none (hground : t.IsGrounded) (hlocate : t.locate true p = .ok place)
    (hname : IsFileName name) (h : t.IsFree (p.join name)) : t.find? (place ++ [name]) = none := by
  cases hjoin : t.locate true (p.join name) with
  | error reason => exact h _ (target?_join_of_error hlocate hname hjoin)
  | ok l =>
    -- where the path leads there is something
    have htarget : t.target? (p.join name) = some l := by
      unfold target?
      rw [hjoin]
    obtain ⟨node, hnode⟩ := exists_find?_of_locate hground hjoin
    rw [h l htarget] at hnode
    cases hnode

/-- There is a directory, and nothing in it under a name. -/
structure HasRoom (t : FileTree) (p : Path) (place : Location) (name : RawText) : Prop where
  located : t.locate true p = .ok place
  directory : t.find? place = some .directory
  fileName : IsFileName name
  absent : t.find? (place ++ [name]) = none

namespace HasRoom

variable (h : t.HasRoom p place name)

include h

theorem isEmpty_eq_false : p.isEmpty = false := isEmpty_of_locate h.located

/-- The place where something with the path of the name can be made. -/
theorem target?_join : t.target? (p.join name) = some (place ++ [name]) := by
  have hstops : t.StopsAt true place name := by
    refine .inr (.inr fun target hlink => ?_)
    rw [h.absent] at hlink
    cases hlink
  obtain ⟨reason, hreason⟩ : ∃ reason, t.locate true (p.join name) = .error reason := by
    rw [locate_join h.located h.directory h.fileName hstops, placeIn, h.absent]
    split
    · exact ⟨_, rfl⟩
    · exact ⟨_, rfl⟩
  exact target?_join_of_error h.located h.fileName hreason

/-- Nothing but the file is made. -/
theorem write_join (hground : t.IsGrounded) (bytes : List UInt8) :
    t.write (p.join name) bytes = t.create (place ++ [name]) bytes := by
  have hparents : t.makeParents (p.join name) = t := by
    unfold makeParents
    rw [Path.parent?_join h.isEmpty_eq_false h.fileName]
    exact makeDirectories_eq_self hground (locate_ofParts h.located)
  have hnew : (t.nodes.any fun m => m.1 = place ++ [name]) = false := by
    have habsent := h.absent
    rw [find?_concat, Option.map_eq_none_iff, List.find?_eq_none] at habsent
    rw [List.any_eq_false]
    exact habsent
  unfold write
  dsimp only
  rw [hparents, h.target?_join]
  dsimp only
  rw [put, hnew]
  rfl

/-- What was there is there still. -/
theorem find?_create_of_some {l : Location} {node : FileNode} (hfind : t.find? l = some node)
    (bytes : List UInt8) : (t.create (place ++ [name]) bytes).find? l = some node := by
  have hne : l ≠ place ++ [name] := by
    rintro rfl
    rw [h.absent] at hfind
    cases hfind
  rw [find?_create (concat_ne_nil place name) h.absent, if_neg hne, hfind]

theorem locate_create (bytes : List UInt8) :
    (t.create (place ++ [name]) bytes).locate true p = .ok place :=
  locate_mono (fun _ _ hfind => h.find?_create_of_some hfind bytes) rfl rfl h.located

/-- To erase the file again is to undo everything. -/
theorem erase_create (hground : t.IsGrounded) (bytes : List UInt8) :
    (t.create (place ++ [name]) bytes).erase (place ++ [name]) = t := by
  have hstay : ∀ m ∈ t.nodes, !(place ++ [name]).isPrefixOf m.1 := by
    intro m hm
    have hnot := hground.not_prefix_of_find? (concat_ne_nil place name) h.absent hm
    rw [← List.isPrefixOf_iff_prefix, Bool.not_eq_true] at hnot
    rw [hnot]
    rfl
  have hself : (place ++ [name]).isPrefixOf (place ++ [name]) = true :=
    List.isPrefixOf_iff_prefix.mpr (List.prefix_refl _)
  rw [erase, nodes_create, List.filter_append, List.filter_eq_self.mpr hstay,
    List.filter_cons_of_neg (by simp [hself]), List.filter_nil, List.append_nil]
  rfl

/-- So it is if the file is removed, where the directory may be looked into and may be changed; else
the file stays. -/
theorem unlink_create (hground : t.IsGrounded) (bytes : List UInt8) :
    (t.create (place ++ [name]) bytes).unlink (p.join name) =
      if t.permits .enter place && t.permits .change place then t
      else t.create (place ++ [name]) bytes := by
  have hfile : (t.create (place ++ [name]) bytes).find? (place ++ [name]) =
      some (.file bytes) := by
    rw [find?_create (concat_ne_nil place name) h.absent, if_pos rfl]
  have hstops : (t.create (place ++ [name]) bytes).StopsAt false place name := .inl rfl
  have hlocate := locate_join (h.locate_create bytes)
    (h.find?_create_of_some h.directory bytes) h.fileName hstops
  rw [placeIn, hfile, permits_create] at hlocate
  unfold unlink
  rw [hlocate]
  cases henter : t.permits .enter place with
  | false => rfl
  | true =>
    rw [Bool.not_true, if_neg Bool.false_ne_true, Bool.true_and]
    dsimp only
    rw [hfile]
    dsimp only
    rw [List.dropLast_concat, permits_create, h.erase_create hground]

end HasRoom

end FileTree

end Bulletin
