import Bulletin.Proofs.Removal

/-!
# The way along a path

To find the place of a path its segments are gone along, one after the other, and through links. The
way that leads to a place does not change where

    a path is written by its parts : what is left out leads nowhere
    the tree gets more             : what was there is there still

and on the way to a place there is something wherever one stops.

    walk_eq_ok_iff             : what is found is what the way leads to
    locate_ofParts             : a path and its parts lead to the same place
    exists_locate_ofParts_take : and some of its parts lead to something
-/

namespace Bulletin

open Text (cutAll)

/-! ## Paths by their parts -/

section

variable {α : Type} [DecidableEq α] {sep : α}

theorem Text.not_mem_of_mem_cutAll {s part : List α} (h : part ∈ cutAll sep s) : sep ∉ part := by
  induction s generalizing part with
  | nil =>
    rw [List.mem_singleton.mp h]
    exact List.not_mem_nil
  | cons c s ih =>
    rw [cutAll] at h
    by_cases hc : c = sep
    · rw [if_pos hc] at h
      rcases List.mem_cons.mp h with rfl | h
      · exact List.not_mem_nil
      · exact ih h
    · obtain ⟨first, parts, hparts⟩ := List.exists_cons_of_ne_nil (Text.cutAll_ne_nil sep s)
      rw [if_neg hc, hparts] at h
      rw [hparts] at ih
      rcases List.mem_cons.mp h with rfl | h
      · rw [List.mem_cons, not_or]
        exact ⟨Ne.symm hc, ih List.mem_cons_self⟩
      · exact ih (List.mem_cons_of_mem _ h)

theorem Text.cutAll_intercalate {parts : List (List α)} (hne : parts ≠ [])
    (h : ∀ part ∈ parts, sep ∉ part) : cutAll sep ([sep].intercalate parts) = parts := by
  induction parts with
  | nil => exact absurd rfl hne
  | cons part rest ih =>
    rw [List.forall_mem_cons] at h
    by_cases hrest : rest = []
    · rw [hrest, List.intercalate_singleton, Text.cutAll_of_not_mem h.1]
    · rw [List.intercalate_cons_of_ne_nil hrest, List.append_assoc, List.singleton_append,
        Text.cutAll_append_sep, Text.cutAll_of_not_mem h.1, ih hrest h.2, List.singleton_append]

end

namespace Path

/-- A part on the way from some place: its bytes are a segment. -/
structure Part.IsStep (part : Part) : Prop where
  relative : part ≠ .root
  raw_ne : part.raw ≠ ""
  plain : slash ∉ part.raw.bytes

/-- Parts lead on from the root, or from some place. -/
def IsWay (ps : List Part) : Prop :=
  ∃ first rest, ps = first :: rest ∧ (first = .root ∨ first.IsStep) ∧ ∀ part ∈ rest, part.IsStep

theorem IsWay.take {ps : List Part} (h : IsWay ps) (n : Nat) : IsWay (ps.take (n + 1)) := by
  obtain ⟨first, rest, rfl, hfirst, hrest⟩ := h
  exact ⟨first, rest.take n, rfl, hfirst, fun part hpart => hrest part (List.mem_of_mem_take hpart)⟩

/-- The part that a segment stands for has its bytes. -/
theorem raw_of_part? {segment : RawText} {part : Part} (h : part? segment = some part) :
    part.raw = segment ∧ part ≠ .root ∧ segment ≠ "" := by
  unfold part? at h
  split at h
  · cases h
  · rename_i hsays
    have hne : segment ≠ "" := by
      rintro rfl
      exact hsays rfl
    split at h
    · rename_i hup
      cases h
      exact ⟨hup.symm, by simp, hne⟩
    · cases h
      exact ⟨rfl, by simp, hne⟩

theorem isStep_of_part? {p : Path} {segment : RawText} {part : Part} (hsegment : segment ∈ p.segments)
    (h : part? segment = some part) : part.IsStep := by
  obtain ⟨hraw, hroot, hne⟩ := raw_of_part? h
  obtain ⟨bytes, hbytes, rfl⟩ := List.mem_map.mp hsegment
  exact ⟨hroot, hraw ▸ hne, hraw ▸ Text.not_mem_of_mem_cutAll hbytes⟩

/-- What the parts of a path begin with, if it is not what a segment stands for. -/
def lead (p : Path) : List Part :=
  if p.isAbsolute then [.root]
  else if p.segments.head? = some (RawText.ofString ".") then [.here]
  else []

theorem parts_eq (p : Path) : p.parts = p.lead ++ p.segments.filterMap part? := by
  unfold parts lead
  split
  · rfl
  · by_cases hhere : p.segments.head? = some (RawText.ofString ".")
    · simp [hhere]
    · simp [hhere]

theorem isStep_of_mem_filterMap {p : Path} {part : Part} (h : part ∈ p.segments.filterMap part?) :
    part.IsStep := by
  obtain ⟨segment, hsegment, hsome⟩ := List.mem_filterMap.mp h
  exact isStep_of_part? hsegment hsome

/-- The first segment of a path that is not empty and does not begin at the root says something. -/
theorem exists_head_segments {p : Path} (h : p.isAbsolute = false) (hp : p.isEmpty = false) :
    ∃ first rest, p.segments = first :: rest ∧ first ≠ "" := by
  obtain ⟨b, bytes, hbytes⟩ := List.exists_cons_of_ne_nil (isEmpty_eq_false_iff.mp hp)
  have hb : b ≠ slash := by
    rintro rfl
    simp [isAbsolute, hbytes] at h
  obtain ⟨first, later, hcut⟩ := List.exists_cons_of_ne_nil (Text.cutAll_ne_nil slash bytes)
  refine ⟨⟨b :: first⟩, later.map RawText.mk, ?_, ?_⟩
  · rw [segments, hbytes, cutAll, if_neg hb, hcut]
    rfl
  · intro hempty
    cases congrArg RawText.bytes hempty

/-- A path that is not empty has parts, and these lead on. -/
theorem isWay_parts {p : Path} (hp : p.isEmpty = false) : IsWay p.parts := by
  have hsteps : ∀ part ∈ p.segments.filterMap part?, part.IsStep :=
    fun part => isStep_of_mem_filterMap
  rw [parts_eq, lead]
  cases hroot : p.isAbsolute with
  | true => exact ⟨_, _, rfl, .inl rfl, hsteps⟩
  | false =>
    obtain ⟨first, rest, hsegments, hne⟩ := exists_head_segments hroot hp
    rw [if_neg Bool.false_ne_true]
    by_cases hhere : p.segments.head? = some (RawText.ofString ".")
    · rw [if_pos hhere]
      exact ⟨_, _, rfl, .inr ⟨by simp, by decide, by decide⟩, hsteps⟩
    · have hdot : first ≠ "." := by
        rintro rfl
        exact hhere (by rw [hsegments]; rfl)
      have hpart : (part? first).isSome := by
        unfold part?
        rw [if_neg (by simp [hne, hdot])]
        split <;> rfl
      obtain ⟨part, hpart⟩ := Option.isSome_iff_exists.mp hpart
      rw [hsegments, List.filterMap_cons_some hpart] at hsteps
      rw [if_neg hhere, hsegments, List.filterMap_cons_some hpart, List.nil_append]
      exact ⟨_, _, rfl, .inr (hsteps part List.mem_cons_self),
        fun other hother => hsteps other (List.mem_cons_of_mem _ hother)⟩

theorem IsWay.plain {ps : List Part} (h : IsWay ps) :
    ∀ bytes ∈ ps.map fun part => part.raw.bytes, slash ∉ bytes := by
  obtain ⟨first, rest, rfl, hfirst, hrest⟩ := h
  rw [List.map_cons, List.forall_mem_cons]
  constructor
  · rcases hfirst with rfl | hstep
    · decide
    · exact hstep.plain
  · intro bytes hbytes
    obtain ⟨part, hpart, rfl⟩ := List.mem_map.mp hbytes
    exact (hrest part hpart).plain

/-- The segments of a path that is put together of parts are their bytes. -/
theorem segments_ofParts {ps : List Part} (h : IsWay ps) (hroot : ps ≠ [.root]) :
    (ofParts ps).segments = ps.map Part.raw := by
  have hplain := h.plain
  obtain ⟨first, rest, rfl, -, -⟩ := h
  rw [ofParts, if_neg hroot, segments, Text.cutAll_intercalate (by simp) hplain, List.map_map]
  rfl

theorem head?_intercalate {α : Type} (sep : α) {first : List α} (h : first ≠ [])
    (rest : List (List α)) : ([sep].intercalate (first :: rest)).head? = first.head? := by
  obtain ⟨a, as, rfl⟩ := List.exists_cons_of_ne_nil h
  cases rest with
  | nil => simp
  | cons second rest =>
    rw [List.intercalate_cons_cons]
    rfl

/-- Such a path begins where its parts do. -/
theorem head?_ofParts {ps : List Part} (h : IsWay ps) :
    (ofParts ps).isEmpty = false ∧ ((ofParts ps).isAbsolute ↔ ps.head? = some .root) := by
  obtain ⟨first, rest, rfl, hfirst, hrest⟩ := h
  rcases hfirst with rfl | hstep
  · cases rest with
    | nil => exact ⟨by decide, by decide⟩
    | cons second rest =>
      have hbytes : (ofParts (.root :: second :: rest)).raw.bytes.head? = some slash := by
        rw [ofParts, if_neg (by simp), List.map_cons, List.map_cons, List.intercalate_cons_cons]
        rfl
      refine ⟨?_, ?_⟩
      · rw [isEmpty_eq_false_iff]
        rintro hnil
        rw [hnil] at hbytes
        cases hbytes
      · rw [isAbsolute, hbytes]
        simp
  · have hne : first.raw.bytes ≠ [] := by
      intro hnil
      exact hstep.raw_ne (congrArg RawText.mk hnil)
    have hroot : first :: rest ≠ [.root] := fun heq => hstep.relative (List.cons_eq_cons.mp heq).1
    have hbytes : (ofParts (first :: rest)).raw.bytes.head? = first.raw.bytes.head? := by
      rw [ofParts, if_neg hroot, List.map_cons, head?_intercalate _ hne]
    obtain ⟨b, bytes, hcons⟩ := List.exists_cons_of_ne_nil hne
    have hslash : b ≠ slash := by
      rintro rfl
      exact hstep.plain (hcons ▸ List.mem_cons_self)
    rw [hcons, List.head?_cons] at hbytes
    refine ⟨?_, ?_⟩
    · rw [isEmpty_eq_false_iff]
      rintro hnil
      rw [hnil] at hbytes
      cases hbytes
    · rw [isAbsolute, hbytes]
      simp [hslash, hstep.relative]

end Path

namespace FileTree

open Bulletin.Path (part?)

variable {t t' : FileTree} {links : Nat} {l place : Location} {segments : List RawText}

/-! ## Where segments lead -/

/-- Segments lead from one place to another, through no more than so many links. Wherever there is
more to look for, one must be let in. -/
inductive Leads (t : FileTree) : Nat → Location → List RawText → Location → Prop
  | done (links : Nat) (l : Location) : Leads t links l [] l
  | skip {links : Nat} {l place : Location} {segment : RawText} {rest : List RawText}
      (part : part? segment = none) (enter : segment = "" ∨ t.permits .enter l = true)
      (later : Leads t links l rest place) : Leads t links l (segment :: rest) place
  /-- Above the root there is the root. -/
  | up {links : Nat} {l place : Location} {segment : RawText} {rest : List RawText}
      (part : part? segment = some .up) (enter : t.permits .enter l = true)
      (later : Leads t links l.dropLast rest place) : Leads t links l (segment :: rest) place
  | into {links : Nat} {l place : Location} {segment name : RawText} {rest : List RawText}
      (part : part? segment = some (.name name)) (enter : t.permits .enter l = true)
      (found : t.find? (l ++ [name]) = some .directory)
      (later : Leads t links (l ++ [name]) rest place) : Leads t links l (segment :: rest) place
  /-- There is nothing behind a file. -/
  | file {links : Nat} {l : Location} {segment name : RawText} {bytes : List UInt8}
      (part : part? segment = some (.name name)) (enter : t.permits .enter l = true)
      (found : t.find? (l ++ [name]) = some (.file bytes)) :
      Leads t links l [segment] (l ++ [name])
  | link {links : Nat} {l place : Location} {segment name : RawText} {target : Path}
      {rest : List RawText} (part : part? segment = some (.name name))
      (enter : t.permits .enter l = true) (found : t.find? (l ++ [name]) = some (.link target))
      (leads : target.isEmpty = false)
      (later : Leads t links (start l target) (target.segments ++ rest) place) :
      Leads t (links + 1) l (segment :: rest) place

/-- How a walk goes on behind a link. -/
def followWith (t : FileTree) : Nat → Location → List RawText → Except OpenFailure Location
  | 0 => fun _ _ => .error .linkLoop
  | links + 1 => walk t true links

theorem walk_eq_walkWith (t : FileTree) (links : Nat) :
    walk t true links = walkWith (t.followWith links) t true := by
  cases links <;> rfl

/-- Whether a segment may be looked for at a place. -/
theorem enter_iff {segment : RawText} :
    ¬ (segment ≠ "" && !t.permits .enter l) = true ↔
      segment = "" ∨ t.permits .enter l = true := by
  cases t.permits .enter l <;> simp

theorem leads_of_walkWith
    (hfollow : ∀ l segments, t.followWith links l segments = .ok place →
      ∃ links', links = links' + 1 ∧ Leads t links' l segments place)
    (h : walkWith (t.followWith links) t true l segments = .ok place) :
    Leads t links l segments place := by
  induction segments generalizing l with
  | nil =>
    obtain rfl := Except.ok.inj h
    exact .done links l
  | cons segment rest ih =>
    rw [walkWith] at h
    split at h
    · cases h
    rename_i hmay
    have henter := enter_iff.mp hmay
    cases hpart : part? segment with
    | none =>
      rw [hpart] at h
      exact .skip hpart henter (ih h)
    | some part =>
      have hin : t.permits .enter l = true :=
        henter.resolve_left (Path.raw_of_part? hpart).2.2
      rw [hpart] at h
      cases part with
      | root => exact absurd rfl (Path.raw_of_part? hpart).2.1
      | here =>
        unfold part? at hpart
        split at hpart
        · cases hpart
        · split at hpart <;> cases hpart
      | up => exact .up hpart hin (ih h)
      | name name =>
        dsimp only at h
        cases hfind : t.find? (l ++ [name]) with
        | none =>
          rw [hfind] at h
          cases h
        | some node =>
          rw [hfind] at h
          cases node with
          | directory => exact .into hpart hin hfind (ih h)
          | file bytes =>
            dsimp only at h
            split at h
            · rename_i hrest
              obtain rfl := Except.ok.inj h
              rw [List.isEmpty_iff.mp hrest]
              exact .file hpart hin hfind
            · cases h
          | link target =>
            dsimp only at h
            rw [Bool.not_true, Bool.and_false, if_neg Bool.false_ne_true] at h
            split at h
            · cases h
            · rename_i hleads
              obtain ⟨links', rfl, hlater⟩ := hfollow _ _ h
              exact .link hpart hin hfind (eq_false_of_ne_true hleads) hlater

/-- What is found by walking is what the segments lead to. -/
theorem walk_eq_ok_iff :
    walk t true links l segments = .ok place ↔ Leads t links l segments place := by
  constructor
  · intro h
    rw [walk_eq_walkWith] at h
    induction links generalizing l segments with
    | zero =>
      refine leads_of_walkWith (fun _ _ hnone => ?_) h
      cases hnone
    | succ links ih =>
      refine leads_of_walkWith (fun l segments hnext => ⟨links, rfl, ih ?_⟩) h
      rw [← walk_eq_walkWith]
      exact hnext
  · intro h
    induction h with
    | done links l => rw [walk_eq_walkWith, walkWith]
    | skip part enter later ih =>
      rw [walk_eq_walkWith] at ih ⊢
      rw [walkWith, if_neg (enter_iff.mpr enter), part]
      exact ih
    | up part enter later ih =>
      rw [walk_eq_walkWith] at ih ⊢
      rw [walkWith, if_neg (enter_iff.mpr (.inr enter)), part]
      exact ih
    | into part enter found later ih =>
      rw [walk_eq_walkWith] at ih ⊢
      rw [walkWith, if_neg (enter_iff.mpr (.inr enter)), part]
      dsimp only
      rw [found]
      exact ih
    | file part enter found =>
      rw [walk_eq_walkWith, walkWith, if_neg (enter_iff.mpr (.inr enter)), part]
      dsimp only
      rw [found]
      rfl
    | link part enter found leads later ih =>
      rw [walk_eq_walkWith, walkWith, if_neg (enter_iff.mpr (.inr enter)), part]
      dsimp only
      rw [found]
      dsimp only
      rw [Bool.not_true, Bool.and_false, if_neg Bool.false_ne_true, leads,
        if_neg Bool.false_ne_true]
      exact ih

theorem locate_eq_ok_iff {p : Path} :
    t.locate true p = .ok place ↔
      p.isEmpty = false ∧ Leads t maxLinks (start t.home p) p.segments place := by
  unfold locate
  cases hp : p.isEmpty with
  | true =>
    rw [if_pos rfl]
    constructor
    · intro herror
      cases herror
    · rintro ⟨hnot, -⟩
      cases hnot
  | false =>
    rw [if_neg Bool.false_ne_true, walk_eq_ok_iff]
    exact ⟨fun hleads => ⟨rfl, hleads⟩, fun hall => hall.2⟩

/-! ## What does not change the way -/

/-- They lead to the same place in a tree that has more, of which as much may be done. -/
theorem Leads.mono (hmore : ∀ l node, t.find? l = some node → t'.find? l = some node)
    (hrights : t'.denied = t.denied) (h : Leads t links l segments place) :
    Leads t' links l segments place := by
  have hpermits (l : Location) : t'.permits .enter l = t.permits .enter l := by
    rw [permits, hrights]
    rfl
  induction h with
  | done links l => exact .done links l
  | skip part enter later ih => exact .skip part (by rwa [hpermits]) ih
  | up part enter later ih => exact .up part (by rwa [hpermits]) ih
  | into part enter found later ih => exact .into part (by rwa [hpermits]) (hmore _ _ found) ih
  | file part enter found => exact .file part (by rwa [hpermits]) (hmore _ _ found)
  | link part enter found leads later ih =>
    exact .link part (by rwa [hpermits]) (hmore _ _ found) leads ih

theorem locate_mono (hmore : ∀ l node, t.find? l = some node → t'.find? l = some node)
    (hhome : t'.home = t.home) (hrights : t'.denied = t.denied) {p : Path}
    (h : t.locate true p = .ok place) : t'.locate true p = .ok place := by
  obtain ⟨hp, hleads⟩ := locate_eq_ok_iff.mp h
  rw [← hhome] at hleads
  exact locate_eq_ok_iff.mpr ⟨hp, hleads.mono hmore hrights⟩

/-- A path begins where there is something, if it is followed from such a place. -/
theorem isSome_find?_start (hl : (t.find? l).isSome) (p : Path) : (t.find? (start l p)).isSome := by
  unfold start
  split
  · rfl
  · exact hl

/-- Where they lead there is something. -/
theorem Leads.isSome_find? (hground : t.IsGrounded) (h : Leads t links l segments place)
    (hl : (t.find? l).isSome) : (t.find? place).isSome := by
  induction h with
  | done links l => exact hl
  | skip part enter later ih => exact ih hl
  | @up links l place segment rest part enter later ih =>
    refine ih ?_
    by_cases hroot : l = []
    · rw [hroot]
      rfl
    · obtain ⟨name, hname⟩ : ∃ name, l.dropLast ++ [name] = l :=
        ⟨_, List.dropLast_append_getLast hroot⟩
      rw [← hname] at hl
      rw [hground.directory_of_concat hl]
      rfl
  | into part enter found later ih => exact ih (found ▸ rfl)
  | file part enter found => exact found ▸ rfl
  | link part enter found leads later ih => exact ih (isSome_find?_start hl _)

/-- Of segments some are left out that stand for nothing. -/
inductive Thins : List RawText → List RawText → Prop
  | done : Thins [] []
  | kept (segment : RawText) {segments fewer : List RawText} (later : Thins segments fewer) :
      Thins (segment :: segments) (segment :: fewer)
  | dropped {segment : RawText} {segments fewer : List RawText} (part : part? segment = none)
      (later : Thins segments fewer) : Thins (segment :: segments) fewer

theorem thins_append (front : List RawText) {fewer : List RawText} (h : Thins segments fewer) :
    Thins (front ++ segments) (front ++ fewer) := by
  induction front with
  | nil => exact h
  | cons segment front ih => exact .kept segment ih

theorem Thins.eq_nil {fewer : List RawText} (h : Thins [] fewer) : fewer = [] := by
  cases h
  rfl

/-- What is left leads to the same place. -/
theorem Leads.of_thins (h : Leads t links l segments place) {fewer : List RawText}
    (hfewer : Thins segments fewer) : Leads t links l fewer place := by
  induction h generalizing fewer with
  | done links l =>
    rw [hfewer.eq_nil]
    exact .done links l
  | skip part enter later ih =>
    cases hfewer with
    | kept _ hlater => exact .skip part enter (ih hlater)
    | dropped _ hlater => exact ih hlater
  | up part enter later ih =>
    cases hfewer with
    | kept _ hlater => exact .up part enter (ih hlater)
    | dropped hnone hlater => cases hnone.symm.trans part
  | into part enter found later ih =>
    cases hfewer with
    | kept _ hlater => exact .into part enter found (ih hlater)
    | dropped hnone hlater => cases hnone.symm.trans part
  | file part enter found =>
    cases hfewer with
    | kept _ hlater =>
      rw [hlater.eq_nil]
      exact .file part enter found
    | dropped hnone hlater => cases hnone.symm.trans part
  | link part enter found leads later ih =>
    cases hfewer with
    | kept _ hlater => exact .link part enter found leads (ih (thins_append _ hlater))
    | dropped hnone hlater => cases hnone.symm.trans part

/-- Some of the segments lead somewhere if all of them do. -/
theorem Leads.exists_of_append {front back : List RawText}
    (h : Leads t links l (front ++ back) place) : ∃ stop, Leads t links l front stop := by
  generalize hall : front ++ back = segments at h
  induction h generalizing front with
  | done links l =>
    rw [(List.append_eq_nil_iff.mp hall).1]
    exact ⟨l, .done links l⟩
  | @skip links l _ segment rest part enter later ih =>
    rcases List.append_eq_cons_iff.mp hall with ⟨rfl, -⟩ | ⟨front, rfl, hrest⟩
    · exact ⟨l, .done links l⟩
    · obtain ⟨stop, hstop⟩ := ih hrest.symm
      exact ⟨stop, .skip part enter hstop⟩
  | @up links l _ segment rest part enter later ih =>
    rcases List.append_eq_cons_iff.mp hall with ⟨rfl, -⟩ | ⟨front, rfl, hrest⟩
    · exact ⟨l, .done links l⟩
    · obtain ⟨stop, hstop⟩ := ih hrest.symm
      exact ⟨stop, .up part enter hstop⟩
  | @into links l _ segment name rest part enter found later ih =>
    rcases List.append_eq_cons_iff.mp hall with ⟨rfl, -⟩ | ⟨front, rfl, hrest⟩
    · exact ⟨l, .done links l⟩
    · obtain ⟨stop, hstop⟩ := ih hrest.symm
      exact ⟨stop, .into part enter found hstop⟩
  | @file links l segment name bytes part enter found =>
    rcases List.append_eq_cons_iff.mp hall with ⟨rfl, -⟩ | ⟨front, rfl, hrest⟩
    · exact ⟨l, .done links l⟩
    · rw [(List.append_eq_nil_iff.mp hrest.symm).1]
      exact ⟨_, .file part enter found⟩
  | @link links l _ segment name target rest part enter found leads later ih =>
    rcases List.append_eq_cons_iff.mp hall with ⟨rfl, -⟩ | ⟨front, rfl, hrest⟩
    · exact ⟨l, .done (links + 1) l⟩
    · obtain ⟨stop, hstop⟩ := ih (by rw [List.append_assoc, hrest])
      exact ⟨stop, .link part enter found leads hstop⟩

/-! ## Where parts lead -/

theorem thins_filterMap (segments : List RawText) :
    Thins segments ((segments.filterMap part?).map Path.Part.raw) := by
  induction segments with
  | nil => exact .done
  | cons segment rest ih =>
    cases hpart : part? segment with
    | none =>
      rw [List.filterMap_cons_none hpart]
      exact .dropped hpart ih
    | some part =>
      rw [List.filterMap_cons_some hpart, List.map_cons, (Path.raw_of_part? hpart).1]
      exact .kept segment ih

/-- A first segment that stands for nothing may be left where it is. -/
theorem thins_keep_head (segment : RawText) (rest : List RawText) (h : part? segment = none) :
    Thins (segment :: rest)
      (segment :: ((segment :: rest).filterMap part?).map Path.Part.raw) := by
  rw [List.filterMap_cons_none h]
  exact .kept segment (thins_filterMap rest)

/-- The parts of a path are its segments without those that stand for nothing. -/
theorem thins_parts (p : Path) : Thins p.segments (p.parts.map Path.Part.raw) := by
  rw [Path.parts_eq, Path.lead]
  cases hroot : p.isAbsolute with
  | true =>
    -- what begins with a slash has nothing in front of it
    obtain ⟨bytes, hbytes⟩ := List.head?_eq_some_iff.mp (eq_of_beq hroot)
    have hsegments : p.segments =
        RawText.ofString "" :: (cutAll Path.slash bytes).map RawText.mk := by
      rw [Path.segments, hbytes, cutAll, if_pos rfl]
      rfl
    rw [if_pos rfl, hsegments]
    exact thins_keep_head _ _ (by decide)
  | false =>
    rw [if_neg Bool.false_ne_true]
    by_cases hhere : p.segments.head? = some (RawText.ofString ".")
    · obtain ⟨rest, hsegments⟩ := List.head?_eq_some_iff.mp hhere
      rw [if_pos hhere, hsegments]
      exact thins_keep_head _ _ (by decide)
    · rw [if_neg hhere, List.nil_append]
      exact thins_filterMap p.segments

/-- Where parts begin. -/
def startOf (l : Location) (ps : List Path.Part) : Location :=
  if ps.head? = some .root then [] else l

theorem startOf_parts (l : Location) (p : Path) : startOf l p.parts = start l p := by
  unfold startOf start
  refine if_congr ?_ rfl rfl
  rw [Path.parts_eq, Path.lead]
  cases hroot : p.isAbsolute with
  | true => simp
  | false =>
    have hno : (p.segments.filterMap part?).head? ≠ some .root := by
      intro hhead
      exact (Path.isStep_of_mem_filterMap (List.mem_of_head? hhead)).relative rfl
    rw [if_neg Bool.false_ne_true]
    split
    · simp
    · rw [List.nil_append]
      exact iff_of_false hno Bool.false_ne_true

/-- Where parts lead, their path leads. -/
theorem locate_ofParts_of_leads {ps : List Path.Part} (hway : Path.IsWay ps)
    (h : Leads t maxLinks (startOf t.home ps) (ps.map Path.Part.raw) place) :
    t.locate true (Path.ofParts ps) = .ok place := by
  obtain ⟨hne, habsolute⟩ := Path.head?_ofParts hway
  have hstart : start t.home (Path.ofParts ps) = startOf t.home ps := if_congr habsolute rfl rfl
  rw [locate_eq_ok_iff, hstart]
  refine ⟨hne, ?_⟩
  by_cases hroot : ps = [.root]
  · -- a slash separates nothing from nothing
    subst hroot
    exact .skip (by decide) (.inl rfl) h
  · rw [Path.segments_ofParts hway hroot]
    exact h

/-- A path that is put together again of its parts leads to the same place. -/
theorem locate_ofParts {p : Path} (h : t.locate true p = .ok place) :
    t.locate true (Path.ofParts p.parts) = .ok place := by
  obtain ⟨hp, hleads⟩ := locate_eq_ok_iff.mp h
  refine locate_ofParts_of_leads (Path.isWay_parts hp) ?_
  rw [startOf_parts]
  exact hleads.of_thins (thins_parts p)

/-- Some of its parts lead to something. -/
theorem exists_locate_ofParts_take {p : Path} (h : t.locate true p = .ok place) (n : Nat) :
    ∃ stop, t.locate true (Path.ofParts (p.parts.take (n + 1))) = .ok stop := by
  obtain ⟨hp, hleads⟩ := locate_eq_ok_iff.mp h
  have hway := Path.isWay_parts hp
  have hparts := hleads.of_thins (thins_parts p)
  rw [← List.take_append_drop (n + 1) p.parts, List.map_append] at hparts
  obtain ⟨stop, hstop⟩ := hparts.exists_of_append
  refine ⟨stop, locate_ofParts_of_leads (hway.take n) ?_⟩
  have hhead : (p.parts.take (n + 1)).head? = p.parts.head? := by
    rw [List.head?_take, if_neg n.succ_ne_zero]
  have hstart : startOf t.home (p.parts.take (n + 1)) = start t.home p := by
    rw [← startOf_parts, startOf, startOf, hhead]
  rw [hstart]
  exact hstop

end FileTree

end Bulletin
