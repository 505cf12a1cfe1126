import Mathlib.Data.List.DropRight
import Bulletin.Proofs.Blocks

/-!
# What the entries of others do to a record

A header says whose it is, and concerns no one else. A body or a mark of emptiness is taken for that
of whatever record is open, so a user without a header can reach the record of the one before:

    alice.mail.header
    alice.mail
    bob.mail             alice's record has this body

Nothing else can. A user's records come of the user's own entries and of those directly behind them,
up to the next header; they come of the user's own entries alone if those behind are passed over.

Main statements:

    recordsOf_eq_of_isContiguous : which entries a user's records come of
    recordsOf_ne_of_stray_body   : the user's own are not enough
-/

namespace Bulletin

/-! ## Whose entry it is -/

namespace Entry

/-- The user to whom an entry belongs by its name. -/
def user (e : Entry) : String := EntryName.group e.name

theorem IsHeaderOf.eq_user {owner : String} {e : Entry} (h : e.IsHeaderOf owner) :
    e.user = owner := by
  obtain ⟨bytes, hs⟩ := h
  unfold signal? at hs
  cases hname : EntryName.ofString? e.name with
  | none =>
    rw [hname] at hs
    cases hs
  | some name =>
    refine (EntryName.group_eq_user hname).trans ?_
    obtain ⟨owner', kind⟩ := name
    rw [hname] at hs
    cases kind with
    | header =>
      obtain ⟨_, _, heq⟩ := Option.map_eq_some_iff.mp hs
      cases heq
      rfl
    | body =>
      obtain ⟨_, _, heq⟩ := Option.map_eq_some_iff.mp hs
      cases heq
    | blank => cases hs
    | other extension => cases hs

end Entry

/-! ## What is being gathered for one user -/

namespace Gathering

/-- The open record, if it is the user's. -/
def openOf (user : String) (g : Gathering) : Option Record := g.pending.filter (·.user = user)

/-- What a header opens is the user's if the header is. -/
theorem openOf_opened (user owner : String) (bytes : List UInt8) :
    openOf user ⟨opened owner bytes⟩ = if owner = user then opened user bytes else none := by
  unfold openOf opened
  by_cases hu : owner = user
  · subst hu
    by_cases hempty : owner.isEmpty
    · simp [hempty]
    · simp [hempty]
  · by_cases hempty : owner.isEmpty
    · simp [hempty, hu]
    · simp [hempty, hu]

theorem openOf_of_pending {user : String} {g : Gathering} {held : Record}
    (hp : g.pending = some held) :
    openOf user g = if held.user = user then some held else none := by
  unfold openOf
  rw [hp]
  by_cases hu : held.user = user
  · simp [hu]
  · simp [hu]

/-- The user's open record behind an entry depends on nothing else that was being gathered. -/
theorem openOf_after (user : String) (g : Gathering) (e : Entry) :
    openOf user (g.after e) =
      match e.signal? with
      | none => openOf user g
      | some (.header owner bytes) =>
        if owner = user then
          match openOf user g with
          | some r => some { r with header := bytes }
          | none => opened user bytes
        else none
      | some (.body bytes) => (openOf user g).map fun r => { r with body := bytes }
      | some .blank => none := by
  rw [after_eq]
  cases hs : e.signal? with
  | none => rfl
  | some signal =>
    cases signal with
    | blank => rfl
    | body bytes =>
      dsimp only
      cases hp : g.pending with
      | none =>
        unfold body openOf
        rw [hp]
        rfl
      | some held =>
        have hbody : (g.body bytes).pending = some { held with body := bytes } := by
          unfold body
          rw [hp]
          rfl
        rw [openOf_of_pending hbody, openOf_of_pending hp]
        by_cases hu : held.user = user
        · rw [if_pos hu, if_pos hu]
          rfl
        · rw [if_neg hu, if_neg hu]
          rfl
    | header owner bytes =>
      dsimp only
      unfold header
      cases hp : g.pending with
      | none =>
        dsimp only
        rw [openOf_opened]
        unfold openOf
        rw [hp]
        rfl
      | some held =>
        rw [openOf_of_pending hp]
        dsimp only
        by_cases hheld : held.user = owner
        · rw [if_pos hheld, openOf_of_pending rfl]
          by_cases hu : owner = user
          · have hu' : held.user = user := hheld.trans hu
            rw [if_pos hu', if_pos hu, if_pos hu']
          · have hu' : held.user ≠ user := fun heq => hu (hheld.symm.trans heq)
            rw [if_neg hu', if_neg hu]
        · rw [if_neg hheld, openOf_opened]
          by_cases hu : owner = user
          · rw [if_pos hu, if_pos hu, if_neg (hu ▸ hheld)]
          · rw [if_neg hu, if_neg hu]

/-- The user's record that an entry completes depends on nothing else that was being gathered. -/
theorem filter_completed? (user : String) (g : Gathering) (e : Entry) :
    (g.completed? e).filter (·.user = user) =
      match e.signal? with
      | some (.header owner _) => if owner = user then none else openOf user g
      | _ => none := by
  rw [completed?_eq]
  cases hs : e.signal? with
  | none => rfl
  | some signal =>
    cases signal with
    | blank => rfl
    | body bytes => rfl
    | header owner bytes =>
      dsimp only
      unfold header
      cases hp : g.pending with
      | none => simp [openOf, hp]
      | some held =>
        rw [openOf_of_pending hp]
        dsimp only
        by_cases hheld : held.user = owner
        · rw [if_pos hheld, hheld]
          by_cases hu : owner = user
          · simp [hu]
          · simp [hu]
        · rw [if_neg hheld]
          by_cases hu : owner = user
          · simp [hu, hu ▸ hheld]
          · by_cases hu' : held.user = user
            · simp [hu, hu']
            · simp [hu, hu']

/-- The user's records of entries. -/
def recordsOfFrom (user : String) (g : Gathering) (all : List Entry) : List Record :=
  (recordsFrom g all).filter (·.user = user)

theorem recordsOfFrom_nil (user : String) (g : Gathering) :
    recordsOfFrom user g [] = (openOf user g).toList := by
  unfold recordsOfFrom recordsFrom openOf finish
  rw [Option.toList_filter]

theorem recordsOfFrom_cons (user : String) (g : Gathering) (e : Entry) (rest : List Entry) :
    recordsOfFrom user g (e :: rest) =
      ((g.completed? e).filter (·.user = user)).toList ++ recordsOfFrom user (g.after e) rest := by
  unfold recordsOfFrom
  rw [recordsFrom, List.filter_append, Option.toList_filter]

/-! ## What reaches the record of a user -/

/-- No header of the user is among the entries. -/
def NoHeaderOf (user : String) (all : List Entry) : Prop := ∀ e ∈ all, ¬ e.IsHeaderOf user

section

variable {user : String} {g g' : Gathering} {all : List Entry}

/-- The user's records depend on the user's open record only. -/
theorem recordsOfFrom_congr (h : openOf user g = openOf user g') :
    recordsOfFrom user g all = recordsOfFrom user g' all := by
  induction all generalizing g g' with
  | nil => rw [recordsOfFrom_nil, recordsOfFrom_nil, h]
  | cons e rest ih =>
    have hafter : openOf user (g.after e) = openOf user (g'.after e) := by
      rw [openOf_after, openOf_after, h]
    rw [recordsOfFrom_cons, recordsOfFrom_cons, filter_completed?, filter_completed?, h, ih hafter]

/-- Without a record of the user being open, entries without a header of the user are of no
consequence. -/
theorem recordsOfFrom_append (hg : openOf user g = none) (hall : NoHeaderOf user all)
    (rest : List Entry) : recordsOfFrom user g (all ++ rest) = recordsOfFrom user empty rest := by
  induction all generalizing g with
  | nil => exact recordsOfFrom_congr hg
  | cons e tail ih =>
    have hhead : ∀ bytes, e.signal? ≠ some (.header user bytes) := fun bytes hs =>
      hall e List.mem_cons_self ⟨bytes, hs⟩
    have htail : NoHeaderOf user tail := fun e' he' => hall e' (List.mem_cons_of_mem e he')
    have hnone : openOf user (g.after e) = none ∧
        (g.completed? e).filter (·.user = user) = none := by
      rw [openOf_after, filter_completed?, hg]
      cases hs : e.signal? with
      | none => exact ⟨rfl, rfl⟩
      | some signal =>
        cases signal with
        | blank => exact ⟨rfl, rfl⟩
        | body bytes => exact ⟨rfl, rfl⟩
        | header owner bytes =>
          have hu : owner ≠ user := fun heq => hhead bytes (heq ▸ hs)
          simp [hu]
    rw [List.cons_append, recordsOfFrom_cons, hnone.2, ih hnone.1 htail]
    rfl

/-- Behind the next header, entries without a header of the user are of no consequence. -/
theorem recordsOfFrom_takeWhile (g : Gathering) (hall : NoHeaderOf user all) :
    recordsOfFrom user g (all.takeWhile (·.header?.isNone)) = recordsOfFrom user g all := by
  induction all generalizing g with
  | nil => rfl
  | cons e rest ih =>
    have hrest : NoHeaderOf user rest := fun e' he' => hall e' (List.mem_cons_of_mem e he')
    cases hh : e.header? with
    | none => rw [List.takeWhile_cons_of_pos (by simp [hh]), recordsOfFrom_cons, recordsOfFrom_cons,
        ih (g.after e) hrest]
    | some bytes =>
      have hs : ∃ owner, owner ≠ user ∧ e.signal? = some (.header owner bytes) := by
        unfold Entry.header? at hh
        split at hh
        · rename_i owner bytes' hs
          cases hh
          exact ⟨owner, fun hu => hall e List.mem_cons_self ⟨bytes, hu ▸ hs⟩, hs⟩
        · cases hh
      obtain ⟨owner, hu, hs⟩ := hs
      have hclosed : openOf user (g.after e) = none := by
        rw [openOf_after, hs]
        exact if_neg hu
      have hlater := recordsOfFrom_append hclosed hrest []
      rw [List.append_nil] at hlater
      rw [List.takeWhile_cons_of_neg (by simp [hh]), recordsOfFrom_cons, filter_completed?, hs,
        hlater, recordsOfFrom_nil, recordsOfFrom_nil]
      simp [hu, openOf, empty]

theorem recordsOfFrom_append_takeWhile (g : Gathering) (own : List Entry)
    (hall : NoHeaderOf user all) :
    recordsOfFrom user g (own ++ all.takeWhile (·.header?.isNone)) =
      recordsOfFrom user g (own ++ all) := by
  induction own generalizing g with
  | nil => exact recordsOfFrom_takeWhile g hall
  | cons e rest ih => rw [List.cons_append, List.cons_append, recordsOfFrom_cons,
      recordsOfFrom_cons, ih (g.after e)]

end

end Gathering

/-! ## The entries of a user -/

/-- The entries that belong to a user. -/
def ownEntries (user : String) (all : List Entry) : List Entry := all.filter (·.user = user)

/-- The entries of a user stand next to each other. -/
def IsContiguous (user : String) (all : List Entry) : Prop := ownEntries user all <:+: all

/-- What stands behind the entries of a user, up to the next header. -/
def followers (user : String) (all : List Entry) : List Entry :=
  (all.rtakeWhile (·.user ≠ user)).takeWhile (·.header?.isNone)

/-- The records of a user. -/
def recordsOf (user : String) (all : List Entry) : List Record :=
  (Gathering.records all).filter (·.user = user)

section

variable {user : String} {all : List Entry}

theorem ownEntries_append (user : String) (l l' : List Entry) :
    ownEntries user (l ++ l') = ownEntries user l ++ ownEntries user l' :=
  List.filter_append l l'

theorem ownEntries_eq_nil_iff : ownEntries user all = [] ↔ ∀ e ∈ all, e.user ≠ user := by
  unfold ownEntries
  rw [List.filter_eq_nil_iff]
  simp

/-- What stands behind an entry of the user, if nothing there is the user's. -/
theorem rtakeWhile_append {l back : List Entry} {e : Entry} (he : e.user = user)
    (hback : ∀ e' ∈ back, e'.user ≠ user) :
    (l ++ [e] ++ back).rtakeWhile (·.user ≠ user) = back := by
  have hreverse : (l ++ [e] ++ back).reverse = back.reverse ++ e :: l.reverse := by simp
  unfold List.rtakeWhile
  rw [hreverse, List.takeWhile_append_of_pos (by simpa using hback),
    List.takeWhile_cons_of_neg (by simp [he]), List.append_nil, List.reverse_reverse]

/-- What is left of the entries when those of the user, and those behind them, are taken away. -/
theorem IsContiguous.exists_front (h : IsContiguous user all) :
    ∃ front, all = front ++ (ownEntries user all ++ all.rtakeWhile (·.user ≠ user)) ∧
      ∀ e ∈ front, e.user ≠ user := by
  obtain ⟨front, back, hsplit⟩ := h
  have hown : ownEntries user (ownEntries user all) = ownEntries user all := by
    unfold ownEntries
    rw [List.filter_filter]
    simp
  -- all of the user's entries are in the middle, so none are in front, and none behind
  have hparts := congrArg (fun l => (ownEntries user l).length) hsplit
  simp only [ownEntries_append, List.length_append, hown] at hparts
  have hfront := ownEntries_eq_nil_iff.mp (List.length_eq_zero_iff.mp
    (by omega : (ownEntries user front).length = 0))
  have hback := ownEntries_eq_nil_iff.mp (List.length_eq_zero_iff.mp
    (by omega : (ownEntries user back).length = 0))
  by_cases hnone : ownEntries user all = []
  · have hall : all.rtakeWhile (·.user ≠ user) = all := by
      rw [List.rtakeWhile_eq_self_iff]
      simpa using ownEntries_eq_nil_iff.mp hnone
    refine ⟨[], ?_, by simp⟩
    rw [hnone, hall]
    rfl
  · have hlast : all.rtakeWhile (·.user ≠ user) = back := by
      obtain ⟨e, he⟩ := List.getLast?_isSome.mpr hnone |> Option.isSome_iff_exists.mp
      obtain ⟨init, hinit⟩ := List.getLast?_eq_some_iff.mp he
      have huser : e.user = user := by
        have hmem : e ∈ ownEntries user all := List.mem_of_getLast? he
        unfold ownEntries at hmem
        simpa using (List.mem_filter.mp hmem).2
      rw [← hsplit, hinit, ← List.append_assoc]
      exact rtakeWhile_append huser hback
    refine ⟨front, ?_, hfront⟩
    rw [hlast, ← List.append_assoc, hsplit]

theorem recordsOf_eq (user : String) (all : List Entry) :
    recordsOf user all = Gathering.recordsOfFrom user .empty all := rfl

theorem noHeaderOf_of_user_ne (h : ∀ e ∈ all, e.user ≠ user) : Gathering.NoHeaderOf user all :=
  fun e he hh => h e he hh.eq_user

/-- A user whose entries stand next to each other gets the records of these entries and of those
directly behind them, up to the next header. If the latter are passed over, the user's entries are
enough. -/
theorem recordsOf_eq_of_isContiguous (h : IsContiguous user all) :
    recordsOf user all = recordsOf user (ownEntries user all ++ followers user all) ∧
      ((∀ e ∈ followers user all, e.IsIdle) →
        recordsOf user all = recordsOf user (ownEntries user all)) := by
  obtain ⟨front, hsplit, hfront⟩ := h.exists_front
  have hback : Gathering.NoHeaderOf user (all.rtakeWhile (·.user ≠ user)) :=
    noHeaderOf_of_user_ne fun e he => by simpa using List.mem_rtakeWhile_imp he
  have hall : recordsOf user all = recordsOf user (ownEntries user all ++ followers user all) := by
    rw [recordsOf_eq, recordsOf_eq]
    conv_lhs => rw [hsplit]
    rw [Gathering.recordsOfFrom_append rfl (noHeaderOf_of_user_ne hfront)]
    exact (Gathering.recordsOfFrom_append_takeWhile _ _ hback).symm
  refine ⟨hall, fun hidle => hall.trans ?_⟩
  unfold recordsOf Gathering.records
  rw [← Gathering.recordsFrom_filter, ← Gathering.recordsFrom_filter _ (ownEntries user all),
    List.filter_append]
  have hnone : (followers user all).filter (fun e => ¬ e.IsIdle) = [] := by
    rw [List.filter_eq_nil_iff]
    simpa using hidle
  rw [hnone, List.append_nil]

/-- An entry with a text. -/
def textEntry (name text : String) : Entry := ⟨name, some text.toUTF8.toList⟩

/-- Behind alice's entries carol's file means nothing, and then bob has a header of his own. -/
theorem recordsOf_eq_of_isContiguous_alice :
    let own := [textEntry "alice.mail.header" "H", textEntry "alice.mail" "hers"]
    let all := own ++ [textEntry "carol.notes.txt" "", textEntry "bob.mail.header" "H",
      textEntry "bob.mail" "his"]
    ownEntries "alice" all = own ∧ followers "alice" all = [textEntry "carol.notes.txt" ""] ∧
      recordsOf "alice" all = recordsOf "alice" (own ++ [textEntry "carol.notes.txt" ""]) ∧
      recordsOf "alice" all = recordsOf "alice" own ∧
      recordsOf "alice" all = [⟨"alice", "H".toUTF8.toList, "hers".toUTF8.toList⟩] := by
  intro own all
  have hown : ownEntries "alice" all = own := by decide +kernel
  have hfollowers : followers "alice" all = [textEntry "carol.notes.txt" ""] := by decide +kernel
  have hall : IsContiguous "alice" all := by
    unfold IsContiguous
    rw [hown]
    exact List.infix_append [] own _
  have hidle : ∀ e ∈ followers "alice" all, e.IsIdle := by decide +kernel
  obtain ⟨hwith, halone⟩ := recordsOf_eq_of_isContiguous hall
  rw [hown, hfollowers] at hwith
  have hsame := halone hidle
  rw [hown] at hsame
  exact ⟨hown, hfollowers, hwith, hsame, by decide +kernel⟩

/-- The entries of all users stand next to each other, but bob's body, for which there is no header
of his, is not passed over, and alice's own entries are not enough. -/
theorem recordsOf_ne_of_stray_body :
    let all := [textEntry "alice.mail.header" "H", textEntry "alice.mail" "hers",
      textEntry "bob.mail" "his"]
    (∀ user, IsContiguous user all) ∧
      recordsOf "alice" all ≠ recordsOf "alice" (ownEntries "alice" all) := by
  intro all
  constructor
  · intro user
    by_cases halice : user = "alice"
    · subst halice
      exact ⟨[], [textEntry "bob.mail" "his"], by decide +kernel⟩
    · by_cases hbob : user = "bob"
      · subst hbob
        exact ⟨[textEntry "alice.mail.header" "H", textEntry "alice.mail" "hers"], [],
          by decide +kernel⟩
      · have husers : all.map (·.user) = ["alice", "alice", "bob"] := by decide +kernel
        have hnone : ownEntries user all = [] := by
          rw [ownEntries_eq_nil_iff]
          intro e he hu
          have hmem := List.mem_map_of_mem (f := (·.user)) he
          rw [husers, hu] at hmem
          simp [halice, hbob] at hmem
        unfold IsContiguous
        rw [hnone]
        exact List.nil_infix
  · decide +kernel

end

end Bulletin
