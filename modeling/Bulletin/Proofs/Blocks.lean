import Bulletin.Proofs.Gathering

/-!
# Blocks of entries

Entries are taken one at a time, and what becomes of an entry shows only later, when something
completes its record or drops it. Said of the whole run, the records are its blocks. A block of a
user begins at a header of that user where no block of that user is open, and goes on to the next
mark of emptiness, or the next header of anyone else, or the end:

    0  alice.mail.header     alice's block begins
    1  alice.mail
    2  alice.mail.header     still alice's block
    3  bob.mail.header       alice's block has ended; bob's begins
    4  bob.mail.empty        bob's block has ended, and is dropped

Main statements:

    Gathering.tracks_before   : what is being gathered before an entry is the block open there
    Gathering.outputAt_iff    : what is returned at an entry is the block that ends there
    Gathering.records_eq_blocks : the records are the blocks that are not dropped
-/

namespace Bulletin

/-! ## What an entry says -/

/-- What an entry says that is not passed over. -/
inductive Signal where
  | header (user : String) (bytes : List UInt8)
  | body (bytes : List UInt8)
  | blank
  deriving DecidableEq, Repr

namespace Entry

/-- What an entry says, unless it is refused or has an extension that means nothing. -/
def signal? (e : Entry) : Option Signal :=
  match EntryName.ofString? e.name with
  | none => none
  | some ⟨user, .header⟩ => e.payload.map (Signal.header user)
  | some ⟨_, .body⟩ => e.payload.map Signal.body
  | some ⟨_, .blank⟩ => some .blank
  | some ⟨_, .other _⟩ => none

/-- The entry is a header of a user. -/
def IsHeaderOf (user : String) (e : Entry) : Prop := ∃ bytes, e.signal? = some (.header user bytes)

/-- A block of the user cannot go on at this entry. -/
def Ends (user : String) (e : Entry) : Prop :=
  e.signal? = some .blank ∨ ∃ other, other ≠ user ∧ e.IsHeaderOf other

/-- The entry is refused, or has an extension that means nothing. -/
def IsIdle (e : Entry) : Prop :=
  ¬ e.IsAcceptable ∨
    ∃ name extension, EntryName.ofString? e.name = some name ∧ name.kind = .other extension

/-- The header that an entry holds. -/
def header? (e : Entry) : Option (List UInt8) :=
  match e.signal? with
  | some (.header _ bytes) => some bytes
  | _ => none

/-- The body that an entry holds. -/
def body? (e : Entry) : Option (List UInt8) :=
  match e.signal? with
  | some (.body bytes) => some bytes
  | _ => none

theorem signal?_eq_none_iff {e : Entry} : e.signal? = none ↔ e.IsIdle := by
  unfold signal? IsIdle IsAcceptable
  cases hname : EntryName.ofString? e.name with
  | none => simp
  | some name =>
    obtain ⟨user, kind⟩ := name
    cases kind with
    | header => cases hp : e.payload <;> simp
    | body => cases hp : e.payload <;> simp
    | blank => simp
    | other extension => simp

instance : DecidablePred IsIdle := fun _ => decidable_of_iff _ signal?_eq_none_iff

/-- A header of the user does not end its block. -/
theorem IsHeaderOf.not_ends {user : String} {e : Entry} (h : e.IsHeaderOf user) :
    ¬ e.Ends user := by
  obtain ⟨bytes, hsignal⟩ := h
  rintro (hblank | ⟨other, hother, bytes', hsignal'⟩)
  · rw [hsignal] at hblank
    cases hblank
  · rw [hsignal] at hsignal'
    cases hsignal'
    exact hother rfl

/-- A header that does not end a block of the user is one of the user. -/
theorem IsHeaderOf.user_eq {user other : String} {e : Entry} (h : e.IsHeaderOf other)
    (hends : ¬ e.Ends user) : other = user := by
  by_cases hu : other = user
  · exact hu
  · exact absurd (.inr ⟨other, hu, h⟩) hends

end Entry

namespace Gathering

theorem after_eq (g : Gathering) (e : Entry) :
    g.after e = match e.signal? with
      | none => g
      | some (.header user bytes) => (g.header user bytes).1
      | some (.body bytes) => g.body bytes
      | some .blank => empty := by
  unfold after accept Entry.signal? Entry.read
  cases EntryName.ofString? e.name with
  | none => rfl
  | some name =>
    obtain ⟨user, kind⟩ := name
    cases kind with
    | header => cases e.payload <;> rfl
    | body => cases e.payload <;> rfl
    | blank => rfl
    | other extension => rfl

theorem completed?_eq (g : Gathering) (e : Entry) :
    g.completed? e = match e.signal? with
      | some (.header user bytes) => (g.header user bytes).2
      | _ => none := by
  unfold completed? accept Entry.signal? Entry.read
  cases EntryName.ofString? e.name with
  | none => rfl
  | some name =>
    obtain ⟨user, kind⟩ := name
    cases kind with
    | header => cases e.payload <;> rfl
    | body => cases e.payload <;> rfl
    | blank => rfl
    | other extension => rfl

/-- An entry completes the open record just if it is a header of someone else. -/
theorem completed?_eq_some_iff {g : Gathering} {e : Entry} {r : Record} :
    g.completed? e = some r ↔
      g.pending = some r ∧ ∃ user, user ≠ r.user ∧ e.IsHeaderOf user := by
  rw [completed?_eq]
  unfold Entry.IsHeaderOf header
  cases hs : e.signal? with
  | none => simp
  | some signal =>
    cases signal with
    | body bytes => simp
    | blank => simp
    | header user bytes =>
      cases hp : g.pending with
      | none => simp
      | some held =>
        by_cases hu : held.user = user
        · simp only [if_pos hu]
          constructor
          · intro h
            cases h
          · rintro ⟨heq, other, hother, bytes', hsignal⟩
            cases heq
            cases hsignal
            exact absurd hu.symm hother
        · simp only [if_neg hu]
          constructor
          · intro h
            cases h
            exact ⟨rfl, user, Ne.symm hu, bytes, rfl⟩
          · rintro ⟨heq, -⟩
            exact heq

end Gathering

/-! ## Blocks -/

/-- A block of a user that begins at entry `start` is open before entry `n`. -/
def IsOpen (entries : List Entry) (user : String) (start n : Nat) : Prop :=
  user ≠ "" ∧ start < n ∧ n ≤ entries.length ∧
    (∃ e, entries[start]? = some e ∧ e.IsHeaderOf user) ∧
    (∀ k e, start < k → k < n → entries[k]? = some e → ¬ e.Ends user) ∧
    ∀ earlier < start, ¬ IsOpen entries user earlier start
termination_by start

/-- A run of entries: those from `start` on and before `stop`. -/
structure Block where
  user : String
  start : Nat
  stop : Nat
  deriving DecidableEq, Repr

namespace Block

/-- The block is open before its end, and there it has to end. -/
def IsBlock (b : Block) (entries : List Entry) : Prop :=
  IsOpen entries b.user b.start b.stop ∧ ∀ e, entries[b.stop]? = some e → e.Ends b.user

/-- A mark of emptiness ends the block. -/
def IsDropped (b : Block) (entries : List Entry) : Prop :=
  ∃ e, entries[b.stop]? = some e ∧ e.signal? = some .blank

/-- The entries of the block. -/
def entries (b : Block) (all : List Entry) : List Entry := (all.take b.stop).drop b.start

/-- The record of the block: its last header (there is one, at its start), and its last body, if
there is one. -/
def record (b : Block) (all : List Entry) : Record where
  user := b.user
  header := ((b.entries all).filterMap Entry.header?).getLast?.getD []
  body := ((b.entries all).filterMap Entry.body?).getLast?.getD []

end Block

section

variable {all : List Entry} {e : Entry} {user user' : String} {start start' n m : Nat}

/-- A block is open behind an entry if it was before and is not ended, or begins there. -/
theorem isOpen_succ_iff (he : all[n]? = some e) :
    IsOpen all user start (n + 1) ↔
      (IsOpen all user start n ∧ ¬ e.Ends user) ∨
        (start = n ∧ user ≠ "" ∧ e.IsHeaderOf user ∧
          ∀ earlier < n, ¬ IsOpen all user earlier n) := by
  have hn : n < all.length := (List.getElem?_eq_some_iff.mp he).1
  constructor
  · intro h
    rw [IsOpen] at h
    obtain ⟨hu, hlt, -, hheader, hgoes, hfirst⟩ := h
    by_cases hs : start = n
    · subst hs
      obtain ⟨e', he', hh⟩ := hheader
      rw [he] at he'
      cases he'
      exact .inr ⟨rfl, hu, hh, hfirst⟩
    · left
      constructor
      · rw [IsOpen]
        refine ⟨hu, by omega, by omega, hheader, ?_, hfirst⟩
        intro k e' h1 h2
        exact hgoes k e' h1 (by omega)
      · exact hgoes n e (by omega) (by omega) he
  · rintro (⟨h, hends⟩ | ⟨rfl, hu, hh, hfirst⟩)
    · rw [IsOpen] at h ⊢
      obtain ⟨hu, hlt, -, hheader, hgoes, hfirst⟩ := h
      refine ⟨hu, by omega, by omega, hheader, ?_, hfirst⟩
      intro k e' h1 h2 he'
      by_cases hk : k = n
      · subst hk
        rw [he] at he'
        cases he'
        exact hends
      · exact hgoes k e' h1 (by omega) he'
    · rw [IsOpen]
      refine ⟨hu, by omega, by omega, ⟨e, he, hh⟩, ?_, hfirst⟩
      intro k e' h1 h2
      omega

/-- A block that is open was open before. -/
theorem IsOpen.of_le (h : IsOpen all user start n) (hs : start < m) (hm : m ≤ n) :
    IsOpen all user start m := by
  rw [IsOpen] at h ⊢
  obtain ⟨hu, hlt, hn, hheader, hgoes, hfirst⟩ := h
  refine ⟨hu, hs, by omega, hheader, ?_, hfirst⟩
  intro k e h1 h2
  exact hgoes k e h1 (by omega)

/-- No block begins while another one goes on. -/
theorem IsOpen.start_le (h : IsOpen all user start n) (h' : IsOpen all user' start' n) :
    start' ≤ start := by
  refine Nat.le_of_not_lt ?_
  intro hlt
  have hback := h
  rw [IsOpen] at hback h'
  obtain ⟨-, -, -, -, hgoes, -⟩ := hback
  obtain ⟨-, hlt', -, ⟨e, he, hh⟩, -, hfirst⟩ := h'
  have hu : user' = user := hh.user_eq (hgoes start' e (by omega) hlt' he)
  subst hu
  exact hfirst start (by omega) (h.of_le (by omega) (by omega))

/-- At most one block is open. -/
theorem IsOpen.unique (h : IsOpen all user start n) (h' : IsOpen all user' start' n) :
    user = user' ∧ start = start' := by
  have hs : start = start' := by
    have := h.start_le h'
    have := h'.start_le h
    omega
  subst hs
  rw [IsOpen] at h h'
  obtain ⟨-, -, -, ⟨e, he, bytes, hh⟩, -⟩ := h
  obtain ⟨-, -, -, ⟨e', he', bytes', hh'⟩, -⟩ := h'
  rw [he] at he'
  cases he'
  rw [hh] at hh'
  cases hh'
  exact ⟨rfl, rfl⟩

namespace Block

/-- Of two blocks the one that ends first has ended before the other begins. -/
theorem IsBlock.stop_le_start {b b' : Block} (h : b.IsBlock all) (h' : b'.IsBlock all)
    (hlt : b.stop < b'.stop) : b.stop ≤ b'.start := by
  refine Nat.le_of_not_lt ?_
  intro hle
  have hopen := h.1
  have hopen' := h'.1
  -- both are open before the end of the first, so they are one, which goes on behind its end
  obtain ⟨hu, hs⟩ := hopen.unique (hopen'.of_le (by omega) (Nat.le_of_lt hlt))
  rw [IsOpen] at hopen'
  obtain ⟨-, -, hlength, -, hgoes, -⟩ := hopen'
  have he : all[b.stop]? = some all[b.stop] := List.getElem?_eq_getElem (by omega)
  have hends := h.2 _ he
  rw [hu] at hends
  exact hgoes b.stop _ (by omega) hlt he hends

/-- Blocks that end at the same entry are the same. -/
theorem IsBlock.eq_of_stop_eq {b b' : Block} (h : b.IsBlock all) (h' : b'.IsBlock all)
    (hstop : b.stop = b'.stop) : b = b' := by
  obtain ⟨user, start, stop⟩ := b
  obtain ⟨user', start', stop'⟩ := b'
  dsimp only at hstop
  subst hstop
  obtain ⟨rfl, rfl⟩ := h.1.unique h'.1
  rfl

/-- An entry that is added to a block may bring a header, or a body. -/
theorem record_succ (he : all[n]? = some e) (hs : start ≤ n) :
    (⟨user, start, n + 1⟩ : Block).record all =
      ⟨user, e.header?.getD ((⟨user, start, n⟩ : Block).record all).header,
        e.body?.getD ((⟨user, start, n⟩ : Block).record all).body⟩ := by
  have hn : n < all.length := (List.getElem?_eq_some_iff.mp he).1
  have hentries : (⟨user, start, n + 1⟩ : Block).entries all =
      (⟨user, start, n⟩ : Block).entries all ++ [e] := by
    have hlength : start ≤ (all.take n).length := by
      rw [List.length_take]
      omega
    unfold entries
    rw [List.take_add_one, he, Option.toList_some]
    exact List.drop_append_of_le_length hlength
  have hlast : ∀ (f : Entry → Option (List UInt8)) (l : List Entry),
      (((l ++ [e]).filterMap f).getLast?).getD [] =
        (f e).getD ((l.filterMap f).getLast?.getD []) := by
    intro f l
    rw [List.filterMap_append]
    cases hf : f e with
    | none => simp [hf]
    | some bytes => simp [hf]
  unfold record
  rw [hentries, hlast, hlast]

/-- No entries give an empty record. -/
theorem record_self (user : String) (n : Nat) :
    (⟨user, n, n⟩ : Block).record all = ⟨user, [], []⟩ := by
  have hentries : (⟨user, n, n⟩ : Block).entries all = [] := by
    unfold entries
    rw [List.drop_eq_nil_iff, List.length_take]
    exact Nat.min_le_left n all.length
  unfold record
  rw [hentries]
  rfl

end Block

end

/-! ## The open record is the open block -/

namespace Gathering

/-- What is being gathered before entry `n`. -/
def before (all : List Entry) (n : Nat) : Gathering := (all.take n).foldl after empty

theorem before_succ {all : List Entry} {n : Nat} {e : Entry} (he : all[n]? = some e) :
    before all (n + 1) = (before all n).after e := by
  unfold before
  rw [List.take_add_one, he, List.foldl_append]
  rfl

/-- The open record is the record so far of the block that is open before entry `n`. -/
structure Tracks (g : Gathering) (all : List Entry) (n : Nat) : Prop where
  block : ∀ r, g.pending = some r →
    ∃ start, IsOpen all r.user start n ∧ (⟨r.user, start, n⟩ : Block).record all = r
  nothing : g.pending = none → ∀ user start, ¬ IsOpen all user start n

theorem tracks_empty (all : List Entry) : empty.Tracks all 0 := by
  constructor
  · intro r hr
    cases hr
  · intro _ user start h
    rw [IsOpen] at h
    omega

section

variable {all : List Entry} {e : Entry} {g : Gathering} {n : Nat}

/-- A body, or an entry that is passed over, leaves the block open that is open. -/
theorem Tracks.goOn (h : g.Tracks all n) (he : all[n]? = some e)
    (hs : e.signal? = none ∨ ∃ bytes, e.signal? = some (.body bytes)) :
    (⟨g.pending.map fun r => { r with body := e.body?.getD r.body }⟩ : Gathering).Tracks all
      (n + 1) := by
  have hheader : ∀ user, ¬ e.IsHeaderOf user := by
    rintro user ⟨bytes, hh⟩
    rw [hh] at hs
    simp at hs
  have hends : ∀ user, ¬ e.Ends user := by
    rintro user (hblank | ⟨other, -, hh⟩)
    · rw [hblank] at hs
      simp at hs
    · exact hheader other hh
  have hnone : e.header? = none := by
    unfold Entry.header?
    split
    · rename_i user bytes hh
      exact absurd ⟨bytes, hh⟩ (hheader user)
    · rfl
  constructor
  · intro r hr
    obtain ⟨held, hp, rfl⟩ := Option.map_eq_some_iff.mp hr
    obtain ⟨start, hopen, hrecord⟩ := h.block held hp
    have hstart : start ≤ n := by
      rw [IsOpen] at hopen
      omega
    refine ⟨start, (isOpen_succ_iff he).mpr (.inl ⟨hopen, hends _⟩), ?_⟩
    rw [Block.record_succ he hstart, hrecord, hnone]
    rfl
  · intro hp user start hopen
    rcases (isOpen_succ_iff he).mp hopen with ⟨hbefore, -⟩ | ⟨-, -, hh, -⟩
    · exact h.nothing (Option.map_eq_none_iff.mp hp) user start hbefore
    · exact hheader user hh

/-- A mark of emptiness leaves no block open. -/
theorem Tracks.blank (he : all[n]? = some e) (hs : e.signal? = some .blank) :
    empty.Tracks all (n + 1) := by
  constructor
  · intro r hr
    cases hr
  · intro _ user start hopen
    rcases (isOpen_succ_iff he).mp hopen with ⟨-, hends⟩ | ⟨-, -, ⟨bytes, hh⟩, -⟩
    · exact hends (.inl hs)
    · rw [hs] at hh
      cases hh

/-- A header with no block of its user open begins one, unless that user has no name. -/
theorem Tracks.opened {user : String} {bytes : List UInt8} (he : all[n]? = some e)
    (hs : e.signal? = some (.header user bytes)) (hnone : ∀ start, ¬ IsOpen all user start n) :
    (⟨opened user bytes⟩ : Gathering).Tracks all (n + 1) := by
  have hheader : e.IsHeaderOf user := ⟨bytes, hs⟩
  have hother : ∀ other start, IsOpen all other start (n + 1) → other = user ∧ start = n := by
    intro other start hopen
    rcases (isOpen_succ_iff he).mp hopen with ⟨hbefore, hends⟩ | ⟨hstart, -, ⟨bytes', hh⟩, -⟩
    · have hu := hheader.user_eq hends
      subst hu
      exact absurd hbefore (hnone start)
    · rw [hs] at hh
      cases hh
      exact ⟨rfl, hstart⟩
  unfold Gathering.opened
  by_cases hu : user = ""
  · subst hu
    constructor
    · intro r hr
      cases hr
    · intro _ other start hopen
      have hempty := (hother other start hopen).1
      rw [IsOpen] at hopen
      exact hopen.1 hempty
  · have hisEmpty : user.isEmpty = false := by simpa using hu
    rw [hisEmpty]
    refine ⟨fun r hr => ?_, fun hp => by cases hp⟩
    cases hr
    refine ⟨n, (isOpen_succ_iff he).mpr (.inr ⟨rfl, hu, hheader, fun earlier _ => hnone earlier⟩),
      ?_⟩
    rw [Block.record_succ he (Nat.le_refl n), Block.record_self]
    unfold Entry.header? Entry.body?
    rw [hs]
    rfl

theorem Tracks.header {user : String} {bytes : List UInt8} (h : g.Tracks all n)
    (he : all[n]? = some e) (hs : e.signal? = some (.header user bytes)) :
    (g.header user bytes).1.Tracks all (n + 1) := by
  have hheader : e.IsHeaderOf user := ⟨bytes, hs⟩
  unfold Gathering.header
  cases hp : g.pending with
  | none => exact Tracks.opened he hs (h.nothing hp user)
  | some held =>
    obtain ⟨start, hopen, hrecord⟩ := h.block held hp
    dsimp only
    by_cases hu : held.user = user
    · rw [if_pos hu]
      subst hu
      have hstart : start ≤ n := by
        rw [IsOpen] at hopen
        omega
      refine ⟨fun r hr => ?_, fun hp => by cases hp⟩
      cases hr
      refine ⟨start, (isOpen_succ_iff he).mpr (.inl ⟨hopen, hheader.not_ends⟩), ?_⟩
      rw [Block.record_succ he hstart]
      unfold Entry.header? Entry.body?
      rw [hs, hrecord]
      rfl
    · rw [if_neg hu]
      refine Tracks.opened he hs fun start' hopen' => ?_
      exact hu (hopen.unique hopen').1

/-- Taking an entry keeps track of the block that is open. -/
theorem Tracks.after (h : g.Tracks all n) (he : all[n]? = some e) :
    (g.after e).Tracks all (n + 1) := by
  rw [after_eq]
  cases hs : e.signal? with
  | none =>
    have hsame := h.goOn he (.inl hs)
    unfold Entry.body? at hsame
    simpa [hs] using hsame
  | some signal =>
    cases signal with
    | header user bytes => exact h.header he hs
    | body bytes =>
      have hbody := h.goOn he (.inr ⟨bytes, hs⟩)
      unfold Entry.body? at hbody
      simpa [hs, Gathering.body] using hbody
    | blank => exact Tracks.blank he hs

end

theorem tracks_before {all : List Entry} {n : Nat} (hn : n ≤ all.length) :
    (before all n).Tracks all n := by
  induction n with
  | zero => exact tracks_empty all
  | succ n ih =>
    have he : all[n]? = some all[n] := List.getElem?_eq_getElem hn
    rw [before_succ he]
    exact (ih (by omega)).after he

/-- The open record is that of the block that is open. -/
theorem pending_before_iff {all : List Entry} {n : Nat} {r : Record} (hn : n ≤ all.length) :
    (before all n).pending = some r ↔
      ∃ user start, IsOpen all user start n ∧ r = (⟨user, start, n⟩ : Block).record all := by
  have htracks := tracks_before hn
  constructor
  · intro hp
    obtain ⟨start, hopen, hrecord⟩ := htracks.block r hp
    exact ⟨r.user, start, hopen, hrecord.symm⟩
  · rintro ⟨user, start, hopen, rfl⟩
    cases hp : (before all n).pending with
    | none => exact absurd hopen (htracks.nothing hp user start)
    | some held =>
      obtain ⟨start', hopen', hrecord⟩ := htracks.block held hp
      obtain ⟨rfl, rfl⟩ := hopen.unique hopen'
      rw [hrecord]

/-! ## The records are the blocks -/

/-- What is returned at entry `n`; behind the last entry, what is returned at the end. -/
def outputAt (all : List Entry) (n : Nat) : Option Record :=
  match all[n]? with
  | some e => (before all n).completed? e
  | none => (before all n).finish

/-- What is returned at an entry is the record of the block that ends there without being
dropped. -/
theorem outputAt_iff {all : List Entry} {n : Nat} {r : Record} (hn : n ≤ all.length) :
    outputAt all n = some r ↔
      ∃ b : Block, b.IsBlock all ∧ ¬ b.IsDropped all ∧ b.stop = n ∧ r = b.record all := by
  unfold outputAt
  cases he : all[n]? with
  | none =>
    refine (pending_before_iff hn).trans ⟨?_, ?_⟩
    · rintro ⟨user, start, hopen, hr⟩
      refine ⟨⟨user, start, n⟩, ⟨hopen, fun e he' => ?_⟩, ?_, rfl, hr⟩
      · rw [he] at he'
        cases he'
      · rintro ⟨e, he', -⟩
        rw [he] at he'
        cases he'
    · rintro ⟨⟨user, start, stop⟩, hb, -, rfl, hr⟩
      exact ⟨user, start, hb.1, hr⟩
  | some e =>
    dsimp only
    rw [completed?_eq_some_iff, pending_before_iff hn]
    constructor
    · rintro ⟨⟨user, start, hopen, rfl⟩, other, hother, hh⟩
      refine ⟨⟨user, start, n⟩, ⟨hopen, fun e' he' => ?_⟩, ?_, rfl, rfl⟩
      · rw [he] at he'
        cases he'
        exact .inr ⟨other, hother, hh⟩
      · rintro ⟨e', he', hblank⟩
        rw [he] at he'
        cases he'
        obtain ⟨bytes, hheader⟩ := hh
        rw [hblank] at hheader
        cases hheader
    · rintro ⟨⟨user, start, stop⟩, hb, hdropped, rfl, rfl⟩
      refine ⟨⟨user, start, hb.1, rfl⟩, ?_⟩
      rcases hb.2 e he with hblank | ⟨other, hother, hh⟩
      · exact absurd ⟨e, he, hblank⟩ hdropped
      · exact ⟨other, hother, hh⟩

theorem outputsBefore_succ (all : List Entry) (n : Nat) :
    (List.range (n + 1)).filterMap (outputAt all) =
      (List.range n).filterMap (outputAt all) ++ (outputAt all n).toList := by
  rw [List.range_succ, List.filterMap_append]
  cases hout : outputAt all n with
  | none => simp [hout]
  | some r => simp [hout]

/-- The records are those returned before entry `n`, and those of the entries from there on. -/
theorem records_eq_append {all : List Entry} {n : Nat} (hn : n ≤ all.length) :
    records all =
      (List.range n).filterMap (outputAt all) ++ recordsFrom (before all n) (all.drop n) := by
  induction n with
  | zero => rfl
  | succ n ih =>
    have he : all[n]? = some all[n] := List.getElem?_eq_getElem hn
    have hout : outputAt all n = (before all n).completed? all[n] := by
      unfold outputAt
      rw [he]
    rw [ih (by omega), List.drop_eq_getElem_cons hn, recordsFrom, outputsBefore_succ,
      List.append_assoc, before_succ he, hout]

theorem records_eq_outputs (all : List Entry) :
    records all = (List.range (all.length + 1)).filterMap (outputAt all) := by
  have hend : outputAt all all.length = (before all all.length).finish := by
    unfold outputAt
    rw [List.getElem?_eq_none (Nat.le_refl _)]
  rw [records_eq_append (Nat.le_refl _), List.drop_length, recordsFrom, outputsBefore_succ, hend]

/-- What has been returned before entry `n` are the blocks that have ended there. -/
theorem exists_blocks (all : List Entry) {n : Nat} (hn : n ≤ all.length + 1) :
    ∃ blocks : List Block,
      (∀ b, b ∈ blocks ↔ b.IsBlock all ∧ ¬ b.IsDropped all ∧ b.stop < n) ∧
      blocks.Pairwise (fun b b' => b.stop ≤ b'.start) ∧
      (List.range n).filterMap (outputAt all) = blocks.map (·.record all) := by
  induction n with
  | zero => exact ⟨[], by simp, .nil, rfl⟩
  | succ n ih =>
    obtain ⟨blocks, hmem, hordered, hrecords⟩ := ih (by omega)
    rw [outputsBefore_succ, hrecords]
    cases hout : outputAt all n with
    | none =>
      refine ⟨blocks, fun b => (hmem b).trans ?_, hordered, List.append_nil _⟩
      constructor
      · rintro ⟨hb, hdropped, hstop⟩
        exact ⟨hb, hdropped, by omega⟩
      · rintro ⟨hb, hdropped, hstop⟩
        refine ⟨hb, hdropped, ?_⟩
        by_cases hlast : b.stop = n
        · have hsome := (outputAt_iff (by omega)).mpr ⟨b, hb, hdropped, hlast, rfl⟩
          rw [hout] at hsome
          cases hsome
        · omega
    | some r =>
      obtain ⟨last, hlast, hkept, hstop, hr⟩ := (outputAt_iff (by omega)).mp hout
      refine ⟨blocks ++ [last], fun b => ?_, ?_, by simp [hr]⟩
      · rw [List.mem_append, List.mem_singleton, hmem]
        constructor
        · rintro (⟨hb, hdropped, hlt⟩ | rfl)
          · exact ⟨hb, hdropped, by omega⟩
          · exact ⟨hlast, hkept, by omega⟩
        · rintro ⟨hb, hdropped, hlt⟩
          by_cases hn' : b.stop = n
          · exact .inr (hb.eq_of_stop_eq hlast (by omega))
          · exact .inl ⟨hb, hdropped, by omega⟩
      · rw [List.pairwise_append]
        refine ⟨hordered, List.pairwise_singleton _ _, ?_⟩
        intro b hb b' hb'
        obtain ⟨hblock, -, hlt⟩ := (hmem b).mp hb
        rw [List.mem_singleton.mp hb']
        exact hblock.stop_le_start hlast (by omega)

/-- Entries that are passed over might as well not be there. -/
theorem recordsFrom_filter (g : Gathering) (all : List Entry) :
    recordsFrom g (all.filter fun e => ¬ e.IsIdle) = recordsFrom g all := by
  induction all generalizing g with
  | nil => rfl
  | cons e rest ih =>
    by_cases hidle : e.IsIdle
    · have hs := Entry.signal?_eq_none_iff.mpr hidle
      rw [List.filter_cons_of_neg (by simpa using hidle), ih, recordsFrom, after_eq, completed?_eq,
        hs]
      rfl
    · rw [List.filter_cons_of_pos (by simpa using hidle), recordsFrom, recordsFrom, ih]

/-- The records are the blocks that are not dropped, each once and in order. Each is returned where
its block ends, and entries that are passed over make no difference. -/
theorem records_eq_blocks (all : List Entry) :
    (∃ blocks : List Block,
      (∀ b, b ∈ blocks ↔ b.IsBlock all ∧ ¬ b.IsDropped all) ∧
      blocks.Pairwise (fun b b' => b.stop ≤ b'.start) ∧
      records all = blocks.map (·.record all)) ∧
    (∀ n ≤ all.length, ∀ r, outputAt all n = some r ↔
      ∃ b : Block, b.IsBlock all ∧ ¬ b.IsDropped all ∧ b.stop = n ∧ r = b.record all) ∧
    records (all.filter fun e => ¬ e.IsIdle) = records all := by
  refine ⟨?_, fun n hn r => outputAt_iff hn, recordsFrom_filter empty all⟩
  obtain ⟨blocks, hmem, hordered, hrecords⟩ := exists_blocks all (Nat.le_refl _)
  refine ⟨blocks, fun b => (hmem b).trans ?_, hordered, ?_⟩
  · constructor
    · rintro ⟨hb, hdropped, -⟩
      exact ⟨hb, hdropped⟩
    · rintro ⟨hb, hdropped⟩
      have hstop : b.stop ≤ all.length := by
        have hopen := hb.1
        rw [IsOpen] at hopen
        exact hopen.2.2.1
      exact ⟨hb, hdropped, by omega⟩
  · rw [records_eq_outputs, hrecords]

end Gathering

end Bulletin
