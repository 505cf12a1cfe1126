import Bulletin.Tarball.Packing

/-!
# What is packed can be unpacked

A packed file is written in stored blocks, and unpacking copies these out again:

    storedBlock_of_has : a block is copied as it is
    blocks_store       : and so are all blocks of a file
    unpack_pack        : Gzip.unpack (Gzip.pack bytes) = ⟨bytes, .clean⟩

In which turns a file is inflated makes no difference where nothing is damaged, so that of the state
of inflating only what is left and what has been inflated is looked at.
-/

namespace Bulletin.Tarball

namespace Inflation

/-- What is left to be inflated, of whose first byte some bits have been read, and what has been. -/
structure Has (s : Inflation) (used : Nat) (bytes out : List UInt8) : Prop where
  used : s.used = used
  bytes : s.bytes = bytes
  out : s.out.toList = out

variable {s : Inflation} {used : Nat} {b : UInt8} {bytes rest out : List UInt8}

theorem Has.nextTurn (h : s.Has used bytes out) : s.nextTurn.Has used bytes out :=
  ⟨h.used, h.bytes, h.out⟩

theorem Has.makeRoom (h : s.Has used bytes out) : s.makeRoom.Has used bytes out := by
  unfold Inflation.makeRoom
  split
  · exact ⟨h.used, h.bytes, h.out⟩
  · exact h

theorem Has.fetch (h : s.Has used bytes out) : s.fetch.Has used bytes out := by
  unfold Inflation.fetch
  split
  · exact h
  · split
    · exact ⟨h.used, h.bytes, h.out⟩
    · exact h.nextTurn

theorem Has.advance (h : s.Has used (b :: rest) out) : s.advance.Has 0 rest out := by
  refine ⟨rfl, ?_, h.out⟩
  show s.bytes.drop 1 = rest
  rw [h.bytes]
  rfl

/-! ## Steps -/

theorem bind_of_ok {α β : Type} {x : Step α} {f : α → Step β} {a : α} {s s' : Inflation}
    (h : x s = .ok a s') : (x >>= f) s = f a s' := by
  show EStateM.bind x f s = f a s'
  unfold EStateM.bind
  rw [h]

theorem bit_of_has (h : s.Has used (b :: rest) out) (hused : used < 7) :
    ∃ s', bit s = .ok (b.toNat.testBit used) s' ∧ s'.Has (used + 1) (b :: rest) out := by
  have hfetched : (if s.used = 0 then s.fetch else s).Has used (b :: rest) out := by
    split
    · exact h.fetch
    · exact h
  unfold bit
  rw [h.bytes]
  dsimp only
  generalize (if s.used = 0 then s.fetch else s) = fetched at hfetched
  rw [if_pos (hfetched.used.symm ▸ hused), h.used, hfetched.used]
  exact ⟨_, rfl, rfl, hfetched.bytes, hfetched.out⟩

theorem byte_of_has (h : s.Has 0 (b :: rest) out) :
    ∃ s', byte s = .ok b s' ∧ s'.Has 0 rest out := by
  unfold byte
  rw [h.bytes]
  exact ⟨_, rfl, h.fetch.advance⟩

theorem word_of_has {n : Nat} (hn : n ≤ Gzip.maxBlock)
    (h : s.Has 0 (Gzip.littleEndian 2 n ++ rest) out) :
    ∃ s', word s = .ok n s' ∧ s'.Has 0 rest out := by
  have htwo : Gzip.littleEndian 2 n ++ rest = n.toUInt8 :: (n / 256).toUInt8 :: rest := rfl
  rw [htwo] at h
  obtain ⟨s₁, hlow, hhas⟩ := byte_of_has h
  obtain ⟨s₂, hhigh, hhas'⟩ := byte_of_has hhas
  have hvalue : n.toUInt8.toNat + 256 * (n / 256).toUInt8.toNat = n := by
    unfold Gzip.maxBlock at hn
    simp only [Nat.toUInt8_eq, UInt8.toNat_ofNat']
    omega
  refine ⟨s₂, ?_, hhas'⟩
  unfold word
  rw [bind_of_ok hlow, bind_of_ok hhigh, hvalue]
  rfl

theorem push_of_has (h : s.Has used bytes out) (b : UInt8) :
    ∃ s', push b s = .ok () s' ∧ s'.Has used bytes (out ++ [b]) := by
  have hroom := h.makeRoom
  refine ⟨_, rfl, hroom.used, hroom.bytes, ?_⟩
  show (s.makeRoom.out.push b).toList = out ++ [b]
  rw [Array.toList_push, hroom.out]

/-- Bytes are copied one by one. -/
theorem copy_of_has (now : List UInt8) (h : s.Has 0 (now ++ rest) out) :
    ∃ s', copy now.length s = .ok () s' ∧ s'.Has 0 rest (out ++ now) := by
  induction now generalizing s out with
  | nil => exact ⟨s, rfl, h.used, h.bytes, by rw [List.append_nil, h.out]⟩
  | cons b now ih =>
    have hmodify : (modify makeRoom : Step Unit) s = .ok () s.makeRoom := rfl
    have hroom : s.makeRoom.Has 0 (b :: (now ++ rest)) out := h.makeRoom
    obtain ⟨s₁, hbyte, hhas⟩ := byte_of_has hroom
    obtain ⟨s₂, hpush, hhas'⟩ := push_of_has hhas b
    obtain ⟨s', hcopy, hlast⟩ := ih hhas'
    refine ⟨s', ?_, by rw [List.append_cons]; exact hlast⟩
    rw [List.length_cons, copy, bind_of_ok hmodify, bind_of_ok hbyte, bind_of_ok hpush, hcopy]

/-! ## Blocks -/

/-- A block is copied, its length being given twice. -/
theorem storedBlock_of_has {now : List UInt8} (hlength : now.length ≤ Gzip.maxBlock)
    (h : s.Has (used + 1) (b :: (Gzip.littleEndian 2 now.length ++
      Gzip.littleEndian 2 (0xFFFF - now.length) ++ now ++ rest)) out) :
    ∃ s', storedBlock s = .ok () s' ∧ s'.Has 0 rest (out ++ now) := by
  have hmodify : (modify fun s => if s.used = 0 then s else s.advance : Step Unit) s =
      .ok () s.advance := by
    show EStateM.Result.ok () (if s.used = 0 then s else s.advance) = _
    rw [if_neg (by rw [h.used]; simp)]
  have hlengths := h.advance
  rw [List.append_assoc, List.append_assoc] at hlengths
  obtain ⟨s₁, hword, hhas⟩ := word_of_has hlength hlengths
  obtain ⟨s₂, hword', hhas'⟩ := word_of_has (n := 0xFFFF - now.length) (Nat.sub_le _ _) hhas
  obtain ⟨s', hcopy, hlast⟩ := copy_of_has now hhas'
  refine ⟨s', ?_, hlast⟩
  unfold storedBlock
  rw [bind_of_ok hmodify, bind_of_ok hword, bind_of_ok hword', if_neg ?_]
  · exact hcopy
  · unfold Gzip.maxBlock at hlength
    omega

/-- Two bits that are not set say that a block is stored. -/
theorem block_of_has {last : Bool} {now : List UInt8} (hlength : now.length ≤ Gzip.maxBlock)
    (h : s.Has 0 ((if last then 1 else 0) :: (Gzip.littleEndian 2 now.length ++
      Gzip.littleEndian 2 (0xFFFF - now.length) ++ now ++ rest)) out) :
    ∃ s₁ s', bit s = .ok last s₁ ∧ block s₁ = .ok () s' ∧ s'.Has 0 rest (out ++ now) := by
  obtain ⟨s₁, hbit, hhas⟩ := bit_of_has h (by decide)
  obtain ⟨s₂, hlow, hhas'⟩ := bit_of_has hhas (by decide)
  obtain ⟨s₃, hhigh, hhas''⟩ := bit_of_has hhas' (by decide)
  obtain ⟨s', hstored, hlast⟩ := storedBlock_of_has hlength hhas''
  have hvalues : ∀ last : Bool, (if last then (1 : UInt8) else 0).toNat.testBit 0 = last ∧
      (if last then (1 : UInt8) else 0).toNat.testBit 1 = false ∧
      (if last then (1 : UInt8) else 0).toNat.testBit 2 = false := by decide
  obtain ⟨hfirst, hsecond, hthird⟩ := hvalues last
  rw [hfirst] at hbit
  rw [hsecond] at hlow
  rw [hthird] at hhigh
  have hkind : number 2 s₁ = .ok 0 s₃ := by
    have hone : number 1 s₂ = .ok 0 s₃ := by
      rw [number, bind_of_ok hhigh]
      rfl
    rw [number, bind_of_ok hlow, bind_of_ok hone]
    rfl
  refine ⟨s₁, s', hbit, ?_, hlast⟩
  unfold block
  rw [bind_of_ok hkind]
  exact hstored

theorem store_succ_append (fuel : Nat) (bytes rest : List UInt8) :
    Gzip.store (fuel + 1) bytes ++ rest =
      (if (bytes.drop Gzip.maxBlock).isEmpty then 1 else 0) ::
        (Gzip.littleEndian 2 (bytes.take Gzip.maxBlock).length ++
          Gzip.littleEndian 2 (0xFFFF - (bytes.take Gzip.maxBlock).length) ++
          bytes.take Gzip.maxBlock ++
          ((if (bytes.drop Gzip.maxBlock).isEmpty then []
            else Gzip.store fuel (bytes.drop Gzip.maxBlock)) ++ rest)) := by
  simp [Gzip.store]

/-- The last block is the one behind which no bytes are left. -/
theorem blocks_store {fuel fuel' : Nat} {bytes : List UInt8} (hfuel : bytes.length < fuel)
    (hfuel' : bytes.length < fuel') (h : s.Has 0 (Gzip.store fuel bytes ++ rest) out) :
    ∃ s', blocks fuel' s = .ok () s' ∧ s'.Has 0 rest (out ++ bytes) := by
  induction fuel generalizing fuel' bytes s out with
  | zero => cases hfuel
  | succ fuel ih =>
    cases fuel' with
    | zero => cases hfuel'
    | succ fuel' =>
      have hnow : (bytes.take Gzip.maxBlock).length ≤ Gzip.maxBlock := List.length_take_le _ _
      rw [store_succ_append] at h
      obtain ⟨s₁, s₂, hbit, hblock, hhas⟩ := block_of_has hnow h
      rw [blocks]
      cases hempty : (bytes.drop Gzip.maxBlock).isEmpty with
      | true =>
        rw [hempty] at hbit hhas
        have hall : bytes.take Gzip.maxBlock = bytes :=
          List.take_of_length_le (List.drop_eq_nil_iff.mp (List.isEmpty_iff.mp hempty))
        rw [hall] at hhas
        refine ⟨s₂, ?_, hhas⟩
        rw [bind_of_ok hbit, bind_of_ok hblock]
        rfl
      | false =>
        rw [hempty] at hbit hhas
        have hlong : Gzip.maxBlock < bytes.length := by
          simpa [List.isEmpty_eq_false_iff, List.drop_eq_nil_iff] using hempty
        have hshorter : (bytes.drop Gzip.maxBlock).length < bytes.length := by
          rw [List.length_drop]
          exact Nat.sub_lt (Nat.lt_of_le_of_lt (Nat.zero_le _) hlong) (by decide)
        obtain ⟨s', hblocks, hlast⟩ := ih (Nat.lt_of_lt_of_le hshorter (Nat.le_of_lt_succ hfuel))
          (Nat.lt_of_lt_of_le hshorter (Nat.le_of_lt_succ hfuel')) hhas
        rw [List.append_assoc, List.take_append_drop] at hlast
        refine ⟨s', ?_, hlast⟩
        rw [bind_of_ok hbit, bind_of_ok hblock]
        exact hblocks

end Inflation

namespace Gzip

/-- Four bytes are enough for a number, but for what is beyond them. -/
theorem word_littleEndian (n : Nat) : word (littleEndian 4 n) = n % UInt32.size := by
  have hbytes : word (littleEndian 4 n) = n % 256 + 256 * (n / 256 % 256 +
      256 * (n / 256 / 256 % 256 + 256 * (n / 256 / 256 / 256 % 256))) := by
    simp [word, littleEndian]
  have hsize : n % UInt32.size = n % 4294967296 := rfl
  omega

theorem le_length_store {fuel : Nat} {bytes : List UInt8} (h : bytes.length < fuel) :
    bytes.length ≤ (store fuel bytes).length := by
  induction fuel generalizing bytes with
  | zero => cases h
  | succ fuel ih =>
    unfold store
    by_cases hempty : (bytes.drop maxBlock).isEmpty = true
    · have hall : bytes.take maxBlock = bytes :=
        List.take_of_length_le (List.drop_eq_nil_iff.mp (List.isEmpty_iff.mp hempty))
      simp only [hempty, hall, List.length_append, List.length_cons]
      omega
    · have hlong : maxBlock < bytes.length := by
        simpa [List.isEmpty_iff, List.drop_eq_nil_iff] using hempty
      have hrest : (bytes.drop maxBlock).length < fuel := by
        rw [List.length_drop]
        unfold maxBlock at hlong ⊢
        omega
      have hlater := ih hrest
      simp only [if_neg hempty, List.length_append, List.length_cons, List.length_take,
        List.length_drop] at hlater ⊢
      omega

theorem length_littleEndian (count n : Nat) : (littleEndian count n).length = count := by
  induction count generalizing n with
  | zero => rfl
  | succ count ih => rw [littleEndian, List.length_cons, ih]

/-! ## Headers -/

theorem bind_of_ok {α β : Type} {x : HeaderReader α} {f : α → HeaderReader β} {a : α}
    {s s' : List UInt8} (h : x s = .ok (a, s')) : (x >>= f) s = f a s' := by
  show StateT.bind x f s = f a s'
  unfold StateT.bind
  rw [h]
  rfl

theorem take_append {n : Nat} {front : List UInt8} (h : front.length = n) (rest : List UInt8) :
    take n (front ++ rest) = .ok (front, rest) := by
  have hlong : ¬ (front ++ rest).length < n := by
    rw [List.length_append]
    omega
  unfold take
  rw [bind_of_ok (rfl : (get : HeaderReader (List UInt8)) (front ++ rest) = .ok (_, _)),
    if_neg hlong, List.drop_left' h, List.take_left' h]
  rfl

theorem header_append (rest : List UInt8) :
    header ([0x1F, 0x8B, 8, 0, 0, 0, 0, 0, 0, 255] ++ rest) = .ok ((), rest) := by
  have hfixed : take 10 ([0x1F, 0x8B, 8, 0, 0, 0, 0, 0, 0, 255] ++ rest) =
      .ok ([0x1F, 0x8B, 8, 0, 0, 0, 0, 0, 0, 255], rest) := take_append rfl rest
  unfold header
  rw [bind_of_ok (rfl : (get : HeaderReader (List UInt8)) _ = .ok (_, _)), bind_of_ok hfixed]
  rfl
/-- A packed file is unpacked without a fault. -/
theorem unpack_pack (bytes : List UInt8) : unpack (pack bytes) = ⟨bytes, .clean⟩ := by
  let stored := store (bytes.length + 1) bytes
  let trailer := littleEndian 4 (checksum bytes).toNat ++ littleEndian 4 bytes.length
  have hpack : pack bytes = [0x1F, 0x8B, 8, 0, 0, 0, 0, 0, 0, 255] ++ (stored ++ trailer) := by
    simp [pack, stored, trailer]
  have hheader : header.run (pack bytes) = .ok ((), stored ++ trailer) := by
    rw [hpack]
    exact header_append _
  let offset := (pack bytes).length - (stored ++ trailer).length
  have hinflate : inflate offset (stored ++ trailer) = .whole bytes trailer := by
    have hstart : (Inflation.mk offset (stored ++ trailer) 0 #[] 0 windowSize false).Has 0
        (stored ++ trailer) [] := ⟨rfl, rfl, rfl⟩
    have hfuel : bytes.length < 8 * (stored ++ trailer).length + 1 := by
      have hstored : bytes.length ≤ stored.length := le_length_store (Nat.lt_succ_self _)
      rw [List.length_append]
      omega
    obtain ⟨s', hblocks, hend⟩ :=
      Inflation.blocks_store (Nat.lt_succ_self bytes.length) hfuel hstart
    unfold inflate
    rw [hblocks]
    dsimp only
    rw [if_pos hend.used, hend.out, hend.bytes, List.nil_append]
  have hsum : word (trailer.take 4) = (checksum bytes).toNat := by
    rw [List.take_left' (length_littleEndian 4 _), word_littleEndian]
    exact Nat.mod_eq_of_lt (checksum bytes).toNat_lt
  have hlength : word ((trailer.drop 4).take 4) = bytes.length % UInt32.size := by
    rw [List.drop_left' (length_littleEndian 4 _),
      List.take_of_length_le (Nat.le_of_eq (length_littleEndian 4 _))]
    exact word_littleEndian bytes.length
  unfold unpack
  rw [hheader]
  dsimp only
  rw [hinflate]
  dsimp only
  rw [if_neg (by simp [trailer, length_littleEndian]), if_pos ⟨hsum, hlength⟩]

end Gzip

end Bulletin.Tarball
