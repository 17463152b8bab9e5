import ImdbD.SlotAccounting

/-!
# The heap of live records

What each operation of the base table does to the bytes of every slot: the slot
it works on changes as told, all other slots keep their bytes. For operations
run one after another this gives a heap in which exactly the live records are
marked occupied.
-/
namespace ImdbD.StorageEngine
open ByteMemory
namespace BaseTable

/-- The header and the record of a slot. -/
def slotBytes (t : BaseTable) (p : Ptr) : Bytes := t.bytesAt p t.recordFullSize

/-- Two addresses start slots that do not overlap. -/
def Apart (t : BaseTable) (p q : Ptr) : Prop :=
  p.block = q.block → q.offset + t.recordFullSize ≤ p.offset ∨ p.offset + t.recordFullSize ≤ q.offset

theorem apart_slot (t : BaseTable) {g g' : ℕ} (h : t.slot g ≠ t.slot g') :
    t.Apart (t.slot g) (t.slot g') :=
  t.slot_disjoint (fun he => h (congrArg t.slot he))

private theorem bytesAt_add (t : BaseTable) (p : Ptr) {c k n : ℕ} (h : c + k ≤ n) :
    t.bytesAt (p.add c) k = slice (t.bytesAt p n) c k := by
  unfold bytesAt
  simp only [Ptr.add]
  cases t.blocks[p.block]? with
  | none => simp [slice]
  | some b => exact (slice_read _ _ _ _ _ h).symm

theorem recordAt_eq (t : BaseTable) (p : Ptr) :
    t.recordAt (p.add kRecordHeaderSize) = slice (t.slotBytes p) kRecordHeaderSize t.recordSize :=
  t.bytesAt_add p (Nat.add_comm _ _).le

theorem isOccupied_iff (t : BaseTable) (p : Ptr) :
    t.IsOccupied p ↔ slice (t.slotBytes p) 0 1 = [OCCUPIED] := by
  have hle : 0 + 1 ≤ t.recordFullSize := by
    simp only [recordFullSize, kRecordHeaderSize]
    omega
  have h := t.bytesAt_add p hle
  rw [Ptr.add, Nat.add_zero] at h
  rw [IsOccupied, h]
  rfl

/-- What two tables of one record size say about a slot with the same bytes. -/
theorem slotBytes_congr {t u : BaseTable} {p : Ptr} (hr : u.recordSize = t.recordSize)
    (h : u.slotBytes p = t.slotBytes p) : (u.IsOccupied p ↔ t.IsOccupied p) ∧
      u.recordAt (p.add kRecordHeaderSize) = t.recordAt (p.add kRecordHeaderSize) := by
  rw [isOccupied_iff, isOccupied_iff, recordAt_eq, recordAt_eq, h, hr]
  exact ⟨Iff.rfl, rfl⟩

theorem SameShape.recordFullSize {t u : BaseTable} (h : SameShape t u) :
    u.recordFullSize = t.recordFullSize := by
  simp [BaseTable.recordFullSize, h.recordSize]

/-- A store into a slot overwrites that part of it. -/
theorem slotBytes_store {t u : BaseTable} {p : Ptr} {c : ℕ} {bs : Bytes}
    (h : t.store (p.add c) bs = some u) (hc : c + bs.length ≤ t.recordFullSize) :
    u.slotBytes p = overwrite (t.slotBytes p) c bs := by
  unfold slotBytes
  rw [(store_sameShape h).recordFullSize]
  exact bytesAt_store_inside h hc

/-- A store into one slot is not seen in another. -/
theorem slotBytes_store_apart {t u : BaseTable} {p q : Ptr} {c : ℕ} {bs : Bytes}
    (h : t.store (p.add c) bs = some u) (hc : c + bs.length ≤ t.recordFullSize)
    (hq : t.Apart p q) : u.slotBytes q = t.slotBytes q := by
  unfold slotBytes
  rw [(store_sameShape h).recordFullSize]
  apply bytesAt_store_disjoint h
  intro hb
  simp only [Ptr.add] at hb ⊢
  have := hq hb
  omega

theorem InBounds.add {t : BaseTable} {p : Ptr} {c k n : ℕ} (h : t.InBounds p n) (hc : c + k ≤ n) :
    t.InBounds (p.add c) k := by
  obtain ⟨b, hb, hle⟩ := h
  exact ⟨b, hb, by simp only [Ptr.add]; omega⟩

theorem slotBytes_length {t : BaseTable} {p : Ptr} (h : t.InBounds p t.recordFullSize) :
    (t.slotBytes p).length = t.recordFullSize := bytesAt_length h

/-- A store that keeps inside one slot succeeds there. -/
theorem store_slot {t : BaseTable} {p : Ptr} {c : ℕ} {bs : Bytes}
    (hp : t.InBounds p t.recordFullSize) (hc : c + bs.length ≤ t.recordFullSize) :
    ∃ u, t.store (p.add c) bs = some u ∧ SameShape t u ∧
      u.slotBytes p = overwrite (t.slotBytes p) c bs ∧
      ∀ q, t.Apart p q → u.slotBytes q = t.slotBytes q := by
  obtain ⟨u, hu⟩ := store_of_inBounds (hp.add hc)
  exact ⟨u, hu, store_sameShape hu, slotBytes_store hu hc,
    fun q hq => slotBytes_store_apart hu hc hq⟩

/-- A store into the record of a slot keeps its header and overwrites part of the record. -/
theorem store_record {t : BaseTable} {p : Ptr} {c : ℕ} {bs : Bytes}
    (hp : t.InBounds p t.recordFullSize) (hc : c + bs.length ≤ t.recordSize) :
    ∃ u, t.store ((p.add kRecordHeaderSize).add c) bs = some u ∧ SameShape t u ∧
      (u.IsOccupied p ↔ t.IsOccupied p) ∧
      u.recordAt (p.add kRecordHeaderSize) =
        overwrite (t.recordAt (p.add kRecordHeaderSize)) c bs ∧
      ∀ q, t.Apart p q → u.slotBytes q = t.slotBytes q := by
  have hfit : kRecordHeaderSize + c + bs.length ≤ t.recordFullSize := by
    simp only [recordFullSize]
    omega
  obtain ⟨u, hu, hs, hb, hq⟩ := store_slot hp hfit
  have hlen := slotBytes_length hp
  have hadd : (p.add kRecordHeaderSize).add c = p.add (kRecordHeaderSize + c) := by
    simp [Ptr.add, Nat.add_assoc]
  refine ⟨u, hadd ▸ hu, hs, ?_, ?_, hq⟩
  · rw [isOccupied_iff, isOccupied_iff, hb,
      slice_overwrite_disjoint _ _ _ _ _ (by omega) (by simp only [kRecordHeaderSize]; omega)]
  · rw [recordAt, hs.recordSize]
    have hin : t.store ((p.add kRecordHeaderSize).add c) bs = some u := hadd ▸ hu
    exact bytesAt_store_inside hin hc

private theorem clear_replicate : (List.replicate kRecordHeaderSize (0 : UInt8)).length =
    kRecordHeaderSize := List.length_replicate

/-- Clearing a header frees the slot and leaves the record in it readable. -/
theorem deleteClear_spec {t : BaseTable} {p : Ptr} (hp : t.InBounds p t.recordFullSize) :
    ∃ u, t.deleteClear p = some u ∧ SameShape t u ∧ ¬ u.IsOccupied p ∧
      u.recordAt (p.add kRecordHeaderSize) = t.recordAt (p.add kRecordHeaderSize) ∧
      ∀ q, t.Apart p q → u.slotBytes q = t.slotBytes q := by
  have hfit : 0 + (List.replicate kRecordHeaderSize (0 : UInt8)).length ≤ t.recordFullSize := by
    rw [clear_replicate, recordFullSize]
    omega
  have hlen := slotBytes_length hp
  obtain ⟨u, hu, hs, hb, hq⟩ := store_slot hp hfit
  refine ⟨u, hu, hs, ?_, ?_, hq⟩
  · rw [isOccupied_iff, hb]
    simp [overwrite, slice, kRecordHeaderSize, OCCUPIED, List.replicate]
  · rw [recordAt_eq, recordAt_eq, hb, hs.recordSize]
    apply slice_overwrite_disjoint
    · rw [hlen]
      exact hfit
    · right
      rw [clear_replicate, Nat.zero_add]

/-- Writing a slot marks it occupied and puts the record in it. -/
theorem insertWrite_spec {t : BaseTable} {p : Ptr} {record : Bytes}
    (hp : t.InBounds p t.recordFullSize) (hr : t.recordSize ≤ record.length) :
    ∃ u, t.insertWrite p record = some u ∧ SameShape t u ∧ u.IsOccupied p ∧
      u.recordAt (p.add kRecordHeaderSize) = record.take t.recordSize ∧
      ∀ q, t.Apart p q → u.slotBytes q = t.slotBytes q := by
  have hfit : 0 + [OCCUPIED].length ≤ t.recordFullSize := by
    simp only [recordFullSize, kRecordHeaderSize, List.length_singleton]
    omega
  have hlen := slotBytes_length hp
  obtain ⟨u, hu, hs, hb, hq⟩ := store_slot hp hfit
  have hrec : 0 + (record.take t.recordSize).length ≤ u.recordSize := by
    rw [hs.recordSize, List.length_take]
    omega
  obtain ⟨w, hw, hs', hocc, hrecord, hq'⟩ :=
    store_record (by rw [hs.recordFullSize]; exact hs.inBounds hp) hrec
  refine ⟨w, ?_, hs.trans hs', ?_, ?_, ?_⟩
  · rw [insertWrite, if_pos hr, show t.store p [OCCUPIED] = some u from hu, Option.bind_some,
      hs.recordSize]
    exact hw
  · rw [hocc, isOccupied_iff, hb]
    exact slice_overwrite_same _ _ _ (by rw [hlen]; exact hfit)
  · have hl : (record.take t.recordSize).length =
        (u.recordAt (p.add kRecordHeaderSize)).length := by
      have hrb : u.InBounds (p.add kRecordHeaderSize) u.recordSize :=
        (hs.inBounds hp).add (by rw [hs.recordSize, recordFullSize]; omega)
      rw [recordAt, bytesAt_length hrb, hs.recordSize, List.length_take]
      omega
    rw [hrecord]
    simp [overwrite, hl]
  · intro q hpq
    rw [hq' q (by unfold Apart; rw [hs.recordFullSize]; exact hpq), hq q hpq]

private theorem bytesAt_allocateNextBlock (t : BaseTable) (p : Ptr) (n : ℕ) :
    (p.block < t.blocks.length ∧ t.allocateNextBlock.bytesAt p n = t.bytesAt p n) ∨
      (t.blocks.length ≤ p.block ∧ t.bytesAt p n = [] ∧
        ∀ b ∈ t.allocateNextBlock.bytesAt p n, b = 0) := by
  unfold bytesAt allocateNextBlock
  by_cases hp : p.block < t.blocks.length
  · left
    exact ⟨hp, by simp only [List.getElem?_append_left hp]⟩
  · right
    refine ⟨by omega, by simp only [List.getElem?_eq_none (Nat.le_of_not_lt hp)], ?_⟩
    intro b hb
    simp only at hb
    split at hb
    · rename_i blk hblk
      rw [List.getElem?_append_right (by omega)] at hblk
      have hmem := List.mem_of_getElem? hblk
      rw [List.mem_singleton] at hmem
      subst hmem
      simp only [ByteMemory.read, List.mem_map] at hb
      obtain ⟨_, -, h0⟩ := hb
      exact h0.symm
    · simp at hb

variable {t u : BaseTable} {held live : List Ptr} {p : Ptr} {bump owed : ℕ}

private theorem bytesAt_of_blocks (h : u.blocks = t.blocks) (p : Ptr) (n : ℕ) :
    u.bytesAt p n = t.bytesAt p n := by
  simp [bytesAt, h]

/-- Handing out a slot changes no byte at or behind the start of a held or a free slot. -/
theorem Handed.bytesAt (h : Accounted t held bump owed) (hh : Handed t u held p) {q : Ptr}
    (hq : q ∈ held ∨ q ∈ t.freeList) (c n : ℕ) :
    u.bytesAt (q.add c) n = t.bytesAt (q.add c) n := by
  rcases hh.blocks with hb | ⟨-, hb⟩
  · exact bytesAt_of_blocks hb _ _
  · rw [bytesAt_of_blocks hb]
    rcases t.bytesAt_allocateNextBlock (q.add c) n with ⟨-, he⟩ | ⟨hle, -⟩
    · exact he
    · obtain ⟨b, hblk, -⟩ := h.inBounds hq
      have := (List.getElem?_eq_some_iff.mp hblk).1
      simp only [Ptr.add] at hle
      omega

theorem Handed.slotBytes (h : Accounted t held bump owed) (hh : Handed t u held p) {q : Ptr}
    (hq : q ∈ held ∨ q ∈ t.freeList) : u.slotBytes q = t.slotBytes q := by
  rw [BaseTable.slotBytes, BaseTable.slotBytes, recordFullSize, recordFullSize, hh.recordSize]
  exact hh.bytesAt h hq 0 _

/-- Handing out a slot marks none. -/
theorem Handed.isOccupied (hh : Handed t u held p) (q : Ptr) : u.IsOccupied q ↔ t.IsOccupied q := by
  rcases hh.blocks with hb | ⟨-, hb⟩
  · rw [IsOccupied, IsOccupied, bytesAt_of_blocks hb]
  · rw [IsOccupied, IsOccupied, bytesAt_of_blocks hb]
    rcases t.bytesAt_allocateNextBlock q 1 with ⟨-, he⟩ | ⟨-, he, h0⟩
    · rw [he]
    · rw [he]
      constructor
      · intro hocc
        have := h0 OCCUPIED (by simp [hocc])
        exact absurd this (by decide)
      · intro hocc
        cases hocc

/-- With equal counters, handing out a slot may begin a block. -/
theorem Handed.length (hh : Handed t u held p) : u.blocks.length = t.blocks.length ∨
    t.allocatedRecordCount = t.occupiedRecordCount ∧ u.blocks.length = t.blocks.length + 1 := by
  rcases hh.blocks with hb | ⟨he, hb⟩
  · exact Or.inl (congrArg List.length hb)
  · refine Or.inr ⟨he, ?_⟩
    rw [hb, allocateNextBlock, List.length_append, List.length_singleton]

/-- Handing out a slot keeps all blocks. -/
theorem Handed.inBounds (hh : Handed t u held p) {q : Ptr} {n : ℕ} (hq : t.InBounds q n) :
    u.InBounds q n := by
  obtain ⟨b, hb, hle⟩ := hq
  rcases hh.blocks with he | ⟨-, he⟩
  · exact ⟨b, he ▸ hb, hle⟩
  · refine ⟨b, ?_, hle⟩
    rw [he, allocateNextBlock, List.getElem?_append_left (List.getElem?_eq_some_iff.mp hb).1]
    exact hb

theorem Handed.slot (hh : Handed t u held p) : u.slot = t.slot := by
  funext g
  simp [BaseTable.slot, recordNumPerBlock, recordFullSize, hh.recordSize]

/-- The books after a deletion has pushed its slot. -/
theorem Accounted.deletePush (h : Accounted t held bump owed) (hp : p ∈ held) :
    Accounted (t.deletePush p) (held.erase p) bump (owed + 1) where
  fits := h.fits
  sizes := h.sizes
  allocated := h.allocated
  bump_le := h.bump_le
  next_none := h.next_none
  next_some := h.next_some
  perm := by
    change (held.erase p ++ (t.freeList ++ [p])).Perm ((List.range bump).map t.slot)
    have hmove : (held.erase p ++ (t.freeList ++ [p])).Perm (p :: held.erase p ++ t.freeList) := by
      rw [← List.append_assoc]
      exact List.perm_append_singleton _ _
    exact hmove.trans (((List.perm_cons_erase hp).symm.append_right _).trans h.perm)
  occupied := by
    change t.occupiedRecordCount = (held.erase p).length + (owed + 1)
    rw [h.occupied, List.length_erase_of_mem hp]
    have := List.length_pos_of_mem hp
    omega
  occupied_le := h.occupied_le

theorem Accounted.deleteCount (h : Accounted t held bump (owed + 1)) :
    Accounted t.deleteCount held bump owed where
  fits := h.fits
  sizes := h.sizes
  allocated := h.allocated
  bump_le := h.bump_le
  next_none := h.next_none
  next_some := h.next_some
  perm := h.perm
  occupied := by
    change t.occupiedRecordCount - 1 = held.length + owed
    rw [h.occupied]
    omega
  occupied_le := (Nat.sub_le _ _).trans h.occupied_le

/-- Between operations run one after another: the books balance, and the marked slots are those
of the live records. -/
structure Heap (t : BaseTable) (live : List Ptr) : Prop where
  books : ∃ bump, Accounted t live bump 0
  header : ∀ g, t.IsOccupied (t.slot g) ↔ t.slot g ∈ live

namespace Heap

theorem fits (h : Heap t live) : t.recordFullSize ≤ kBlockSize := by
  obtain ⟨bump, hb⟩ := h.books
  exact hb.fits

theorem inBounds (h : Heap t live) (hp : p ∈ live) : t.InBounds p t.recordFullSize := by
  obtain ⟨bump, hb⟩ := h.books
  exact hb.inBounds (Or.inl hp)

theorem mem_slot (h : Heap t live) (hp : p ∈ live ∨ p ∈ t.freeList) : ∃ g, t.slot g = p := by
  obtain ⟨bump, hb⟩ := h.books
  obtain ⟨g, -, he⟩ := hb.mem_slot hp
  exact ⟨g, he⟩

/-- The order in which the live records are listed does not matter. -/
theorem perm {live' : List Ptr} (h : Heap t live) (hp : live.Perm live') : Heap t live' where
  books := by
    obtain ⟨bump, hb⟩ := h.books
    exact ⟨bump, hb.perm_held hp⟩
  header g := (h.header g).trans hp.mem_iff

theorem nodup (h : Heap t live) : live.Nodup := by
  obtain ⟨bump, hb⟩ := h.books
  exact (List.nodup_append.mp hb.nodup).1

theorem getTableSize (h : Heap t live) : t.getTableSize = live.length := by
  obtain ⟨bump, hb⟩ := h.books
  exact hb.occupied

/-- A table with a live record has a block. -/
theorem blocks_ne (h : Heap t (p :: live)) : t.blocks.length ≠ 0 := by
  obtain ⟨bump, hb⟩ := h.books
  intro h0
  have hc := hb.count
  rw [(hb.next_none h0).2, List.length_cons] at hc
  omega

theorem recordAt_length (h : Heap t live) (hp : p ∈ live) :
    (t.recordAt (p.add kRecordHeaderSize)).length = t.recordSize :=
  bytesAt_length ((h.inBounds hp).add (Nat.add_comm _ _).le)

theorem new (recordSize : ℕ) (h : (BaseTable.new recordSize).recordFullSize ≤ kBlockSize) :
    Heap (BaseTable.new recordSize) [] where
  books := ⟨0, Accounted.new recordSize h⟩
  header g := by simp [IsOccupied, bytesAt, BaseTable.new]

theorem apart (h : Heap t live) {q : Ptr} (hp : p ∈ live) (hq : q ∈ live ∨ q ∈ t.freeList)
    (hne : q ≠ p) : t.Apart p q := by
  obtain ⟨g, rfl⟩ := h.mem_slot (Or.inl hp)
  obtain ⟨g', rfl⟩ := h.mem_slot hq
  exact t.apart_slot (Ne.symm hne)

/-- A change of one slot's bytes that leaves the headers as the new list of live records has
them. -/
private theorem of_slot {g : ℕ} (hb : Accounted u live bump 0) (hs : u.slot = t.slot)
    (hr : u.recordSize = t.recordSize) (hhead : u.IsOccupied (t.slot g) ↔ t.slot g ∈ live)
    (hfar : ∀ q, t.Apart (t.slot g) q → u.slotBytes q = t.slotBytes q)
    (hkeep : ∀ g', t.slot g' ≠ t.slot g → (t.IsOccupied (t.slot g') ↔ t.slot g' ∈ live)) :
    Heap u live where
  books := ⟨bump, hb⟩
  header g' := by
    rw [hs]
    by_cases he : t.slot g' = t.slot g
    · rw [he]
      exact hhead
    · rw [(slotBytes_congr hr (hfar _ (t.apart_slot (Ne.symm he)))).1]
      exact hkeep g' he

/-- What an insertion does: it takes a slot that was not live and keeps the bytes of every other
one. A block is begun when the counters are equal. -/
structure InsertedAt (t : BaseTable) (live : List Ptr) (data : Bytes) (u : BaseTable) (p : Ptr) :
    Prop where
  run : t.insertRecord data = some (u, p.add kRecordHeaderSize)
  fresh : p ∉ live
  recordSize : u.recordSize = t.recordSize
  heap : Heap u (p :: live)
  stored : u.recordAt (p.add kRecordHeaderSize) = data.take t.recordSize
  bytes : ∀ q, q ∈ live ∨ q ∈ t.freeList → q ≠ p → u.slotBytes q = t.slotBytes q
  blocks : u.blocks.length = t.blocks.length ∨
    t.allocatedRecordCount = t.occupiedRecordCount ∧ u.blocks.length = t.blocks.length + 1
  recycled : p ∈ t.freeList →
    t.allocatedRecordCount ≠ t.occupiedRecordCount ∧ t.freeList.head? = some p
  parked : ∀ q ∈ t.freeList, q ≠ p → q ∈ u.freeList

theorem InsertedAt.kept {data : Bytes} (h : InsertedAt t live data u p) {q : Ptr}
    (hq : q ∈ live ∨ q ∈ t.freeList) (hne : q ≠ p) :
    u.recordAt (q.add kRecordHeaderSize) = t.recordAt (q.add kRecordHeaderSize) :=
  (slotBytes_congr h.recordSize (h.bytes q hq hne)).2

theorem insertRecord (h : Heap t live) {data : Bytes} (hd : t.recordSize ≤ data.length) :
    ∃ u p, InsertedAt t live data u p := by
  obtain ⟨bump, hb⟩ := h.books
  have hfull : t.allocatedRecordCount = t.occupiedRecordCount → t.BlockFull := fun he =>
    hb.blockFull_of_bump (hb.all_held he).2
  obtain ⟨s, p, bump', hh, hacc⟩ := hb.insertSection hfull
  have hocc := hh.isOccupied
  have hmem : p ∈ p :: live := List.mem_cons_self
  have hdata : s.recordSize ≤ data.length := hh.recordSize ▸ hd
  obtain ⟨w, hw, hs, hmark, hread, hfar⟩ := insertWrite_spec (hacc.inBounds (Or.inl hmem)) hdata
  obtain ⟨g, -, hg⟩ := hacc.mem_slot (Or.inl hmem)
  have hslot := hh.slot
  refine ⟨w, p, ?_, hh.fresh, hs.recordSize.trans hh.recordSize, ?_, hh.recordSize ▸ hread, ?_,
    hs.length ▸ hh.length, hh.recycled, fun q hq hne => hs.freeList ▸ hh.parked q hq hne⟩
  · rw [BaseTable.insertRecord, hh.run, Option.bind_some, hw, Option.map_some]
  · subst hg
    refine of_slot (hacc.sameShape hs) hs.slot hs.recordSize (by simp [hmark]) hfar ?_
    intro g' hg'
    rw [hocc, hslot, h.header, List.mem_cons, ← hslot]
    exact ⟨Or.inr, fun hm => hm.resolve_left hg'⟩
  · intro q hq hne
    have ha : s.Apart p q := by
      have hq' : q ∈ p :: live ∨ q ∈ s.freeList :=
        hq.imp (List.mem_cons_of_mem p) (fun hf => hh.parked q hf hne)
      obtain ⟨g', -, rfl⟩ := hacc.mem_slot hq'
      exact hg ▸ s.apart_slot (fun he => hne (he.symm.trans hg))
    exact (hfar q ha).trans (hh.slotBytes hb hq)

theorem deleteRecord (h : Heap t live) (hp : p ∈ live) :
    ∃ u, t.deleteRecord (p.add kRecordHeaderSize) = some u ∧ u.recordSize = t.recordSize ∧
      u.blocks.length = t.blocks.length ∧ u.freeList = t.freeList ++ [p] ∧ Heap u (live.erase p) ∧
      ∀ q, q ∈ live ∨ q ∈ t.freeList →
        u.recordAt (q.add kRecordHeaderSize) = t.recordAt (q.add kRecordHeaderSize) := by
  obtain ⟨bump, hb⟩ := h.books
  have hpush := hb.deletePush hp
  obtain ⟨w, hw, hs, hfree, hread, hfar⟩ :=
    deleteClear_spec (show (t.deletePush p).InBounds p (t.deletePush p).recordFullSize from
      h.inBounds hp)
  obtain ⟨g, rfl⟩ := h.mem_slot (Or.inl hp)
  refine ⟨w.deleteCount, ?_, hs.recordSize, hs.length, hs.freeList, ?_, ?_⟩
  · rw [BaseTable.deleteRecord, Ptr.add_sub, hw, Option.map_some]
  · refine of_slot (hpush.sameShape hs).deleteCount hs.slot hs.recordSize ?_ hfar ?_
    · exact ⟨fun ho => absurd ho hfree, fun hm => absurd rfl (h.nodup.mem_erase_iff.mp hm).1⟩
    · intro g' hg'
      rw [h.nodup.mem_erase_iff]
      exact (h.header g').trans ⟨fun hm => ⟨hg', hm⟩, And.right⟩
  · intro q hq
    by_cases he : q = t.slot g
    · subst he
      exact hread
    · exact (slotBytes_congr hs.recordSize (hfar q (h.apart hp hq he))).2

theorem store (h : Heap t live) (hp : p ∈ live) {c : ℕ} {bs : Bytes}
    (hc : c + bs.length ≤ t.recordSize) :
    ∃ u, t.store ((p.add kRecordHeaderSize).add c) bs = some u ∧ u.recordSize = t.recordSize ∧
      u.blocks.length = t.blocks.length ∧ Heap u live ∧
      u.recordAt (p.add kRecordHeaderSize) =
        overwrite (t.recordAt (p.add kRecordHeaderSize)) c bs ∧
      ∀ q ∈ live, q ≠ p →
        u.recordAt (q.add kRecordHeaderSize) = t.recordAt (q.add kRecordHeaderSize) := by
  obtain ⟨bump, hb⟩ := h.books
  obtain ⟨u, hu, hs, hocc, hread, hfar⟩ := store_record (h.inBounds hp) hc
  obtain ⟨g, rfl⟩ := h.mem_slot (Or.inl hp)
  refine ⟨u, hu, hs.recordSize, hs.length, ?_, hread, ?_⟩
  · exact of_slot (hb.sameShape hs) hs.slot hs.recordSize (hocc.trans (h.header g)) hfar
      (fun g' _ => h.header g')
  · intro q hq hne
    exact (slotBytes_congr hs.recordSize (hfar q (h.apart hp (Or.inl hq) hne))).2

end Heap

end BaseTable
end ImdbD.StorageEngine
