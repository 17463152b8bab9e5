import ImdbD.RecordHeap
import ImdbD.GuardedRun

/-!
# Slot allocation along a sequential run

Operations of a base table run one after another by a client that keeps the
slots of its live records. The two counters differ by exactly the slots that are
free, on the free list or behind the bump pointer; an insertion takes one of
them, and begins a block only when there is none.
-/
namespace ImdbD.StorageEngine
open ByteMemory GuardedRun

/-- A base table and the slots of its live records, the latest first. -/
structure Allocation where
  table : BaseTable
  live : List Ptr

/-- Calls of the base table; a number stands for the live record at that place of the list. -/
inductive SlotCall where
  | insertRecord (record : Bytes)
  | deleteRecord (i : ℕ)

namespace BaseTable

/-- The slots of the last block that the bump pointer has not passed. -/
def unusedSlots (t : BaseTable) : ℕ :=
  match t.nextFreespacePtr, t.blocks.getLast? with
  | some p, some b => (b.size - p.offset) / t.recordFullSize
  | _, _ => 0

namespace Accounted
variable {t : BaseTable} {held : List Ptr} {bump owed : ℕ}

theorem unusedSlots (h : Accounted t held bump owed) :
    t.unusedSlots = t.recordNumPerBlock * t.blocks.length - bump := by
  cases hk : t.blocks.length with
  | zero => simp [BaseTable.unusedSlots, (h.next_none hk).1]
  | succ k =>
    obtain ⟨hle, hn⟩ := h.next_some k hk
    have hne : t.blocks ≠ [] := List.ne_nil_of_length_eq_add_one hk
    have hlast := List.getLast?_eq_some_getLast hne
    have hsize := h.sizes _ (List.getLast_mem hne)
    simp only [BaseTable.unusedSlots, hn, hlast, hsize]
    rw [← Nat.sub_mul, Nat.mul_div_cancel _ (full_pos t), Nat.mul_succ]
    omega

/-- What is allocated and not occupied is on the free list or not yet used. -/
theorem free_count (h : Accounted t held bump 0) :
    t.allocatedRecordCount - t.occupiedRecordCount = t.freeList.length + t.unusedSlots := by
  have hc := h.count
  have hb := h.bump_le
  rw [h.unusedSlots, h.allocated, h.occupied]
  omega

private theorem mem_slots (h : Accounted t held bump owed) {p : Ptr} (hp : p ∈ held ∨ p ∈ t.freeList) :
    p ∈ t.slots := by
  obtain ⟨g, hg, rfl⟩ := h.mem_slot hp
  exact List.mem_map_of_mem (List.mem_range.mpr (lt_of_lt_of_le hg h.bump_le))

private theorem slots_held (h : Accounted t held bump 0)
    (he : t.allocatedRecordCount = t.occupiedRecordCount) : ∀ q ∈ t.slots, q ∈ held := by
  obtain ⟨hfree, hbump⟩ := h.all_held he
  have hperm := h.perm
  rw [hfree, List.append_nil, hbump] at hperm
  exact fun q hq => hperm.mem_iff.mpr hq

end Accounted

/-- What is asked of an insertion: the slot it returns is one of the grid, inside its block, and
was not live; the bytes of the other live records stay; and a block is begun only when every slot
of every block is live. -/
structure TakesSlot (t : BaseTable) (live : List Ptr) (record : Bytes) (u : BaseTable) (p : Ptr) :
    Prop where
  run : t.insertRecord record = some (u, p.add kRecordHeaderSize)
  aligned : p ∈ u.slots
  inBounds : u.InBounds p u.recordFullSize
  fresh : p ∉ live
  stored : u.IsOccupied p ∧ u.recordAt (p.add kRecordHeaderSize) = record.take t.recordSize
  kept : ∀ q ∈ live, u.slotBytes q = t.slotBytes q
  tight : u.blocks.length = t.blocks.length ∨
    u.blocks.length = t.blocks.length + 1 ∧ ∀ q ∈ t.slots, q ∈ live

theorem Heap.takesSlot {t : BaseTable} {live : List Ptr} (h : Heap t live) {record : Bytes}
    (hr : t.recordSize ≤ record.length) :
    ∃ u p, TakesSlot t live record u p ∧ u.recordSize = t.recordSize ∧ Heap u (p :: live) := by
  obtain ⟨bump, hb⟩ := h.books
  obtain ⟨u, p, hi⟩ := h.insertRecord hr
  obtain ⟨bump', hb'⟩ := hi.heap.books
  have hmem : p ∈ p :: live := List.mem_cons_self
  obtain ⟨g, hg⟩ := hi.heap.mem_slot (Or.inl hmem)
  have hocc : u.IsOccupied p := by
    have hhead := hi.heap.header g
    rw [hg] at hhead
    exact hhead.mpr hmem
  refine ⟨u, p, ⟨hi.run, hb'.mem_slots (Or.inl hmem), hi.heap.inBounds hmem, hi.fresh,
    ⟨hocc, hi.stored⟩, fun q hq => hi.bytes q (Or.inl hq) (fun he => hi.fresh (he ▸ hq)), ?_⟩,
    hi.recordSize, hi.heap⟩
  exact hi.blocks.imp_right (fun ⟨he, hlength⟩ => ⟨hlength, hb.slots_held he⟩)

end BaseTable

namespace Allocation

def new (recordSize : ℕ) : Allocation := ⟨BaseTable.new recordSize, []⟩

def step (s : Allocation) : SlotCall → Option Allocation
  | .insertRecord record => (s.table.insertRecord record).map
      (fun r => ⟨r.1, r.2.sub kRecordHeaderSize :: s.live⟩)
  | .deleteRecord i => s.live[i]?.bind (fun p =>
      (s.table.deleteRecord (p.add kRecordHeaderSize)).map (fun t => ⟨t, s.live.eraseIdx i⟩))

/-- Whole records are inserted and live ones deleted. -/
def Client (s : Allocation) : SlotCall → Prop
  | .insertRecord record => s.table.recordSize ≤ record.length
  | .deleteRecord i => i < s.live.length

instance (s : Allocation) (call : SlotCall) : Decidable (s.Client call) :=
  match call with
  | .insertRecord _ => inferInstanceAs (Decidable (_ ≤ _))
  | .deleteRecord _ => inferInstanceAs (Decidable (_ < _))

/-- What holds in every state: the counters differ by the slots that are free, and the slots on the
free list are distinct and not live. -/
structure Balanced (s : Allocation) : Prop where
  occupied_le : s.table.occupiedRecordCount ≤ s.table.allocatedRecordCount
  count : s.table.allocatedRecordCount - s.table.occupiedRecordCount =
    s.table.freeList.length + s.table.unusedSlots
  freeList_nodup : s.table.freeList.Nodup
  not_live : ∀ p ∈ s.table.freeList, p ∉ s.live

/-- What is asked of one call and of the state after it. -/
structure Tight (s : Allocation) (call : SlotCall) (s' : Allocation) : Prop where
  balanced : s'.Balanced
  inserted : ∀ record, call = .insertRecord record → ∃ p, s'.live = p :: s.live ∧
    s.table.TakesSlot s.live record s'.table p

variable {s : Allocation}

theorem balanced (h : s.table.Heap s.live) : s.Balanced := by
  obtain ⟨bump, hb⟩ := h.books
  have hnodup := List.nodup_append.mp hb.nodup
  exact ⟨hb.occupied_le, hb.free_count, hnodup.2.1,
    fun p hp hlive => hnodup.2.2 p hlive p hp rfl⟩

theorem step_tight (h : s.table.Heap s.live) {call : SlotCall} (hc : s.Client call) :
    ∃ s', s.step call = some s' ∧ Tight s call s' ∧ s'.table.Heap s'.live := by
  cases call with
  | insertRecord record =>
    obtain ⟨u, p, ht, -, hheap⟩ := h.takesSlot hc
    refine ⟨⟨u, p :: s.live⟩, by simp [step, ht.run], ⟨balanced hheap, ?_⟩, hheap⟩
    rintro _ ⟨⟩
    exact ⟨p, rfl, ht⟩
  | deleteRecord i =>
    have hp : s.live[i] ∈ s.live := List.getElem_mem hc
    obtain ⟨u, hu, -, -, -, hheap, -⟩ := h.deleteRecord hp
    rw [h.nodup.erase_getElem i hc] at hheap
    refine ⟨⟨u, s.live.eraseIdx i⟩, ?_, ⟨balanced hheap, fun _ ho => nomatch ho⟩, hheap⟩
    simp [step, List.getElem?_eq_getElem hc, hu]

/-- For every record size that fits a block, along every sequential run of insertions and deletions
of live records: the books balance in every state, and every insertion takes a free slot and no
more room than it needs. -/
theorem tight_of_fits {recordSize : ℕ}
    (hfit : (BaseTable.new recordSize).recordFullSize ≤ kBlockSize) {calls : List SlotCall}
    (hc : Meets Allocation.step Client (Allocation.new recordSize) calls) :
    (Allocation.new recordSize).Balanced ∧
      Holds Allocation.step Tight (Allocation.new recordSize) calls := by
  have hnew := BaseTable.Heap.new recordSize hfit
  exact ⟨balanced hnew, hc.holds (fun s call hs hc => step_tight hs hc) hnew⟩

/-- A slot that is freed and taken again. -/
theorem tight_of_fits_recycled : (Allocation.new 2).Balanced ∧
    Holds Allocation.step Tight (Allocation.new 2)
      [.insertRecord [1, 2], .insertRecord [3, 4], .deleteRecord 1, .insertRecord [5, 6]] :=
  tight_of_fits (by decide) (by decide)

end Allocation
end ImdbD.StorageEngine
