import ImdbD.RecordHeap
import ImdbD.GuardedRun
import ImdbD.Lists

/-!
# The slot allocator under interleaving

An insertion takes its slot under the mutex and writes it afterwards; a deletion
pushes its slot, then clears the header, then lowers the counter. The steps of
any number of insertions and deletions are run in any order. The allocator stays
right as long as no header is cleared after its slot has been written again, and
no block is begun while the one before has an unused slot.
-/
namespace ImdbD.StorageEngine
open ByteMemory GuardedRun

/-- Slots by the step their operation has reached: taken but not yet written (with the record to
write), live, pushed, and cleared. -/
structure SlotRace where
  table : BaseTable
  taken : List (Ptr × Bytes)
  live : List Ptr
  pushed : List Ptr
  cleared : List Ptr

/-- The steps; a number stands for the operation or record at that place of its list. -/
inductive SlotStep where
  | takeSlot (record : Bytes)
  | writeSlot (i : ℕ)
  | pushSlot (i : ℕ)
  | clearHeader (i : ℕ)
  | lowerCount (i : ℕ)

namespace SlotRace

def new (recordSize : ℕ) : SlotRace := ⟨BaseTable.new recordSize, [], [], [], []⟩

def step (s : SlotRace) : SlotStep → Option SlotRace
  | .takeSlot record => s.table.insertSection.map (fun r =>
    { s with table := r.1, taken := (r.2, record) :: s.taken })
  | .writeSlot i => s.taken[i]?.bind (fun r => (s.table.insertWrite r.1 r.2).map (fun t =>
    { s with table := t, taken := s.taken.eraseIdx i, live := r.1 :: s.live }))
  | .pushSlot i => s.live[i]?.map (fun p =>
    { s with table := s.table.deletePush p, live := s.live.eraseIdx i, pushed := p :: s.pushed })
  | .clearHeader i => s.pushed[i]?.bind (fun p => (s.table.deleteClear p).map (fun t =>
    { s with table := t, pushed := s.pushed.eraseIdx i, cleared := p :: s.cleared }))
  | .lowerCount i => s.cleared[i]?.map (fun _ =>
    { s with table := s.table.deleteCount, cleared := s.cleared.eraseIdx i })

/-- Every step belongs to a pending operation, or begins one. -/
def Client (s : SlotRace) : SlotStep → Prop
  | .takeSlot record => record.length = s.table.recordSize
  | .writeSlot i => i < s.taken.length
  | .pushSlot i => i < s.live.length
  | .clearHeader i => i < s.pushed.length
  | .lowerCount i => i < s.cleared.length

instance (s : SlotRace) (op : SlotStep) : Decidable (s.Client op) :=
  match op with
  | .takeSlot _ => inferInstanceAs (Decidable (_ = _))
  | .writeSlot _ => inferInstanceAs (Decidable (_ < _))
  | .pushSlot _ => inferInstanceAs (Decidable (_ < _))
  | .clearHeader _ => inferInstanceAs (Decidable (_ < _))
  | .lowerCount _ => inferInstanceAs (Decidable (_ < _))

/-- No operation is pending. -/
def Quiet (s : SlotRace) : Prop := s.taken = [] ∧ s.pushed = [] ∧ s.cleared = []

/-- What is asked of a step: the slot that an insertion returns lies inside a block and is not that
of another live record; when nothing is pending, the headers mark the live records and the counter
counts them. -/
structure Sound (s : SlotRace) (op : SlotStep) (s' : SlotRace) : Prop where
  returned : ∀ i r, op = .writeSlot i → s.taken[i]? = some r →
    s.table.InBounds r.1 s.table.recordFullSize ∧ r.1 ∉ s.live
  headers : s'.Quiet → ∀ g, s'.table.IsOccupied (s'.table.slot g) ↔ s'.table.slot g ∈ s'.live
  count : s'.Quiet → s'.table.occupiedRecordCount = s'.live.length

/-- A record fits a block; a new block is begun only when the last one is used up; a header is
cleared only while no new record has been written over it. -/
def KeepsOrder (s : SlotRace) : SlotStep → Prop
  | .takeSlot _ => s.table.recordFullSize ≤ kBlockSize ∧
    (s.table.allocatedRecordCount = s.table.occupiedRecordCount → s.table.BlockFull)
  | .clearHeader i => ∀ p, s.pushed[i]? = some p → p ∉ s.live
  | _ => True

instance (t : BaseTable) : Decidable t.BlockFull :=
  inferInstanceAs (Decidable (∀ p, t.nextFreespacePtr = some p → _))

instance (s : SlotRace) (op : SlotStep) : Decidable (s.KeepsOrder op) :=
  match op with
  | .takeSlot _ => inferInstanceAs (Decidable (_ ∧ (_ → _)))
  | .writeSlot _ => isTrue trivial
  | .pushSlot _ => isTrue trivial
  | .clearHeader _ => inferInstanceAs (Decidable (∀ p, _ = some p → _))
  | .lowerCount _ => isTrue trivial

/-- What holds at every interleaving point. -/
private structure Inv (s : SlotRace) : Prop where
  books : ∃ bump, s.table.Accounted (s.taken.map Prod.fst ++ s.live) bump
    (s.pushed.length + s.cleared.length)
  marked : ∀ p ∈ s.live, s.table.IsOccupied p
  unmarked : ∀ g, s.table.IsOccupied (s.table.slot g) →
    s.table.slot g ∈ s.live ∨ s.table.slot g ∈ s.pushed
  grid : ∀ p ∈ s.pushed, ∃ g, s.table.slot g = p ∧
    s.table.InBounds p s.table.recordFullSize
  sizes : ∀ r ∈ s.taken, r.2.length = s.table.recordSize

variable {s s' : SlotRace} {i : ℕ} {p : Ptr} {r : Ptr × Bytes} {record : Bytes}

private theorem Inv.sound (h : Inv s') {op : SlotStep}
    (hret : ∀ i r, op = .writeSlot i → s.taken[i]? = some r →
      s.table.InBounds r.1 s.table.recordFullSize ∧ r.1 ∉ s.live) : Sound s op s' where
  returned := hret
  headers hq g := by
    refine ⟨fun ho => (h.unmarked g ho).resolve_right ?_, h.marked _⟩
    rw [hq.2.1]
    exact List.not_mem_nil
  count hq := by
    obtain ⟨bump, hb⟩ := h.books
    have hc := hb.occupied
    rw [hq.1, hq.2.1, hq.2.2] at hc
    simpa using hc

/-- Slots of the grid that differ do not overlap. -/
private theorem apart_of_ne {t : BaseTable} {p q : Ptr} (hp : ∃ g, t.slot g = p)
    (hq : ∃ g, t.slot g = q) (hne : q ≠ p) : t.Apart p q := by
  obtain ⟨g, rfl⟩ := hp
  obtain ⟨g', rfl⟩ := hq
  exact t.apart_slot (Ne.symm hne)

private theorem Inv.live_slot (h : Inv s) {q : Ptr} (hq : q ∈ s.live) : ∃ g, s.table.slot g = q := by
  obtain ⟨bump, hb⟩ := h.books
  obtain ⟨g, -, he⟩ := hb.mem_slot (Or.inl (List.mem_append_right _ hq))
  exact ⟨g, he⟩

private theorem Inv.takeSlot (h : Inv s) (hv : s.Client (.takeSlot record))
    (hc : s.KeepsOrder (.takeSlot record)) :
    ∃ s', s.step (.takeSlot record) = some s' ∧ Inv s' := by
  obtain ⟨bump, hb⟩ := h.books
  obtain ⟨u, p, bump', hh, hacc⟩ := hb.insertSection hc.2
  have hocc := hh.isOccupied
  have hfull : u.recordFullSize = s.table.recordFullSize := by
    simp [BaseTable.recordFullSize, hh.recordSize]
  refine ⟨_, by rw [step, hh.run, Option.map_some], ⟨⟨bump', hacc⟩, ?_, ?_, ?_, ?_⟩⟩
  · intro q hq
    exact (hocc q).mpr (h.marked q hq)
  · intro g ho
    change u.slot g ∈ _ ∨ u.slot g ∈ _
    rw [hh.slot]
    apply h.unmarked g
    rw [← hocc, ← hh.slot]
    exact ho
  · intro q hq
    obtain ⟨g, hg, hin⟩ := h.grid q hq
    refine ⟨g, hh.slot ▸ hg, ?_⟩
    change u.InBounds q u.recordFullSize
    rw [hfull]
    exact hh.inBounds hin
  · intro r hr
    change r.2.length = u.recordSize
    rw [hh.recordSize]
    rcases List.mem_cons.mp hr with rfl | hr'
    · exact hv
    · exact h.sizes r hr'

/-- The slot that an insertion is about to write is inside a block and not live. -/
private theorem Inv.returned (h : Inv s) (hr : s.taken[i]? = some r) :
    s.table.InBounds r.1 s.table.recordFullSize ∧ r.1 ∉ s.live := by
  obtain ⟨bump, hb⟩ := h.books
  have hmem : r.1 ∈ s.taken.map Prod.fst := List.mem_map_of_mem (List.mem_of_getElem? hr)
  refine ⟨hb.inBounds (Or.inl (List.mem_append_left _ hmem)), fun hl => ?_⟩
  have hnodup := (List.nodup_append.mp hb.nodup).1
  exact (List.nodup_append.mp hnodup).2.2 _ hmem _ hl rfl

private theorem Inv.writeSlot (h : Inv s) (hr : s.taken[i]? = some r) :
    ∃ s', s.step (.writeSlot i) = some s' ∧ Inv s' := by
  obtain ⟨bump, hb⟩ := h.books
  obtain ⟨hin, hfresh⟩ := h.returned hr
  have hsize := h.sizes r (List.mem_of_getElem? hr)
  obtain ⟨u, hu, hs, hmark, -, hfar⟩ := BaseTable.insertWrite_spec hin hsize.ge
  have hslot : ∃ g, s.table.slot g = r.1 := by
    have hm : r.1 ∈ s.taken.map Prod.fst := List.mem_map_of_mem (List.mem_of_getElem? hr)
    obtain ⟨g, -, he⟩ := hb.mem_slot (Or.inl (List.mem_append_left _ hm))
    exact ⟨g, he⟩
  have hkeep : ∀ q, (∃ g, s.table.slot g = q) → q ≠ r.1 →
      (u.IsOccupied q ↔ s.table.IsOccupied q) := fun q hq hne =>
    (BaseTable.slotBytes_congr hs.recordSize (hfar q (apart_of_ne hslot hq hne))).1
  have hperm : (s.taken.map Prod.fst ++ s.live).Perm
      ((s.taken.eraseIdx i).map Prod.fst ++ r.1 :: s.live) :=
    (((Lists.perm_cons_eraseIdx hr).map Prod.fst).append_right _).trans List.perm_middle.symm
  refine ⟨_, by rw [step, hr, Option.bind_some, hu, Option.map_some],
    ⟨⟨bump, (hb.sameShape hs).perm_held hperm⟩, ?_, ?_, ?_, ?_⟩⟩
  · intro q hq
    rcases List.mem_cons.mp hq with rfl | hq'
    · exact hmark
    · exact (hkeep q (h.live_slot hq') (fun he => hfresh (he ▸ hq'))).mpr (h.marked q hq')
  · intro g ho
    change u.slot g ∈ r.1 :: s.live ∨ u.slot g ∈ s.pushed
    change u.IsOccupied (u.slot g) at ho
    rw [hs.slot] at ho ⊢
    by_cases he : s.table.slot g = r.1
    · exact Or.inl (he ▸ List.mem_cons_self)
    · exact (h.unmarked g ((hkeep _ ⟨g, rfl⟩ he).mp ho)).imp_left (List.mem_cons_of_mem _)
  · intro q hq
    obtain ⟨g, hg, hq'⟩ := h.grid q hq
    refine ⟨g, hs.slot ▸ hg, ?_⟩
    change u.InBounds q u.recordFullSize
    rw [hs.recordFullSize]
    exact hs.inBounds hq'
  · intro q hq
    change q.2.length = u.recordSize
    rw [hs.recordSize]
    exact h.sizes q (List.mem_of_mem_eraseIdx hq)

private theorem Inv.pushSlot (h : Inv s) (hp : s.live[i]? = some p) :
    ∃ s', s.step (.pushSlot i) = some s' ∧ Inv s' := by
  obtain ⟨bump, hb⟩ := h.books
  have hlive := Lists.perm_cons_eraseIdx hp
  have hheld : p ∈ s.taken.map Prod.fst ++ s.live :=
    List.mem_append_right _ (List.mem_of_getElem? hp)
  have hperm : ((s.taken.map Prod.fst ++ s.live).erase p).Perm
      (s.taken.map Prod.fst ++ s.live.eraseIdx i) := by
    have he := ((hlive.append_left (s.taken.map Prod.fst)).trans List.perm_middle).erase p
    rwa [List.erase_cons_head] at he
  refine ⟨{ s with table := s.table.deletePush p, live := s.live.eraseIdx i, pushed := p :: s.pushed },
    by rw [step, hp, Option.map_some], ⟨⟨bump, ?_⟩, ?_, ?_, ?_, h.sizes⟩⟩
  · have hpush := (hb.deletePush hheld).perm_held hperm
    rwa [Nat.add_right_comm] at hpush
  · intro q hq
    exact h.marked q (List.mem_of_mem_eraseIdx hq)
  · intro g ho
    rcases h.unmarked g ho with hm | hm
    · rcases List.mem_cons.mp (hlive.mem_iff.mp hm) with he | hm'
      · exact Or.inr (List.mem_cons.mpr (Or.inl he))
      · exact Or.inl hm'
    · exact Or.inr (List.mem_cons_of_mem p hm)
  · intro q hq
    rcases List.mem_cons.mp hq with rfl | hq'
    · obtain ⟨g, hg⟩ := h.live_slot (List.mem_of_getElem? hp)
      exact ⟨g, hg, hb.inBounds (Or.inl hheld)⟩
    · exact h.grid q hq'

private theorem Inv.clearHeader (h : Inv s) (hp : s.pushed[i]? = some p) (hc : p ∉ s.live) :
    ∃ s', s.step (.clearHeader i) = some s' ∧ Inv s' := by
  obtain ⟨bump, hb⟩ := h.books
  have hpushed := Lists.perm_cons_eraseIdx hp
  obtain ⟨g₀, hg₀, hin⟩ := h.grid p (List.mem_of_getElem? hp)
  obtain ⟨u, hu, hs, hfree, -, hfar⟩ := BaseTable.deleteClear_spec hin
  have hkeep : ∀ q, (∃ g, s.table.slot g = q) → q ≠ p →
      (u.IsOccupied q ↔ s.table.IsOccupied q) := fun q hq hne =>
    (BaseTable.slotBytes_congr hs.recordSize (hfar q (apart_of_ne ⟨g₀, hg₀⟩ hq hne))).1
  refine ⟨_, by rw [step, hp, Option.bind_some, hu, Option.map_some],
    ⟨⟨bump, ?_⟩, ?_, ?_, ?_, ?_⟩⟩
  · have hlen := hpushed.length_eq
    have howed : s.pushed.length + s.cleared.length =
        (s.pushed.eraseIdx i).length + (p :: s.cleared).length := by
      rw [hlen, List.length_cons, List.length_cons]
      omega
    exact howed ▸ hb.sameShape hs
  · intro q hq
    exact (hkeep q (h.live_slot hq) (fun he => hc (he ▸ hq))).mpr (h.marked q hq)
  · intro g ho
    change u.slot g ∈ s.live ∨ u.slot g ∈ s.pushed.eraseIdx i
    change u.IsOccupied (u.slot g) at ho
    rw [hs.slot] at ho ⊢
    have hne : s.table.slot g ≠ p := fun he => hfree (he ▸ ho)
    rcases h.unmarked g ((hkeep _ ⟨g, rfl⟩ hne).mp ho) with hm | hm
    · exact Or.inl hm
    · exact Or.inr (List.mem_of_ne_of_mem hne (hpushed.mem_iff.mp hm))
  · intro q hq
    obtain ⟨g, hg, hq'⟩ := h.grid q (List.mem_of_mem_eraseIdx hq)
    refine ⟨g, hs.slot ▸ hg, ?_⟩
    change u.InBounds q u.recordFullSize
    rw [hs.recordFullSize]
    exact hs.inBounds hq'
  · intro q hq
    change q.2.length = u.recordSize
    rw [hs.recordSize]
    exact h.sizes q hq

private theorem Inv.lowerCount (h : Inv s) (hp : s.cleared[i]? = some p) :
    ∃ s', s.step (.lowerCount i) = some s' ∧ Inv s' := by
  obtain ⟨bump, hb⟩ := h.books
  refine ⟨{ s with table := s.table.deleteCount, cleared := s.cleared.eraseIdx i },
    by rw [step, hp, Option.map_some], ⟨⟨bump, ?_⟩, h.marked, h.unmarked, h.grid, h.sizes⟩⟩
  have hlen := (Lists.perm_cons_eraseIdx hp).length_eq
  rw [List.length_cons] at hlen
  rw [hlen, ← Nat.add_assoc] at hb
  exact hb.deleteCount

private theorem Inv.step (h : Inv s) {op : SlotStep} (hv : s.Client op) (hc : s.KeepsOrder op) :
    ∃ s', s.step op = some s' ∧ Sound s op s' ∧ Inv s' := by
  have hnext : ∃ s', s.step op = some s' ∧ Inv s' := by
    cases op with
    | takeSlot record => exact h.takeSlot hv hc
    | writeSlot i => exact h.writeSlot (List.getElem?_eq_getElem hv)
    | pushSlot i => exact h.pushSlot (List.getElem?_eq_getElem hv)
    | clearHeader i =>
      have hp := List.getElem?_eq_getElem hv
      exact h.clearHeader hp (hc _ hp)
    | lowerCount i => exact h.lowerCount (List.getElem?_eq_getElem hv)
  obtain ⟨s', hstep, hs'⟩ := hnext
  exact ⟨s', hstep, hs'.sound (fun i r _ hr => h.returned hr), hs'⟩

private theorem Inv.new {recordSize : ℕ} (hfit : recordSize + kRecordHeaderSize ≤ kBlockSize) :
    Inv (SlotRace.new recordSize) where
  books := ⟨0, BaseTable.Accounted.new recordSize hfit⟩
  marked p hp := by cases hp
  unmarked g ho := by simp [BaseTable.IsOccupied, BaseTable.bytesAt, SlotRace.new, BaseTable.new] at ho
  grid p hp := by cases hp
  sizes r hr := by cases hr

/-- In every interleaving that keeps the order, every step succeeds, slots are returned inside blocks
and to one live record each, and headers and counter are right whenever nothing is pending. -/
theorem sound_of_keepsOrder (recordSize : ℕ) {ops : List SlotStep}
    (hv : Meets SlotRace.step Client (SlotRace.new recordSize) ops)
    (hc : Meets SlotRace.step KeepsOrder (SlotRace.new recordSize) ops) :
    Holds SlotRace.step Sound (SlotRace.new recordSize) ops := by
  by_cases hfit : recordSize + kRecordHeaderSize ≤ kBlockSize
  · exact (hv.and hc).holds (fun s op hinv h => Inv.step hinv h.1 h.2) (Inv.new hfit)
  · cases ops with
    | nil => trivial
    | cons op ops =>
      cases op with
      | takeSlot record => exact absurd hc.1.1 hfit
      | writeSlot i => exact absurd hv.1 (Nat.not_lt_zero i)
      | pushSlot i => exact absurd hv.1 (Nat.not_lt_zero i)
      | clearHeader i => exact absurd hv.1 (Nat.not_lt_zero i)
      | lowerCount i => exact absurd hv.1 (Nat.not_lt_zero i)

/-- A slot is taken again as soon as it is pushed, and written after its header has been cleared. -/
theorem sound_of_keepsOrder_recycled : Holds SlotRace.step Sound (SlotRace.new 1)
    [.takeSlot [1], .takeSlot [2], .writeSlot 1, .pushSlot 0, .takeSlot [3], .clearHeader 0,
      .writeSlot 0, .lowerCount 0, .writeSlot 0] :=
  sound_of_keepsOrder 1 (by decide) (by decide)

/-- The second record is written into the slot of the first before the first deletion clears the
header. -/
def writeBeforeClear : List SlotStep :=
  [.takeSlot [1], .writeSlot 0, .pushSlot 0, .takeSlot [2], .writeSlot 0, .clearHeader 0,
    .lowerCount 0]

/-- The slot of the live record is left marked as free. -/
theorem writeBeforeClear_unmarked :
    Meets SlotRace.step Client (SlotRace.new 1) writeBeforeClear ∧
      ¬ Holds SlotRace.step Sound (SlotRace.new 1) writeBeforeClear := by
  refine ⟨by decide, fun h => ?_⟩
  obtain ⟨t, s', -, hrun, hsound⟩ := Holds.last (show Holds _ _ _
    ([SlotStep.takeSlot [1], .writeSlot 0, .pushSlot 0, .takeSlot [2], .writeSlot 0,
      .clearHeader 0] ++ [SlotStep.lowerCount 0]) from h)
  have hquiet : (run SlotRace.step (SlotRace.new 1) writeBeforeClear).map
      (fun s => (s.taken, s.pushed, s.cleared)) = some ([], [], []) := by decide
  have hmarks : (run SlotRace.step (SlotRace.new 1) writeBeforeClear).map
      (fun s => (decide (s.table.slot 0 ∈ s.live), decide (s.table.IsOccupied (s.table.slot 0)))) =
        some (true, false) := by decide
  rw [show run SlotRace.step (SlotRace.new 1) writeBeforeClear = some s' from hrun] at hquiet hmarks
  simp only [Option.map_some, Option.some_inj, Prod.mk.injEq, decide_eq_true_eq,
    decide_eq_false_iff_not] at hquiet hmarks
  exact hmarks.2 ((hsound.headers hquiet 0).mpr hmarks.1)

end SlotRace
end ImdbD.StorageEngine
