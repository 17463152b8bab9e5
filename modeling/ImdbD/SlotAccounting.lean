import ImdbD.BaseTable

/-!
# The books of the slot allocator

Which slots have been handed out, which are on the free list and how far the
bump pointer has come. The books are stated with a number of deletions that
have given their slot back but not yet lowered the counter, so that they serve
both the sequential table and interleaved deletions.
-/
namespace ImdbD.StorageEngine
open ByteMemory
namespace BaseTable

/-- The allocator's books: `held` are the slots handed out and not pushed back, `bump` the number
of slots the bump pointer has passed, `owed` the number of deletions that have pushed their slot
but not yet decremented the counter. -/
structure Accounted (t : BaseTable) (held : List Ptr) (bump owed : ℕ) : Prop where
  fits : t.recordFullSize ≤ kBlockSize
  sizes : ∀ b ∈ t.blocks, b.size = t.recordNumPerBlock * t.recordFullSize
  allocated : t.allocatedRecordCount = t.recordNumPerBlock * t.blocks.length
  bump_le : bump ≤ t.recordNumPerBlock * t.blocks.length
  next_none : t.blocks.length = 0 → t.nextFreespacePtr = none ∧ bump = 0
  next_some : ∀ k, t.blocks.length = k + 1 → t.recordNumPerBlock * k ≤ bump ∧
    t.nextFreespacePtr = some ⟨k, (bump - t.recordNumPerBlock * k) * t.recordFullSize⟩
  perm : (held ++ t.freeList).Perm ((List.range bump).map t.slot)
  occupied : t.occupiedRecordCount = held.length + owed
  occupied_le : t.occupiedRecordCount ≤ t.allocatedRecordCount

/-- The block that the bump pointer is in has no slot left. -/
def BlockFull (t : BaseTable) : Prop :=
  ∀ p, t.nextFreespacePtr = some p → p.offset = t.recordNumPerBlock * t.recordFullSize

/-- What the section hands out. -/
structure Handed (t u : BaseTable) (held : List Ptr) (p : Ptr) : Prop where
  run : t.insertSection = some (u, p)
  fresh : p ∉ held
  recordSize : u.recordSize = t.recordSize
  blocks : u.blocks = t.blocks ∨
    t.allocatedRecordCount = t.occupiedRecordCount ∧ u.blocks = t.allocateNextBlock.blocks
  recycled : p ∈ t.freeList →
    t.allocatedRecordCount ≠ t.occupiedRecordCount ∧ t.freeList.head? = some p
  parked : ∀ q ∈ t.freeList, q ≠ p → q ∈ u.freeList

namespace Accounted
variable {t t' : BaseTable} {held : List Ptr} {bump owed : ℕ}

theorem perBlock_pos (h : Accounted t held bump owed) : 0 < t.recordNumPerBlock := by
  apply Nat.div_pos h.fits
  simp only [recordFullSize, kRecordHeaderSize]
  omega

theorem full_pos (t : BaseTable) : 0 < t.recordFullSize := by
  simp only [recordFullSize, kRecordHeaderSize]
  omega

private theorem slot_inBounds (h : Accounted t held bump owed) {g : ℕ}
    (hg : g < t.recordNumPerBlock * t.blocks.length) :
    t.InBounds (t.slot g) t.recordFullSize := by
  have hn := h.perBlock_pos
  have hb : g / t.recordNumPerBlock < t.blocks.length := Nat.div_lt_of_lt_mul hg
  refine ⟨t.blocks[g / t.recordNumPerBlock], List.getElem?_eq_getElem hb, ?_⟩
  rw [h.sizes _ (List.getElem_mem hb)]
  calc (t.slot g).offset + t.recordFullSize = (g % t.recordNumPerBlock + 1) * t.recordFullSize := by
        simp [slot, Nat.add_mul]
    _ ≤ t.recordNumPerBlock * t.recordFullSize :=
        Nat.mul_le_mul_right _ (Nat.mod_lt _ hn)

theorem mem_slot (h : Accounted t held bump owed) {p : Ptr} (hp : p ∈ held ∨ p ∈ t.freeList) :
    ∃ g < bump, t.slot g = p := by
  have hm : p ∈ (List.range bump).map t.slot := h.perm.mem_iff.mp (List.mem_append.mpr hp)
  obtain ⟨g, hg, he⟩ := List.mem_map.mp hm
  exact ⟨g, List.mem_range.mp hg, he⟩

theorem inBounds (h : Accounted t held bump owed) {p : Ptr} (hp : p ∈ held ∨ p ∈ t.freeList) :
    t.InBounds p t.recordFullSize := by
  obtain ⟨g, hg, rfl⟩ := h.mem_slot hp
  exact h.slot_inBounds (lt_of_lt_of_le hg h.bump_le)

theorem nodup (h : Accounted t held bump owed) : (held ++ t.freeList).Nodup :=
  h.perm.nodup_iff.mpr (List.nodup_range.map (slot_injective t))

/-- Counting: what is neither held nor owed is free or not yet reached by the bump pointer. -/
theorem count (h : Accounted t held bump owed) :
    held.length + t.freeList.length = bump := by
  have hl := h.perm.length_eq
  simpa using hl

/-- With nothing owed, equal counters mean that every slot of every block is held. -/
theorem all_held (h : Accounted t held bump 0)
    (he : t.allocatedRecordCount = t.occupiedRecordCount) :
    t.freeList = [] ∧ bump = t.recordNumPerBlock * t.blocks.length := by
  have hc := h.count
  have hb := h.bump_le
  rw [h.allocated, h.occupied] at he
  exact ⟨List.length_eq_zero_iff.mp (by omega), by omega⟩

/-- The order in which the held slots are listed does not matter. -/
theorem perm_held {held' : List Ptr} (h : Accounted t held bump owed) (hp : held.Perm held') :
    Accounted t held' bump owed :=
  ⟨h.fits, h.sizes, h.allocated, h.bump_le, h.next_none, h.next_some,
    (hp.symm.append_right _).trans h.perm, by rw [h.occupied, hp.length_eq], h.occupied_le⟩

/-- The books survive any change of block contents. -/
theorem sameShape (h : Accounted t held bump owed) (hs : SameShape t t') :
    Accounted t' held bump owed := by
  have hr := hs.recordSize
  have hfull : t'.recordFullSize = t.recordFullSize := by simp [recordFullSize, hr]
  have hper : t'.recordNumPerBlock = t.recordNumPerBlock := by simp [recordNumPerBlock, hfull]
  refine ⟨by rw [hfull]; exact h.fits, ?_, ?_, ?_, ?_, ?_, ?_, ?_, ?_⟩
  · intro b hb
    have hm : b.size ∈ t.blocks.map Block.size := hs.sizes ▸ List.mem_map_of_mem hb
    obtain ⟨b', hb', he⟩ := List.mem_map.mp hm
    rw [← he, h.sizes b' hb', hfull, hper]
  · rw [hs.allocated, hper, hs.length, h.allocated]
  · rw [hper, hs.length]
    exact h.bump_le
  · rw [hs.length, hs.next]
    exact h.next_none
  · rw [hs.length, hs.next, hper, hfull]
    exact h.next_some
  · rw [hs.freeList, hs.slot]
    exact h.perm
  · rw [hs.occupied]
    exact h.occupied
  · rw [hs.occupied, hs.allocated]
    exact h.occupied_le

theorem new (recordSize : ℕ) (h : (BaseTable.new recordSize).recordFullSize ≤ kBlockSize) :
    Accounted (BaseTable.new recordSize) [] 0 0 where
  fits := h
  sizes b hb := by simp [BaseTable.new] at hb
  allocated := by simp [BaseTable.new]
  bump_le := Nat.zero_le _
  next_none _ := ⟨rfl, rfl⟩
  next_some k hk := by simp [BaseTable.new] at hk
  perm := by simp [BaseTable.new]
  occupied := rfl
  occupied_le := le_rfl

private theorem bump_of_blockFull (h : Accounted t held bump owed) (hf : t.BlockFull) :
    bump = t.recordNumPerBlock * t.blocks.length := by
  cases hk : t.blocks.length with
  | zero => simpa [hk] using (h.next_none hk).2
  | succ k =>
    obtain ⟨hle, hn⟩ := h.next_some k hk
    have hoff := hf _ hn
    have he := Nat.eq_of_mul_eq_mul_right (full_pos t) hoff
    rw [Nat.mul_succ]
    omega

theorem blockFull_of_bump (h : Accounted t held bump owed)
    (hb : bump = t.recordNumPerBlock * t.blocks.length) : t.BlockFull := by
  intro p hp
  cases hk : t.blocks.length with
  | zero => simp [(h.next_none hk).1] at hp
  | succ k =>
    obtain ⟨hle, hn⟩ := h.next_some k hk
    rw [hn] at hp
    cases hp
    rw [hk, Nat.mul_succ] at hb
    simp only
    rw [hb, Nat.add_sub_cancel_left]

private theorem allocate (h : Accounted t held bump owed) (hf : t.BlockFull) :
    Accounted t.allocateNextBlock held bump owed := by
  have hb := h.bump_of_blockFull hf
  have hper : t.allocateNextBlock.recordNumPerBlock = t.recordNumPerBlock := rfl
  have hfull : t.allocateNextBlock.recordFullSize = t.recordFullSize := rfl
  have hlen : t.allocateNextBlock.blocks.length = t.blocks.length + 1 := by
    simp [allocateNextBlock]
  refine ⟨h.fits, ?_, ?_, ?_, ?_, ?_, h.perm, h.occupied, ?_⟩
  · intro b hm
    rcases List.mem_append.mp hm with hm | hm
    · exact h.sizes b hm
    · cases List.mem_singleton.mp hm
      rfl
  · rw [hper, hlen, Nat.mul_succ, ← h.allocated]
    rfl
  · rw [hper, hlen, Nat.mul_succ]
    omega
  · omega
  · intro k hk
    obtain rfl : t.blocks.length = k := by omega
    rw [hper, hfull]
    refine ⟨hb.ge, ?_⟩
    simp [allocateNextBlock, hb]
  · exact h.occupied_le.trans (Nat.le_add_right _ _)

/-- The bump pointer hands out the next slot of the grid, as long as its block has one. -/
theorem takeFreespace (h : Accounted t held bump owed)
    (hlt : bump < t.recordNumPerBlock * t.blocks.length)
    (hocc : t.occupiedRecordCount < t.allocatedRecordCount) :
    ∃ u, t.takeFreespace = some (u, t.slot bump) ∧ u.blocks = t.blocks ∧
      Accounted { u with occupiedRecordCount := u.occupiedRecordCount + 1 }
        (t.slot bump :: held) (bump + 1) owed := by
  cases hk : t.blocks.length with
  | zero => simp [hk] at hlt
  | succ k =>
    obtain ⟨hle, hn⟩ := h.next_some k hk
    have hpos := h.perBlock_pos
    rw [hk, Nat.mul_succ] at hlt
    have hdiv : bump / t.recordNumPerBlock = k := by
      apply Nat.div_eq_of_lt_le
      · rw [Nat.mul_comm]
        exact hle
      · rw [Nat.mul_comm, Nat.mul_succ]
        exact hlt
    have hmod : bump % t.recordNumPerBlock = bump - t.recordNumPerBlock * k := by
      have hd := Nat.div_add_mod bump t.recordNumPerBlock
      rw [hdiv] at hd
      omega
    have hslot : t.slot bump = ⟨k, (bump - t.recordNumPerBlock * k) * t.recordFullSize⟩ := by
      rw [slot, hdiv, hmod]
    refine ⟨{ t with nextFreespacePtr := some ((t.slot bump).add t.recordFullSize) },
      by rw [BaseTable.takeFreespace, hn, hslot]; rfl, rfl, ?_⟩
    refine ⟨h.fits, h.sizes, h.allocated, ?_, ?_, ?_, ?_, ?_, hocc⟩
    · change bump + 1 ≤ t.recordNumPerBlock * t.blocks.length
      rw [hk, Nat.mul_succ]
      omega
    · intro h0
      change t.blocks.length = 0 at h0
      omega
    · intro k' hk'
      change t.blocks.length = k' + 1 at hk'
      obtain rfl : k = k' := by omega
      refine ⟨hle.trans (Nat.le_succ _), ?_⟩
      change some ((t.slot bump).add t.recordFullSize) =
        some ⟨k, (bump + 1 - t.recordNumPerBlock * k) * t.recordFullSize⟩
      rw [hslot, Nat.sub_add_comm hle, Nat.add_mul, Nat.one_mul]
      rfl
    · change (t.slot bump :: held ++ t.freeList).Perm ((List.range (bump + 1)).map t.slot)
      rw [List.range_succ, List.map_append]
      exact (h.perm.cons _).trans (List.perm_append_singleton _ _).symm
    · change t.occupiedRecordCount + 1 = held.length + 1 + owed
      rw [h.occupied]
      omega

private theorem takeFreespace_kept {t u : BaseTable} {p : Ptr}
    (h : t.takeFreespace = some (u, p)) :
    u.recordSize = t.recordSize ∧ u.freeList = t.freeList := by
  simp only [BaseTable.takeFreespace, Option.map_eq_some_iff] at h
  obtain ⟨q, -, hq⟩ := h
  cases hq
  exact ⟨rfl, rfl⟩

private theorem fresh_of_le (h : Accounted t held bump owed) {g : ℕ} (hg : bump ≤ g) :
    t.slot g ∉ held ∧ t.slot g ∉ t.freeList := by
  constructor
  · intro hm
    obtain ⟨g', hg', he⟩ := h.mem_slot (Or.inl hm)
    have := slot_injective t he
    omega
  · intro hm
    obtain ⟨g', hg', he⟩ := h.mem_slot (Or.inr hm)
    have := slot_injective t he
    omega

/-- The section under the mutex: as long as no block is abandoned with slots left, it hands out a
slot inside a block that nobody holds. -/
theorem insertSection (h : Accounted t held bump owed)
    (hf : t.allocatedRecordCount = t.occupiedRecordCount → t.BlockFull) :
    ∃ u p bump', Handed t u held p ∧ Accounted u (p :: held) bump' owed := by
  obtain ⟨hfresh, hnfree⟩ := h.fresh_of_le le_rfl
  by_cases he : t.allocatedRecordCount = t.occupiedRecordCount
  · have ha := h.allocate (hf he)
    have hpos := h.perBlock_pos
    have hlt : bump < t.allocateNextBlock.recordNumPerBlock * t.allocateNextBlock.blocks.length := by
      have hb := h.bump_of_blockFull (hf he)
      simp only [allocateNextBlock, List.length_append, List.length_singleton, Nat.mul_succ]
      change bump < t.recordNumPerBlock * t.blocks.length + t.recordNumPerBlock
      omega
    have hocc : t.occupiedRecordCount < t.allocateNextBlock.allocatedRecordCount := by
      change t.occupiedRecordCount < t.allocatedRecordCount + t.recordNumPerBlock
      omega
    obtain ⟨u, hu, hblocks, hacc⟩ := ha.takeFreespace hlt hocc
    obtain ⟨hsize, hlist⟩ := takeFreespace_kept hu
    refine ⟨{ u with occupiedRecordCount := u.occupiedRecordCount + 1 }, t.slot bump, bump + 1,
      ⟨?_, hfresh, hsize, Or.inr ⟨he, hblocks⟩, fun hm => absurd hm hnfree, fun q hq _ => hlist ▸ hq⟩,
      hacc⟩
    simp only [BaseTable.insertSection, if_pos he, hu, Option.map_some]
    rfl
  · have hocc : t.occupiedRecordCount < t.allocatedRecordCount :=
      lt_of_le_of_ne h.occupied_le (Ne.symm he)
    cases hfree : t.freeList with
    | cons ans rest =>
      have hnd := h.nodup
      rw [hfree] at hnd
      have hperm : (ans :: held ++ rest).Perm (held ++ ans :: rest) := List.perm_middle.symm
      refine ⟨{ t with freeList := rest, occupiedRecordCount := t.occupiedRecordCount + 1 }, ans,
        bump, ⟨by simp only [BaseTable.insertSection, if_neg he, hfree, Option.map_some], ?_, rfl,
          Or.inl rfl, fun _ => ⟨he, by simp [hfree]⟩, ?_⟩, ?_⟩
      · exact (List.nodup_cons.mp (hperm.nodup_iff.mpr hnd)).1 ∘ List.mem_append_left rest
      · intro q hq hne
        rw [hfree] at hq
        exact List.mem_of_ne_of_mem hne hq
      · refine ⟨h.fits, h.sizes, h.allocated, h.bump_le, h.next_none, h.next_some, ?_, ?_, hocc⟩
        · exact hperm.trans (hfree ▸ h.perm :)
        · change t.occupiedRecordCount + 1 = held.length + 1 + owed
          rw [h.occupied]
          omega
    | nil =>
      have hlt : bump < t.recordNumPerBlock * t.blocks.length := by
        have hc := h.count
        rw [hfree, List.length_nil] at hc
        rw [h.allocated, h.occupied] at hocc
        omega
      obtain ⟨u, hu, hblocks, hacc⟩ := h.takeFreespace hlt hocc
      obtain ⟨hsize, hlist⟩ := takeFreespace_kept hu
      refine ⟨{ u with occupiedRecordCount := u.occupiedRecordCount + 1 }, t.slot bump, bump + 1,
        ⟨?_, hfresh, hsize, Or.inl hblocks, fun hm => absurd hm hnfree, fun q hq _ => hlist ▸ hq⟩,
        hacc⟩
      simp only [BaseTable.insertSection, if_neg he, hfree, hu, Option.map_some]

end Accounted
end BaseTable
end ImdbD.StorageEngine
