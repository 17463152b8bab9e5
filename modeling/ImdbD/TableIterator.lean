import ImdbD.RecordHeap

/-!
# The table iterator

`hasNext` and `next` walk the blocks slot by slot, skip free slots and cross
from the end of one block to the next. A loop over the iterator visits the
occupied slots in address order, each once.
-/
namespace ImdbD.StorageEngine
open ByteMemory

/-- A position in the chain of blocks. -/
structure TableIterator where
  curBlock : ℕ
  mPtr : ℕ

namespace TableIterator

/-- Move from the end of a block to the start of the next. -/
def enterNext (it : TableIterator) (b : Block) : TableIterator :=
  if it.mPtr = b.size then ⟨it.curBlock + 1, 0⟩ else it

def advance (it : TableIterator) (recordSize : ℕ) : TableIterator :=
  ⟨it.curBlock, it.mPtr + recordSize⟩

/-- The flag byte at the position; there is none outside the blocks. -/
def flag (t : BaseTable) (it : TableIterator) : Option UInt8 :=
  match t.blocks[it.curBlock]? with
  | some b => if it.mPtr < b.size then some (b.data it.mPtr) else none
  | none => none

/-- Blocks left, then bytes left in the current block. -/
def rank (t : BaseTable) (it : TableIterator) : ℕ × ℕ :=
  (t.blocks.length - it.curBlock, (t.blocks[it.curBlock]?.map Block.size).getD 0 - it.mPtr)

private theorem rank_advance {t : BaseTable} {it : TableIterator} {b : Block} {f : UInt8}
    (hb : t.blocks[it.curBlock]? = some b) (hf : flag t (it.enterNext b) = some f) :
    Prod.Lex (· < ·) (· < ·) (rank t ((it.enterNext b).advance t.recordFullSize)) (rank t it) := by
  have hlt := (List.getElem?_eq_some_iff.mp hb).1
  have hpos := BaseTable.Accounted.full_pos t
  unfold enterNext at hf ⊢
  split
  · apply Prod.Lex.left
    simp only [advance]
    omega
  · rename_i he
    rw [if_neg he] at hf
    simp only [flag, hb] at hf
    split at hf
    · simp only [rank, advance, hb, Option.map_some, Option.getD_some]
      apply Prod.Lex.right
      omega
    · cases hf

/-- `TableIterator::hasNext`, with the position it leaves behind. -/
def hasNext (t : BaseTable) (it : TableIterator) : Option (Bool × TableIterator) :=
  match _hb : t.blocks[it.curBlock]? with
  | none => none
  | some b =>
    if it.curBlock + 1 < t.blocks.length ∨ it.mPtr ≠ b.size then
      match _hf : flag t (it.enterNext b) with
      | none => none
      | some f =>
        if f = OCCUPIED then some (true, it.enterNext b)
        else hasNext t ((it.enterNext b).advance t.recordFullSize)
    else some (false, it)
termination_by rank t it
decreasing_by exact rank_advance _hb _hf

/-- `TableIterator::next`: the address of the record and the position behind its slot. -/
def next (t : BaseTable) (it : TableIterator) : Option (Ptr × TableIterator) :=
  match _hb : t.blocks[it.curBlock]? with
  | none => none
  | some b =>
    match _hf : flag t (it.enterNext b) with
    | none => none
    | some f =>
      if f = OCCUPIED then
        some (Ptr.add ⟨(it.enterNext b).curBlock, (it.enterNext b).mPtr⟩ kRecordHeaderSize,
          (it.enterNext b).advance t.recordFullSize)
      else next t ((it.enterNext b).advance t.recordFullSize)
termination_by rank t it
decreasing_by exact rank_advance _hb _hf

private theorem lex_trans {a b c : ℕ × ℕ} (h : Prod.Lex (· < ·) (· < ·) a b)
    (h' : Prod.Lex (· < ·) (· < ·) b c) : Prod.Lex (· < ·) (· < ·) a c := by
  rw [Prod.lex_def] at h h' ⊢
  omega

private theorem next_rank {t : BaseTable} {it it' : TableIterator} {p : Ptr}
    (h : next t it = some (p, it')) : Prod.Lex (· < ·) (· < ·) (rank t it') (rank t it) := by
  fun_induction next t it with
  | case1 => cases h
  | case2 => cases h
  | case3 it b hb hf =>
    cases h
    exact rank_advance hb hf
  | case4 it b hb f hf hocc ih => exact lex_trans (ih h) (rank_advance hb hf)

private theorem rank_enterNext {t : BaseTable} {it : TableIterator} {b : Block}
    (hb : t.blocks[it.curBlock]? = some b) : rank t (it.enterNext b) = rank t it ∨
      Prod.Lex (· < ·) (· < ·) (rank t (it.enterNext b)) (rank t it) := by
  have hlt := (List.getElem?_eq_some_iff.mp hb).1
  unfold enterNext
  split
  · right
    apply Prod.Lex.left
    simp only
    omega
  · exact Or.inl rfl

private theorem hasNext_rank {t : BaseTable} {it it' : TableIterator} {r : Bool}
    (h : hasNext t it = some (r, it')) :
    rank t it' = rank t it ∨ Prod.Lex (· < ·) (· < ·) (rank t it') (rank t it) := by
  fun_induction hasNext t it with
  | case1 => cases h
  | case2 => cases h
  | case3 it b hb hmore hf =>
    cases h
    exact rank_enterNext hb
  | case4 it b hb hmore f hf hocc ih =>
    right
    have hadv := rank_advance hb hf
    rcases ih h with he | hlt
    · rw [he]
      exact hadv
    · exact lex_trans hlt hadv
  | case5 =>
    cases h
    exact Or.inl rfl

/-- The loop `while (iterator->hasNext()) { … iterator->next() … }`. The body also says whether the
method returns from inside the loop. -/
def whileNext {α : Type*} (t : BaseTable) (body : α → Ptr → α × Bool) (acc : α)
    (it : TableIterator) : Option α :=
  match _hh : hasNext t it with
  | none => none
  | some (false, _) => some acc
  | some (true, it') =>
    match _hn : next t it' with
    | none => none
    | some (p, it'') =>
      match body acc p with
      | (acc', true) => some acc'
      | (acc', false) => whileNext t body acc' it''
termination_by rank t it
decreasing_by
  have hlt := next_rank _hn
  rcases hasNext_rank _hh with he | hle
  · exact he ▸ hlt
  · exact lex_trans hlt hle

/-- What the loop computes: the body over a list, up to the first return. -/
def foldUntil {α : Type*} (body : α → Ptr → α × Bool) : α → List Ptr → α
  | acc, [] => acc
  | acc, p :: ps =>
    match body acc p with
    | (acc', true) => acc'
    | (acc', false) => foldUntil body acc' ps

/-- The position stands at slot number `g`; the end of a block is also the start of the next. -/
def At (t : BaseTable) (it : TableIterator) (g : ℕ) : Prop :=
  it.curBlock < t.blocks.length ∧ ∃ j ≤ t.recordNumPerBlock, it.mPtr = j * t.recordFullSize ∧
    g = it.curBlock * t.recordNumPerBlock + j

end TableIterator

namespace BaseTable

/-- `getIterator` reads the first block; a table that never had one is undefined here. -/
def getIterator (t : BaseTable) : Option TableIterator :=
  if t.blocks.length = 0 then none else some ⟨0, 0⟩

/-- The numbers of the occupied slots from `g` on. -/
def occupiedFrom (t : BaseTable) (g : ℕ) : List ℕ :=
  (List.range' g (t.recordNumPerBlock * t.blocks.length - g)).filter
    (fun g => decide (t.IsOccupied (t.slot g)))

/-- The addresses of all records of the table, in address order. -/
def recordPtrs (t : BaseTable) : List Ptr :=
  (t.occupiedFrom 0).map (fun g => (t.slot g).add kRecordHeaderSize)

theorem occupiedFrom_of_le (t : BaseTable) {g : ℕ}
    (h : t.recordNumPerBlock * t.blocks.length ≤ g) : t.occupiedFrom g = [] := by
  simp [occupiedFrom, Nat.sub_eq_zero_of_le h]

theorem occupiedFrom_of_lt (t : BaseTable) {g : ℕ}
    (h : g < t.recordNumPerBlock * t.blocks.length) :
    t.occupiedFrom g =
      if t.IsOccupied (t.slot g) then g :: t.occupiedFrom (g + 1) else t.occupiedFrom (g + 1) := by
  have hn : t.recordNumPerBlock * t.blocks.length - g =
      (t.recordNumPerBlock * t.blocks.length - (g + 1)) + 1 := by omega
  unfold occupiedFrom
  rw [hn, List.range'_succ, List.filter_cons]
  simp

end BaseTable

namespace TableIterator
variable {t : BaseTable} {it : TableIterator} {g : ℕ}

/-- Every block consists of whole slots. -/
structure Grid (t : BaseTable) : Prop where
  pos : 0 < t.recordNumPerBlock
  sizes : ∀ b ∈ t.blocks, b.size = t.recordNumPerBlock * t.recordFullSize

theorem At.block (h : At t it g) : ∃ b, t.blocks[it.curBlock]? = some b :=
  ⟨_, List.getElem?_eq_getElem h.1⟩

private theorem slot_eq (t : BaseTable) {c j : ℕ} (hj : j < t.recordNumPerBlock) :
    t.slot (c * t.recordNumPerBlock + j) = ⟨c, j * t.recordFullSize⟩ := by
  have hpos : 0 < t.recordNumPerBlock := by omega
  rw [BaseTable.slot, Nat.mul_comm c, Nat.mul_add_mod, Nat.mod_eq_of_lt hj,
    Nat.mul_add_div hpos, Nat.div_eq_of_lt hj, Nat.add_zero]

/-- At the start of a slot the flag byte says whether the slot is occupied. -/
private theorem flag_slot (hg : Grid t) {c j : ℕ} (hc : c < t.blocks.length)
    (hj : j < t.recordNumPerBlock) :
    ∃ f, flag t ⟨c, j * t.recordFullSize⟩ = some f ∧
      (f = OCCUPIED ↔ t.IsOccupied (t.slot (c * t.recordNumPerBlock + j))) := by
  have hlt : j * t.recordFullSize < t.blocks[c].size := by
    rw [hg.sizes _ (List.getElem_mem hc)]
    exact Nat.mul_lt_mul_of_pos_right hj (BaseTable.Accounted.full_pos t)
  refine ⟨t.blocks[c].data (j * t.recordFullSize), ?_, ?_⟩
  · simp [flag, List.getElem?_eq_getElem hc, hlt]
  · rw [slot_eq t hj]
    simp [BaseTable.IsOccupied, BaseTable.bytesAt, List.getElem?_eq_getElem hc, ByteMemory.read]

/-- Before the last slot the position, moved across a block end, is that slot. -/
theorem At.enterNext (hg : Grid t) (h : At t it g)
    (hlt : g < t.recordNumPerBlock * t.blocks.length) {b : Block}
    (hb : t.blocks[it.curBlock]? = some b) :
    (it.curBlock + 1 < t.blocks.length ∨ it.mPtr ≠ b.size) ∧
      (⟨(it.enterNext b).curBlock, (it.enterNext b).mPtr⟩ : Ptr) = t.slot g ∧
      At t ((it.enterNext b).advance t.recordFullSize) (g + 1) ∧ At t (it.enterNext b) g ∧
      ∃ f, flag t (it.enterNext b) = some f ∧ (f = OCCUPIED ↔ t.IsOccupied (t.slot g)) := by
  obtain ⟨c, m⟩ := it
  obtain ⟨hc, j, hj, rfl, rfl⟩ := h
  have hpos := hg.pos
  have hsize := hg.sizes b (List.mem_of_getElem? hb)
  have hfull := BaseTable.Accounted.full_pos t
  simp only at hc hb hlt ⊢
  by_cases he : j = t.recordNumPerBlock
  · -- the end of a block: the next block exists and its first slot is meant
    subst he
    have hnext : c + 1 < t.blocks.length := by
      rw [Nat.mul_comm c, ← Nat.mul_succ] at hlt
      exact Nat.lt_of_mul_lt_mul_left hlt
    have hnum : c * t.recordNumPerBlock + t.recordNumPerBlock =
        (c + 1) * t.recordNumPerBlock + 0 := by rw [Nat.add_one_mul, Nat.add_zero]
    have hen : TableIterator.enterNext ⟨c, t.recordNumPerBlock * t.recordFullSize⟩ b =
        ⟨c + 1, 0 * t.recordFullSize⟩ := by simp [TableIterator.enterNext, hsize]
    rw [hen, hnum]
    refine ⟨Or.inl hnext, (slot_eq t hpos).symm, ⟨hnext, 1, hpos, ?_, rfl⟩,
      ⟨hnext, 0, hpos.le, rfl, rfl⟩, flag_slot hg hnext hpos⟩
    simp [advance]
  · have hjlt : j < t.recordNumPerBlock := by omega
    have hm : j * t.recordFullSize ≠ b.size := by
      rw [hsize]
      exact (Nat.mul_lt_mul_of_pos_right hjlt hfull).ne
    have hen : TableIterator.enterNext ⟨c, j * t.recordFullSize⟩ b =
        ⟨c, j * t.recordFullSize⟩ := by simp [TableIterator.enterNext, hm]
    rw [hen]
    refine ⟨Or.inr hm, (slot_eq t hjlt).symm, ⟨hc, j + 1, hjlt, ?_, rfl⟩,
      ⟨hc, j, hj, rfl, rfl⟩, flag_slot hg hc hjlt⟩
    simp [advance, Nat.add_one_mul]

/-- The position behind the last slot is where `hasNext` answers no. -/
theorem At.last (hg : Grid t) (h : At t it g) (hle : t.recordNumPerBlock * t.blocks.length ≤ g)
    {b : Block} (hb : t.blocks[it.curBlock]? = some b) :
    ¬ (it.curBlock + 1 < t.blocks.length ∨ it.mPtr ≠ b.size) := by
  obtain ⟨hc, j, hj, hm, rfl⟩ := h
  have hbound : it.curBlock * t.recordNumPerBlock + j ≤
      t.recordNumPerBlock * (it.curBlock + 1) := by
    rw [Nat.mul_succ, Nat.mul_comm]
    omega
  have hlast : t.blocks.length ≤ it.curBlock + 1 :=
    Nat.le_of_mul_le_mul_left (hle.trans hbound) hg.pos
  have hend : j = t.recordNumPerBlock := by
    rw [show t.blocks.length = it.curBlock + 1 by omega, Nat.mul_succ, Nat.mul_comm] at hle
    omega
  have hsize := hg.sizes b (List.mem_of_getElem? hb)
  rintro (hlt | hne)
  · omega
  · exact hne (by rw [hm, hend, hsize])

private theorem lt_of_occupiedFrom {g' : ℕ} {gs : List ℕ} (ho : t.occupiedFrom g = g' :: gs) :
    g < t.recordNumPerBlock * t.blocks.length := by
  by_contra hge
  rw [t.occupiedFrom_of_le (Nat.le_of_not_lt hge)] at ho
  cases ho

/-- `next` returns the first occupied slot from its position on. -/
theorem next_spec (hg : Grid t) (h : At t it g) {g' : ℕ} {gs : List ℕ}
    (ho : t.occupiedFrom g = g' :: gs) : ∃ it', next t it =
      some ((t.slot g').add kRecordHeaderSize, it') ∧ At t it' (g' + 1) ∧
      t.occupiedFrom (g' + 1) = gs := by
  have hlt := lt_of_occupiedFrom ho
  obtain ⟨b, hb⟩ := h.block
  fun_induction next t it generalizing g b with
  | case1 it hnone => simp [hnone] at hb
  | case2 it b' hb' hnone =>
    obtain ⟨-, -, -, -, f, hf, -⟩ := h.enterNext hg hlt hb'
    simp [hnone] at hf
  | case3 it b' hb' hf =>
    obtain ⟨-, hslot, hadv, -, f, hf', hocc⟩ := h.enterNext hg hlt hb'
    rw [hf] at hf'
    cases hf'
    rw [t.occupiedFrom_of_lt hlt, if_pos (hocc.mp rfl)] at ho
    cases ho
    exact ⟨_, by rw [hslot], hadv, rfl⟩
  | case4 it b' hb' f hf hfree ih =>
    obtain ⟨-, -, hadv, -, f', hf', hocc⟩ := h.enterNext hg hlt hb'
    rw [hf] at hf'
    cases hf'
    rw [t.occupiedFrom_of_lt hlt, if_neg (fun h => hfree (hocc.mpr h))] at ho
    obtain ⟨b'', hb''⟩ := hadv.block
    exact ih hadv ho (lt_of_occupiedFrom ho) b'' hb''

/-- `hasNext` finds whether an occupied slot is left and skips the free ones before it. -/
theorem hasNext_spec (hg : Grid t) (h : At t it g) :
    ∃ it', hasNext t it = some (!(t.occupiedFrom g).isEmpty, it') ∧
      (t.occupiedFrom g ≠ [] → ∃ g', At t it' g' ∧ t.occupiedFrom g' = t.occupiedFrom g) := by
  obtain ⟨b, hb⟩ := h.block
  fun_induction hasNext t it generalizing g b with
  | case1 it hnone => simp [hnone] at hb
  | case2 it b' hb' hmore hnone =>
    have hlt : g < t.recordNumPerBlock * t.blocks.length := by
      by_contra hge
      exact h.last hg (Nat.le_of_not_lt hge) hb' hmore
    obtain ⟨-, -, -, -, f, hf, -⟩ := h.enterNext hg hlt hb'
    simp [hnone] at hf
  | case3 it b' hb' hmore hf =>
    have hlt : g < t.recordNumPerBlock * t.blocks.length := by
      by_contra hge
      exact h.last hg (Nat.le_of_not_lt hge) hb' hmore
    obtain ⟨-, -, -, hat, f, hf', hocc⟩ := h.enterNext hg hlt hb'
    rw [hf] at hf'
    cases hf'
    refine ⟨_, ?_, fun _ => ⟨g, hat, rfl⟩⟩
    rw [t.occupiedFrom_of_lt hlt, if_pos (hocc.mp rfl)]
    rfl
  | case4 it b' hb' hmore f hf hfree ih =>
    have hlt : g < t.recordNumPerBlock * t.blocks.length := by
      by_contra hge
      exact h.last hg (Nat.le_of_not_lt hge) hb' hmore
    obtain ⟨-, -, hadv, -, f', hf', hocc⟩ := h.enterNext hg hlt hb'
    rw [hf] at hf'
    cases hf'
    obtain ⟨b'', hb''⟩ := hadv.block
    rw [t.occupiedFrom_of_lt hlt, if_neg (fun h => hfree (hocc.mpr h))]
    exact ih hadv b'' hb''
  | case5 it b' hb' hmore =>
    have hge : t.recordNumPerBlock * t.blocks.length ≤ g := by
      by_contra hlt
      exact hmore (h.enterNext hg (Nat.lt_of_not_le hlt) hb').1
    refine ⟨it, ?_, fun hne => absurd (t.occupiedFrom_of_le hge) hne⟩
    rw [t.occupiedFrom_of_le hge]
    rfl

/-- One round of a loop: after a yes of `hasNext`, `next` returns the first occupied slot. -/
private theorem round_spec (hg : Grid t) (h : At t it g) {it' : TableIterator}
    (htrue : hasNext t it = some (true, it')) : ∃ g' gs it'', t.occupiedFrom g = g' :: gs ∧
      next t it' = some ((t.slot g').add kRecordHeaderSize, it'') ∧ At t it'' (g' + 1) ∧
      t.occupiedFrom (g' + 1) = gs := by
  obtain ⟨it₁, hh, hat⟩ := hasNext_spec hg h
  rw [htrue] at hh
  cases ho : t.occupiedFrom g with
  | nil => simp [ho] at hh
  | cons g' gs =>
    obtain rfl : it' = it₁ := (Prod.mk.inj (Option.some.inj hh)).2
    obtain ⟨g₁, hg₁, he⟩ := hat (by simp [ho])
    obtain ⟨it'', hn, hat', hgs⟩ := next_spec hg hg₁ (he.trans ho)
    exact ⟨g', gs, it'', rfl, hn, hat', hgs⟩

/-- A loop over the iterator runs its body over the occupied slots in address order. -/
theorem whileNext_spec {α : Type*} (hg : Grid t) (body : α → Ptr → α × Bool) (acc : α)
    (h : At t it g) : whileNext t body acc it =
      some (foldUntil body acc
        ((t.occupiedFrom g).map (fun g => (t.slot g).add kRecordHeaderSize))) := by
  fun_induction whileNext t body acc it generalizing g with
  | case1 acc it hnone =>
    obtain ⟨it', hh, -⟩ := hasNext_spec hg h
    simp [hnone] at hh
  | case2 acc it it' hfalse =>
    obtain ⟨it₁, hh, -⟩ := hasNext_spec hg h
    rw [hfalse] at hh
    cases ho : t.occupiedFrom g with
    | nil => rfl
    | cons g' gs => simp [ho] at hh
  | case3 acc it it' htrue hnone =>
    obtain ⟨g', gs, it'', -, hn, -⟩ := round_spec hg h htrue
    simp [hnone] at hn
  | case4 acc it it' htrue p it'' hn acc' hbody =>
    obtain ⟨g', gs, it₁, ho, hn', -⟩ := round_spec hg h htrue
    rw [hn] at hn'
    cases hn'
    rw [ho, List.map_cons, foldUntil, hbody]
  | case5 acc it it' htrue p it'' hn acc' hbody ih =>
    obtain ⟨g', gs, it₁, ho, hn', hat, hgs⟩ := round_spec hg h htrue
    rw [hn] at hn'
    cases hn'
    rw [ho, List.map_cons, foldUntil, hbody, ih hat, hgs]

/-- From a fresh iterator the loop visits every record of the table. -/
theorem whileNext_getIterator {α : Type*} (hg : Grid t) (hne : t.blocks.length ≠ 0)
    (body : α → Ptr → α × Bool) (acc : α) :
    t.getIterator.bind (whileNext t body acc) = some (foldUntil body acc t.recordPtrs) := by
  have hat : At t ⟨0, 0⟩ 0 := ⟨Nat.pos_of_ne_zero hne, 0, Nat.zero_le _, by simp, by simp⟩
  rw [BaseTable.getIterator, if_neg hne, Option.bind_some, whileNext_spec hg body acc hat]
  rfl

end TableIterator

namespace BaseTable
variable {t : BaseTable} {live : List Ptr}

theorem Heap.grid (h : Heap t live) : TableIterator.Grid t := by
  obtain ⟨bump, hb⟩ := h.books
  exact ⟨hb.perBlock_pos, hb.sizes⟩

/-- The records that a scan visits are the live ones, each once. -/
theorem Heap.recordPtrs (h : Heap t live) :
    t.recordPtrs.Perm (live.map (fun p => p.add kRecordHeaderSize)) := by
  have hslots : ((t.occupiedFrom 0).map t.slot).Perm live := by
    apply (List.perm_ext_iff_of_nodup _ h.nodup).mpr
    · intro p
      obtain ⟨bump, hb⟩ := h.books
      simp only [occupiedFrom, List.mem_map, List.mem_filter, List.mem_range', decide_eq_true_eq]
      constructor
      · rintro ⟨g, ⟨-, hocc⟩, rfl⟩
        exact (h.header g).mp hocc
      · intro hp
        obtain ⟨g, hlt, rfl⟩ := hb.mem_slot (Or.inl hp)
        have := hb.bump_le
        exact ⟨g, ⟨⟨g, by omega, by omega⟩, (h.header g).mpr hp⟩, rfl⟩
    · exact ((List.nodup_range' 1).filter _).map t.slot_injective
  have hm := hslots.map (fun p => p.add kRecordHeaderSize)
  rwa [List.map_map] at hm

end BaseTable

end ImdbD.StorageEngine
