import ImdbD.RecordSchema
import Mathlib.Data.List.Perm.Basic
import Mathlib.Data.List.Nodup

/-!
# Blocks, slots and the slot allocator

A table is a list of blocks of whole slots; a slot is an eight-byte header and
the bytes of one record. Inserting takes a slot from a new block, from the free
list or from the bump pointer, as the two counters decide. The two parts of an
insertion and the three parts of a deletion are kept apart, so that they can
also be run as separate steps.
-/
namespace ImdbD.StorageEngine
open ByteMemory

/-- An address: a block and an offset inside it. -/
structure Ptr where
  block : ℕ
  offset : ℕ
  deriving DecidableEq

def Ptr.add (p : Ptr) (n : ℕ) : Ptr := ⟨p.block, p.offset + n⟩
def Ptr.sub (p : Ptr) (n : ℕ) : Ptr := ⟨p.block, p.offset - n⟩

@[simp] theorem Ptr.add_sub (p : Ptr) (n : ℕ) : (p.add n).sub n = p := by
  simp [Ptr.add, Ptr.sub]

theorem Ptr.add_injective (n : ℕ) : Function.Injective (fun p : Ptr => p.add n) := by
  intro p q h
  have hs := congrArg (fun r : Ptr => r.sub n) h
  simpa using hs

structure Block where
  data : ℕ → UInt8
  size : ℕ

/-- `nextFreespacePtr` is `none` while it is `NULL`. -/
structure BaseTable where
  recordSize : ℕ
  blocks : List Block
  occupiedRecordCount : ℕ
  allocatedRecordCount : ℕ
  freeList : List Ptr
  nextFreespacePtr : Option Ptr

def OCCUPIED : UInt8 := 1

namespace BaseTable

def new (recordSize : ℕ) : BaseTable := ⟨recordSize, [], 0, 0, [], none⟩

def recordFullSize (t : BaseTable) : ℕ := t.recordSize + kRecordHeaderSize
def recordNumPerBlock (t : BaseTable) : ℕ := kBlockSize / t.recordFullSize
def getTableSize (t : BaseTable) : ℕ := t.occupiedRecordCount

/-- The `n` bytes at an address; nothing is read outside the blocks. -/
def bytesAt (t : BaseTable) (p : Ptr) (n : ℕ) : Bytes :=
  match t.blocks[p.block]? with
  | some b => read b.data p.offset n
  | none => []

/-- The `n` bytes at an address lie inside one block. -/
def InBounds (t : BaseTable) (p : Ptr) (n : ℕ) : Prop :=
  ∃ b, t.blocks[p.block]? = some b ∧ p.offset + n ≤ b.size

/-- Copy bytes to an address. Outside the blocks the behaviour is undefined. -/
def store (t : BaseTable) (p : Ptr) (bs : Bytes) : Option BaseTable :=
  match t.blocks[p.block]? with
  | some b =>
    if p.offset + bs.length ≤ b.size then
      some { t with blocks := t.blocks.set p.block { b with data := write b.data p.offset bs } }
    else none
  | none => none

def allocateNextBlock (t : BaseTable) : BaseTable :=
  { t with
    blocks := t.blocks ++
      [⟨fun _ => 0, kBlockSize / t.recordFullSize * t.recordFullSize⟩]
    nextFreespacePtr := some ⟨t.blocks.length, 0⟩
    allocatedRecordCount := t.allocatedRecordCount + t.recordNumPerBlock }

/-- Hand out the slot at the bump pointer and advance it. -/
def takeFreespace (t : BaseTable) : Option (BaseTable × Ptr) :=
  t.nextFreespacePtr.map
    (fun p => ({ t with nextFreespacePtr := some (p.add t.recordFullSize) }, p))

/-- The section of `insertRecord` under `table_mutex`. -/
def insertSection (t : BaseTable) : Option (BaseTable × Ptr) :=
  let taken :=
    if t.allocatedRecordCount = t.occupiedRecordCount then t.allocateNextBlock.takeFreespace
    else match t.freeList with
      | ans :: rest => some ({ t with freeList := rest }, ans)
      | [] => t.takeFreespace
  taken.map (fun r => ({ r.1 with occupiedRecordCount := r.1.occupiedRecordCount + 1 }, r.2))

/-- The header and data write of `insertRecord`, after the section. -/
def insertWrite (t : BaseTable) (ans : Ptr) (record : Bytes) : Option BaseTable :=
  if t.recordSize ≤ record.length then
    (t.store ans [OCCUPIED]).bind
      (fun t => t.store (ans.add kRecordHeaderSize) (record.take t.recordSize))
  else none

/-- `BaseTable::insertRecord`, with the address it returns. -/
def insertRecord (t : BaseTable) (record : Bytes) : Option (BaseTable × Ptr) :=
  t.insertSection.bind (fun r =>
    (r.1.insertWrite r.2 record).map (fun t => (t, r.2.add kRecordHeaderSize)))

/-- First part of `deleteRecord`: `free_list.push(del_pos)`. -/
def deletePush (t : BaseTable) (delPos : Ptr) : BaseTable :=
  { t with freeList := t.freeList ++ [delPos] }

/-- Second part of `deleteRecord`: `memset(del_pos, 0, kRecordHeaderSize)`. -/
def deleteClear (t : BaseTable) (delPos : Ptr) : Option BaseTable :=
  t.store delPos (List.replicate kRecordHeaderSize 0)

/-- Third part of `deleteRecord`: `occupied_record_count--`. -/
def deleteCount (t : BaseTable) : BaseTable :=
  { t with occupiedRecordCount := t.occupiedRecordCount - 1 }

def deleteRecord (t : BaseTable) (recordPos : Ptr) : Option BaseTable :=
  ((t.deletePush (recordPos.sub kRecordHeaderSize)).deleteClear
    (recordPos.sub kRecordHeaderSize)).map deleteCount

/-- The header of a slot says that it is in use. -/
def IsOccupied (t : BaseTable) (slot : Ptr) : Prop := t.bytesAt slot 1 = [OCCUPIED]

instance (t : BaseTable) (slot : Ptr) : Decidable (t.IsOccupied slot) :=
  inferInstanceAs (Decidable (_ = _))

/-- The bytes of the record at an address. -/
def recordAt (t : BaseTable) (record : Ptr) : Bytes := t.bytesAt record t.recordSize

/-- The slot with a given number, counted over all blocks. -/
def slot (t : BaseTable) (g : ℕ) : Ptr :=
  ⟨g / t.recordNumPerBlock, g % t.recordNumPerBlock * t.recordFullSize⟩

/-- All slots of the blocks, in address order. -/
def slots (t : BaseTable) : List Ptr :=
  (List.range (t.recordNumPerBlock * t.blocks.length)).map t.slot

theorem store_eq_some {t t' : BaseTable} {p : Ptr} {bs : Bytes} (h : t.store p bs = some t') :
    ∃ b, t.blocks[p.block]? = some b ∧ p.offset + bs.length ≤ b.size ∧
      t' = { t with
        blocks := t.blocks.set p.block { b with data := write b.data p.offset bs } } := by
  unfold store at h
  split at h
  · rename_i b hb
    split at h
    · exact ⟨b, hb, by assumption, (Option.some.inj h).symm⟩
    · cases h
  · cases h

theorem store_of_inBounds {t : BaseTable} {p : Ptr} {bs : Bytes} (h : t.InBounds p bs.length) :
    ∃ t', t.store p bs = some t' := by
  obtain ⟨b, hb, hle⟩ := h
  unfold store
  simp only [hb, if_pos hle]
  exact ⟨_, rfl⟩

/-- A store changes block contents only. -/
structure SameShape (t t' : BaseTable) : Prop where
  recordSize : t'.recordSize = t.recordSize
  occupied : t'.occupiedRecordCount = t.occupiedRecordCount
  allocated : t'.allocatedRecordCount = t.allocatedRecordCount
  freeList : t'.freeList = t.freeList
  next : t'.nextFreespacePtr = t.nextFreespacePtr
  sizes : t'.blocks.map Block.size = t.blocks.map Block.size

theorem SameShape.trans {t t' t'' : BaseTable} (h : SameShape t t') (h' : SameShape t' t'') :
    SameShape t t'' :=
  ⟨h'.1.trans h.1, h'.2.trans h.2, h'.3.trans h.3, h'.4.trans h.4, h'.5.trans h.5,
    h'.6.trans h.6⟩

theorem SameShape.length {t t' : BaseTable} (h : SameShape t t') :
    t'.blocks.length = t.blocks.length := by
  have hl := congrArg List.length h.sizes
  simpa using hl

theorem SameShape.inBounds {t t' : BaseTable} (h : SameShape t t') {p : Ptr} {n : ℕ}
    (hp : t.InBounds p n) : t'.InBounds p n := by
  obtain ⟨b, hb, hle⟩ := hp
  have hs := congrArg (fun l : List ℕ => l[p.block]?) h.sizes
  simp only [List.getElem?_map, hb, Option.map_some, Option.map_eq_some_iff] at hs
  obtain ⟨b', hb', he⟩ := hs
  exact ⟨b', hb', by omega⟩

theorem SameShape.slot {t t' : BaseTable} (h : SameShape t t') : t'.slot = t.slot := by
  funext g
  simp [BaseTable.slot, recordNumPerBlock, recordFullSize, h.recordSize]

theorem SameShape.slots {t t' : BaseTable} (h : SameShape t t') : t'.slots = t.slots := by
  simp [BaseTable.slots, h.slot, h.length, recordNumPerBlock, recordFullSize, h.recordSize]

theorem store_sameShape {t t' : BaseTable} {p : Ptr} {bs : Bytes} (h : t.store p bs = some t') :
    SameShape t t' := by
  obtain ⟨b, hb, -, rfl⟩ := store_eq_some h
  refine ⟨rfl, rfl, rfl, rfl, rfl, ?_⟩
  obtain ⟨hlt, he⟩ := List.getElem?_eq_some_iff.mp hb
  have hlt' : p.block < (t.blocks.map Block.size).length := by simpa using hlt
  have hsize : b.size = (t.blocks.map Block.size)[p.block] := by simp [he]
  rw [List.map_set]
  change (t.blocks.map Block.size).set p.block b.size = _
  rw [hsize, List.set_getElem_self]

/-- A store is not seen at an address range that it does not touch. -/
theorem bytesAt_store_disjoint {t t' : BaseTable} {p q : Ptr} {bs : Bytes} {n : ℕ}
    (h : t.store p bs = some t')
    (hd : p.block = q.block → q.offset + n ≤ p.offset ∨ p.offset + bs.length ≤ q.offset) :
    t'.bytesAt q n = t.bytesAt q n := by
  obtain ⟨b, hb, -, rfl⟩ := store_eq_some h
  unfold bytesAt
  by_cases he : p.block = q.block
  · have hlt := (List.getElem?_eq_some_iff.mp hb).1
    rw [he] at hb hlt
    simp only [he, List.getElem?_set_self hlt, hb]
    exact read_write_disjoint _ _ _ _ _ (hd he)
  · simp only [List.getElem?_set_ne he]

/-- A store into a range overwrites that part of it. -/
theorem bytesAt_store_inside {t t' : BaseTable} {p : Ptr} {bs : Bytes} {n c : ℕ}
    (h : t.store (p.add c) bs = some t') (hc : c + bs.length ≤ n) :
    t'.bytesAt p n = overwrite (t.bytesAt p n) c bs := by
  obtain ⟨b, hb, -, rfl⟩ := store_eq_some h
  have hlt := (List.getElem?_eq_some_iff.mp hb).1
  simp only [Ptr.add] at hb hlt
  simp only [bytesAt, Ptr.add, List.getElem?_set_self hlt, hb]
  exact read_write_inside _ _ _ _ _ hc

theorem bytesAt_length {t : BaseTable} {p : Ptr} {n : ℕ} (h : t.InBounds p n) :
    (t.bytesAt p n).length = n := by
  obtain ⟨b, hb, -⟩ := h
  simp [bytesAt, hb]

private theorem grid_disjoint {n full g g' : ℕ} (hne : g ≠ g') (hb : g / n = g' / n) :
    g % n * full + full ≤ g' % n * full ∨ g' % n * full + full ≤ g % n * full := by
  have hg := Nat.div_add_mod g n
  have hg' := Nat.div_add_mod g' n
  rw [hb] at hg
  rcases Nat.lt_or_gt_of_ne (show g % n ≠ g' % n by omega) with hlt | hgt
  · left
    calc g % n * full + full = (g % n + 1) * full := by rw [Nat.add_mul, Nat.one_mul]
      _ ≤ g' % n * full := Nat.mul_le_mul_right _ hlt
  · right
    calc g' % n * full + full = (g' % n + 1) * full := by rw [Nat.add_mul, Nat.one_mul]
      _ ≤ g % n * full := Nat.mul_le_mul_right _ hgt

/-- Two slots of the grid do not overlap. -/
theorem slot_disjoint (t : BaseTable) {g g' : ℕ} (hne : g ≠ g')
    (hb : (t.slot g).block = (t.slot g').block) :
    (t.slot g').offset + t.recordFullSize ≤ (t.slot g).offset ∨
      (t.slot g).offset + t.recordFullSize ≤ (t.slot g').offset :=
  (grid_disjoint hne hb).symm

theorem slot_injective (t : BaseTable) : Function.Injective t.slot := by
  intro g g' h
  by_contra hne
  have hd := slot_disjoint t hne (congrArg Ptr.block h)
  have ho := congrArg Ptr.offset h
  have hf : 0 < t.recordFullSize := by
    simp only [recordFullSize, kRecordHeaderSize]
    omega
  omega

end BaseTable
end ImdbD.StorageEngine
