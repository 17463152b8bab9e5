import ImdbD.KeyedStore
import Mathlib.Algebra.BigOperators.Group.Finset.Piecewise

/-!
# Sums over the rows of a table

Every row of a table has a share in a sum. Two sums are compared key by key: it
does not matter which of the keys have rows, as a key without one has no share.
-/
namespace ImdbD.KeyedStore.Store
variable {ι : Type} {C : Catalog ι} {id : ι} {M : Type} [AddCommMonoid M]

/-- What the row under a key adds to a sum. -/
def share (s : Store C) (id : ι) (f : C.Key id → C.Row id → M) (k : C.Key id) : M :=
  ((s.row id k).map (f k)).getD 0

/-- The sum over the rows of a table. -/
def total (s : Store C) (id : ι) (f : C.Key id → C.Row id → M) : M :=
  ∑ k ∈ (s.rows id).keys, s.share id f k

variable {s s' : Store C} {f f' : C.Key id → C.Row id → M} {k : C.Key id}

theorem share_of_none (h : s.row id k = none) : s.share id f k = 0 := by
  rw [share, h]
  rfl

theorem share_of_some {r : C.Row id} (h : s.row id k = some r) : s.share id f k = f k r := by
  rw [share, h]
  rfl

theorem mem_keys : k ∈ (s.rows id).keys ↔ (s.row id k).isSome := by
  rw [Finmap.mem_keys, row, Finmap.lookup_isSome]

/-- The sum may be taken over any keys that include those with rows. -/
theorem total_eq_sum {F : Finset (C.Key id)} (h : ∀ k, (s.row id k).isSome → k ∈ F) :
    s.total id f = ∑ k ∈ F, s.share id f k := by
  refine Finset.sum_subset (fun k hk => h k (mem_keys.mp hk)) (fun k _ hk => ?_)
  exact share_of_none (by simpa [mem_keys] using hk)

/-- The sum over listed keys, when the other rows have no share. -/
theorem total_eq_list_sum {ks : List (C.Key id)} (hks : ks.Nodup)
    (h : ∀ k, (s.row id k).isSome → k ∉ ks → s.share id f k = 0) :
    s.total id f = (ks.map (s.share id f)).sum := by
  have hF : ∀ k, (s.row id k).isSome → k ∈ (s.rows id).keys ∪ ks.toFinset :=
    fun k hk => by simp [mem_keys, hk]
  rw [total_eq_sum hF, ← List.sum_toFinset _ hks]
  refine (Finset.sum_subset Finset.subset_union_right (fun k hk hnot => ?_)).symm
  rw [List.mem_toFinset] at hnot
  refine h k ?_ hnot
  simpa [mem_keys, hnot] using hk

/-- A sum grows by the shares that grow. -/
theorem total_eq_add (T : Finset (C.Key id)) (g : C.Key id → M)
    (h : ∀ k, s'.share id f' k = s.share id f k + if k ∈ T then g k else 0) :
    s'.total id f' = s.total id f + ∑ k ∈ T, g k := by
  have hF : ∀ k, (s.row id k).isSome → k ∈ (s.rows id).keys ∪ (s'.rows id).keys ∪ T :=
    fun k hk => by simp [mem_keys, hk]
  have hF' : ∀ k, (s'.row id k).isSome → k ∈ (s.rows id).keys ∪ (s'.rows id).keys ∪ T :=
    fun k hk => by simp [mem_keys, hk]
  rw [total_eq_sum hF, total_eq_sum hF', Finset.sum_congr rfl (fun k _ => h k),
    Finset.sum_add_distrib, Finset.sum_ite_mem,
    Finset.inter_eq_right.mpr Finset.subset_union_right]

theorem total_congr (h : ∀ k, s'.share id f' k = s.share id f k) :
    s'.total id f' = s.total id f := by
  have hall := total_eq_add (f := f) ∅ (fun _ => 0) (fun k => by simpa using h k)
  simpa using hall

end ImdbD.KeyedStore.Store
