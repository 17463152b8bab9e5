import ImdbD.TatpAbstractMaps
import ImdbD.KeyedLockstep

/-!
# Partitions of the tables of TATP

Two stores with different partitions are alike when the rows of one name have
the same bytes in both. Every call of the populator and of the transactions
keeps that and has the same answer.
-/
namespace ImdbD.Benchmark.TATP
open ByteMemory StorageEngine AtomicProgram RecordStore
open KeyedStore (Store SameAnswer)
open Program (Follows)

variable {K K' : Constants} {s t : Tables}

/-- The rows of one name have the same bytes, and the secondary indexes list the same keys. -/
structure Alike (K K' : Constants) (s t : Tables) : Prop where
  row : ∀ n : RowName, (s.row (n.table K) n.key).map Record.data =
    (t.row (n.table K') n.key).map Record.data
  numbers : ∀ g, s.groups .subscriber g = t.groups .subscriber g
  facilities : ∀ sId, s.groups (.specialFacility (K.offset sId)) (int32Bytes sId) =
    t.groups (.specialFacility (K'.offset sId)) (int32Bytes sId)
  numbered : ∀ g, ∀ k ∈ s.groups .subscriber g, ∃ sId, k = subscriberKey sId
  typed : ∀ sId, ∀ k ∈ s.groups (.specialFacility (K.offset sId)) (int32Bytes sId),
    ∃ sfType, k = typeKey sId sfType
  left : Routed K s
  right : Routed K' t

theorem Alike.empty : Alike K K' (.empty : Tables) .empty where
  row _ := rfl
  numbers _ := rfl
  facilities _ := rfl
  numbered _ _ h := nomatch h
  typed _ _ h := nomatch h
  left _ _ _ h := nomatch h
  right _ _ _ h := nomatch h

private theorem RowName.layout_eq (n : RowName) : layout (n.table K) = layout (n.table K') := by
  cases n <;> rfl

namespace Alike
variable (h : Alike K K' s t) (n : RowName)
include h

theorem isSome : (s.row (n.table K) n.key).isSome = (t.row (n.table K') n.key).isSome := by
  have hrow := congrArg Option.isSome (h.row n)
  simpa only [Option.isSome_map] using hrow

private theorem data_eq {r : Record (layout (n.table K)).schema} {r' : Record (layout (n.table K')).schema}
    (hr : s.row (n.table K) n.key = some r) (hr' : t.row (n.table K') n.key = some r') :
    r.data = r'.data := by
  have hrow := h.row n
  rw [hr, hr'] at hrow
  exact Option.some.inj hrow

theorem setRow {r : Record (layout (n.table K)).schema} {r' : Record (layout (n.table K')).schema}
    (hdata : r.data = r'.data) (hk : r.primaryKey = some n.key) (hk' : r'.primaryKey = some n.key) :
    Alike K K' (s.setRow (n.table K) n.key r) (t.setRow (n.table K') n.key r') where
  row n' := by
    by_cases he : n' = n
    · subst he
      rw [Store.row_setRow_self, Store.row_setRow_self, Option.map_some, Option.map_some, hdata]
    · rw [Store.row_setRow_of_ne s r (place_ne he), Store.row_setRow_of_ne t r' (place_ne he)]
      exact h.row n'
  numbers := h.numbers
  facilities := h.facilities
  numbered := h.numbered
  typed := h.typed
  left := h.left.setRow rfl hk
  right := h.right.setRow rfl hk'

theorem eraseRow : Alike K K' (s.eraseRow (n.table K) n.key) (t.eraseRow (n.table K') n.key) where
  row n' := by
    by_cases he : n' = n
    · subst he
      rw [Store.row_eraseRow_self, Store.row_eraseRow_self]
      rfl
    · rw [Store.row_eraseRow_of_ne s (place_ne he), Store.row_eraseRow_of_ne t (place_ne he)]
      exact h.row n'
  numbers := h.numbers
  facilities := h.facilities
  numbered := h.numbered
  typed := h.typed
  left := h.left.eraseRow _ _
  right := h.right.eraseRow _ _

omit h n in
theorem facilities_enterNumber (s : Tables) (e : Option (Bytes × Bytes)) (off : ℕ) (g : Bytes) :
    (s.enter .subscriber e).groups (.specialFacility off) g = s.groups (.specialFacility off) g := by
  have hid : (.specialFacility off : TableId) ≠ .subscriber := nofun
  exact Store.groups_enter_other s hid e g

omit h n in
theorem numbers_enterFacility (s : Tables) (e : Option (Bytes × Bytes)) (off : ℕ) (g : Bytes) :
    (s.enter (.specialFacility off) e).groups .subscriber g = s.groups .subscriber g := by
  have hid : (.subscriber : TableId) ≠ .specialFacility off := nofun
  exact Store.groups_enter_other s hid e g

omit n in
private theorem enterNumber (g : Bytes) (sId : Int32) :
    Alike K K' (s.enter .subscriber (some (g, subscriberKey sId)))
      (t.enter .subscriber (some (g, subscriberKey sId))) where
  row n := by
    rw [Store.row_enter, Store.row_enter]
    exact h.row n
  numbers g' := by
    rw [Store.groups_enter_apply, Store.groups_enter_apply, h.numbers]
  facilities sId' := by
    rw [facilities_enterNumber, facilities_enterNumber]
    exact h.facilities sId'
  numbered g' k hk := by
    rw [Store.groups_enter_apply] at hk
    split at hk
    · rcases List.mem_cons.mp hk with rfl | hk
      · exact ⟨sId, rfl⟩
      · exact h.numbered g' k hk
    · exact h.numbered g' k hk
  typed sId' k hk := by
    rw [facilities_enterNumber] at hk
    exact h.typed sId' k hk
  left id k r hr := h.left id k r (by rwa [Store.row_enter] at hr)
  right id k r hr := h.right id k r (by rwa [Store.row_enter] at hr)

omit h n in
/-- One more facility of a subscriber. -/
theorem groups_enterFacility (s : Tables) (sId sId' : Int32) (k : Bytes) :
    (s.enter (.specialFacility (K.offset sId)) (some (int32Bytes sId, k))).groups
      (.specialFacility (K.offset sId')) (int32Bytes sId') =
        if sId' = sId then k :: s.groups (.specialFacility (K.offset sId)) (int32Bytes sId)
        else s.groups (.specialFacility (K.offset sId')) (int32Bytes sId') := by
  split
  · rename_i he
    subst he
    exact Store.groups_enter_self s _ _
  · rename_i hne
    by_cases hoff : K.offset sId' = K.offset sId
    · rw [hoff]
      exact Store.groups_enter_ne s _ (fun he => hne (int32Bytes_injective he))
    · have hid : (.specialFacility (K.offset sId') : TableId) ≠ .specialFacility (K.offset sId) :=
        fun he => hoff (TableId.specialFacility.inj he)
      exact Store.groups_enter_other s hid _ _

omit n in
theorem enterFacility (sId : Int32) (sfType : Int8) :
    Alike K K'
      (s.enter (.specialFacility (K.offset sId)) (some (int32Bytes sId, typeKey sId sfType)))
      (t.enter (.specialFacility (K'.offset sId)) (some (int32Bytes sId, typeKey sId sfType))) where
  row n := by
    rw [Store.row_enter, Store.row_enter]
    exact h.row n
  numbers g := by
    rw [numbers_enterFacility, numbers_enterFacility]
    exact h.numbers g
  facilities sId' := by
    refine (groups_enterFacility s sId sId' _).trans (Eq.trans ?_ (groups_enterFacility t sId sId' _).symm)
    rw [h.facilities, h.facilities]
  numbered g k hk := by
    rw [numbers_enterFacility] at hk
    exact h.numbered g k hk
  typed sId' k hk := by
    rw [show (s.enter _ _).groups _ _ = _ from groups_enterFacility s sId sId' _] at hk
    split at hk
    · rename_i he
      subst he
      rcases List.mem_cons.mp hk with rfl | hk
      · exact ⟨sfType, rfl⟩
      · exact h.typed sId' k hk
    · exact h.typed sId' k hk
  left id k r hr := h.left id k r (by rwa [Store.row_enter] at hr)
  right id k r hr := h.right id k r (by rwa [Store.row_enter] at hr)

omit h n in
private theorem keySymbol_facility {r : Record TatpSchema.getSpecialFacilitySchema} {sId : Int32}
    {sfType : Int8}
    (hk : r.primaryKey = some (typeKey sId sfType)) : r.keySymbol [0] = int32Bytes sId := by
  rw [Record.primaryKey_eq _ (by decide) (by decide)] at hk
  have happend : r.getColumn 0 ++ (r.getColumn 1 ++ []) = typeKey sId sfType := Option.some.inj hk
  have hlen : (r.getColumn 0).length = (int32Bytes sId).length := by
    rw [length_int32Bytes, r.length_getColumn (by decide)]
    rfl
  exact (List.flatMap_singleton _ _).trans (List.append_inj happend hlen).1

theorem insertRecord (e e' : Σ id, Record (layout id).schema) (he : e.1 = n.table K)
    (he' : e'.1 = n.table K') (hdata : e.2.data = e'.2.data) (hk : e.2.primaryKey = some n.key) :
    Follows SameAnswer ((manager layout).insertRecord e.1 e.2) s
      ((manager layout).insertRecord e'.1 e'.2) t (fun _ s _ t => Alike K K' s t) := by
  obtain ⟨id, r⟩ := e
  obtain ⟨id', r'⟩ := e'
  obtain rfl : id = n.table K := he
  obtain rfl : id' = n.table K' := he'
  have hk' : r'.primaryKey = some n.key := by
    rw [← hk]
    cases n <;> exact congrArg Record.primaryKey (Record.data_injective hdata.symm)
  have hset := h.setRow n hdata hk hk'
  refine KeyedStore.insertRecord_follows hk hk' (h.isSome n) ?_
  rw [indexed_eq hk, indexed_eq hk']
  cases n with
  | subscriber sId =>
    obtain rfl : r = r' := Record.data_injective hdata
    exact hset.enterNumber (r.keySymbol [1]) sId
  | accessInfo sId aiType => exact hset
  | callForwarding sId sfType startTime => exact hset
  | specialFacility sId sfType =>
    obtain rfl : r = r' := Record.data_injective hdata
    have hgroup := keySymbol_facility hk
    have henter := hset.enterFacility sId sfType
    rw [← hgroup] at henter
    exact henter

end Alike
/-- References to the row of one name. -/
def SameName (K K' : Constants) (kind : TableKind) (sId : Int32) (a b : Bytes) : Prop :=
  a = b ∧ ∃ n : RowName, n.table K = K.route kind sId ∧ n.table K' = K'.route kind sId ∧ n.key = a

theorem search_follows {kind : TableKind} {sId : Int32} {params : List (ℕ × Bytes)} {r : Option Bytes}
    (hs : s.search (K.route kind sId) params = some r) (ht : t.search (K'.route kind sId) params = some r)
    (hname : ∀ k ∈ r, ∃ n : RowName, n.table K = K.route kind sId ∧ n.table K' = K'.route kind sId ∧
      n.key = k) :
    Follows SameAnswer ((manager layout).selectRecord (K.route kind sId) params) s
      ((manager layout).selectRecord (K'.route kind sId) params) t
      (fun r s' r' t' => s' = s ∧ t' = t ∧ Option.Rel (SameName K K' kind sId) r r') := by
  refine .atomic (fun r' t' hrun => ?_)
  rw [ht] at hrun
  cases hrun
  refine ⟨r, s, by rw [hs]; rfl, ⟨rfl, rfl, ?_⟩, .same _⟩
  cases r with
  | none => exact .none
  | some k => exact .some ⟨rfl, hname k rfl⟩

namespace Alike
variable (h : Alike K K' s t)
include h

theorem selectName (n : RowName) {kind : TableKind} {sId : Int32} {params : List (ℕ × Bytes)}
    (htable : n.table K = K.route kind sId) (htable' : n.table K' = K'.route kind sId)
    (hcols : params.map Prod.fst = (layout (n.table K)).schema.schema.primaryCols)
    (hkey : predicateKey (layout (n.table K)).schema params = n.key) :
    Follows SameAnswer ((manager layout).selectRecord (K.route kind sId) params) s
      ((manager layout).selectRecord (K'.route kind sId) params) t
      (fun r s' r' t' => s' = s ∧ t' = t ∧ Option.Rel (SameName K K' kind sId) r r') := by
  have hcols' := hcols
  have hkey' := hkey
  rw [show layout (n.table K) = layout (n.table K') from n.layout_eq] at hcols' hkey'
  have hs := search_primary (s := s) hcols hkey
  have ht := search_primary (s := t) hcols' hkey'
  have hrow : (s.row (n.table K) n.key).map (fun _ => n.key) =
      (t.row (n.table K') n.key).map (fun _ => n.key) := by
    have hdata := congrArg (Option.map (fun _ => n.key)) (h.row n)
    simpa only [Option.map_map, Function.comp_def] using hdata
  rw [htable] at hs hrow
  rw [htable'] at ht hrow
  refine search_follows hs (ht.trans (congrArg some hrow.symm)) (fun k hk => ?_)
  obtain ⟨_, -, rfl⟩ := Option.map_eq_some_iff.mp hk
  exact ⟨n, htable, htable', rfl⟩

theorem selectRecord {kind : TableKind} {sId : Int32} {params : List (ℕ × Bytes)}
    (hsel : Selection kind sId params) :
    Follows SameAnswer ((manager layout).selectRecord (K.route kind sId) params) s
      ((manager layout).selectRecord (K'.route kind sId) params) t
      (fun r s' r' t' => s' = s ∧ t' = t ∧ Option.Rel (SameName K K' kind sId) r r') := by
  cases hsel with
  | subNbr _ subNbr =>
    have hcols : [1] ≠ TatpSchema.getSubscriberSchema.schema.primaryCols := by decide
    have hsearch : ∀ s : Tables, s.search .subscriber [(1, subNbr.read 15)] =
        some (s.groups .subscriber (subNbr.read 15)).head? :=
      fun s => search_group hcols rfl (predicateKey_subNbr subNbr)
    have hs := hsearch s
    have ht := hsearch t
    rw [← h.numbers] at ht
    refine search_follows hs ht (fun k hk => ?_)
    obtain ⟨i, rfl⟩ := h.numbered _ k (List.mem_of_mem_head? hk)
    exact ⟨.subscriber i, rfl, rfl, rfl⟩
  | subscriber => exact h.selectName (.subscriber sId) rfl rfl rfl (predicateKey_subscriber sId)
  | accessInfo _ aiType =>
    exact h.selectName (.accessInfo sId aiType) rfl rfl rfl (predicateKey_accessInfo sId aiType)
  | facilities =>
    have hcols : [0] ≠ TatpSchema.getSpecialFacilitySchema.schema.primaryCols := by decide
    have hsearch : ∀ (s : Tables) (off : ℕ), s.search (.specialFacility off) [(0, int32Bytes sId)] =
        some (s.groups (.specialFacility off) (int32Bytes sId)).head? :=
      fun s off => search_group hcols rfl (predicateKey_specialFacility_sId sId)
    have hs := hsearch s (K.offset sId)
    have ht := hsearch t (K'.offset sId)
    rw [← h.facilities] at ht
    refine search_follows hs ht (fun k hk => ?_)
    obtain ⟨sfType, rfl⟩ := h.typed sId k (List.mem_of_mem_head? hk)
    exact ⟨.specialFacility sId sfType, rfl, rfl, rfl⟩
  | specialFacility _ sfType =>
    exact h.selectName (.specialFacility sId sfType) rfl rfl rfl
      (predicateKey_specialFacility sId sfType)
  | callForwarding _ sfType startTime =>
    exact h.selectName (.callForwarding sId sfType startTime) rfl rfl rfl
      (predicateKey_callForwarding sId sfType startTime)

theorem getColumn (n : RowName) (column : ℕ) {id id' : TableId} (hid : n.table K = id)
    (hid' : n.table K' = id') :
    Follows SameAnswer ((manager layout).getColumn (show (manager layout).Found id from n.key) column) s
      ((manager layout).getColumn (show (manager layout).Found id' from n.key) column) t
      (fun x s' y t' => x = y ∧ s' = s ∧ t' = t) := by
  subst hid
  subst hid'
  refine .atomic (fun y t' ht => ?_)
  obtain ⟨r', hr', he⟩ := Option.map_eq_some_iff.mp ht
  cases he
  have hsome := h.isSome n
  rw [show t.row _ n.key = _ from hr', Option.isSome_some, Option.isSome_iff_exists] at hsome
  obtain ⟨r, hr⟩ := hsome
  have hcolumn : r.getColumn column = r'.getColumn column := by
    have hdata := h.data_eq n hr hr'
    cases n <;> exact congrArg (fun r => Record.getColumn r column) (Record.data_injective hdata)
  refine ⟨_, s, by rw [hr]; rfl, ⟨hcolumn, rfl, rfl⟩, ?_⟩
  rw [hcolumn]
  exact .same _

theorem updateRecord (n : RowName) {params : List (ℕ × Bytes)} {id id' : TableId}
    (hid : n.table K = id) (hid' : n.table K' = id')
    (hparams : ∃ c value, params = [(c, value)] ∧ c ∈ written (n.table K)) :
    Follows SameAnswer
      ((manager layout).updateRecord (show (manager layout).Found id from n.key) params) s
      ((manager layout).updateRecord (show (manager layout).Found id' from n.key) params) t
      (fun _ s _ t => Alike K K' s t) := by
  subst hid
  subst hid'
  obtain ⟨c, value, rfl, hc⟩ := hparams
  refine KeyedStore.updateRecord_follows rfl (h.isSome n) (fun r r' hr hr' => ?_)
  have hdata : (r.setColumn c value).data = (r'.setColumn c value).data := by
    have hdata := h.data_eq n hr hr'
    cases n <;> exact congrArg (fun r => (Record.setColumn r c value).data)
      (Record.data_injective hdata)
  have hwritten : SameBut (written (n.table K)) r (r.setColumn c value) := by
    refine .setColumn ?_ hc r value
    have hlt : ∀ c ∈ written (n.table K), c < (layout (n.table K)).schema.schema.columnCount := by
      cases n with
      | subscriber =>
        exact (by decide : ∀ c ∈ [2, 33], c < TatpSchema.getSubscriberSchema.schema.columnCount)
      | specialFacility =>
        exact (by decide : ∀ c ∈ [4], c < TatpSchema.getSpecialFacilitySchema.schema.columnCount)
      | accessInfo | callForwarding => exact fun _ hc => nomatch hc
    exact hlt c hc
  have hk : (r.setColumn c value).primaryKey = some n.key := by
    rw [primaryKey_of_sameBut hwritten]
    exact (h.left _ _ _ hr).1
  have hk' : (r'.setColumn c value).primaryKey = some n.key := by
    rw [← hk]
    cases n <;> exact congrArg Record.primaryKey (Record.data_injective hdata.symm)
  exact h.setRow n hdata hk hk'

theorem deleteRecord (n : RowName) {sId : Int32} (hid : n.table K = .callForwarding (K.offset sId))
    (hid' : n.table K' = .callForwarding (K'.offset sId)) :
    Follows SameAnswer
      ((manager layout).deleteRecord
        (show (manager layout).Found (.callForwarding (K.offset sId)) from n.key)) s
      ((manager layout).deleteRecord
        (show (manager layout).Found (.callForwarding (K'.offset sId)) from n.key)) t
      (fun _ s _ t => Alike K K' s t) := by
  have herase := h.eraseRow n
  have hsome := h.isSome n
  rw [hid, hid'] at herase hsome
  exact KeyedStore.deleteRecord_follows rfl hsome (fun _ _ _ _ => herase)

end Alike

/-- Stores with different partitions follow each other. -/
def partitionSimulation (K K' : Constants) :
    Simulation SameAnswer (manager layout) K (manager layout) K' (Alike K K') where
  Same kind sId _ _ a b := SameName K K' kind sId a b
  selectRecord hsel h := h.selectRecord hsel
  getColumn h hsame column := by
    obtain ⟨rfl, n, hid, hid', rfl⟩ := hsame
    exact h.getColumn n column hid hid'
  updateRecord {kind sId params s t a b} h hsame hover := by
    obtain ⟨rfl, n, hid, hid', rfl⟩ := hsame
    refine h.updateRecord n hid hid' ?_
    rw [hid]
    cases hover with
    | vlrLocation vlrLocation => exact ⟨33, _, rfl, (by decide : 33 ∈ [2, 33])⟩
    | bit1 bit1 => exact ⟨2, _, rfl, (by decide : 2 ∈ [2, 33])⟩
    | dataA dataA => exact ⟨4, _, rfl, (by decide : 4 ∈ [4])⟩
  deleteRecord h hsame := by
    obtain ⟨rfl, n, hid, hid', rfl⟩ := hsame
    exact h.deleteRecord n hid hid'
  insertRecord n e e' _ _ h he he' hdata hk := h.insertRecord n e e' he he' hdata hk

end ImdbD.Benchmark.TATP
