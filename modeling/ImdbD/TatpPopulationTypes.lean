import ImdbD.TatpAbstractMaps
import ImdbD.TatpPopulationShape

/-!
# The types that the populator draws

The populator calls `subArr` once for the access infos of all subscribers, once
for the facilities of each, and once for the call forwardings of each facility.
The arrays that it hands over are uninitialised, and no call writes to them.
-/
namespace ImdbD.Benchmark.TATP
open ByteMemory StorageEngine AtomicProgram TatpPopulator TatpUtil RandomGenerator

/-- What `startPopulate` draws for its arrays and finds in them, by the number of the subscriber
and of the facility counted from 0, beside all else that it draws. -/
structure Rolls where
  draws : Draws
  heap : ℕ → Int32
  aiDraw : ℕ → ℕ
  aiBuffer : Vector Int32 4
  sfDraw : ℕ → ℕ → ℕ
  sfBuffer : ℕ → Vector Int32 4
  startDraw : ℕ → ℕ → ℕ → ℕ
  startBuffer : ℕ → ℕ → Vector Int32 3

/-- The types that the loops over the rows find: those of the access infos, and for each subscriber
those of the facilities with the start times of each. -/
def Draws.withTypes (draws : Draws) (ai : List Int32)
    (types : List (List Int32 × List (List Int32))) : Draws :=
  { draws with
    aiTypes := ai
    sfTypes := fun sId => (types[toSize sId - 1]?.map Prod.fst).getD []
    startTimes := fun sId j => (types[toSize sId - 1]?.bind (fun held => held.2[j]?)).getD [] }

namespace Rolls
variable (R : Rolls)

/-- `subArr(arr, 4, 1, 4, ai_types, ai_types_len)`. -/
def aiCall : Option SubArr := subArr R.aiDraw R.heap [1, 2, 3, 4] 1 4 R.aiBuffer.toList

/-- `subArr(spe_arr, 4, 1, 4, sf_types, sf_types_len)`. -/
def sfCall (n : ℕ) (speArr : List Int32) : Option SubArr :=
  subArr (R.sfDraw n) R.heap speArr 1 4 (R.sfBuffer n).toList

/-- `subArr(cal_arr, 3, 0, 3, start_times, start_times_length)`. -/
def startCall (n j : ℕ) (calArr : List Int32) : Option SubArr :=
  subArr (R.startDraw n j) R.heap calArr 0 3 (R.startBuffer n j).toList

/-- The first facilities of a subscriber: `cal_arr` behind them, and their start times. -/
def startLoop (n : ℕ) (calArr : List Int32) : ℕ → Option (List Int32 × List (List Int32))
  | 0 => some (calArr, [])
  | j + 1 => do
    let (arr, starts) ← startLoop n calArr j
    let r ← R.startCall n j arr
    return (r.arr, starts ++ [r.buffer.take r.subLen])

/-- The first subscribers: `spe_arr` and `cal_arr` behind them, and what each has got. -/
def sfLoop : ℕ → Option (List Int32 × List Int32 × List (List Int32 × List (List Int32)))
  | 0 => some ([1, 2, 3, 4], [0, 8, 6], [])
  | n + 1 => do
    let (speArr, calArr, types) ← sfLoop n
    let r ← R.sfCall n speArr
    let (cal, starts) ← R.startLoop n calArr r.subLen
    return (r.arr, cal, types ++ [(r.buffer.take r.subLen, starts)])

def typed : Option Draws := do
  let ai ← R.aiCall
  let (_, _, types) ← R.sfLoop R.draws.subscriberSize
  return R.draws.withTypes (ai.buffer.take ai.subLen) types

def startPopulate (K : Constants) : Program (SchemaTables TableId) Unit :=
  (Program.fetch R.typed) >>= TatpPopulator.startPopulate (SchemaTables.manager layout) K

def heldAi : List Int32 := R.aiBuffer.toList.take (generateInteger (R.aiDraw 0) 1 4)

def heldSf (n : ℕ) : List Int32 := (R.sfBuffer n).toList.take (generateInteger (R.sfDraw n 0) 1 4)

def heldStart (n j : ℕ) : List Int32 :=
  (R.startBuffer n j).toList.take (generateInteger (R.startDraw n j 0) 0 3)

variable {R} {n j : ℕ} {arr : List Int32}

private theorem length_heldAi : R.heldAi.length = generateInteger (R.aiDraw 0) 1 4 := by
  have hmem := generateInteger_mem (R.aiDraw 0) (show 1 ≤ 4 by decide)
  simp only [heldAi, List.length_take, Vector.length_toList]
  omega

theorem length_heldSf : (R.heldSf n).length = generateInteger (R.sfDraw n 0) 1 4 := by
  have hmem := generateInteger_mem (R.sfDraw n 0) (show 1 ≤ 4 by decide)
  simp only [heldSf, List.length_take, Vector.length_toList]
  omega

private theorem length_heldStart : (R.heldStart n j).length = generateInteger (R.startDraw n j 0) 0 3 := by
  have hmem := generateInteger_mem (R.startDraw n j 0) (show 0 ≤ 3 by decide)
  simp only [heldStart, List.length_take, Vector.length_toList]
  omega

private theorem aiCall_eq (R : Rolls) :
    ∃ r, R.aiCall = some r ∧ r.buffer.take r.subLen = R.heldAi := by
  obtain ⟨r, hr, hspec⟩ := subArr_spec R.aiDraw R.heap [1, 2, 3, 4] R.aiBuffer.toList
    (show 1 ≤ 4 by decide) (by decide)
  exact ⟨r, hr, by rw [hspec.buffer, hspec.subLen, heldAi]⟩

private theorem sfCall_eq (R : Rolls) (n : ℕ) (h : arr.length = 4) :
    ∃ r, R.sfCall n arr = some r ∧ r.arr.length = 4 ∧ r.subLen = (R.heldSf n).length ∧
      r.buffer.take r.subLen = R.heldSf n := by
  obtain ⟨r, hr, hspec⟩ := subArr_spec (R.sfDraw n) R.heap arr (R.sfBuffer n).toList
    (show 1 ≤ 4 by decide) (by omega)
  exact ⟨r, hr, hspec.perm.length_eq.trans h, hspec.subLen.trans length_heldSf.symm,
    by rw [hspec.buffer, hspec.subLen, heldSf]⟩

private theorem startCall_eq (R : Rolls) (n j : ℕ) (h : arr.length = 3) :
    ∃ r, R.startCall n j arr = some r ∧ r.arr.length = 3 ∧
      r.buffer.take r.subLen = R.heldStart n j := by
  obtain ⟨r, hr, hspec⟩ := subArr_spec (R.startDraw n j) R.heap arr (R.startBuffer n j).toList
    (show 0 ≤ 3 by decide) (by omega)
  exact ⟨r, hr, hspec.perm.length_eq.trans h, by rw [hspec.buffer, hspec.subLen, heldStart]⟩

private theorem startLoop_eq (R : Rolls) (n : ℕ) (h : arr.length = 3) (j : ℕ) :
    ∃ arr', R.startLoop n arr j = some (arr', (List.range j).map (R.heldStart n)) ∧
      arr'.length = 3 := by
  induction j with
  | zero => exact ⟨arr, rfl, h⟩
  | succ j ih =>
    obtain ⟨arr', hloop, hlen⟩ := ih
    obtain ⟨r, hr, hlen', hheld⟩ := R.startCall_eq n j hlen
    refine ⟨r.arr, ?_, hlen'⟩
    rw [startLoop, hloop]
    simp [hr, hheld, List.range_succ]

/-- What a subscriber finds in its arrays. -/
def held (R : Rolls) (n : ℕ) : List Int32 × List (List Int32) :=
  (R.heldSf n, (List.range (R.heldSf n).length).map (R.heldStart n))

private theorem sfLoop_eq (R : Rolls) (n : ℕ) :
    ∃ speArr calArr, speArr.length = 4 ∧ calArr.length = 3 ∧
      R.sfLoop n = some (speArr, calArr, (List.range n).map R.held) := by
  induction n with
  | zero => exact ⟨_, _, rfl, rfl, rfl⟩
  | succ n ih =>
    obtain ⟨speArr, calArr, hspe, hcal, hloop⟩ := ih
    obtain ⟨r, hr, hlen, hsub, hheld⟩ := R.sfCall_eq n hspe
    obtain ⟨cal, hstarts, hcal'⟩ := R.startLoop_eq n hcal r.subLen
    refine ⟨r.arr, cal, hlen, hcal', ?_⟩
    have htypes : (r.buffer.take r.subLen, (List.range r.subLen).map (R.heldStart n)) = R.held n := by
      rw [hheld, hsub, held]
    rw [sfLoop, hloop, List.range_succ, List.map_append, List.map_singleton, ← htypes]
    simp [hr, hstarts]

/-- The arrays of the types are what the uninitialised memory held. -/
theorem typed_eq (R : Rolls) : R.typed =
    some (R.draws.withTypes R.heldAi ((List.range R.draws.subscriberSize).map R.held)) := by
  obtain ⟨r, hr, hai⟩ := R.aiCall_eq
  obtain ⟨speArr, calArr, -, -, hloop⟩ := R.sfLoop_eq R.draws.subscriberSize
  rw [typed, hr, hloop, ← hai]
  rfl

/-- What the arrays of a subscriber held was distinct and in range by chance. -/
structure Fortunate (R : Rolls) (n : ℕ) : Prop where
  ai : (R.heldAi.map Int32.toInt8).Nodup ∧ ∀ a ∈ R.heldAi.map Int32.toInt8, 1 ≤ a ∧ a ≤ 4
  sf : ((R.heldSf n).map Int32.toInt8).Nodup ∧ ∀ a ∈ (R.heldSf n).map Int32.toInt8, 1 ≤ a ∧ a ≤ 4
  start : ∀ j < generateInteger (R.sfDraw n 0) 1 4, ((R.heldStart n j).map Int32.toInt8).Nodup ∧
    ∀ a ∈ (R.heldStart n j).map Int32.toInt8, a ∈ [0, 8, 16]

theorem typesWell_iff {types : List Int32} {draw : ℕ} (h : types.length = generateInteger draw 1 4) :
    TypesWell (types.map Int32.toInt8) ↔
      (types.map Int32.toInt8).Nodup ∧ ∀ a ∈ types.map Int32.toInt8, 1 ≤ a ∧ a ≤ 4 := by
  obtain ⟨hmin, hmax⟩ := generateInteger_mem draw (show 1 ≤ 4 by decide)
  rw [TypesWell, List.length_map, h]
  exact ⟨fun hwell => hwell.2.2, fun hwell => ⟨hmin, hmax, hwell⟩⟩

private theorem startsWell_iff {starts : List Int32} {draw : ℕ}
    (h : starts.length = generateInteger draw 0 3) :
    StartsWell (starts.map Int32.toInt8) ↔
      (starts.map Int32.toInt8).Nodup ∧ ∀ a ∈ starts.map Int32.toInt8, a ∈ [0, 8, 16] := by
  have hmax := (generateInteger_mem draw (show 0 ≤ 3 by decide)).2
  rw [StartsWell, List.length_map, h]
  exact ⟨fun hwell => hwell.2, fun hwell => ⟨hmax, hwell⟩⟩

/-- The draws of a run with the arrays as they were. -/
abbrev drawn (R : Rolls) : Draws :=
  R.draws.withTypes R.heldAi ((List.range R.draws.subscriberSize).map R.held)

private theorem sfTypes_drawn {sId : Int32} (h : toSize sId = n + 1) (hn : n < R.draws.subscriberSize) :
    R.drawn.sfTypes sId = R.heldSf n := by
  simp [drawn, Draws.withTypes, h, hn, held]

private theorem startTimes_drawn {sId : Int32} (h : toSize sId = n + 1) (hn : n < R.draws.subscriberSize)
    (hj : j < (R.heldSf n).length) : R.drawn.startTimes sId j = R.heldStart n j := by
  simp [drawn, Draws.withTypes, h, hn, held, hj]

theorem suits_iff {sId : Int32} (h : toSize sId = n + 1) (hn : n < R.draws.subscriberSize) :
    R.drawn.Suits sId ↔ R.Fortunate n := by
  have hsf : R.drawn.sfTypes sId = R.heldSf n := sfTypes_drawn h hn
  have hmem : ∀ j, (∃ a, (a, j) ∈ (R.heldSf n).zipIdx) ↔ j < generateInteger (R.sfDraw n 0) 1 4 := by
    intro j
    rw [← length_heldSf]
    constructor
    · rintro ⟨a, ha⟩
      have hget := List.mem_zipIdx_iff_getElem?.mp ha
      exact (List.getElem?_eq_some_iff.mp hget).1
    · intro hj
      exact ⟨(R.heldSf n)[j], List.mem_zipIdx_iff_getElem?.mpr (List.getElem?_eq_getElem hj)⟩
  constructor
  · intro hsuits
    refine ⟨(typesWell_iff length_heldAi).mp hsuits.aiTypes,
      (typesWell_iff length_heldSf).mp (hsf ▸ hsuits.sfTypes), fun j hj => ?_⟩
    obtain ⟨a, ha⟩ := (hmem j).mpr hj
    have hstart := hsuits.startTimes (a, j) (hsf ▸ ha)
    rw [startTimes_drawn h hn (by rwa [length_heldSf])] at hstart
    exact (startsWell_iff length_heldStart).mp hstart
  · intro hfortunate
    refine ⟨(typesWell_iff length_heldAi).mpr hfortunate.ai,
      hsf ▸ (typesWell_iff length_heldSf).mpr hfortunate.sf, fun sf hmemsf => ?_⟩
    have hj := (hmem sf.2).mp ⟨sf.1, hsf ▸ hmemsf⟩
    rw [startTimes_drawn h hn (by rwa [length_heldSf])]
    exact (startsWell_iff length_heldStart).mpr (hfortunate.start sf.2 hj)

private theorem toSize_sId {n : ℕ} (draws : Draws) (hn : n < draws.subscriberSize) :
    toSize (Int32.ofNat (n + 1)) = n + 1 := by
  have hsize := draws.size_lt
  rw [toSize, Int32.toInt_ofNat_of_lt (by omega)]
  omega

private theorem forall_suits_iff (R : Rolls) : (∀ sId ∈ sIds R.drawn, R.drawn.Suits sId) ↔
    ∀ n < R.draws.subscriberSize, R.Fortunate n := by
  constructor
  · intro h n hn
    exact (suits_iff (toSize_sId R.draws hn) hn).mp
      (h _ (List.mem_map_of_mem (List.mem_range.mpr hn)))
  · intro h sId hsId
    obtain ⟨n, hn, rfl⟩ := List.mem_map.mp hsId
    have hn := List.mem_range.mp hn
    exact (suits_iff (toSize_sId R.draws hn) hn).mpr (h n hn)

theorem run_startPopulate (K : Constants) (R : Rolls) :
    ∃ t, (R.startPopulate K).run (init K) = some ((), t) ∧ Populated K R.drawn t := by
  obtain ⟨t, hrun, hpopulated⟩ := run_startPopulate_filled K R.drawn
  refine ⟨t, ?_, hpopulated⟩
  rw [startPopulate, typed_eq, Program.run_bind, Program.run_fetch]
  exact hrun

end Rolls

/-- The population succeeds, and it is as the benchmark describes it exactly when the arrays of
the populator happened to hold distinct types and times in range. -/
theorem populated_wellFormed_iff (K : Constants) (R : Rolls) :
    ∃ t, (R.startPopulate K).run (init K) = some ((), t) ∧
      (WellFormed K (sIds R.draws) t ↔ ∀ n < R.draws.subscriberSize, R.Fortunate n) := by
  obtain ⟨t, hrun, hpopulated⟩ := R.run_startPopulate K
  exact ⟨t, hrun, (wellFormed_iff_suits hpopulated).trans R.forall_suits_iff⟩

/-- One subscriber, two types drawn for each array, and arrays of zeros. -/
def zeroArrays : Rolls where
  draws := oneSubscriber
  heap _ := 0
  aiDraw _ := 1
  aiBuffer := .replicate 4 0
  sfDraw _ _ := 1
  sfBuffer _ := .replicate 4 0
  startDraw _ _ _ := 2
  startBuffer _ _ := .replicate 3 0

theorem zeroArrays_not_wellFormed :
    ∃ t, (zeroArrays.startPopulate partitioned).run (init partitioned) = some ((), t) ∧
      ¬ WellFormed partitioned (sIds zeroArrays.draws) t := by
  obtain ⟨t, hrun, hpopulated⟩ := zeroArrays.run_startPopulate partitioned
  refine ⟨t, hrun, fun hwell => ?_⟩
  have hsuits := (wellFormed_iff_suits hpopulated).mp hwell
  have hfortunate := zeroArrays.forall_suits_iff.mp hsuits 0 (by decide)
  exact absurd hfortunate.ai.1 (by decide)

end ImdbD.Benchmark.TATP
