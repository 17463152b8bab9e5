import ImdbD.ForkJoin
import ImdbD.JobOrder
import ImdbD.Lists
import Mathlib.Data.List.Nodup

/-!
# Crews of threads

A main thread starts one thread for every bucket and later waits for all of
them. Crews that can be at work at the same time must stand beside each other.
-/
namespace ImdbD.AtomicProgram
variable {σ L ρ α : Type}

/-- Start the threads 0 to `n - 1` of a role. -/
def spawnAll (role : ρ) (n : ℕ) (body : ℕ → Program σ Unit) (rest : Script σ (ρ × ℕ)) :
    Script σ (ρ × ℕ) :=
  (List.range n).foldr (fun t rest => .spawn (role, t) (body t) rest) rest

/-- Wait for the threads 0 to `n - 1` of a role. -/
def joinAll (role : ρ) (n : ℕ) (rest : Script σ (ρ × ℕ)) : Script σ (ρ × ℕ) :=
  (List.range n).foldr (fun t rest => .join (role, t) rest) rest

/-- `xs.at(i)` in the main thread. -/
def Script.fetch {θ : Type} (id : θ) : Option α → (α → Script σ θ) → Script σ θ
  | some a, next => next a
  | none, _ => .act id (fun _ => (none : Option (Unit × σ))) (fun _ => .done)

/-- The threads of some roles; `size` tells how many there are of each. -/
def crews (size : ρ → ℕ) (roles : List ρ) : List (ρ × ℕ) :=
  roles.flatMap (fun role => (List.range (size role)).map (fun t => (role, t)))

@[simp] theorem mem_crews {size : ρ → ℕ} {roles : List ρ} {i : ρ × ℕ} :
    i ∈ crews size roles ↔ i.1 ∈ roles ∧ i.2 < size i.1 := by
  obtain ⟨role, t⟩ := i
  simp only [crews, List.mem_flatMap, List.mem_map, List.mem_range, Prod.mk.injEq]
  constructor
  · rintro ⟨r, hr, u, hu, rfl, rfl⟩
    exact ⟨hr, hu⟩
  · rintro ⟨hr, hu⟩
    exact ⟨role, hr, t, hu, rfl, rfl⟩

theorem nodup_crews {size : ρ → ℕ} {roles : List ρ} (h : roles.Nodup) : (crews size roles).Nodup := by
  refine List.nodup_flatMap.mpr ⟨fun role _ => List.nodup_range.map (fun _ _ he => (Prod.mk.inj he).2), ?_⟩
  refine h.imp (fun {r r'} hne => List.disjoint_left.mpr (fun i hi hi' => hne ?_))
  obtain ⟨t, -, rfl⟩ := List.mem_map.mp hi
  obtain ⟨t', -, he⟩ := List.mem_map.mp hi'
  exact (congrArg Prod.fst he).symm

theorem crews_cons (size : ρ → ℕ) (role : ρ) (roles : List ρ) :
    crews size (role :: roles) = crews size [role] ++ crews size roles := by
  simp [crews]

/-- Different threads of two roles have independent footprints. -/
def Beside (foot : ρ × ℕ → Footprint L) (role role' : ρ) : Prop :=
  ∀ t t', (role, t) ≠ (role', t') → (foot (role, t)).Independent (foot (role', t'))

theorem Beside.symm {foot : ρ × ℕ → Footprint L} {role role' : ρ} (h : Beside foot role role') :
    Beside foot role' role :=
  fun t t' hne => (h t' t (Ne.symm hne)).symm

@[simp] theorem runAlone_spawnAll (role : ρ) (n : ℕ) (body : ℕ → Program σ Unit)
    (rest : Script σ (ρ × ℕ)) (s : σ) : (spawnAll role n body rest).runAlone s =
      ((Program.each body (List.range n)).run s).bind (fun r => rest.runAlone r.2) := by
  unfold spawnAll
  induction List.range n generalizing s with
  | nil => rfl
  | cons t ts ih =>
    rw [List.foldr_cons, Script.runAlone, Program.run_each_cons, Option.bind_assoc]
    exact congrArg _ (funext fun r => ih r.2)

@[simp] theorem runAlone_joinAll (role : ρ) (n : ℕ) (rest : Script σ (ρ × ℕ)) (s : σ) :
    (joinAll role n rest).runAlone s = rest.runAlone s := by
  unfold joinAll
  induction List.range n with
  | nil => rfl
  | cons t ts ih => exact ih

theorem runAlone_fetch {θ : Type} (id : θ) (a : Option α) (next : α → Script σ θ) (s : σ) :
    (Script.fetch id a next).runAlone s = a.bind (fun a => (next a).runAlone s) := by
  cases a <;> rfl

/-- What one program of many does to the state. -/
def jobStep (f : α → Program σ Unit) (s : σ) (a : α) : Option σ := ((f a).run s).map Prod.snd

theorem jobStep_eq_some {f : α → Program σ Unit} {s s' : σ} {a : α} :
    jobStep f s a = some s' ↔ (f a).run s = some ((), s') := by
  rw [jobStep, Option.map_eq_some_iff]
  constructor
  · rintro ⟨⟨_, _⟩, hrun, rfl⟩
    exact hrun
  · exact fun hrun => ⟨_, hrun, rfl⟩

theorem run_each (f : α → Program σ Unit) (as : List α) (s : σ) :
    (Program.each f as).run s = (GuardedRun.run (jobStep f) s as).map (fun t => ((), t)) := by
  induction as generalizing s with
  | nil => rfl
  | cons a as ih =>
    rw [Program.run_each_cons, GuardedRun.run, jobStep]
    cases (f a).run s with
    | none => rfl
    | some r => exact ih r.2

/-- A loop whose rounds change nothing. -/
theorem run_each_same {f : α → Program σ Unit} {as : List α} {s : σ}
    (h : ∀ a ∈ as, (f a).run s = some ((), s)) : (Program.each f as).run s = some ((), s) := by
  induction as with
  | nil => rfl
  | cons a as ih =>
    rw [Program.run_each_cons, h a List.mem_cons_self, Option.bind_some]
    exact ih (fun b hb => h b (List.mem_cons_of_mem a hb))

/-- Programs with independent footprints can change places in a run. -/
theorem overtakes {F : Places σ L} {f g : Footprint L} {body : α → Program σ Unit} {a b : α}
    (ha : (body a).Within F f) (hb : (body b).Within F g) (hi : f.Independent g) :
    GuardedRun.Overtakes (jobStep body) (fun _ => True) a b := by
  intro s z _ h
  obtain ⟨t, ht, hz⟩ := Option.bind_eq_some_iff.mp h
  obtain ⟨⟨_, t'⟩, hrun, rfl⟩ := Option.map_eq_some_iff.mp ht
  obtain ⟨⟨_, z'⟩, hrun', rfl⟩ := Option.map_eq_some_iff.mp hz
  obtain ⟨u, hu, hz'⟩ := ha.run.swap hb.run hi hrun hrun'
  simp [jobStep, hu, hz']

section Safety
variable [DecidableEq ρ] {F : Places σ L} {foot : ρ × ℕ → Footprint L} {size : ρ → ℕ} {n : ℕ}
  {roles : List ρ} {role : ρ} {body : ℕ → Program σ Unit} {rest : Script σ (ρ × ℕ)}

/-- With fewer threads at work all the more. -/
theorem Script.Safe.mono {θ : Type} [DecidableEq θ] {foot : θ → Footprint L} {script : Script σ θ}
    {live live' : List θ} (h : script.Safe F foot live) (hsub : live' ⊆ live) :
    script.Safe F foot live' := by
  induction script generalizing live live' with
  | done => trivial
  | spawn id thread rest ih =>
    refine ⟨h.1, fun i hi => h.2.1 i (hsub hi), ih h.2.2 ?_⟩
    exact List.append_subset.mpr ⟨fun i hi => List.mem_append_left _ (hsub hi),
      List.subset_append_right _ _⟩
  | join id rest ih =>
    refine ih h (fun i hi => ?_)
    obtain ⟨hmem, hne⟩ := List.mem_filter.mp hi
    exact List.mem_filter.mpr ⟨hsub hmem, hne⟩
  | act id action next ih =>
    exact ⟨h.1, fun i hi => h.2.1 i (hsub hi), fun a => ih a (h.2.2 a) hsub⟩

/-- A crew joins those at work, beside all of them. -/
theorem safe_spawnAll (hsize : size role = n)
    (hwithin : ∀ t < n, (body t).Within F (foot (role, t)))
    (hbeside : ∀ r ∈ role :: roles, Beside foot r role) (hnew : role ∉ roles)
    (hrest : rest.Safe F foot (crews size (role :: roles))) :
    (spawnAll role n body rest).Safe F foot (crews size roles) := by
  have hts : ∀ ts : List ℕ, (∀ t ∈ ts, t < n) → ts.Nodup → ∀ live,
      (∀ i ∈ live, i.1 ∈ role :: roles ∧ ∀ t ∈ ts, i ≠ (role, t)) →
      rest.Safe F foot (live ++ ts.map (fun t => (role, t))) →
      (ts.foldr (fun t rest => .spawn (role, t) (body t) rest) rest).Safe F foot live := by
    intro ts
    induction ts with
    | nil =>
      intro _ _ live _ h
      simpa using h
    | cons t ts ih =>
      intro hlt hnodup live hlive h
      obtain ⟨hnot, hnodup⟩ := List.nodup_cons.mp hnodup
      refine ⟨hwithin t (hlt t List.mem_cons_self), fun i hi => ?_, ?_⟩
      · obtain ⟨hrole, hne⟩ := hlive i hi
        exact hbeside i.1 hrole i.2 t (hne t List.mem_cons_self)
      · refine ih (fun u hu => hlt u (List.mem_cons_of_mem t hu)) hnodup _ (fun i hi => ?_) ?_
        · rcases List.mem_append.mp hi with hi | hi
          · exact ⟨(hlive i hi).1, fun u hu => (hlive i hi).2 u (List.mem_cons_of_mem t hu)⟩
          · rw [List.mem_singleton.mp hi]
            refine ⟨List.mem_cons_self, fun u hu he => hnot ?_⟩
            obtain ⟨-, rfl⟩ := Prod.mk.inj he
            exact hu
        · simpa using h
  refine hts (List.range n) (fun t ht => List.mem_range.mp ht) List.nodup_range _ (fun i hi => ?_) ?_
  · obtain ⟨hmem, -⟩ := mem_crews.mp hi
    refine ⟨List.mem_cons_of_mem role hmem, fun t _ he => hnew ?_⟩
    rwa [he] at hmem
  · refine hrest.mono (fun i hi => ?_)
    rcases List.mem_append.mp hi with hi | hi
    · obtain ⟨hmem, hlt⟩ := mem_crews.mp hi
      exact mem_crews.mpr ⟨List.mem_cons_of_mem role hmem, hlt⟩
    · obtain ⟨t, ht, rfl⟩ := List.mem_map.mp hi
      exact mem_crews.mpr ⟨List.mem_cons_self, hsize ▸ List.mem_range.mp ht⟩

/-- A crew that is waited for is no longer at work. -/
theorem safe_joinAll (roles' : List ρ) (hsize : size role = n) (hroles : ∀ r ∈ roles, r ≠ role → r ∈ roles')
    (hrest : rest.Safe F foot (crews size roles')) :
    (joinAll role n rest).Safe F foot (crews size roles) := by
  have hts : ∀ (ts : List ℕ) live,
      (∀ i ∈ live, (i.1 = role ∧ i.2 ∈ ts) ∨ i ∈ crews size roles') →
      (ts.foldr (fun t rest => .join (role, t) rest) rest).Safe F foot live := by
    intro ts
    induction ts with
    | nil =>
      intro live hlive
      exact hrest.mono (fun i hi => (hlive i hi).resolve_left (fun h => (nomatch h.2)))
    | cons t ts ih =>
      intro live hlive
      refine ih _ (fun i hi => ?_)
      obtain ⟨hmem, hne⟩ := List.mem_filter.mp hi
      refine (hlive i hmem).imp_left (fun ⟨hrole, ht⟩ => ⟨hrole, ?_⟩)
      refine (List.mem_cons.mp ht).resolve_left (fun he => ?_)
      simp [← hrole, ← he] at hne
  refine hts _ _ (fun i hi => ?_)
  obtain ⟨hmem, hlt⟩ := mem_crews.mp hi
  by_cases hrole : i.1 = role
  · rw [hrole, hsize] at hlt
    exact Or.inl ⟨hrole, List.mem_range.mpr hlt⟩
  · exact Or.inr (mem_crews.mpr ⟨hroles _ hmem hrole, hlt⟩)

/-- What the main thread does stays within its footprint, beside all that are at work. -/
theorem safe_act {β : Type} {id : ρ × ℕ} {action : Action σ β} {next : β → Script σ (ρ × ℕ)}
    (hwithin : action.Within F (foot id)) (hbeside : ∀ r ∈ roles, r ≠ id.1 ∧ Beside foot r id.1)
    (hnext : ∀ a, (next a).Safe F foot (crews size roles)) :
    (Script.act id action next).Safe F foot (crews size roles) := by
  refine ⟨hwithin, fun i hi => ?_, hnext⟩
  obtain ⟨hne, hi⟩ := hbeside i.1 (mem_crews.mp hi).1
  exact hi i.2 id.2 (fun he => hne (congrArg Prod.fst he))

theorem safe_fetch {β : Type} {id : ρ × ℕ} {a : Option β} {next : β → Script σ (ρ × ℕ)}
    (hbeside : ∀ r ∈ roles, r ≠ id.1 ∧ Beside foot r id.1)
    (hnext : ∀ b, a = some b → (next b).Safe F foot (crews size roles)) :
    (Script.fetch id a next).Safe F foot (crews size roles) := by
  cases a with
  | none => exact safe_act ⟨fun h => (nomatch h), fun _ h => (nomatch h)⟩ hbeside (fun _ => trivial)
  | some b => exact hnext b rfl

end Safety
end ImdbD.AtomicProgram
