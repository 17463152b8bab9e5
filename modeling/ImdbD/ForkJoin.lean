import ImdbD.Footprint
import Mathlib.Data.List.Pairwise

/-!
# Threads that are spawned and joined

A main thread spawns threads, waits for them and acts on the shared state; the
actions of all running threads interleave in any order. Where threads that can
run at the same time have independent footprints, every interleaving ends in the
state that one gets by running each thread at once when it is spawned.
-/
namespace ImdbD.AtomicProgram
variable {σ θ L α β : Type}

/-- What the main thread does. Its own actions carry the name of their footprint. -/
inductive Script (σ θ : Type) : Type 1 where
  | done
  | spawn (id : θ) (thread : Program σ Unit) (rest : Script σ θ)
  | join (id : θ) (rest : Script σ θ)
  | act {α : Type} (id : θ) (action : Action σ α) (next : α → Script σ θ)

def Program.ended : Program σ α → Bool
  | .done _ => true
  | .step _ _ => false

/-- The main thread, the threads spawned and not yet joined in the order of their start, and the
shared state. -/
structure Config (σ θ : Type) where
  script : Script σ θ
  threads : List (θ × Program σ Unit)
  state : σ

/-- How many of the threads have not ended. -/
def running (threads : List (θ × Program σ Unit)) : ℕ :=
  (threads.filter (fun t => !t.2.ended)).length

/-- One step of one thread. A thread may move when `limit` allows it for the number of unfinished
threads before it: always for plain threads, below the number of workers in a pool. -/
inductive Step [DecidableEq θ] (limit : ℕ → Prop) : Config σ θ → Config σ θ → Prop where
  | spawn {id thread rest threads s} :
      Step limit ⟨.spawn id thread rest, threads, s⟩ ⟨rest, threads ++ [(id, thread)], s⟩
  | join {id rest threads s} (h : ∀ t ∈ threads, t.1 = id → t.2.ended) :
      Step limit ⟨.join id rest, threads, s⟩ ⟨rest, threads.filter (fun t => t.1 ≠ id), s⟩
  | act {α id threads s s'} {action : Action σ α} {next a} (h : action s = some (a, s')) :
      Step limit ⟨.act id action next, threads, s⟩ ⟨next a, threads, s'⟩
  | move {β script before id after s s'} {action : Action σ β} {next b}
      (hl : limit (running before)) (h : action s = some (b, s')) :
      Step limit ⟨script, before ++ (id, .step action next) :: after, s⟩
        ⟨script, before ++ (id, next b) :: after, s'⟩

/-- Some thread is at an action that fails. -/
inductive Faults : Config σ θ → Prop where
  | act {α id threads s} {action : Action σ α} {next} (h : action s = none) :
      Faults ⟨.act id action next, threads, s⟩
  | move {β script before id after s} {action : Action σ β} {next} (h : action s = none) :
      Faults ⟨script, before ++ (id, .step action next) :: after, s⟩

/-- All threads have come to their end. -/
def Finished (c : Config σ θ) : Prop := c.script = .done ∧ ∀ t ∈ c.threads, t.2.ended

inductive Runs [DecidableEq θ] (limit : ℕ → Prop) : ℕ → Config σ θ → Config σ θ → Prop where
  | nil {c} : Runs limit 0 c c
  | cons {n c c' c''} (h : Step limit c c') (hs : Runs limit n c' c'') : Runs limit (n + 1) c c''

theorem Runs.one [DecidableEq θ] {limit : ℕ → Prop} {c c' : Config σ θ} (h : Step limit c c') :
    Runs limit 1 c c' := .cons h .nil

theorem Runs.trans [DecidableEq θ] {limit : ℕ → Prop} {c c' c'' : Config σ θ} {j k : ℕ}
    (h : Runs limit j c c') (h' : Runs limit k c' c'') : Runs limit (j + k) c c'' := by
  induction h with
  | nil => simpa using h'
  | cons hstep _ ih =>
    rw [Nat.add_right_comm]
    exact .cons hstep (ih h')

/-- Every interleaving comes to an end, no action fails, and the end is the same state. -/
structure Determinate [DecidableEq θ] (limit : ℕ → Prop) (c : Config σ θ) (z : σ) : Prop where
  bounded : ∃ n, ∀ {k c'}, Runs limit k c c' → k ≤ n
  safe : ∀ {k c'}, Runs limit k c c' → ¬ Faults c'
  progress : ∀ {k c'}, Runs limit k c c' → Finished c' ∨ ∃ c'', Step limit c' c''
  result : ∀ {k c'}, Runs limit k c c' → Finished c' → c'.state = z

/-- Run alone, the program takes `n` actions from one state to the other. -/
def Program.Takes : Program σ Unit → σ → ℕ → σ → Prop
  | .done _, s, n, s' => n = 0 ∧ s' = s
  | .step action next, s, n, s' =>
    ∃ b s₁ m, action s = some (b, s₁) ∧ (next b).Takes s₁ m s' ∧ n = m + 1

/-- Run one after the other, the threads take `n` actions. -/
def ThreadsTake : List (θ × Program σ Unit) → σ → ℕ → σ → Prop
  | [], s, n, s' => n = 0 ∧ s' = s
  | t :: ts, s, n, s' => ∃ s₁ m k, t.2.Takes s m s₁ ∧ ThreadsTake ts s₁ k s' ∧ n = m + k

/-- With each thread run when it is spawned, the main thread takes `n` steps. -/
def Script.Takes : Script σ θ → σ → ℕ → σ → Prop
  | .done, s, n, s' => n = 0 ∧ s' = s
  | .spawn _ thread rest, s, n, s' =>
    ∃ s₁ m k, thread.Takes s m s₁ ∧ rest.Takes s₁ k s' ∧ n = m + k + 1
  | .join _ rest, s, n, s' => ∃ k, rest.Takes s k s' ∧ n = k + 1
  | .act _ action next, s, n, s' =>
    ∃ a s₁ k, action s = some (a, s₁) ∧ (next a).Takes s₁ k s' ∧ n = k + 1

theorem Program.takes_of_run {p : Program σ Unit} {s s' : σ} (h : p.run s = some ((), s')) :
    ∃ n, p.Takes s n s' := by
  induction p generalizing s with
  | done a =>
    cases h
    exact ⟨0, rfl, rfl⟩
  | step action next ih =>
    obtain ⟨⟨b, s₁⟩, h₁, h₂⟩ := Option.bind_eq_some_iff.mp h
    obtain ⟨m, hm⟩ := ih b h₂
    exact ⟨m + 1, b, s₁, m, h₁, hm, rfl⟩

/-- The main thread with each thread run when it is spawned. -/
def Script.runAlone : Script σ θ → σ → Option σ
  | .done, s => some s
  | .spawn _ thread rest, s => (thread.run s).bind (fun r => rest.runAlone r.2)
  | .join _ rest, s => rest.runAlone s
  | .act _ action next, s => (action s).bind (fun r => (next r.1).runAlone r.2)

theorem Script.takes_of_runAlone {m : Script σ θ} {s s' : σ} (h : m.runAlone s = some s') :
    ∃ n, m.Takes s n s' := by
  induction m generalizing s with
  | done =>
    cases h
    exact ⟨0, rfl, rfl⟩
  | spawn id thread rest ih =>
    obtain ⟨⟨u, s₁⟩, h₁, h₂⟩ := Option.bind_eq_some_iff.mp h
    obtain ⟨m, hm⟩ := Program.takes_of_run h₁
    obtain ⟨k, hk⟩ := ih h₂
    exact ⟨m + k + 1, s₁, m, k, hm, hk, rfl⟩
  | join id rest ih =>
    obtain ⟨k, hk⟩ := ih h
    exact ⟨k + 1, k, hk, rfl⟩
  | act id action next ih =>
    obtain ⟨⟨a, s₁⟩, h₁, h₂⟩ := Option.bind_eq_some_iff.mp h
    obtain ⟨k, hk⟩ := ih a h₂
    exact ⟨k + 1, a, s₁, k, h₁, hk, rfl⟩

/-- The steps left when all threads are run in the order of their start, and then the main thread. -/
def Config.Takes (c : Config σ θ) (n : ℕ) (z : σ) : Prop :=
  ∃ s₁ m k, ThreadsTake c.threads c.state m s₁ ∧ c.script.Takes s₁ k z ∧ n = m + k

/-- Whatever is spawned or done stays within its footprint and is independent of all that can run
beside it. -/
def Script.Safe [DecidableEq θ] (F : Places σ L) (foot : θ → Footprint L) : Script σ θ → List θ → Prop
  | .done, _ => True
  | .spawn id thread rest, live => thread.Within F (foot id) ∧
    (∀ i ∈ live, (foot i).Independent (foot id)) ∧ rest.Safe F foot (live ++ [id])
  | .join id rest, live => rest.Safe F foot (live.filter (fun i => i ≠ id))
  | .act id action next, live => action.Within F (foot id) ∧
    (∀ i ∈ live, (foot i).Independent (foot id)) ∧ ∀ a, (next a).Safe F foot live

structure Config.Safe [DecidableEq θ] (F : Places σ L) (foot : θ → Footprint L) (c : Config σ θ) : Prop where
  within : ∀ t ∈ c.threads, t.2.Within F (foot t.1)
  apart : c.threads.Pairwise (fun t u => (foot t.1).Independent (foot u.1))
  script : c.script.Safe F foot (c.threads.map Prod.fst)

variable {F : Places σ L} {foot : θ → Footprint L} {f g : Footprint L} {limit : ℕ → Prop}
  {c c' : Config σ θ} {n k : ℕ} {z s s₁ s₂ : σ} {threads before after : List (θ × Program σ Unit)}
  {id : θ} {action : Action σ α} {next : α → Program σ Unit} {a : α}

theorem Program.Takes.swap {p : Program σ Unit} (hp : p.Within F f) (ha : action.Within F g)
    (hi : f.Independent g) (h₁ : p.Takes s n s₁) (h₂ : action s₁ = some (a, s₂)) :
    ∃ t, action s = some (a, t) ∧ p.Takes t n s₂ := by
  induction p generalizing s n with
  | done u =>
    obtain ⟨rfl, rfl⟩ := h₁
    exact ⟨s₂, h₂, rfl, rfl⟩
  | step first rest ih =>
    obtain ⟨b, s', m, hfirst, hrest, rfl⟩ := h₁
    obtain ⟨t', ht', hrest'⟩ := ih b (hp.2 s b s' hfirst) hrest
    obtain ⟨t, ht, hfirst'⟩ := hp.1.swap ha hi hfirst ht'
    exact ⟨t, ht, b, t', m, hfirst', hrest', rfl⟩

theorem ThreadsTake.swap (hp : ∀ t ∈ threads, t.2.Within F (foot t.1)) (ha : action.Within F g)
    (hi : ∀ t ∈ threads, (foot t.1).Independent g) (h₁ : ThreadsTake threads s n s₁)
    (h₂ : action s₁ = some (a, s₂)) : ∃ t, action s = some (a, t) ∧ ThreadsTake threads t n s₂ := by
  induction threads generalizing s n with
  | nil =>
    obtain ⟨rfl, rfl⟩ := h₁
    exact ⟨s₂, h₂, rfl, rfl⟩
  | cons t ts ih =>
    obtain ⟨s', m, k, ht, hts, rfl⟩ := h₁
    obtain ⟨u', hu', hts'⟩ := ih (fun t' h => hp t' (List.mem_cons_of_mem t h))
      (fun t' h => hi t' (List.mem_cons_of_mem t h)) hts
    obtain ⟨u, hu, ht'⟩ := ht.swap (hp t List.mem_cons_self) ha (hi t List.mem_cons_self) hu'
    exact ⟨u, hu, u', m, k, ht', hts', rfl⟩

theorem threadsTake_append {ts us : List (θ × Program σ Unit)} :
    ThreadsTake (ts ++ us) s n s₂ ↔
      ∃ s₁ m k, ThreadsTake ts s m s₁ ∧ ThreadsTake us s₁ k s₂ ∧ n = m + k := by
  induction ts generalizing s n with
  | nil =>
    constructor
    · intro h
      exact ⟨s, 0, n, ⟨rfl, rfl⟩, h, by omega⟩
    · rintro ⟨s₁, m, k, ⟨rfl, rfl⟩, h, rfl⟩
      simpa using h
  | cons t ts ih =>
    constructor
    · rintro ⟨s', m, k, ht, hts, rfl⟩
      obtain ⟨s₁, m', k', h₁, h₂, rfl⟩ := ih.mp hts
      exact ⟨s₁, m + m', k', ⟨s', m, m', ht, h₁, rfl⟩, h₂, by omega⟩
    · rintro ⟨s₁, m, k, ⟨s', m', k', ht, h₁, rfl⟩, h₂, rfl⟩
      exact ⟨s', m', k' + k, ht, ih.mpr ⟨s₁, k', k, h₁, h₂, rfl⟩, by omega⟩

theorem takes_of_ended {p : Program σ Unit} (h : p.ended) : p.Takes s n s₁ ↔ n = 0 ∧ s₁ = s := by
  cases p with
  | done u => rfl
  | step first rest => cases h

/-- Threads that have ended take nothing. -/
theorem threadsTake_filter {p : θ × Program σ Unit → Bool}
    (hended : ∀ t ∈ threads, p t = false → t.2.ended) (h : ThreadsTake threads s n s₁) :
    ThreadsTake (threads.filter p) s n s₁ := by
  induction threads generalizing s n with
  | nil => exact h
  | cons t ts ih =>
    obtain ⟨s', m, k, ht, hts, rfl⟩ := h
    have hrest := ih (fun u hu => hended u (List.mem_cons_of_mem t hu)) hts
    cases hp : p t with
    | true =>
      rw [List.filter_cons_of_pos hp]
      exact ⟨s', m, k, ht, hrest, rfl⟩
    | false =>
      obtain ⟨rfl, rfl⟩ := (takes_of_ended (hended t List.mem_cons_self hp)).mp ht
      rw [List.filter_cons_of_neg (by simp [hp])]
      simpa using hrest

/-- The next action of any thread can be taken now, before the threads that were started earlier. -/
theorem ThreadsTake.move (hp : ∀ t ∈ before ++ (id, .step action next) :: after, t.2.Within F (foot t.1))
    (hi : (before ++ (id, .step action next) :: after).Pairwise
      (fun t u => (foot t.1).Independent (foot u.1)))
    (h : ThreadsTake (before ++ (id, .step action next) :: after) s n s₂) :
    ∃ b s' m, action s = some (b, s') ∧ ThreadsTake (before ++ (id, next b) :: after) s' m s₂ ∧
      n = m + 1 := by
  obtain ⟨s₁, m, k, hbefore, ⟨s', m', k', ⟨b, t, j, haction, hnext, rfl⟩, hafter, rfl⟩, rfl⟩ :=
    threadsTake_append.mp h
  have hmem : (id, Program.step action next) ∈ before ++ (id, .step action next) :: after := by simp
  have hapart := (List.pairwise_append.mp hi).2.2
  obtain ⟨u, hu, hbefore'⟩ := hbefore.swap
    (fun t ht => hp t (List.mem_append_left _ ht)) (hp _ hmem).1
    (fun t ht => hapart t ht _ List.mem_cons_self) haction
  exact ⟨b, u, m + (j + k'), hu,
    threadsTake_append.mpr ⟨t, m, j + k', hbefore', ⟨s', j, k', hnext, hafter, rfl⟩, rfl⟩, by omega⟩

/-- Either all threads have ended, or there is a first one that has not. -/
theorem first_running (threads : List (θ × Program σ Unit)) : (∀ t ∈ threads, t.2.ended) ∨
    ∃ before t after, threads = before ++ t :: after ∧ running before = 0 ∧ t.2.ended = false := by
  induction threads with
  | nil => exact Or.inl (fun t ht => (nomatch ht))
  | cons t ts ih =>
    cases ht : t.2.ended with
    | false => exact Or.inr ⟨[], t, ts, rfl, rfl, ht⟩
    | true =>
      rcases ih with hall | ⟨before, u, after, rfl, hb, hu⟩
      · refine Or.inl (fun u hu => ?_)
        rcases List.mem_cons.mp hu with rfl | hu
        · exact ht
        · exact hall u hu
      · refine Or.inr ⟨t :: before, u, after, rfl, ?_, hu⟩
        simpa [running, ht] using hb

/-- What a finished configuration still takes is nothing. -/
theorem Config.Takes.finished (h : c.Takes n z) (hf : Finished c) : c.state = z := by
  obtain ⟨script, threads, s⟩ := c
  obtain ⟨rfl, hended⟩ := hf
  obtain ⟨s₁, m, k, hthreads, ⟨rfl, rfl⟩, rfl⟩ := h
  have hnone := threadsTake_filter (p := fun _ => false) (fun t ht _ => hended t ht) hthreads
  have hnil : threads.filter (fun _ => false) = [] := by simp
  change ThreadsTake (threads.filter (fun _ => false)) s n z at hnone
  rw [hnil] at hnone
  exact hnone.2.symm

variable [DecidableEq θ]

/-- One step keeps the threads apart and leaves one step less to the same end. -/
theorem Config.Safe.step (hc : c.Safe F foot) (ht : c.Takes n z) (h : Step limit c c') :
    c'.Safe F foot ∧ ∃ m, c'.Takes m z ∧ n = m + 1 := by
  obtain ⟨hwithin, hapart, hscript⟩ := hc
  obtain ⟨s₁, m, k, hthreads, hrest, rfl⟩ := ht
  cases h with
  | spawn =>
    obtain ⟨hthread, hlive, hsafe⟩ := hscript
    obtain ⟨s', m', k', hm, hk, rfl⟩ := hrest
    refine ⟨⟨?_, ?_, ?_⟩, m + m' + k', ⟨s', m + m', k', ?_, hk, rfl⟩, by omega⟩
    · intro t hmem
      rcases List.mem_append.mp hmem with hmem | hmem
      · exact hwithin t hmem
      · rw [List.mem_singleton.mp hmem]
        exact hthread
    · refine List.pairwise_append.mpr ⟨hapart, List.pairwise_singleton _ _, ?_⟩
      intro t hmem u hu
      rw [List.mem_singleton.mp hu]
      exact hlive t.1 (List.mem_map_of_mem hmem)
    · simpa using hsafe
    · exact threadsTake_append.mpr ⟨s₁, m, m', hthreads, ⟨s', m', 0, hm, ⟨rfl, rfl⟩, rfl⟩, rfl⟩
  | @join id rest threads s hended =>
    obtain ⟨k', hk, rfl⟩ := hrest
    refine ⟨⟨?_, hapart.filter _, ?_⟩, m + k', ⟨s₁, m, k', ?_, hk, rfl⟩, by omega⟩
    · intro t hmem
      exact hwithin t (List.mem_filter.mp hmem).1
    · have hmap : (threads.filter (fun t => t.1 ≠ id)).map Prod.fst =
          (threads.map Prod.fst).filter (fun i => i ≠ id) := by
        rw [List.filter_map]
        rfl
      exact hmap ▸ hscript
    · refine threadsTake_filter (fun t hmem hp => hended t hmem ?_) hthreads
      simpa using hp
  | act haction =>
    obtain ⟨hact, hlive, hsafe⟩ := hscript
    obtain ⟨a, s', k', ha, hk, rfl⟩ := hrest
    obtain ⟨t, ht, hthreads'⟩ := hthreads.swap hwithin hact
      (fun t hmem => hlive t.1 (List.mem_map_of_mem hmem)) ha
    rw [haction] at ht
    cases ht
    exact ⟨⟨hwithin, hapart, hsafe _⟩, m + k', ⟨s', m, k', hthreads', hk, rfl⟩, by omega⟩
  | @move β script before id after s s' action next b hl haction =>
    obtain ⟨b', t, m', ht, hthreads', rfl⟩ := hthreads.move hwithin hapart
    rw [haction] at ht
    cases ht
    refine ⟨⟨?_, ?_, ?_⟩, m' + k, ⟨s₁, m', k, hthreads', hrest, rfl⟩, by omega⟩
    · intro t hmem
      rcases List.mem_append.mp hmem with hmem | hmem
      · exact hwithin t (List.mem_append_left _ hmem)
      · rcases List.mem_cons.mp hmem with rfl | hmem
        · exact (hwithin (id, .step action next) (by simp)).2 s b s' haction
        · exact hwithin t (List.mem_append_right _ (List.mem_cons_of_mem _ hmem))
    · rw [List.pairwise_append, List.pairwise_cons] at hapart ⊢
      refine ⟨hapart.1, hapart.2.1, fun t ht u hu => ?_⟩
      rcases List.mem_cons.mp hu with rfl | hu
      · exact hapart.2.2 t ht (id, .step action next) List.mem_cons_self
      · exact hapart.2.2 t ht u (List.mem_cons_of_mem _ hu)
    · simpa using hscript

theorem Config.Safe.not_faults (hc : c.Safe F foot) (ht : c.Takes n z) : ¬ Faults c := by
  obtain ⟨hwithin, hapart, hscript⟩ := hc
  obtain ⟨s₁, m, k, hthreads, hrest, rfl⟩ := ht
  rintro (h | h)
  · obtain ⟨hact, hlive, -⟩ := hscript
    obtain ⟨a, s', k', ha, -, -⟩ := hrest
    obtain ⟨t, ht, -⟩ := hthreads.swap hwithin hact
      (fun t hmem => hlive t.1 (List.mem_map_of_mem hmem)) ha
    simp [h] at ht
  · obtain ⟨b, t, m', ht, -, -⟩ := hthreads.move hwithin hapart
    simp [h] at ht

theorem Config.Safe.progress (hlimit : limit 0) (hc : c.Safe F foot) (ht : c.Takes n z) :
    Finished c ∨ ∃ c', Step limit c c' := by
  obtain ⟨script, threads, s⟩ := c
  obtain ⟨hwithin, hapart, hscript⟩ := hc
  obtain ⟨s₁, m, k, hthreads, hrest, rfl⟩ := ht
  rcases first_running threads with hall | ⟨before, ⟨id, p⟩, after, rfl, hb, hp⟩
  · cases script with
    | done => exact Or.inl ⟨rfl, hall⟩
    | spawn id thread rest => exact Or.inr ⟨_, .spawn⟩
    | join id rest => exact Or.inr ⟨_, .join (fun t ht _ => hall t ht)⟩
    | act id action next =>
      obtain ⟨a, s', k', ha, -, -⟩ := hrest
      obtain ⟨t, ht, -⟩ := hthreads.swap hwithin hscript.1
        (fun t hmem => hscript.2.1 t.1 (List.mem_map_of_mem hmem)) ha
      exact Or.inr ⟨_, .act ht⟩
  · cases p with
    | done u => cases hp
    | step action next =>
      obtain ⟨b, t, m', ht, -, -⟩ := hthreads.move hwithin hapart
      exact Or.inr ⟨_, .move (hb ▸ hlimit) ht⟩

theorem Config.Safe.runs (hc : c.Safe F foot) (ht : c.Takes n z) (h : Runs limit k c c') :
    c'.Safe F foot ∧ ∃ m, c'.Takes m z ∧ n = m + k := by
  induction h generalizing n with
  | nil => exact ⟨hc, n, ht, rfl⟩
  | cons hstep _ ih =>
    obtain ⟨hc', m, hm, rfl⟩ := hc.step ht hstep
    obtain ⟨hc'', m', hm', rfl⟩ := ih hc' hm
    exact ⟨hc'', m', hm', by omega⟩

/-- If running each thread at once when it is spawned comes to an end, then every interleaving does,
in the same state. -/
theorem determinate {script : Script σ θ} (hlimit : limit 0) (hsafe : script.Safe F foot [])
    (hrun : script.runAlone s = some z) : Determinate limit ⟨script, [], s⟩ z := by
  have hc : Config.Safe F foot ⟨script, [], s⟩ :=
    ⟨fun t ht => (nomatch ht), List.Pairwise.nil, hsafe⟩
  obtain ⟨n, hn⟩ := script.takes_of_runAlone hrun
  have ht : Config.Takes ⟨script, [], s⟩ n z := ⟨s, 0, n, ⟨rfl, rfl⟩, hn, by omega⟩
  refine ⟨⟨n, fun h => ?_⟩, fun h => ?_, fun h => ?_, fun h hf => ?_⟩
  all_goals obtain ⟨hc', m, hm, he⟩ := hc.runs ht h
  · omega
  · exact hc'.not_faults hm
  · exact hc'.progress hlimit hm
  · exact hm.finished hf

end ImdbD.AtomicProgram
