import ImdbD.ForkJoinCrews

/-!
# Barriers in a script

A part of a script that waits for all threads it has started is a barrier: every
run that comes to its end passes, behind the part, a configuration without
threads, which the part alone also reaches.
-/
namespace ImdbD.AtomicProgram
variable {σ θ ρ β : Type}

/-- The first script is the second one with `rest` behind it. Along all paths of it, started beside
the threads in the list, all threads have been waited for when `rest` begins. -/
inductive Script.Leads [DecidableEq θ] (rest : Script σ θ) :
    Script σ θ → Script σ θ → List θ → Prop
  | rest : Leads rest rest .done []
  | spawn {id thread p q live} (h : Leads rest p q (live ++ [id])) :
      Leads rest (.spawn id thread p) (.spawn id thread q) live
  | join {id p q live} (h : Leads rest p q (live.filter (fun i => i ≠ id))) :
      Leads rest (.join id p) (.join id q) live
  | act {α : Type} {id live} {action : Action σ α} {next next' : α → Script σ θ}
      (h : ∀ s a s', action s = some (a, s') → Leads rest (next a) (next' a) live) :
      Leads rest (.act id action next) (.act id action next') live

section Runs
variable [DecidableEq θ] {limit : ℕ → Prop} {c c' : Config σ θ} {j k : ℕ} {rest q : Script σ θ}
  {threads : List (θ × Program σ Unit)}

theorem map_fst_filter (threads : List (θ × Program σ Unit)) (id : θ) :
    (threads.filter (fun t => t.1 ≠ id)).map Prod.fst =
      (threads.map Prod.fst).filter (fun i => i ≠ id) := by
  rw [List.filter_map]
  rfl

/-- Before the barrier, the part alone takes the same step. -/
theorem Script.Leads.step (h : rest.Leads c.script q (c.threads.map Prod.fst))
    (hstep : Step limit c c') : (c = ⟨rest, [], c.state⟩ ∧ q = .done) ∨
      ∃ q', rest.Leads c'.script q' (c'.threads.map Prod.fst) ∧
        Step limit ⟨q, c.threads, c.state⟩ ⟨q', c'.threads, c'.state⟩ := by
  cases hstep with
  | @spawn id thread script threads s =>
    generalize hlive : threads.map Prod.fst = live at h
    cases h with
    | rest =>
      obtain rfl := List.map_eq_nil_iff.mp hlive
      exact Or.inl ⟨rfl, rfl⟩
    | spawn h =>
      refine Or.inr ⟨_, ?_, .spawn⟩
      rw [List.map_append, hlive]
      exact h
  | @join id script threads s hended =>
    generalize hlive : threads.map Prod.fst = live at h
    cases h with
    | rest =>
      obtain rfl := List.map_eq_nil_iff.mp hlive
      exact Or.inl ⟨rfl, rfl⟩
    | join h =>
      refine Or.inr ⟨_, ?_, .join hended⟩
      rw [map_fst_filter, hlive]
      exact h
  | @act α id threads s s' action next a haction =>
    generalize hlive : threads.map Prod.fst = live at h
    cases h with
    | rest =>
      obtain rfl := List.map_eq_nil_iff.mp hlive
      exact Or.inl ⟨rfl, rfl⟩
    | act h =>
      exact Or.inr ⟨_, hlive ▸ h s a s' haction, .act haction⟩
  | move hl haction =>
    refine Or.inr ⟨q, ?_, .move hl haction⟩
    simpa using h

/-- Every finished run has passed the barrier. -/
theorem Script.Leads.passes (h : rest.Leads c.script q (c.threads.map Prod.fst))
    (hruns : Runs limit k c c') (hdone : c'.script = .done) :
    ∃ j s, j ≤ k ∧ Runs limit j c ⟨rest, [], s⟩ ∧ Runs limit (k - j) ⟨rest, [], s⟩ c' ∧
      Runs limit j ⟨q, c.threads, c.state⟩ ⟨.done, [], s⟩ := by
  induction hruns generalizing q with
  | @nil c =>
    obtain ⟨script, threads, s⟩ := c
    obtain rfl : script = .done := hdone
    generalize hlive : threads.map Prod.fst = live at h
    cases h
    obtain rfl := List.map_eq_nil_iff.mp hlive
    exact ⟨0, s, Nat.le_refl 0, .nil, .nil, .nil⟩
  | @cons n c d c' hstep hrest ih =>
    rcases h.step hstep with ⟨hc, rfl⟩ | ⟨q', hd, hstep'⟩
    · refine ⟨0, c.state, Nat.zero_le _, hc ▸ .nil, hc ▸ .cons hstep hrest, ?_⟩
      rw [hc]
      exact .nil
    · obtain ⟨j, s, hj, hbefore, hafter, hpart⟩ := ih hd hdone
      refine ⟨j + 1, s, Nat.succ_le_succ hj, .cons hstep hbefore, ?_, .cons hstep' hpart⟩
      rw [Nat.add_sub_add_right]
      exact hafter

/-- What always ends the same has a run to the end. -/
theorem Determinate.exists_finished {z : σ} (h : Determinate limit c z) :
    ∃ k c', Runs limit k c c' ∧ Finished c' := by
  obtain ⟨n, hn⟩ := h.bounded
  have hlonger : ∀ m, (∃ k c', Runs limit k c c' ∧ Finished c') ∨ ∃ c', Runs limit m c c' := by
    intro m
    induction m with
    | zero => exact Or.inr ⟨c, .nil⟩
    | succ m ih =>
      rcases ih with hend | ⟨c', hruns⟩
      · exact Or.inl hend
      · rcases h.progress hruns with hfinished | ⟨c'', hstep⟩
        · exact Or.inl ⟨m, c', hruns, hfinished⟩
        · exact Or.inr ⟨c'', hruns.trans (.cons hstep .nil)⟩
  refine (hlonger (n + 1)).resolve_right ?_
  rintro ⟨c', hruns⟩
  exact absurd (hn hruns) (by omega)

end Runs

section Crews
variable [DecidableEq ρ] {rest p q : Script σ (ρ × ℕ)} {size : ρ → ℕ} {roles roles' : List ρ}
  {role : ρ} {n : ℕ} {body : ℕ → Program σ Unit}

theorem leads_spawnAll (size : ρ → ℕ) (roles : List ρ) (hsize : size role = n)
    (h : rest.Leads p q (crews size (roles ++ [role]))) :
    rest.Leads (spawnAll role n body p) (spawnAll role n body q) (crews size roles) := by
  have hts : ∀ (ts : List ℕ) live, rest.Leads p q (live ++ ts.map (fun t => (role, t))) →
      rest.Leads (ts.foldr (fun t rest => .spawn (role, t) (body t) rest) p)
        (ts.foldr (fun t rest => .spawn (role, t) (body t) rest) q) live := by
    intro ts
    induction ts with
    | nil =>
      intro live h
      simpa using h
    | cons t ts ih =>
      intro live h
      refine .spawn (ih _ ?_)
      simpa using h
  apply hts
  simpa [crews, hsize] using h

theorem filter_crews (roles : List ρ) (hsize : size role = n) :
    (crews size roles).filter (fun i => ∀ t ∈ List.range n, i ≠ (role, t)) =
      crews size (roles.filter (fun r => r ≠ role)) := by
  have hcrew : ∀ r, (crews size [r]).filter (fun i => ∀ t ∈ List.range n, i ≠ (role, t)) =
      if r ≠ role then crews size [r] else [] := by
    intro r
    split
    · refine List.filter_eq_self.mpr (fun i hi => decide_eq_true (fun t _ he => ‹r ≠ role› ?_))
      rw [← List.mem_singleton.mp (mem_crews.mp hi).1, he]
    · obtain rfl : r = role := not_not.mp ‹_›
      refine List.filter_eq_nil_iff.mpr (fun i hi hall => ?_)
      obtain ⟨hrole, hlt⟩ := mem_crews.mp hi
      rw [List.mem_singleton.mp hrole, hsize] at hlt
      refine of_decide_eq_true hall i.2 (List.mem_range.mpr hlt) ?_
      rw [← List.mem_singleton.mp hrole]
  induction roles with
  | nil => rfl
  | cons r roles ih =>
    rw [crews_cons size r roles, List.filter_append, ih, hcrew, List.filter_cons]
    by_cases hr : r = role
    · simp [hr]
    · simp only [ne_eq, hr, not_false_eq_true, if_true, decide_true]
      exact (crews_cons size r _).symm

theorem leads_joinAll (size : ρ → ℕ) (roles' : List ρ) (hsize : size role = n)
    (hroles : roles.filter (fun r => r ≠ role) = roles') (h : rest.Leads p q (crews size roles')) :
    rest.Leads (joinAll role n p) (joinAll role n q) (crews size roles) := by
  have hts : ∀ (ts : List ℕ) live,
      rest.Leads p q (live.filter (fun i => ∀ t ∈ ts, i ≠ (role, t))) →
      rest.Leads (ts.foldr (fun t rest => .join (role, t) rest) p)
        (ts.foldr (fun t rest => .join (role, t) rest) q) live := by
    intro ts
    induction ts with
    | nil =>
      intro live h
      simpa using h
    | cons t ts ih =>
      intro live h
      refine .join (ih _ ?_)
      simpa [List.filter_filter, Bool.and_comm] using h
  apply hts
  rw [filter_crews roles hsize, hroles]
  exact h

theorem leads_fetch {id : ρ × ℕ} {a : Option β} {next next' : β → Script σ (ρ × ℕ)}
    {live : List (ρ × ℕ)} (h : ∀ b, a = some b → rest.Leads (next b) (next' b) live) :
    rest.Leads (Script.fetch id a next) (Script.fetch id a next') live := by
  cases a with
  | none => exact .act (fun _ _ _ hnone => by cases hnone)
  | some b => exact h b rfl

end Crews
end ImdbD.AtomicProgram
