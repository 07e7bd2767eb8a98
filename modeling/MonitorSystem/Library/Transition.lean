import Mathlib.Tactic

/-!
# Deterministic labelled transition systems

A concurrent program is a partial function `step : S → E → Option S`: the event `e` names the
thread that moves and what it does, and `step s e = none` when that thread cannot make the move
in `s`.  An interleaving is then a list of events, and `run step s es` is the state it leads to
(`none` when some event of the list was not enabled).

* `run`, `run_append`: executions and their composition;
* `run_invariant`: an invariant preserved by every step holds after every run;
* `run_project`: the run of a component;
* `run_rel`: a preorder respected by every step relates the two ends of every run;
* `Along P`: every step of a run meets the condition `P`, and `run_invariant_along` for
  invariants that only such steps preserve;
* `run_bad`: a run that leaves `P` somewhere carries every consequence of leaving it that later
  steps keep;
* `holds_update`, `holds_of_update`: what a step of thread `j` does to the local states of all
  threads.
-/

namespace Transition

variable {S E : Type*} (step : S → E → Option S)

/-- Execute a list of events. -/
def run (s : S) : List E → Option S
  | [] => some s
  | e :: es => (step s e).bind fun t => run t es

@[simp] theorem run_nil (s : S) : run step s [] = some s := rfl

theorem run_cons (s : S) (e : E) (es : List E) :
    run step s (e :: es) = (step s e).bind fun t => run step t es := rfl

theorem run_append (s : S) (es fs : List E) :
    run step s (es ++ fs) = (run step s es).bind fun t => run step t fs := by
  induction es generalizing s with
  | nil => rfl
  | cons e es ih =>
    rw [List.cons_append, run_cons, run_cons]
    cases step s e with
    | none => rfl
    | some t => exact ih t

variable {step}

theorem run_cons_eq_some {s s' : S} {e : E} {es : List E} :
    run step s (e :: es) = some s' ↔ ∃ t, step s e = some t ∧ run step t es = some s' := by
  rw [run_cons, Option.bind_eq_some_iff]

theorem run_append_eq_some {s s' : S} {es fs : List E} :
    run step s (es ++ fs) = some s' ↔ ∃ t, run step s es = some t ∧ run step t fs = some s' := by
  rw [run_append, Option.bind_eq_some_iff]

/-- A run in which `e` occurs, cut before its first occurrence. -/
theorem exists_first {s s' : S} {e : E} {es : List E} (h : run step s es = some s')
    (he : e ∈ es) : ∃ es₁ t es₂, es = es₁ ++ e :: es₂ ∧ e ∉ es₁ ∧
      run step s es₁ = some t ∧ run step t (e :: es₂) = some s' := by
  obtain ⟨es₁, es₂, rfl, hfirst⟩ := List.eq_append_cons_of_mem he
  obtain ⟨t, ht, hrest⟩ := run_append_eq_some.1 h
  exact ⟨es₁, t, es₂, rfl, hfirst, ht, hrest⟩

/-- A preorder that every step respects relates the two ends of a run. -/
theorem run_rel {R : S → S → Prop} (hrefl : ∀ s, R s s) (htrans : ∀ {a b c}, R a b → R b c → R a c)
    (hstep : ∀ s e s', step s e = some s' → R s s') {s s' : S} {es : List E}
    (h : run step s es = some s') : R s s' := by
  induction es generalizing s with
  | nil => cases h; exact hrefl _
  | cons e es ih =>
    obtain ⟨t, ht, hrest⟩ := run_cons_eq_some.1 h
    exact htrans (hstep s e t ht) (ih hrest)

/-- An inductive invariant holds after every run. -/
theorem run_invariant {I : S → Prop} (hstep : ∀ s e s', I s → step s e = some s' → I s')
    {s s' : S} {es : List E} (h : run step s es = some s') (hs : I s) : I s' :=
  run_rel (R := fun a b => I a → I b) (fun _ => id) (fun h₁ h₂ => h₂ ∘ h₁)
    (fun s e s' he hi => hstep s e s' hi he) h hs

/-- A component of a system: each step of the system is a step of the component or leaves it
alone, and so a run of the system is a run of the component. -/
theorem run_project {S' E' : Type*} {step' : S' → E' → Option S'} (π : S → S') (ε : E → Option E')
    (hstep : ∀ s e s', step s e = some s' →
      (ε e).elim (π s' = π s) fun f => step' (π s) f = some (π s'))
    {s s' : S} {es : List E} (h : run step s es = some s') :
    run step' (π s) (es.filterMap ε) = some (π s') := by
  induction es generalizing s with
  | nil =>
    cases h
    rfl
  | cons e es ih =>
    obtain ⟨t, ht, hrest⟩ := run_cons_eq_some.1 h
    have hproj := hstep s e t ht
    cases hε : ε e with
    | none =>
      rw [hε] at hproj
      rw [List.filterMap_cons_none hε, ← show π t = π s from hproj]
      exact ih hrest
    | some f =>
      rw [hε] at hproj
      rw [List.filterMap_cons_some hε, run_cons_eq_some]
      exact ⟨π t, hproj, ih hrest⟩

/-! ### Runs whose steps all meet a condition -/

/-- Every step of the run of `es` from `s` meets `P`. -/
def Along (step : S → E → Option S) (P : S → E → Prop) (s : S) : List E → Prop
  | [] => True
  | e :: es => P s e ∧ ∀ t, step s e = some t → Along step P t es

variable {P : S → E → Prop}

theorem along_cons_iff {s t : S} {e : E} {es : List E} (ht : step s e = some t) :
    Along step P s (e :: es) ↔ P s e ∧ Along step P t es := by
  refine and_congr_right fun _ => ⟨fun h => h t ht, fun h u hu => ?_⟩
  obtain rfl : t = u := Option.some.inj (ht.symm.trans hu)
  exact h

/-- A decidable condition can be checked along a run. -/
instance decidableAlong [∀ s e, Decidable (P s e)] :
    (s : S) → (es : List E) → Decidable (Along step P s es)
  | _, [] => isTrue trivial
  | s, e :: es =>
    have : Decidable (∀ t, step s e = some t → Along step P t es) :=
      match step s e with
      | none => isTrue nofun
      | some u =>
        have := decidableAlong u es
        decidable_of_iff (Along step P u es)
          ⟨fun h _ ht => Option.some.inj ht ▸ h, fun h => h u rfl⟩
    inferInstanceAs (Decidable (_ ∧ _))

/-- A condition on events alone holds along a run when it holds of each of its events. -/
theorem along_of_forall {Q : E → Prop} {es : List E} (h : ∀ e ∈ es, Q e) (s : S) :
    Along step (fun _ e => Q e) s es := by
  induction es generalizing s with
  | nil => trivial
  | cons e es ih =>
    exact ⟨h e List.mem_cons_self, fun t _ => ih (fun f hf => h f (List.mem_cons_of_mem e hf)) t⟩

theorem Along.and {Q : S → E → Prop} {s : S} {es : List E} (hP : Along step P s es)
    (hQ : Along step Q s es) : Along step (fun s e => P s e ∧ Q s e) s es := by
  induction es generalizing s with
  | nil => trivial
  | cons e es ih => exact ⟨⟨hP.1, hQ.1⟩, fun t ht => ih (hP.2 t ht) (hQ.2 t ht)⟩

theorem along_congr {Q : S → E → Prop} (h : ∀ s e, P s e ↔ Q s e) (s : S) (es : List E) :
    Along step P s es ↔ Along step Q s es := by
  induction es generalizing s with
  | nil => rfl
  | cons e es ih => exact and_congr (h s e) (forall₂_congr fun t _ => ih t)

/-- An invariant that the steps meeting `P` preserve holds after every run made of such steps. -/
theorem run_invariant_along {I : S → Prop}
    (hstep : ∀ s e s', I s → P s e → step s e = some s' → I s')
    {s s' : S} {es : List E} (h : run step s es = some s') (hP : Along step P s es) (hs : I s) :
    I s' := by
  induction es generalizing s with
  | nil => cases h; exact hs
  | cons e es ih =>
    obtain ⟨t, ht, hrest⟩ := run_cons_eq_some.1 h
    obtain ⟨hPe, hPrest⟩ := (along_cons_iff ht).1 hP
    exact ih hrest hPrest (hstep s e t hs hPe ht)

/-- A run that breaks `P` somewhere ends in `B`, when the breaking step enters `B` and no step
leaves it.  `I` is what is known of every state of the run. -/
theorem run_bad {I B : S → Prop} (hI : ∀ s e s', I s → step s e = some s' → I s')
    (henter : ∀ s e s', I s → ¬ P s e → step s e = some s' → B s')
    (hkeep : ∀ s e s', I s → B s → step s e = some s' → B s')
    {s s' : S} {es : List E} (h : run step s es = some s') (hs : I s)
    (hP : ¬ Along step P s es) : B s' := by
  induction es generalizing s with
  | nil => exact absurd trivial hP
  | cons e es ih =>
    obtain ⟨t, ht, hrest⟩ := run_cons_eq_some.1 h
    by_cases hPe : P s e
    · exact ih hrest (hI s e t hs ht) fun hal => hP ((along_cons_iff ht).2 ⟨hPe, hal⟩)
    · refine (run_invariant (I := fun u => I u ∧ B u) ?_ hrest
        ⟨hI s e t hs ht, henter s e t hs hPe ht⟩).2
      exact fun u e u' hu hstep => ⟨hI u e u' hu.1 hstep, hkeep u e u' hu.1 hu.2 hstep⟩

/-! ### The local states of a family of threads -/

section Threads

variable {ι σ : Type*} [DecidableEq ι] {Q : σ → Prop} {f : ι → σ} {i j : ι} {x : σ}

/-- A step of thread `j` that keeps `Q`, where it held, keeps it for every thread. -/
theorem holds_update (hj : Q (f j) → Q x) (hi : Q (f i)) : Q (Function.update f j x i) := by
  by_cases hij : i = j
  · subst hij
    rw [Function.update_self]
    exact hj hi
  · rwa [Function.update_of_ne hij]

/-- A step of thread `j` that does not enter `Q` brings no thread to it. -/
theorem holds_of_update (hj : Q x → Q (f j)) (hi : Q (Function.update f j x i)) : Q (f i) := by
  by_cases hij : i = j
  · subst hij
    rw [Function.update_self] at hi
    exact hj hi
  · rwa [Function.update_of_ne hij] at hi

end Threads

end Transition
