import MonitorSystem.Library.FifoLane
import MonitorSystem.Manager.Lifecycle

/-!
# The ingest pipeline

Queue `i`, consumer `i` and what consumer `i` has processed form a first-in first-out lane
(`laneOf`).  Each step of the pipeline acts on the lanes in one of two ways (`lanes_step`): a push
enqueues one call in the lane of its routing name, and every other step keeps the contents of all
lanes.  Conservation (`Accounts`) and order follow, for every interleaving and also when consumers
have died or `Stop` has been called.
-/

namespace MonitorSystem

namespace Pipeline

open Transition Function

variable {F : Type} {cfg : Config F}

/-- The call whose report the consumer has in hand, between `Pop` and the end of
`ProcessData`. -/
def ConsumerPc.current : ConsumerPc → Option ℕ
  | .processing c => some c
  | .unborn | .loopTest | .popping | .returned | .joined => none

/-- Queue `i` and its consumer. -/
def laneOf (s : State) (i : ℕ) : FifoLane ℕ where
  done := s.handled i
  current := (s.consumer i).current
  waiting := (s.queue i).queue

/-- Two states with the same queues, histories and reports in hand have the same lanes. -/
theorem laneOf_congr {s s' : State} (hq : ∀ j, (s'.queue j).queue = (s.queue j).queue)
    (hc : ∀ j, (s'.consumer j).current = (s.consumer j).current) (hh : s'.handled = s.handled)
    (j : ℕ) : laneOf s' j = laneOf s j := by
  simp only [laneOf, hq, hc, hh]

theorem current_update {s : State} {i : ℕ} {pc : ConsumerPc}
    (h : pc.current = (s.consumer i).current) (j : ℕ) :
    (update s.consumer i pc j).current = (s.consumer j).current := by
  by_cases hj : j = i
  · subst hj
    rw [update_self, h]
  · rw [update_of_ne hj]

theorem queue_update_stopped {s : State} {i : ℕ} (j : ℕ) :
    (update s.queue i (s.queue i).stopped j).queue = (s.queue j).queue := by
  by_cases hj : j = i
  · subst hj
    rw [update_self, SafeQueue.queue_stopped]
  · rw [update_of_ne hj]

/-- `Pop` takes the front of its own lane and leaves the others alone. -/
theorem lane_popValue {s : State} {i c : ℕ} {rest : List ℕ} (hi : s.consumer i = .popping)
    (hq : (s.queue i).queue = c :: rest) (j : ℕ) :
    (laneOf { s with
      queue := update s.queue i { s.queue i with queue := rest }
      consumer := update s.consumer i (.processing c) } j).contents = (laneOf s j).contents := by
  by_cases hj : j = i
  · subst hj
    refine FifoLane.Takes.contents_eq (x := c) ⟨?_, ?_, rfl, ?_⟩
    · simp [laneOf, hi, ConsumerPc.current]
    · simp [laneOf, hq]
    · simp [laneOf, ConsumerPc.current]
  · simp [laneOf, update_of_ne hj]

/-- Returning from `ProcessData` moves the report in hand to the processed ones. -/
theorem lane_done {s : State} {i c : ℕ} (hi : s.consumer i = .processing c) (j : ℕ) :
    (laneOf { s with
      consumer := update s.consumer i .loopTest
      handled := update s.handled i (s.handled i ++ [c]) } j).contents
      = (laneOf s j).contents := by
  by_cases hj : j = i
  · subst hj
    refine FifoLane.Finishes.contents_eq (x := c) ⟨?_, ?_, ?_, rfl⟩
    · simp [laneOf, hi, ConsumerPc.current]
    · simp [laneOf]
    · simp [laneOf, ConsumerPc.current]
  · simp [laneOf, update_of_ne hj]

/-- A push enqueues its call in one lane. -/
theorem lane_push {s : State} {i c : ℕ} {call : ℕ → CallPc} {pushed : List ℕ} (j : ℕ) :
    laneOf { s with
      queue := update s.queue i ((s.queue i).push c), call := call, pushed := pushed } j
      = if j = i then (laneOf s j).enqueue c else laneOf s j := by
  split_ifs with hj
  · subst hj
    simp [laneOf, FifoLane.enqueue]
  · simp [laneOf, update_of_ne hj]

/-- What a step does to the lanes: it pushes one call, or it keeps their contents and the list of
pushed calls. -/
theorem lanes_step {s s' : State} {e : Event} (hwf : WF cfg s) (h : step cfg s e = some s') :
    (∃ c i, s.call c = .begun ∧ cfg.route c = some i ∧ s'.pushed = s.pushed ++ [c] ∧
      s'.call = update s.call c .pushed ∧
      ∀ j, laneOf s' j = if j = i then (laneOf s j).enqueue c else laneOf s j) ∨
    (s'.pushed = s.pushed ∧ (∀ c, s'.call c = .pushed ∨ s'.call c = .returned ↔
        s.call c = .pushed ∨ s.call c = .returned) ∧
      ∀ j, (laneOf s' j).contents = (laneOf s j).contents) := by
  have keep : ∀ {t : State}, (∀ j, laneOf t j = laneOf s j) →
      ∀ j, (laneOf t j).contents = (laneOf s j).contents := fun ht j => by rw [ht]
  have calls : ∀ {c : ℕ} {pc : CallPc}, (pc = .pushed ∨ pc = .returned ↔
      s.call c = .pushed ∨ s.call c = .returned) → ∀ d, update s.call c pc d = .pushed ∨
      update s.call c pc d = .returned ↔ s.call d = .pushed ∨ s.call d = .returned :=
    fun hpc _ => ⟨holds_of_update (Q := fun pc => pc = CallPc.pushed ∨ pc = .returned) hpc.1,
      holds_update (Q := fun pc => pc = CallPc.pushed ∨ pc = .returned) hpc.2⟩
  cases move_of_step h with
  | push hc hi =>
    have hsize := hwf.size_eq (hwf.begun _ (by rw [hc]; nofun))
    rw [hsize] at hi
    exact .inl ⟨_, _, hc, hi, rfl, rfl, lane_push⟩
  | @pushNowhere c hc hi =>
    -- once calls begin, every report has a queue
    have hsize := hwf.size_eq (hwf.begun _ (by rw [hc]; nofun))
    obtain ⟨i, hroute, -⟩ := exists_routeIndex cfg.hash cfg.threadCount_pos (cfg.report c)
    rw [hsize, hroute] at hi
    cases hi
  | begin hc _ => exact .inr ⟨rfl, calls (by simp [hc]), fun _ => rfl⟩
  | ret hc => exact .inr ⟨rfl, calls (by simp [hc]), fun _ => rfl⟩
  | stopQueue _ _ =>
    exact .inr ⟨rfl, fun _ => Iff.rfl, keep (laneOf_congr queue_update_stopped (fun _ => rfl) rfl)⟩
  | spawn _ _ =>
    refine .inr ⟨rfl, fun _ => Iff.rfl, keep (laneOf_congr (fun _ => rfl) ?_ rfl)⟩
    exact current_update (by rw [(hwf.unborn _).2 le_rfl]; rfl)
  | join _ _ hc =>
    exact .inr ⟨rfl, fun _ => Iff.rfl,
      keep (laneOf_congr (fun _ => rfl) (current_update (by rw [hc]; rfl)) rfl)⟩
  | enter hi _ | leave hi _ | popStopped hi _ _ =>
    exact .inr ⟨rfl, fun _ => Iff.rfl,
      keep (laneOf_congr (fun _ => rfl) (current_update (by rw [hi]; rfl)) rfl)⟩
  | popValue hi hq => exact .inr ⟨rfl, fun _ => Iff.rfl, lane_popValue hi hq⟩
  | done hi => exact .inr ⟨rfl, fun _ => Iff.rfl, lane_done hi⟩
  | _ => exact .inr ⟨rfl, fun _ => Iff.rfl, fun _ => rfl⟩

/-- Only `done` completes a report. -/
theorem handled_of_step {s s' : State} {f : Event} (hf : ∀ i, f ≠ .done i)
    (h : step cfg s f = some s') : s'.handled = s.handled := by
  cases move_of_step h with
  | done _ => exact absurd rfl (hf _)
  | _ => rfl

/-- It completes the one that the consumer has in hand. -/
theorem handled_of_done {s s' : State} {i c : ℕ} (hi : s.consumer i = .processing c)
    (h : step cfg s (.done i) = some s') :
    s'.handled = update s.handled i (s.handled i ++ [c]) := by
  cases move_of_step h with
  | done hi' =>
    obtain rfl := ConsumerPc.processing.inj (hi.symm.trans hi')
    rfl

/-- A call leaves `pending` only when it begins. -/
theorem call_of_step {s s' : State} {f : Event} {c : ℕ}
    (h : step cfg s f = some s') (hc : s'.call c ≠ .pending) :
    s.call c ≠ .pending ∨ f = .begin c := by
  have hupd : ∀ {d : ℕ} {pc : CallPc}, s.call d ≠ .pending →
      update s.call d pc c ≠ .pending → s.call c ≠ .pending :=
    fun hd => holds_of_update (Q := (· ≠ CallPc.pending)) fun _ => hd
  cases move_of_step h with
  | @begin d _ _ =>
    by_cases hcd : c = d
    · exact .inr (by rw [hcd])
    · have hne : update s.call d .begun c ≠ .pending := hc
      rw [update_of_ne hcd] at hne
      exact .inl hne
  | push hd _ | pushNowhere hd _ | ret hd => exact .inl (hupd (by rw [hd]; nofun) hc)
  | _ => exact .inl hc

/-! ### Conservation -/

/-- The lanes hold exactly the pushed calls, each once and in the lane of its routing name. -/
structure Accounts (cfg : Config F) (s : State) : Prop where
  pushed_iff : ∀ c, c ∈ s.pushed ↔ s.call c = .pushed ∨ s.call c = .returned
  nodup : s.pushed.Nodup
  routed : ∀ i, ∀ c ∈ (laneOf s i).contents, cfg.route c = some i
  balance : (s.pushed : Multiset ℕ) =
    ∑ i ∈ Finset.range cfg.threadCount, ((laneOf s i).contents : Multiset ℕ)

theorem accounts_of_fresh {s : State} (hcall : s.call = fun _ => .pending)
    (hlane : ∀ i, (laneOf s i).contents = []) (hpushed : s.pushed = []) : Accounts cfg s where
  pushed_iff c := by simp [hcall, hpushed]
  nodup := by simp [hpushed]
  routed i c hc := by simp [hlane] at hc
  balance := by simp [hlane, hpushed]

theorem current_live (cfg : Config F) (i : ℕ) : ((live cfg).consumer i).current = none := by
  show (if i < cfg.threadCount then ConsumerPc.popping else .unborn).current = none
  split_ifs <;> rfl

theorem accounts_live (cfg : Config F) : Accounts cfg (live cfg) := by
  refine accounts_of_fresh rfl (fun i => ?_) rfl
  rw [FifoLane.contents, laneOf, current_live]
  rfl

/-- The route of a call is one of the queues. -/
theorem route_lt {c i : ℕ} (h : cfg.route c = some i) : i < cfg.threadCount := by
  obtain ⟨j, hj, hlt⟩ := exists_routeIndex cfg.hash cfg.threadCount_pos (cfg.report c)
  rw [Config.route, hj] at h
  cases h
  exact hlt

theorem accounts_step {s s' : State} {e : Event} (hwf : WF cfg s) (ha : Accounts cfg s)
    (h : step cfg s e = some s') : Accounts cfg s' := by
  rcases lanes_step hwf h with ⟨c, i, hc, hroute, hpushed, hcall, hlane⟩ | ⟨hpushed, hcall, hlane⟩
  · have hnew : c ∉ s.pushed := fun hmem => by simpa [hc] using (ha.pushed_iff c).1 hmem
    have hcontents : ∀ j, (laneOf s' j).contents =
        if j = i then (laneOf s j).contents ++ [c] else (laneOf s j).contents := by
      intro j
      rw [hlane]
      split_ifs
      · exact FifoLane.contents_enqueue _ _
      · rfl
    refine ⟨fun d => ?_, ?_, fun j d hd => ?_, ?_⟩
    · rw [hpushed, List.mem_append, ha.pushed_iff, hcall]
      by_cases hdc : d = c
      · subst hdc
        simp
      · simp [hdc]
    · rw [hpushed]
      exact List.nodup_append.2 ⟨ha.nodup, List.nodup_singleton c, by
        intro a ha' b hb
        rw [List.mem_singleton.1 hb]
        rintro rfl
        exact hnew ha'⟩
    · rw [hcontents] at hd
      split_ifs at hd with hj
      · rcases List.mem_append.1 hd with hd | hd
        · exact ha.routed j d hd
        · rw [List.mem_singleton.1 hd, hj, hroute]
      · exact ha.routed j d hd
    · have hmem : i ∈ Finset.range cfg.threadCount := Finset.mem_range.2 (route_lt hroute)
      rw [hpushed, ← Multiset.coe_add, ha.balance, ← Finset.add_sum_erase _ _ hmem,
        ← Finset.add_sum_erase _ _ hmem, hcontents, if_pos rfl, ← Multiset.coe_add,
        add_right_comm]
      congr 1
      refine Finset.sum_congr rfl fun j hj => ?_
      rw [hcontents, if_neg (Finset.ne_of_mem_erase hj)]
  · refine ⟨fun d => ?_, hpushed ▸ ha.nodup, fun j d hd => ?_, ?_⟩
    · rw [hpushed, ha.pushed_iff, hcall]
    · exact ha.routed j d (hlane j ▸ hd)
    · rw [hpushed, ha.balance]
      exact Finset.sum_congr rfl fun j _ => by rw [hlane]

theorem accounts_run {s s' : State} {es : List Event} (h : run (step cfg) s es = some s')
    (hwf : WF cfg s) (ha : Accounts cfg s) : Accounts cfg s' :=
  (run_invariant (I := fun t => WF cfg t ∧ Accounts cfg t)
    (fun _ _ _ ht hstep => ⟨wf_step ht.1 hstep, accounts_step ht.1 ht.2 hstep⟩) h ⟨hwf, ha⟩).2

/-! ### Order -/

/-- Lanes only grow at the end. -/
theorem lane_prefix_run {s s' : State} {es : List Event} (h : run (step cfg) s es = some s')
    (hwf : WF cfg s) (i : ℕ) : (laneOf s i).contents <+: (laneOf s' i).contents := by
  have hgrow : ∀ {t t' : State} {e : Event}, WF cfg t → step cfg t e = some t' →
      (laneOf t i).contents <+: (laneOf t' i).contents := by
    intro t t' e ht hstep
    rcases lanes_step ht hstep with ⟨c, j, -, -, -, -, hlane⟩ | ⟨-, -, hlane⟩
    · rw [hlane]
      split_ifs
      · rw [FifoLane.contents_enqueue]
        exact List.prefix_append _ _
      · exact List.prefix_rfl
    · rw [hlane]
  refine (run_invariant
    (I := fun t => WF cfg t ∧ (laneOf s i).contents <+: (laneOf t i).contents) ?_ h
    ⟨hwf, List.prefix_rfl⟩).2
  exact fun t e t' ht hstep => ⟨wf_step ht.1 hstep, ht.2.trans (hgrow ht.1 hstep)⟩

/-- A pushed call is in some lane. -/
theorem exists_lane_of_pushed {s : State} {c : ℕ} (ha : Accounts cfg s) (hc : c ∈ s.pushed) :
    ∃ i, c ∈ (laneOf s i).contents := by
  have hmem : c ∈ (s.pushed : Multiset ℕ) := hc
  rw [ha.balance, Multiset.mem_sum] at hmem
  obtain ⟨i, -, hi⟩ := hmem
  exact ⟨i, hi⟩

/-- A pushed call is in the lane of its route. -/
theorem mem_lane_of_pushed {s : State} {c i : ℕ} (ha : Accounts cfg s) (hc : c ∈ s.pushed)
    (hi : cfg.route c = some i) : c ∈ (laneOf s i).contents := by
  obtain ⟨j, hj⟩ := exists_lane_of_pushed ha hc
  have hij : some j = some i := (ha.routed j c hj).symm.trans hi
  cases hij
  exact hj

/-- A call in a lane has pushed. -/
theorem pushed_of_mem_lane {s : State} {c i : ℕ} (ha : Accounts cfg s)
    (hc : c ∈ (laneOf s i).contents) : c ∈ s.pushed := by
  have hi : i ∈ Finset.range cfg.threadCount := Finset.mem_range.2 (route_lt (ha.routed i c hc))
  have hmem : c ∈ (s.pushed : Multiset ℕ) := by
    rw [ha.balance]
    exact Multiset.mem_sum.2 ⟨i, hi, hc⟩
  exact hmem

/-- A lane holds a call at most once. -/
theorem lane_nodup {s : State} (ha : Accounts cfg s) (i : ℕ) : (laneOf s i).contents.Nodup := by
  by_cases hi : i < cfg.threadCount
  · have hle : ((laneOf s i).contents : Multiset ℕ) ≤ s.pushed := by
      rw [ha.balance]
      exact Finset.single_le_sum (fun _ _ => Multiset.zero_le _) (Finset.mem_range.2 hi)
    exact Multiset.coe_nodup.1 (Multiset.nodup_of_le hle (Multiset.coe_nodup.2 ha.nodup))
  · have hnil : (laneOf s i).contents = [] :=
      List.eq_nil_iff_forall_not_mem.2 fun c hc => hi (route_lt (ha.routed i c hc))
    rw [hnil]
    exact List.nodup_nil

/-- **The pipeline neither loses, duplicates nor reorders.**  In every run from the live manager,
for every hash, thread count and assignment of reports to calls: the calls that have pushed are
those processed, in hand or queued, each exactly once; and a report is processed only after every
report of the same routing name whose call had returned before its own call began. -/
theorem ingest_exact_and_ordered (cfg : Config F) {es : List Event} {s : State}
    (hrun : run (step cfg) (live cfg) es = some s) :
    (s.pushed : Multiset ℕ) = ∑ i ∈ Finset.range cfg.threadCount,
      ((s.handled i : Multiset ℕ) + ((s.consumer i).current.toList : Multiset ℕ) +
        ((s.queue i).queue : Multiset ℕ)) ∧
    s.pushed.Nodup ∧
    (∀ c, c ∈ s.pushed ↔ s.call c = .pushed ∨ s.call c = .returned) ∧
    ∀ es₁ es₂ s₁ c d, es = es₁ ++ es₂ → run (step cfg) (live cfg) es₁ = some s₁ →
      s₁.call c = .returned → s₁.call d = .pending →
      routingName (cfg.report c) = routingName (cfg.report d) →
      ∀ i, d ∈ s.handled i ∨ (s.consumer i).current = some d → c ∈ s.handled i := by
  have ha := accounts_run hrun (wf_live cfg) (accounts_live cfg)
  refine ⟨?_, ha.nodup, ha.pushed_iff, ?_⟩
  · rw [ha.balance]
    refine Finset.sum_congr rfl fun i _ => ?_
    simp only [FifoLane.contents, laneOf, ← Multiset.coe_add]
  · intro es₁ es₂ s₁ c d hes hrun₁ hc hd hname i hbegun
    subst hes
    obtain ⟨t, ht, hrest⟩ := run_append_eq_some.1 hrun
    obtain rfl : t = s₁ := Option.some.inj (ht.symm.trans hrun₁)
    have hwf₁ := wf_run hrun₁ (wf_live cfg)
    have ha₁ := accounts_run hrun₁ (wf_live cfg) (accounts_live cfg)
    -- the lane of `d` is the lane of `c`, and it held `c` but not `d` when `c` had returned
    have hdi : d ∈ (laneOf s i).contents := by
      rw [FifoLane.mem_contents]
      exact hbegun.elim Or.inl fun h => Or.inr (Or.inl h)
    have hroute : cfg.route c = some i :=
      (routeIndex_congr _ _ _ hname).trans (ha.routed i d hdi)
    have hold := mem_lane_of_pushed ha₁ ((ha₁.pushed_iff c).2 (.inr hc)) hroute
    have hnew : d ∉ (laneOf t i).contents := fun hmem => by
      have := (ha₁.pushed_iff d).1 (pushed_of_mem_lane ha₁ hmem)
      simp [hd] at this
    obtain ⟨new, hgrow⟩ := lane_prefix_run hrest hwf₁ i
    exact FifoLane.mem_done_of_earlier hgrow.symm hold hnew hbegun

/-- Two calls with the same report, one after the other, and the consumer of their queue. -/
def twoReports : List Event :=
  [.begin 0, .push 0, .ret 0, .begin 1, .push 1, .pop 0, .done 0, .test 0, .pop 0]

theorem ingest_twoReports :
    ∃ s, run (step fourThreads) (live fourThreads) twoReports = some s ∧ 0 ∈ s.handled 0 :=
  ⟨_, rfl, (ingest_exact_and_ordered fourThreads
    (show run (step fourThreads) (live fourThreads) twoReports = some _ from rfl)).2.2.2
    [.begin 0, .push 0, .ret 0] _ _ 0 1 rfl rfl rfl rfl rfl 0 (.inr rfl)⟩

end Pipeline

end MonitorSystem
