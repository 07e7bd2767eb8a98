import MonitorSystem.Worker.EbpfRates

/-!
# From packets to rates

The handlers of `net_stats.bpf.c` count packets in the map while `NetEbpfMonitor` reads it once for
each report.  Between two readings any handlers may take any steps, and a handler may wipe out what
others have counted.

For one counter of one interface the traffic that the handlers have accounted for is the upper end
of what the rates can add up to (`rates_within_traffic`): a record that was replaced makes the
worker report too little, never too much.
-/

namespace MonitorSystem

namespace NetEbpf

open CounterRates (allowed)
open Function (update update_self update_of_ne)
open Tally (tally tally_update)
open Transition (Along run run_append_eq_some run_invariant run_invariant_along run_rel)

variable {packets : List Packet}

/-! ### What the handlers account for -/

/-- What the handlers have done for a counter of an interface so far, as if no record were ever
replaced. -/
def counted (k : UInt32) (field : Field) (s : State packets) : ℕ :=
  tally (weight packets k field) s.pc

theorem weight_eq (k : UInt32) (field : Field) (i : Fin packets.length) (pc : HandlerPc) :
    weight packets k field i pc =
      if (packets.get i).ifindex = k then (packets.get i).counted field pc else 0 :=
  rfl

theorem weight_le_amount (k : UInt32) (field : Field) (i : Fin packets.length) (pc : HandlerPc) :
    weight packets k field i pc ≤ (packets.get i).amount field := by
  rw [weight_eq]
  split_ifs
  · cases pc <;> simp only [Packet.counted, amount_eq] <;> omega
  · exact Nat.zero_le _

/-- The handlers never do more than all packets ask for. -/
theorem counted_le (k : UInt32) (field : Field) (s : State packets) :
    counted k field s ≤ (packets.map (·.amount field)).sum := by
  unfold counted tally
  refine (Finset.sum_le_sum fun i _ => weight_le_amount k field i (s.pc i)).trans_eq ?_
  exact Fin.sum_univ_fun_getElem packets (·.amount field)

/-- A step of handler `i` that accounts for `n` more. -/
theorem counted_update (s : State packets) (field : Field) {i : Fin packets.length}
    {x : HandlerPc} {n : ℕ} (map : BpfMap UInt32 NetStats)
    (hcounted : (packets.get i).counted field (s.pc i) + n = (packets.get i).counted field x)
    (k : UInt32) :
    counted k field { s with map := map, pc := update s.pc i x } =
      counted k field s + if (packets.get i).ifindex = k then n else 0 := by
  have htally := tally_update (weight packets k field) s.pc i x
  rw [weight_eq, weight_eq] at htally
  show tally _ (update s.pc i x) = tally _ s.pc + _
  split_ifs at htally ⊢ <;> omega

/-- What a step does to a counter: it starts again with what the handler accounts for, or it grows
by no more than that. -/
theorem counter_step {s s' : State packets} {i : Fin packets.length}
    (h : step packets s i = some s') (k : UInt32) (field : Field) :
    counted k field s ≤ counted k field s' ∧ ∀ r' v', s'.map.record k = some (r', v') →
      (v'.get field).toNat + counted k field s ≤ counted k field s' ∨
      ∃ r v n, s.map.record k = some (r, v) ∧ v'.get field = v.get field + UInt64.ofNat n ∧
        counted k field s + n ≤ counted k field s' := by
  -- a record that is left alone
  have hkeep {r : ℕ} {v : NetStats} {t : ℕ} (hk : s.map.record k = some (r, v))
      (ht : counted k field s ≤ t) : ∃ r v' n, s.map.record k = some (r, v') ∧
        v.get field = v'.get field + UInt64.ofNat n ∧ counted k field s + n ≤ t :=
    ⟨r, v, 0, hk, by simp, by omega⟩
  cases move_of_step h with
  | filtered hpc _ =>
    have hnow := counted_update s field (x := .done) (n := packets[i].amount field)
      s.map (by rw [hpc]; exact Nat.zero_add _) k
    have hle := Nat.le_of_add_right_le hnow.ge
    exact ⟨hle, fun r' v' hk => .inr (hkeep hk hle)⟩
  | miss hpc _ =>
    have hnow := counted_update s field (x := .missed) (n := 0) s.map
      (by rw [hpc]; rfl) k
    have hle := Nat.le_of_add_right_le hnow.ge
    exact ⟨hle, fun r' v' hk => .inr (hkeep hk hle)⟩
  | @find r v hpc _ =>
    have hnow := counted_update s field (x := .hit r) (n := 0) s.map
      (by rw [hpc]; rfl) k
    have hle := Nat.le_of_add_right_le hnow.ge
    exact ⟨hle, fun r' v' hk => .inr (hkeep hk hle)⟩
  | install hpc =>
    have hnow := counted_update s field (x := .done) (n := packets[i].amount field)
      (s.map.updateElem packets[i].ifindex (newStats packets[i]))
      (by rw [hpc]; exact Nat.zero_add _) k
    have hle := Nat.le_of_add_right_le hnow.ge
    refine ⟨hle, fun r' v' hk => ?_⟩
    rcases BpfMap.record_updateElem_cases s.map packets[i].ifindex (newStats packets[i]) with
      hrecord | hrecord
    · simp only [hrecord] at hk
      by_cases hki : packets[i].ifindex = k
      · rw [hki, update_self] at hk
        cases hk
        rw [if_pos (show (packets.get i).ifindex = k from hki)] at hnow
        refine .inl ?_
        rw [hnow, get_newStats, UInt64.toNat_ofNat']
        have hmod := Nat.mod_le (packets[i].amount field) (2 ^ 64)
        omega
      · rw [update_of_ne (Ne.symm hki)] at hk
        exact .inr (hkeep hk hle)
    · simp only [hrecord] at hk
      exact .inr (hkeep hk hle)
  | @addBytes r hpc =>
    have hnow := counted_update s field (x := .bytesAdded r)
      (n := if field = packets[i].bytesField then packets[i].len.toNat else 0)
      (s.map.modify packets[i].ifindex r
        (NetStats.fetchAndAdd packets[i].bytesField packets[i].len.toUInt64))
      (by rw [hpc]; exact Nat.zero_add _) k
    have hle := Nat.le_of_add_right_le hnow.ge
    refine ⟨hle, fun r' v' hk => .inr ?_⟩
    obtain ⟨v, hv, rfl | ⟨rfl, rfl⟩⟩ := BpfMap.record_of_modify hk
    · exact hkeep hv hle
    · refine ⟨r', v, _, hv, ?_, hnow.ge⟩
      rw [NetStats.get_fetchAndAdd, toUInt64_len,
        if_pos (show (packets.get i).ifindex = packets[i].ifindex from rfl)]
      split_ifs <;> simp
  | @addPacket r hpc =>
    have hnow := counted_update s field (x := .done)
      (n := if field = packets[i].packetsField then 1 else 0)
      (s.map.modify packets[i].ifindex r (NetStats.fetchAndAdd packets[i].packetsField 1))
      (by rw [hpc]; exact (amount_eq _ _).symm) k
    have hle := Nat.le_of_add_right_le hnow.ge
    refine ⟨hle, fun r' v' hk => .inr ?_⟩
    obtain ⟨v, hv, rfl | ⟨rfl, rfl⟩⟩ := BpfMap.record_of_modify hk
    · exact hkeep hv hle
    · refine ⟨r', v, _, hv, ?_, hnow.ge⟩
      rw [NetStats.get_fetchAndAdd,
        if_pos (show (packets.get i).ifindex = packets[i].ifindex from rfl)]
      split_ifs <;> simp

/-- How a counter that was `x` in the state `s` stands now: it has started again since, or it has
grown, and in both cases no more than the handlers account for. -/
structure Grown (k : UInt32) (field : Field) (s : State packets) (x : ℕ) (t : State packets) :
    Prop where
  mono : counted k field s ≤ counted k field t
  counter : ∀ r w, t.map.record k = some (r, w) →
    (w.get field).toNat + counted k field s ≤ counted k field t ∨
    x ≤ (w.get field).toNat ∧ (w.get field).toNat + counted k field s ≤ x + counted k field t

variable {k : UInt32} {field : Field} {s t t' : State packets} {x : ℕ}

theorem Grown.toNat_le (h : Grown k field s x t) (hx : x ≤ counted k field s) {r : ℕ}
    {w : NetStats} (hw : t.map.record k = some (r, w)) :
    (w.get field).toNat ≤ counted k field t := by
  rcases h.counter r w hw with hnew | ⟨-, hold⟩ <;> omega

theorem grown_step (hfit : (packets.map (·.amount field)).sum < 2 ^ 64)
    (hx : x ≤ counted k field s) (ht : Grown k field s x t) {i : Fin packets.length}
    (h : step packets t i = some t') : Grown k field s x t' := by
  obtain ⟨hmono, hcounter⟩ := counter_step h k field
  refine ⟨ht.mono.trans hmono, fun r' w' hw' => ?_⟩
  rcases hcounter r' w' hw' with hnew | ⟨r, w, n, hw, hsum, hn⟩
  · have hle := ht.mono
    exact .inl (by omega)
  · -- the addition does not wrap around
    have hbound := ht.toNat_le hx hw
    have htotal := counted_le k field t'
    have hadd : (w'.get field).toNat = (w.get field).toNat + n := by
      rw [hsum, UInt64.toNat_add, UInt64.toNat_ofNat', Nat.mod_eq_of_lt (by omega : n < 2 ^ 64),
        Nat.mod_eq_of_lt (by omega)]
    rcases ht.counter r w hw with hnew | ⟨hge, hold⟩
    · exact .inl (by omega)
    · exact .inr ⟨by omega, by omega⟩

theorem grown_run (hfit : (packets.map (·.amount field)).sum < 2 ^ 64)
    (hx : x ≤ counted k field s) {schedule : List (Fin packets.length)}
    (h : run (step packets) s schedule = some t) (hs : Grown k field s x s) :
    Grown k field s x t :=
  run_invariant (fun _ _ _ ht hstep => grown_step hfit hx ht hstep) h hs

/-- In a reachable state a counter is not larger than what the handlers account for. -/
theorem counter_le_counted (hfit : (packets.map (·.amount field)).sum < 2 ^ 64)
    {schedule : List (Fin packets.length)} (h : run (step packets) {} schedule = some s) {r : ℕ}
    {v : NetStats} (hv : s.map.record k = some (r, v)) :
    (v.get field).toNat ≤ counted k field s :=
  (grown_run hfit (Nat.zero_le _) h ⟨le_rfl, nofun⟩).toNat_le (Nat.zero_le _) hv

/-- Between two readings a counter has grown by no more than the handlers account for, where a
counter that is smaller now counts from zero. -/
theorem allowed_le_counted (hfit : (packets.map (·.amount field)).sum < 2 ^ 64)
    {schedule schedule' : List (Fin packets.length)} (hs : run (step packets) {} schedule = some s)
    (ht : run (step packets) s schedule' = some t) {v w : NetStats}
    (hv : s.map.value k = some v) (hw : t.map.value k = some w) :
    allowed (v.get field) (w.get field) + counted k field s ≤ counted k field t := by
  obtain ⟨r, hv⟩ := BpfMap.value_eq_some.1 hv
  obtain ⟨r', hw⟩ := BpfMap.value_eq_some.1 hw
  have hgrown : Grown k field s (v.get field).toNat t := by
    refine grown_run hfit (counter_le_counted hfit hs hv) ht ⟨le_rfl, fun r₀ v₀ hv₀ => ?_⟩
    obtain rfl : v₀ = v := congrArg Prod.snd (Option.some.inj (hv₀.symm.trans hv))
    exact .inr ⟨le_rfl, le_rfl⟩
  rcases hgrown.counter r' w hw with hnew | ⟨hge, hold⟩
  · have hle := CounterRates.allowed_le (v.get field) (w.get field)
    omega
  · rw [allowed, if_pos (UInt64.le_iff_toNat_le.2 hge)]
    omega

/-! ### Handlers and readings -/

/-- The handlers take the steps `schedule 0` before the first reading, which finds the map of
`state 0`, and so on up to reading `n`. -/
structure Interleaved (packets : List Packet) (n : ℕ)
    (schedule : ℕ → List (Fin packets.length)) (state : ℕ → State packets) : Prop where
  start : run (step packets) {} (schedule 0) = some (state 0)
  next : ∀ i < n, run (step packets) (state i) (schedule (i + 1)) = some (state (i + 1))

/-- No handler wipes out a record. -/
structure Undisturbed (packets : List Packet) (n : ℕ)
    (schedule : ℕ → List (Fin packets.length)) (state : ℕ → State packets) : Prop where
  start : Along (step packets) (NoOverwrite packets) {} (schedule 0)
  next : ∀ i < n, Along (step packets) (NoOverwrite packets) (state i) (schedule (i + 1))

namespace Interleaved

variable {n : ℕ} {schedule : ℕ → List (Fin packets.length)} {state : ℕ → State packets}

theorem reachable (h : Interleaved packets n schedule state) {i : ℕ} (hi : i ≤ n) :
    ∃ all, run (step packets) {} all = some (state i) := by
  induction i with
  | zero => exact ⟨_, h.start⟩
  | succ i ih =>
    obtain ⟨all, hall⟩ := ih (by omega)
    exact ⟨all ++ schedule (i + 1), run_append_eq_some.2 ⟨state i, hall, h.next i hi⟩⟩

theorem counted_mono (h : Interleaved packets n schedule state) {i : ℕ} (hi : i < n) :
    counted k field (state i) ≤ counted k field (state (i + 1)) :=
  run_rel (R := fun s t => counted k field s ≤ counted k field t) (fun _ => le_rfl) le_trans
    (fun _ _ _ hstep => (counter_step hstep k field).1) (h.next i hi)

/-- Undisturbed, every counter is what the handlers account for. -/
theorem counts (h : Interleaved packets n schedule state) (hvalid : Valid packets)
    (hquiet : Undisturbed packets n schedule state) {i : ℕ} (hi : i ≤ n) :
    MapOk (state i) ∧ Counts (state i) := by
  have hpreserved : ∀ u j u', MapOk u ∧ Counts u → NoOverwrite packets u j →
      step packets u j = some u' → MapOk u' ∧ Counts u' := fun _ _ _ hu hno hstep =>
    ⟨mapOk_step hu.1 hstep, counts_step hvalid hu.1 hu.2 hno hstep⟩
  induction i with
  | zero => exact run_invariant_along hpreserved h.start hquiet.start ⟨mapOk_init, counts_init⟩
  | succ i ih =>
    exact run_invariant_along hpreserved (h.next i hi) (hquiet.next i hi) (ih (by omega))

end Interleaved

end NetEbpf

namespace NetEbpfMonitor

open CounterRates (allowed)
open CxxInt
open NetEbpf

variable {packets : List Packet} {n : ℕ} {schedule : ℕ → List (Fin packets.length)}
  {state : ℕ → NetEbpf.State packets} {calls : ℕ → Call} {key : UInt32} {name : String}
  {c : ℕ → NetStats} {field : Field}

section Turn

variable {i : ℕ} (htotal : (packets.map (·.amount field)).sum < 2 ^ 63)
  (h : Interleaved packets n schedule state)
  (hread : ∀ i ≤ n, ∃ stats, (state i).map.value key = some stats ∧
    stats.get field = (c i).get field)

include htotal h hread

/-- What a reading finds is no more than all traffic. -/
theorem toNat_lt (hi : i ≤ n) : ((c i).get field).toNat < 2 ^ 63 := by
  obtain ⟨all, hall⟩ := h.reachable hi
  obtain ⟨stats, hvalue, hget⟩ := hread i hi
  obtain ⟨r, hv⟩ := BpfMap.value_eq_some.1 hvalue
  have hle := (counter_le_counted (by omega) hall hv).trans (counted_le key field (state i))
  rw [← hget]
  exact hle.trans_lt htotal

/-- The growth of a turn is no more than what the handlers account for in between. -/
theorem growth_le_counted (hi : i < n) :
    allowed ((c i).get field) ((c (i + 1)).get field) + counted key field (state i) ≤
      counted key field (state (i + 1)) := by
  obtain ⟨all, hall⟩ := h.reachable hi.le
  obtain ⟨v, hv, hget⟩ := hread i hi.le
  obtain ⟨w, hw, hget'⟩ := hread (i + 1) hi
  rw [← hget, ← hget']
  exact allowed_le_counted (by omega) hall (h.next i hi) hv hw

/-- The rate of a turn is its growth for each second, cut, or nothing is passed on. -/
theorem turn_bounds (hpresent : Present calls n key name c) (hi : i < n) :
    let growth : ℤ := allowed ((c i).get field) ((c (i + 1)).get field)
    ratesAt calls key c (i + 1) field * elapsedMs calls i ≤ 1000 * growth ∧
      (1 ≤ elapsedMs calls i →
        1000 * growth < (ratesAt calls key c (i + 1) field + 1) * elapsedMs calls i) := by
  intro growth
  by_cases hms : 1 ≤ elapsedMs calls i
  · have hcurr := toNat_lt htotal h hread (i := i + 1) hi
    have hold := toNat_lt htotal h hread hi.le
    rw [hpresent.ratesAt_succ hi hms]
    exact (rate_bounds hcurr hold hms).imp_right fun hlt _ => hlt
  · rw [hpresent.ratesAt_succ_of_early hi hms, zero_mul]
    exact ⟨by positivity, fun h => absurd h hms⟩

/-- Undisturbed, what a reading finds is what the handlers have accounted for. -/
theorem toNat_eq_counted (hvalid : Valid packets) (hquiet : Undisturbed packets n schedule state)
    (hi : i ≤ n) : ((c i).get field).toNat = counted key field (state i) := by
  obtain ⟨stats, hvalue, hget⟩ := hread i hi
  obtain ⟨r, hv⟩ := BpfMap.value_eq_some.1 hvalue
  have hle := counted_le key field (state i)
  rw [← hget, (h.counts hvalid hquiet hi).2.counters key r stats hv field, UInt64.toNat_ofNat']
  exact Nat.mod_eq_of_lt (by unfold counted at hle; omega)

/-- And the growth of a turn is what the handlers account for in between. -/
theorem growth_eq_counted (hvalid : Valid packets)
    (hquiet : Undisturbed packets n schedule state) (hi : i < n) :
    (allowed ((c i).get field) ((c (i + 1)).get field) : ℤ) =
      counted key field (state (i + 1)) - counted key field (state i) := by
  have hmono : counted key field (state i) ≤ counted key field (state (i + 1)) :=
    h.counted_mono hi
  rw [← toNat_eq_counted htotal h hread hvalid hquiet hi.le,
    ← toNat_eq_counted htotal h hread hvalid hquiet hi] at hmono ⊢
  rw [allowed, if_pos (UInt64.le_iff_toNat_le.2 hmono), Nat.cast_sub hmono]

end Turn

/-- **No more than the traffic.**  Let any handlers run between the readings of a counter, with less
than `2 ^ 63` of traffic in all and less than `2 ^ 63 / 1000` of it between one reading and the
next.  No product overflows, and the rates that are reported for the counter, times the milliseconds
they are for, add up to no more than what the handlers have accounted for between the first reading
and the last.  If no record was wiped out and all readings are a millisecond apart, they fall short
of it by less than one for each second. -/
theorem rates_within_traffic (htotal : (packets.map (·.amount field)).sum < 2 ^ 63)
    (h : Interleaved packets n schedule state)
    (hturn : ∀ i < n,
      (counted key field (state (i + 1)) - counted key field (state i)) * 1000 < 2 ^ 63)
    (hpresent : Present calls n key name c)
    (hread : ∀ i ≤ n, ∃ stats, (state i).map.value key = some stats ∧
      stats.get field = (c i).get field) :
    let reported := ∑ i ∈ Finset.range n, ratesAt calls key c (i + 1) field * elapsedMs calls i
    let traffic : ℤ := counted key field (state n) - counted key field (state 0)
    (∀ i < n, InInt64 ((diff ((c (i + 1)).get field) ((c i).get field)).toInt * 1000)) ∧
      reported ≤ 1000 * traffic ∧
      ((∀ i < n, 1 ≤ elapsedMs calls i) → Valid packets → Undisturbed packets n schedule state →
        0 < n → 1000 * traffic < reported + ∑ i ∈ Finset.range n, elapsedMs calls i) := by
  intro reported traffic
  have htraffic : 1000 * traffic = ∑ i ∈ Finset.range n, 1000 *
      ((counted key field (state (i + 1)) : ℤ) - counted key field (state i)) := by
    rw [← Finset.mul_sum, Finset.sum_range_sub fun i => (counted key field (state i) : ℤ)]
  refine ⟨fun i hi => ?_, ?_, fun hms hvalid hquiet hn => ?_⟩
  · have hgrowth := Nat.le_sub_of_add_le (growth_le_counted htotal h hread hi)
    have hproduct := (Nat.mul_le_mul_right 1000 hgrowth).trans_lt (hturn i hi)
    rw [toInt_diff (toNat_lt htotal h hread hi) (toNat_lt htotal h hread hi.le)]
    exact_mod_cast inInt64_natCast hproduct
  · rw [htraffic]
    refine Finset.sum_le_sum fun i hi => ?_
    have hlt := Finset.mem_range.1 hi
    have hgrowth := growth_le_counted htotal h hread hlt
    obtain ⟨hle, -⟩ := turn_bounds htotal h hread hpresent hlt
    exact hle.trans (mul_le_mul_of_nonneg_left (by omega) (by norm_num))
  · rw [htraffic, ← Finset.sum_add_distrib]
    refine Finset.sum_lt_sum_of_nonempty (Finset.nonempty_range_iff.2 hn.ne') fun i hi => ?_
    have hlt := Finset.mem_range.1 hi
    obtain ⟨-, hcut⟩ := turn_bounds htotal h hread hpresent hlt
    have hlast := hcut (hms i hlt)
    rw [growth_eq_counted htotal h hread hvalid hquiet hlt] at hlast
    linarith

/-- The handler of one packet runs before the first reading, that of another one after it. -/
def oneEach (i : ℕ) : List (Fin twoPackets.length) :=
  if i = 0 then inTurn.take 2 else inTurn.drop 2

/-- The map at the readings. -/
def oneEachState : ℕ → NetEbpf.State twoPackets
  | 0 => (Transition.run (step twoPackets) {} (oneEach 0)).getD {}
  | i + 1 => (Transition.run (step twoPackets) (oneEachState i) (oneEach (i + 1))).getD {}

/-- Its counters. -/
def oneEachCounted (i : ℕ) : NetStats := if i = 0 then ⟨100, 1, 0, 0⟩ else ⟨200, 2, 0, 0⟩

/-- The readings, one second apart. -/
def oneEachCalls (i : ℕ) : Call :=
  { millionCalls i with
    entries := [(2, some (oneEachCounted i))]
    nodup := by simp }

theorem rates_within_traffic_oneEach :
    let reported := ∑ i ∈ Finset.range 1, ratesAt oneEachCalls 2 oneEachCounted (i + 1) .rcvBytes *
      elapsedMs oneEachCalls i
    let traffic : ℤ := counted 2 .rcvBytes (oneEachState 1) - counted 2 .rcvBytes (oneEachState 0)
    traffic = 100 ∧ reported ≤ 1000 * traffic ∧ 1000 * traffic < reported + 1000 := by
  have hinterleaved : Interleaved twoPackets 1 oneEach oneEachState := by
    refine ⟨rfl, fun i hi => ?_⟩
    obtain rfl := Nat.lt_one_iff.1 hi
    rfl
  have hpresent : Present oneEachCalls 1 2 "eth0" oneEachCounted :=
    ⟨by decide, by decide, rfl, fun _ _ => List.mem_singleton_self _⟩
  have hquiet : Undisturbed twoPackets 1 oneEach oneEachState := by
    refine ⟨by decide, fun i hi => ?_⟩
    obtain rfl := Nat.lt_one_iff.1 hi
    decide
  have hvalue : ∀ i ≤ 1, (oneEachState i).map.value 2 = some (oneEachCounted i) := by decide
  have hturn : ∀ i < 1, (counted 2 .rcvBytes (oneEachState (i + 1)) -
      counted 2 .rcvBytes (oneEachState i)) * 1000 < 2 ^ 63 := by decide
  obtain ⟨-, hle, hlt⟩ := rates_within_traffic (by decide) hinterleaved hturn
    hpresent fun i hi => ⟨_, hvalue i hi, rfl⟩
  exact ⟨by decide, hle, hlt (by decide) valid_twoPackets hquiet Nat.one_pos⟩

end NetEbpfMonitor

end MonitorSystem
