import MonitorSystem.Library.BpfMap
import MonitorSystem.Library.Tally
import MonitorSystem.Library.Transition

/-!
# The eBPF packet counters

`tc_ingress` and `tc_egress` run once for each packet, on any CPU, and share one map from
interfaces to counters.  A run of a handler is a lookup followed either by an update with a fresh
record, when the interface was not in the map, or by two atomic additions through the pointer that
the lookup returned.  Each of these is one step, and the steps of all handlers interleave.

The additions are safe in any order.  The first packets of an interface are not: two handlers that
both miss it each install a fresh record, and the later one wipes out what the earlier one
counted.  `counters_exact_iff` says that this is the only way to lose a packet.
-/

namespace MonitorSystem

namespace NetEbpf

open Transition Tally
open Function (update update_self update_of_ne)

/-- `struct net_stats`. -/
structure NetStats where
  rcvBytes : UInt64 := 0
  rcvPackets : UInt64 := 0
  sndBytes : UInt64 := 0
  sndPackets : UInt64 := 0
  deriving DecidableEq

/-- A field of `struct net_stats`. -/
inductive Field
  | rcvBytes
  | rcvPackets
  | sndBytes
  | sndPackets
  deriving DecidableEq

/-- Read a field. -/
def NetStats.get (stats : NetStats) : Field → UInt64
  | .rcvBytes => stats.rcvBytes
  | .rcvPackets => stats.rcvPackets
  | .sndBytes => stats.sndBytes
  | .sndPackets => stats.sndPackets

/-- `__sync_fetch_and_add` on a field. -/
def NetStats.fetchAndAdd (field : Field) (x : UInt64) (stats : NetStats) : NetStats :=
  match field with
  | .rcvBytes => { stats with rcvBytes := stats.rcvBytes + x }
  | .rcvPackets => { stats with rcvPackets := stats.rcvPackets + x }
  | .sndBytes => { stats with sndBytes := stats.sndBytes + x }
  | .sndPackets => { stats with sndPackets := stats.sndPackets + x }

theorem NetStats.get_fetchAndAdd (stats : NetStats) (field other : Field) (x : UInt64) :
    (stats.fetchAndAdd field x).get other =
      if other = field then stats.get other + x else stats.get other := by
  cases field <;> cases other <;> rfl

theorem NetStats.ext_get {stats other : NetStats}
    (h : ∀ field, stats.get field = other.get field) : stats = other := by
  obtain ⟨a, b, c, d⟩ := stats
  obtain ⟨a', b', c', d'⟩ := other
  obtain rfl : a = a' := h .rcvBytes
  obtain rfl : b = b' := h .rcvPackets
  obtain rfl : c = c' := h .sndBytes
  obtain rfl : d = d' := h .sndPackets
  rfl

/-- What a handler reads of its packet, and the hook it is attached to. -/
structure Packet where
  ifindex : UInt32
  len : UInt32
  isRx : Bool

/-- The byte counter that the packet goes to. -/
def Packet.bytesField (p : Packet) : Field := if p.isRx then .rcvBytes else .sndBytes

/-- The packet counter that the packet goes to. -/
def Packet.packetsField (p : Packet) : Field := if p.isRx then .rcvPackets else .sndPackets

/-- `new_stats`, the record for the first packet of an interface. -/
def newStats (p : Packet) : NetStats :=
  if p.isRx then { rcvBytes := p.len.toUInt64, rcvPackets := 1 }
  else { sndBytes := p.len.toUInt64, sndPackets := 1 }

/-- Where the handler of a packet is. -/
inductive HandlerPc
  /-- about to check the packet and to look its interface up -/
  | start
  /-- the interface was not in the map -/
  | missed
  /-- the lookup returned a pointer to record `r` -/
  | hit (r : ℕ)
  /-- the bytes have been added to record `r` -/
  | bytesAdded (r : ℕ)
  | done
  deriving DecidableEq

/-- The map and the handlers, one for each packet. -/
structure State (packets : List Packet) where
  map : BpfMap UInt32 NetStats := { maxEntries := 64 }
  pc : Fin packets.length → HandlerPc := fun _ => .start

/-- The next step of handler `i`. -/
def step (packets : List Packet) (s : State packets) (i : Fin packets.length) :
    Option (State packets) :=
  let p := packets[i]
  match s.pc i with
  | .start =>
    -- packets without an interface or without bytes are filtered out
    if p.ifindex = 0 ∨ p.len = 0 then some { s with pc := update s.pc i .done }
    else
      match s.map.lookupElem p.ifindex with
      | none => some { s with pc := update s.pc i .missed }
      | some r => some { s with pc := update s.pc i (.hit r) }
  | .missed =>
    some { s with
      map := s.map.updateElem p.ifindex (newStats p)
      pc := update s.pc i .done }
  | .hit r =>
    some { s with
      map := s.map.modify p.ifindex r (NetStats.fetchAndAdd p.bytesField p.len.toUInt64)
      pc := update s.pc i (.bytesAdded r) }
  | .bytesAdded r =>
    some { s with
      map := s.map.modify p.ifindex r (NetStats.fetchAndAdd p.packetsField 1)
      pc := update s.pc i .done }
  | .done => none

variable {packets : List Packet}

/-- The branches of `step`. -/
inductive Move (packets : List Packet) (s : State packets) (i : Fin packets.length) :
    State packets → Prop
  | filtered (hpc : s.pc i = .start) (hp : packets[i].ifindex = 0 ∨ packets[i].len = 0) :
      Move packets s i { s with pc := update s.pc i .done }
  | miss (hpc : s.pc i = .start) (hmap : s.map.record packets[i].ifindex = none) :
      Move packets s i { s with pc := update s.pc i .missed }
  | find {r : ℕ} {v : NetStats} (hpc : s.pc i = .start)
      (hmap : s.map.record packets[i].ifindex = some (r, v)) :
      Move packets s i { s with pc := update s.pc i (.hit r) }
  | install (hpc : s.pc i = .missed) :
      Move packets s i { s with
        map := s.map.updateElem packets[i].ifindex (newStats packets[i])
        pc := update s.pc i .done }
  | addBytes {r : ℕ} (hpc : s.pc i = .hit r) :
      Move packets s i { s with
        map := s.map.modify packets[i].ifindex r
          (NetStats.fetchAndAdd packets[i].bytesField packets[i].len.toUInt64)
        pc := update s.pc i (.bytesAdded r) }
  | addPacket {r : ℕ} (hpc : s.pc i = .bytesAdded r) :
      Move packets s i { s with
        map := s.map.modify packets[i].ifindex r (NetStats.fetchAndAdd packets[i].packetsField 1)
        pc := update s.pc i .done }

theorem move_of_step {s s' : State packets} {i : Fin packets.length}
    (h : step packets s i = some s') : Move packets s i s' := by
  simp only [step] at h
  split at h
  next hpc =>
    split_ifs at h with hp
    · cases h
      exact .filtered hpc hp
    · split at h
      next hl => cases h; exact .miss hpc (BpfMap.lookupElem_eq_none.1 hl)
      next r hl =>
        obtain ⟨v, hv⟩ := BpfMap.lookupElem_eq_some.1 hl
        cases h
        exact .find hpc hv
  next hpc => cases h; exact .install hpc
  next r hpc => cases h; exact .addBytes hpc
  next r hpc => cases h; exact .addPacket hpc
  next => cases h

/-! ### What has been counted -/

/-- What a packet adds to a counter. -/
def Packet.amount (p : Packet) (field : Field) : ℕ :=
  if field = p.bytesField then p.len.toNat else if field = p.packetsField then 1 else 0

/-- What the handler of a packet has added to a counter so far. -/
def Packet.counted (p : Packet) (field : Field) : HandlerPc → ℕ
  | .start | .missed | .hit _ => 0
  | .bytesAdded _ => if field = p.bytesField then p.len.toNat else 0
  | .done => p.amount field

/-- The same, for one interface. -/
def weight (packets : List Packet) (ifindex : UInt32) (field : Field) (i : Fin packets.length)
    (pc : HandlerPc) : ℕ :=
  if packets[i].ifindex = ifindex then packets[i].counted field pc else 0

theorem bytesField_ne_packetsField (p q : Packet) : p.bytesField ≠ q.packetsField := by
  unfold Packet.bytesField Packet.packetsField
  split_ifs <;> nofun

/-- The two additions of a handler make up what its packet adds. -/
theorem amount_eq (p : Packet) (field : Field) :
    p.amount field = (if field = p.bytesField then p.len.toNat else 0) +
      if field = p.packetsField then 1 else 0 := by
  unfold Packet.amount
  split_ifs with hb hp
  · exact absurd (hb.symm.trans hp) (bytesField_ne_packetsField p p)
  · rfl
  · rfl
  · rfl

theorem toUInt64_len (p : Packet) : p.len.toUInt64 = UInt64.ofNat p.len.toNat := by
  simp

/-- A fresh record counts its packet. -/
theorem get_newStats (p : Packet) (field : Field) :
    (newStats p).get field = UInt64.ofNat (p.amount field) := by
  rw [amount_eq]
  cases hrx : p.isRx <;> cases field <;>
    simp [newStats, NetStats.get, Packet.bytesField, Packet.packetsField, hrx]

/-- The packets are those the filter lets through, on at most 64 interfaces. -/
structure Valid (packets : List Packet) : Prop where
  ifindex_ne : ∀ p ∈ packets, p.ifindex ≠ 0
  len_ne : ∀ p ∈ packets, p.len ≠ 0
  card_le : (packets.map (·.ifindex)).toFinset.card ≤ 64

theorem getElem_mem_ifindexes (i : Fin packets.length) :
    packets[i].ifindex ∈ (packets.map (·.ifindex)).toFinset :=
  List.mem_toFinset.2 (List.mem_map_of_mem (List.getElem_mem i.2))

/-- The map is well-formed and holds interfaces of packets only. -/
structure MapOk (s : State packets) : Prop where
  wf : s.map.WF
  capacity : s.map.maxEntries = 64
  keys : ∀ k ∈ s.map.keys, k ∈ (packets.map (·.ifindex)).toFinset

theorem mapOk_init : MapOk ({} : State packets) where
  wf := ⟨fun k => by simp, List.nodup_nil, Nat.zero_le _⟩
  capacity := rfl
  keys k hk := by cases hk

theorem mapOk_step {s s' : State packets} {i : Fin packets.length} (hs : MapOk s)
    (h : step packets s i = some s') : MapOk s' := by
  cases move_of_step h with
  | filtered _ _ | miss _ _ | find _ _ => exact ⟨hs.wf, hs.capacity, hs.keys⟩
  | install _ =>
    refine ⟨BpfMap.wf_updateElem hs.wf, ?_, fun k hk => ?_⟩
    · show (s.map.updateElem _ _).maxEntries = 64
      unfold BpfMap.updateElem
      split_ifs <;> exact hs.capacity
    · have hk' : k ∈ (s.map.updateElem packets[i].ifindex (newStats packets[i])).keys := hk
      unfold BpfMap.updateElem at hk'
      split_ifs at hk'
      · exact hs.keys k hk'
      · rcases List.mem_cons.1 hk' with rfl | hk'
        · exact getElem_mem_ifindexes i
        · exact hs.keys k hk'
      · exact hs.keys k hk'
  | addBytes _ | addPacket _ =>
    refine ⟨BpfMap.wf_modify hs.wf, ?_, fun k hk => ?_⟩
    · exact (BpfMap.keys_modify s.map _ _ _).2.trans hs.capacity
    · exact hs.keys k ((BpfMap.keys_modify s.map _ _ _).1 ▸ hk)

/-- An update always finds room. -/
theorem record_install {s : State packets} (hs : MapOk s) (hvalid : Valid packets)
    (i : Fin packets.length) (v : NetStats) :
    (s.map.updateElem packets[i].ifindex v).record =
      update s.map.record packets[i].ifindex (some (s.map.created, v)) := by
  apply BpfMap.record_updateElem
  cases hrec : s.map.record packets[i].ifindex with
  | some _ => exact .inl rfl
  | none =>
    right
    refine BpfMap.room_of_subset hs.wf hs.keys ?_ (getElem_mem_ifindexes i) hrec
    rw [hs.capacity]
    exact hvalid.card_le

/-! ### Runs without overwriting -/

/-- The step installs no record over another. -/
def NoOverwrite (packets : List Packet) (s : State packets) (i : Fin packets.length) : Prop :=
  s.pc i = .missed → s.map.record packets[i].ifindex = none

instance (packets : List Packet) (s : State packets) (i : Fin packets.length) :
    Decidable (NoOverwrite packets s i) := inferInstanceAs (Decidable (_ → _))

/-- The counters hold what the handlers have counted. -/
structure Counts (s : State packets) : Prop where
  absent : ∀ j, s.map.record packets[j].ifindex = none → s.pc j = .start ∨ s.pc j = .missed
  pointer : ∀ j r, s.pc j = .hit r ∨ s.pc j = .bytesAdded r →
    ∃ v, s.map.record packets[j].ifindex = some (r, v)
  counters : ∀ k r v, s.map.record k = some (r, v) → ∀ field,
    v.get field = UInt64.ofNat (tally (weight packets k field) s.pc)

theorem counts_init : Counts ({} : State packets) where
  absent j _ := .inl rfl
  pointer j r h := by simp at h
  counters k r v h := by simp at h

/-- The steps of a handler do not count for other interfaces. -/
theorem tally_update_of_ifindex_ne {pc : Fin packets.length → HandlerPc} {k : UInt32}
    {i : Fin packets.length} (hk : packets[i].ifindex ≠ k) (field : Field) (x : HandlerPc) :
    tally (weight packets k field) (update pc i x) = tally (weight packets k field) pc :=
  tally_update_of_eq (by simp only [weight, if_neg hk])

/-- A step of handler `i` that leaves a record for its interface does not touch the handlers of
the interfaces without one. -/
theorem absent_update {s : State packets} {i j : Fin packets.length} {p : ℕ × NetStats}
    {x : HandlerPc} (hs : Counts s)
    (hj : update s.map.record packets[i].ifindex (some p) packets[j].ifindex = none) :
    update s.pc i x j = .start ∨ update s.pc i x j = .missed := by
  have hne : packets[j].ifindex ≠ packets[i].ifindex := by
    intro heq
    rw [heq, update_self] at hj
    cases hj
  have hji : j ≠ i := fun heq => hne (by rw [heq])
  rw [update_of_ne hne] at hj
  rw [update_of_ne hji]
  exact hs.absent j hj

/-- A lookup moves one handler and counts nothing. -/
theorem counts_lookup {s : State packets} {i : Fin packets.length} {x : HandlerPc}
    (hs : Counts s) (hpc : s.pc i = .start)
    (hx : x = .missed ∨
      ∃ r v, x = .hit r ∧ s.map.record packets[i].ifindex = some (r, v)) :
    Counts { s with pc := update s.pc i x } := by
  refine ⟨fun j hj => ?_, fun j r hj => ?_, fun k r v hk field => ?_⟩
  · by_cases hji : j = i
    · subst hji
      rcases hx with rfl | ⟨r, v, rfl, hmap⟩
      · exact .inr (update_self ..)
      · rw [hmap] at hj
        cases hj
    · simp only [update_of_ne hji]
      exact hs.absent j hj
  · by_cases hji : j = i
    · subst hji
      simp only [update_self] at hj
      rcases hx with rfl | ⟨r', v, rfl, hmap⟩
      · simp at hj
      · simp only [HandlerPc.hit.injEq, reduceCtorEq, or_false] at hj
        exact ⟨v, hj ▸ hmap⟩
    · simp only [update_of_ne hji] at hj
      exact hs.pointer j r hj
  · show _ = UInt64.ofNat (tally _ (update s.pc i x))
    rw [tally_update_of_eq]
    · exact hs.counters k r v hk field
    · rw [hpc]
      unfold weight
      split_ifs
      · rcases hx with rfl | ⟨_, _, rfl, _⟩ <;> rfl
      · rfl

/-- An addition through the pointer to the current record is counted once. -/
theorem counts_add {s : State packets} {i : Fin packets.length} {r n : ℕ} {v : NetStats}
    {field₀ : Field} {x : HandlerPc} (hs : Counts s)
    (hmap : s.map.record packets[i].ifindex = some (r, v))
    (hx : x = .bytesAdded r ∨ x = .done)
    (hcounted : ∀ field, packets[i].counted field x =
      packets[i].counted field (s.pc i) + if field = field₀ then n else 0) :
    Counts { s with
      map := s.map.modify packets[i].ifindex r (NetStats.fetchAndAdd field₀ (UInt64.ofNat n))
      pc := update s.pc i x } := by
  have hrecord := BpfMap.record_modify_of_current
    (f := NetStats.fetchAndAdd field₀ (UInt64.ofNat n)) hmap
  refine ⟨fun j hj => ?_, fun j r' hj => ?_, fun k r' w hk field => ?_⟩
  · rw [hrecord] at hj
    exact absent_update hs hj
  · simp only [hrecord] at hj ⊢
    by_cases hji : j = i
    · subst hji
      rw [update_self] at hj
      have hr : r' = r := by rcases hx with rfl | rfl <;> simp_all
      exact ⟨_, by rw [hr, update_self]⟩
    · rw [update_of_ne hji] at hj
      obtain ⟨w, hw⟩ := hs.pointer j r' hj
      by_cases hne : packets[j].ifindex = packets[i].ifindex
      · rw [hne, hmap] at hw
        cases hw
        exact ⟨_, by rw [hne, update_self]⟩
      · exact ⟨w, by rw [update_of_ne hne, hw]⟩
  · simp only [hrecord] at hk ⊢
    by_cases hki : packets[i].ifindex = k
    · subst hki
      rw [update_self] at hk
      cases hk
      have htally : tally (weight packets packets[i].ifindex field) (update s.pc i x) =
          tally (weight packets packets[i].ifindex field) s.pc +
            if field = field₀ then n else 0 := by
        have hstep := tally_update (weight packets packets[i].ifindex field) s.pc i x
        have hnew : weight packets packets[i].ifindex field i x =
            weight packets packets[i].ifindex field i (s.pc i) +
              if field = field₀ then n else 0 := by
          simp only [weight, if_true, hcounted]
        omega
      rw [NetStats.get_fetchAndAdd, hs.counters _ r v hmap field, htally]
      split_ifs
      · exact (UInt64.ofNat_add _ _).symm
      · rw [Nat.add_zero]
    · rw [update_of_ne (Ne.symm hki)] at hk
      rw [tally_update_of_ifindex_ne hki]
      exact hs.counters k r' w hk field

/-- A record installed where there was none counts its packet. -/
theorem counts_install {s : State packets} {i : Fin packets.length} (hs : Counts s)
    (hpc : s.pc i = .missed) (hnone : s.map.record packets[i].ifindex = none)
    (hrecord : (s.map.updateElem packets[i].ifindex (newStats packets[i])).record =
      update s.map.record packets[i].ifindex (some (s.map.created, newStats packets[i]))) :
    Counts { s with
      map := s.map.updateElem packets[i].ifindex (newStats packets[i])
      pc := update s.pc i .done } := by
  -- nobody has counted anything for this interface
  have hidle : ∀ j, packets[j].ifindex = packets[i].ifindex →
      s.pc j = .start ∨ s.pc j = .missed := fun j hj => hs.absent j (hj ▸ hnone)
  refine ⟨fun j hj => ?_, fun j r hj => ?_, fun k r v hk field => ?_⟩
  · rw [hrecord] at hj
    exact absent_update hs hj
  · simp only [hrecord] at hj ⊢
    have hji : j ≠ i := by
      rintro rfl
      rw [update_self] at hj
      simp at hj
    rw [update_of_ne hji] at hj
    have hne : packets[j].ifindex ≠ packets[i].ifindex := fun heq => by
      rcases hidle j heq with hidle | hidle <;> simp [hidle] at hj
    rw [update_of_ne hne]
    exact hs.pointer j r hj
  · simp only [hrecord] at hk ⊢
    by_cases hki : packets[i].ifindex = k
    · subst hki
      rw [update_self] at hk
      cases hk
      have hzero : ∀ j, weight packets packets[i].ifindex field j (s.pc j) = 0 := by
        intro j
        unfold weight
        split_ifs with hj
        · rcases hidle j hj with hidle | hidle <;> rw [hidle] <;> rfl
        · rfl
      rw [tally_update_of_zero (hzero i), tally_eq_zero hzero, Nat.zero_add, get_newStats, weight,
        if_pos rfl]
      rfl
    · rw [update_of_ne (Ne.symm hki)] at hk
      rw [tally_update_of_ifindex_ne hki]
      exact hs.counters k r v hk field

theorem counts_step {s s' : State packets} {i : Fin packets.length} (hvalid : Valid packets)
    (hok : MapOk s) (hs : Counts s) (hno : NoOverwrite packets s i)
    (h : step packets s i = some s') : Counts s' := by
  have hmem : packets[i] ∈ packets := List.getElem_mem i.2
  cases move_of_step h with
  | filtered _ hp =>
    exact absurd hp (not_or.2 ⟨hvalid.ifindex_ne _ hmem, hvalid.len_ne _ hmem⟩)
  | miss hpc _ => exact counts_lookup hs hpc (.inl rfl)
  | find hpc hmap => exact counts_lookup hs hpc (.inr ⟨_, _, rfl, hmap⟩)
  | install hpc => exact counts_install hs hpc (hno hpc) (record_install hok hvalid i _)
  | @addBytes r hpc =>
    obtain ⟨v, hv⟩ := hs.pointer i r (.inl hpc)
    rw [toUInt64_len]
    refine counts_add hs hv (.inl rfl) fun field => ?_
    rw [hpc]
    exact (Nat.zero_add _).symm
  | @addPacket r hpc =>
    obtain ⟨v, hv⟩ := hs.pointer i r (.inr hpc)
    refine counts_add (n := 1) hs hv (.inr rfl) fun field => ?_
    rw [hpc]
    exact amount_eq _ _

/-! ### Runs with overwriting -/

/-- The packets that a record counts. -/
def NetStats.packetCount (stats : NetStats) : ℕ := stats.rcvPackets.toNat + stats.sndPackets.toNat

/-- The handlers of an interface that are done. -/
def finished (packets : List Packet) (k : UInt32) (pc : Fin packets.length → HandlerPc) : ℕ :=
  tally (fun i pc => if packets[i].ifindex = k ∧ pc = .done then 1 else 0) pc

theorem finished_done (pc : Fin packets.length → HandlerPc) {i : Fin packets.length}
    (hpc : pc i ≠ .done) (k : UInt32) :
    finished packets k (update pc i .done) =
      finished packets k pc + if packets[i].ifindex = k then 1 else 0 := by
  unfold finished
  rw [tally_update_of_zero (by simp [hpc])]
  simp

theorem finished_not_done (pc : Fin packets.length → HandlerPc) {i : Fin packets.length}
    (hpc : pc i ≠ .done) {x : HandlerPc} (hx : x ≠ .done) (k : UInt32) :
    finished packets k (update pc i x) = finished packets k pc := by
  unfold finished
  rw [tally_update_of_eq (by simp [hpc, hx])]

theorem packetCount_newStats (p : Packet) : (newStats p).packetCount = 1 := by
  unfold newStats
  split_ifs <;> rfl

theorem packetCount_addBytes (p : Packet) (x : UInt64) (v : NetStats) :
    (v.fetchAndAdd p.bytesField x).packetCount = v.packetCount := by
  unfold Packet.bytesField
  split_ifs <;> rfl

/-- A wrapping addition adds at most one. -/
theorem packetCount_addPacket (p : Packet) (v : NetStats) :
    (v.fetchAndAdd p.packetsField 1).packetCount ≤ v.packetCount + 1 := by
  have hadd : ∀ x : UInt64, (x + 1).toNat ≤ x.toNat + 1 := by
    intro x
    rw [UInt64.toNat_add]
    exact Nat.mod_le _ _
  unfold Packet.packetsField
  split_ifs
  · have hx := hadd v.rcvPackets
    simp only [NetStats.packetCount, NetStats.fetchAndAdd]
    omega
  · have hx := hadd v.sndPackets
    simp only [NetStats.packetCount, NetStats.fetchAndAdd]
    omega

/-- An addition through a pointer reaches the current record of its interface or nothing. -/
theorem packetCount_of_modify {m : BpfMap UInt32 NetStats} {k₀ k : UInt32} {r₀ r' n : ℕ}
    {f : NetStats → NetStats} {v' : NetStats}
    (hf : ∀ v : NetStats, (f v).packetCount ≤ v.packetCount + n)
    (hk : (m.modify k₀ r₀ f).record k = some (r', v')) :
    ∃ v, m.record k = some (r', v) ∧
      v'.packetCount ≤ v.packetCount + if k₀ = k then n else 0 := by
  obtain ⟨v, hv, rfl | ⟨rfl, rfl⟩⟩ := BpfMap.record_of_modify hk
  · exact ⟨v', hv, Nat.le_add_right _ _⟩
  · rw [if_pos rfl]
    exact ⟨v, hv, hf v⟩

/-- How the count of a record and the number of finished handlers of its interface grow: an
update starts again at one, any other step adds to the count at most what it adds to the
number. -/
theorem growth_step {s s' : State packets} {i : Fin packets.length} (hvalid : Valid packets)
    (hok : MapOk s) (h : step packets s i = some s') {k : UInt32} {r' : ℕ} {v' : NetStats}
    (hk : s'.map.record k = some (r', v')) :
    finished packets k s.pc ≤ finished packets k s'.pc ∧
    ((v'.packetCount = 1 ∧ finished packets k s'.pc = finished packets k s.pc + 1) ∨
      ∃ r v, s.map.record k = some (r, v) ∧
        v'.packetCount + finished packets k s.pc ≤ v.packetCount + finished packets k s'.pc) := by
  have hmem : packets[i] ∈ packets := List.getElem_mem i.2
  cases move_of_step h with
  | filtered _ hp =>
    exact absurd hp (not_or.2 ⟨hvalid.ifindex_ne _ hmem, hvalid.len_ne _ hmem⟩)
  | @miss hpc _ =>
    have hfin := finished_not_done s.pc (x := .missed) (i := i) (by rw [hpc]; nofun) nofun k
    exact ⟨hfin.ge, .inr ⟨r', v', hk, Nat.add_le_add_left hfin.ge _⟩⟩
  | @find r _ hpc _ =>
    have hfin := finished_not_done s.pc (x := .hit r) (i := i) (by rw [hpc]; nofun) nofun k
    exact ⟨hfin.ge, .inr ⟨r', v', hk, Nat.add_le_add_left hfin.ge _⟩⟩
  | install hpc =>
    have hfin := finished_done s.pc (i := i) (by rw [hpc]; nofun) k
    refine ⟨hfin ▸ Nat.le_add_right _ _, ?_⟩
    simp only [record_install hok hvalid i] at hk
    by_cases hki : packets[i].ifindex = k
    · rw [hki, update_self] at hk
      cases hk
      rw [if_pos hki] at hfin
      exact .inl ⟨packetCount_newStats _, hfin⟩
    · rw [update_of_ne (Ne.symm hki)] at hk
      rw [if_neg hki, Nat.add_zero] at hfin
      exact .inr ⟨r', v', hk, Nat.add_le_add_left hfin.ge _⟩
  | @addBytes r₀ hpc =>
    have hfin := finished_not_done s.pc (x := .bytesAdded r₀) (i := i) (by rw [hpc]; nofun) nofun k
    obtain ⟨v, hv, hle⟩ :=
      packetCount_of_modify (n := 0) (fun w => (packetCount_addBytes _ _ w).le) hk
    rw [ite_self, Nat.add_zero] at hle
    exact ⟨hfin.ge, .inr ⟨r', v, hv, Nat.add_le_add hle hfin.ge⟩⟩
  | addPacket hpc =>
    have hfin := finished_done s.pc (i := i) (by rw [hpc]; nofun) k
    obtain ⟨v, hv, hle⟩ := packetCount_of_modify (n := 1) (packetCount_addPacket _) hk
    refine ⟨hfin ▸ Nat.le_add_right _ _, .inr ⟨r', v, hv, ?_⟩⟩
    show _ ≤ _ + finished packets k (update s.pc i .done)
    omega

/-- A record counts at most the finished handlers of its interface, and one has finished. -/
def Bounded (s : State packets) : Prop :=
  ∀ k r v, s.map.record k = some (r, v) →
    v.packetCount ≤ finished packets k s.pc ∧ 1 ≤ finished packets k s.pc

/-- Some record counts fewer packets than have been handled. -/
def Lossy (s : State packets) : Prop :=
  ∃ k r v, s.map.record k = some (r, v) ∧ v.packetCount + 1 ≤ finished packets k s.pc

theorem bounded_step {s s' : State packets} {i : Fin packets.length} (hvalid : Valid packets)
    (hok : MapOk s) (hs : Bounded s) (h : step packets s i = some s') : Bounded s' := by
  intro k r' v' hk
  obtain ⟨hmono, ⟨hone, hfin⟩ | ⟨r, v, hv, hle⟩⟩ := growth_step hvalid hok h hk
  · omega
  · have hold := hs k r v hv
    omega

/-- A record stays in the map. -/
theorem record_isSome_step {s s' : State packets} {i : Fin packets.length} {k : UInt32}
    (hvalid : Valid packets) (hok : MapOk s) (h : step packets s i = some s')
    (hk : (s.map.record k).isSome) : ∃ r' v', s'.map.record k = some (r', v') := by
  cases move_of_step h with
  | install _ =>
    simp only [record_install hok hvalid i]
    by_cases hki : packets[i].ifindex = k
    · rw [hki, update_self]
      exact ⟨_, _, rfl⟩
    · rw [update_of_ne (Ne.symm hki)]
      exact Prod.exists'.1 (Option.isSome_iff_exists.1 hk)
  | addBytes _ | addPacket _ =>
    exact Prod.exists'.1 (Option.isSome_iff_exists.1 ((BpfMap.isSome_record_modify ..).trans hk))
  | _ => exact Prod.exists'.1 (Option.isSome_iff_exists.1 hk)

theorem lossy_step {s s' : State packets} {i : Fin packets.length} (hvalid : Valid packets)
    (hok : MapOk s) (hs : Lossy s) (h : step packets s i = some s') : Lossy s' := by
  obtain ⟨k, r, v, hv, hlt⟩ := hs
  obtain ⟨r', v', hk⟩ := record_isSome_step hvalid hok h (k := k) (by rw [hv]; rfl)
  refine ⟨k, r', v', hk, ?_⟩
  obtain ⟨-, ⟨hone, hfin⟩ | ⟨r₁, v₁, hv₁, hle⟩⟩ := growth_step hvalid hok h hk
  · omega
  · rw [hv] at hv₁
    cases hv₁
    omega

/-- Overwriting a record loses its packets. -/
theorem lossy_of_overwrite {s s' : State packets} {i : Fin packets.length}
    (hvalid : Valid packets) (hok : MapOk s) (hs : Bounded s)
    (hover : ¬ NoOverwrite packets s i) (h : step packets s i = some s') : Lossy s' := by
  simp only [NoOverwrite, Classical.not_imp] at hover
  obtain ⟨hpc, hsome⟩ := hover
  obtain ⟨⟨r, v⟩, hv⟩ := Option.ne_none_iff_exists'.1 hsome
  have hold := hs _ r v hv
  cases move_of_step h with
  | install _ =>
    refine ⟨packets[i].ifindex, s.map.created, newStats packets[i], ?_, ?_⟩
    · rw [record_install hok hvalid i, update_self]
    · have hfin := finished_done s.pc (i := i) (by rw [hpc]; nofun) packets[i].ifindex
      rw [if_pos rfl] at hfin
      show _ ≤ finished packets packets[i].ifindex (update s.pc i .done)
      rw [packetCount_newStats, hfin]
      omega
  | filtered hpc' _ | miss hpc' _ | find hpc' _ | addBytes hpc' | addPacket hpc' =>
    rw [hpc] at hpc'
    cases hpc'

/-! ### The totals -/

/-- What the map should hold for an interface: the packets received and sent on it and the sums of
their lengths, modulo `2 ^ 64`. -/
def expected (packets : List Packet) (k : UInt32) : NetStats where
  rcvBytes := UInt64.ofNat
    ((packets.filter fun p => p.ifindex = k ∧ p.isRx = true).map (·.len.toNat)).sum
  rcvPackets := UInt64.ofNat (packets.filter fun p => p.ifindex = k ∧ p.isRx = true).length
  sndBytes := UInt64.ofNat
    ((packets.filter fun p => p.ifindex = k ∧ p.isRx = false).map (·.len.toNat)).sum
  sndPackets := UInt64.ofNat (packets.filter fun p => p.ifindex = k ∧ p.isRx = false).length

/-- The map holds for each interface exactly what has been received and sent on it. -/
def Exact (packets : List Packet) (s : State packets) : Prop :=
  ∀ p ∈ packets, s.map.value p.ifindex = some (expected packets p.ifindex)

/-- A sum over some packets, as a sum over all. -/
theorem sum_map_filter (q : Packet → Prop) [DecidablePred q] (f : Packet → ℕ) (l : List Packet) :
    ((l.filter fun p => q p).map f).sum = (l.map fun p => if q p then f p else 0).sum := by
  induction l with
  | nil => rfl
  | cons p l ih =>
    by_cases hp : q p
    · simp [hp, ih]
    · simp [hp, ih]

theorem length_filter (q : Packet → Prop) [DecidablePred q] (l : List Packet) :
    (l.filter fun p => q p).length = (l.map fun p => if q p then 1 else 0).sum := by
  rw [← sum_map_filter q (fun _ => 1), List.map_const', List.sum_replicate, smul_eq_mul, mul_one]

/-- What is expected, counter by counter. -/
theorem get_expected (packets : List Packet) (k : UInt32) (field : Field) :
    (expected packets k).get field = UInt64.ofNat
      (packets.map fun p => if p.ifindex = k then p.amount field else 0).sum := by
  cases field <;> simp only [expected, NetStats.get, sum_map_filter, length_filter] <;>
    congr 3 <;> funext p <;> by_cases hk : p.ifindex = k <;> cases hrx : p.isRx <;>
    simp [hk, hrx, Packet.amount, Packet.bytesField, Packet.packetsField]

theorem tally_weight_done {pc : Fin packets.length → HandlerPc} (hdone : ∀ i, pc i = .done)
    (k : UInt32) (field : Field) : tally (weight packets k field) pc =
      (packets.map fun p => if p.ifindex = k then p.amount field else 0).sum := by
  refine (Finset.sum_congr rfl fun i _ => ?_).trans
    (Fin.sum_univ_fun_getElem packets fun p => if p.ifindex = k then p.amount field else 0)
  rw [hdone]
  rfl

theorem finished_all_done {pc : Fin packets.length → HandlerPc} (hdone : ∀ i, pc i = .done)
    (k : UInt32) : finished packets k pc = (packets.filter fun p => p.ifindex = k).length := by
  rw [length_filter (fun p => p.ifindex = k)]
  refine (Finset.sum_congr rfl fun i _ => ?_).trans
    (Fin.sum_univ_fun_getElem packets fun p => if p.ifindex = k then 1 else 0)
  simp [hdone]

/-- With fewer than `2 ^ 64` packets, the expected packet counters do not wrap around. -/
theorem packetCount_expected (hlen : packets.length < 2 ^ 64) (k : UInt32) :
    (expected packets k).packetCount = (packets.filter fun p => p.ifindex = k).length := by
  have hsum : (packets.filter fun p => p.ifindex = k ∧ p.isRx = true).length +
      (packets.filter fun p => p.ifindex = k ∧ p.isRx = false).length =
      (packets.filter fun p => p.ifindex = k).length := by
    rw [length_filter (fun p => p.ifindex = k ∧ p.isRx = true),
      length_filter (fun p => p.ifindex = k ∧ p.isRx = false),
      length_filter (fun p => p.ifindex = k), ← List.sum_map_add]
    congr 2
    funext p
    by_cases hk : p.ifindex = k <;> cases p.isRx <;> simp [hk]
  have hle := List.length_filter_le (fun p => decide (p.ifindex = k)) packets
  simp only [NetStats.packetCount, expected, UInt64.toNat_ofNat']
  rw [Nat.mod_eq_of_lt (by omega), Nat.mod_eq_of_lt (by omega), hsum]

/-- **Which packets are lost.**  For every list of packets and every interleaving of their
handlers, up to the end of all of them: when no handler installs a record over another one, the
map holds for each interface exactly the packets received and sent on it and the sums of their
lengths.  Otherwise, with fewer than `2 ^ 64` packets, it does not. -/
theorem counters_exact_iff (packets : List Packet) (hvalid : Valid packets)
    {schedule : List (Fin packets.length)} {s : State packets}
    (hrun : run (step packets) {} schedule = some s) (hdone : ∀ i, s.pc i = .done) :
    (Along (step packets) (NoOverwrite packets) {} schedule → Exact packets s) ∧
    (packets.length < 2 ^ 64 → Exact packets s →
      Along (step packets) (NoOverwrite packets) {} schedule) := by
  constructor
  · intro hal p hp
    have hs : MapOk s ∧ Counts s :=
      run_invariant_along (I := fun u => MapOk u ∧ Counts u)
        (fun _ _ _ hu hno hstep =>
          ⟨mapOk_step hu.1 hstep, counts_step hvalid hu.1 hu.2 hno hstep⟩)
        hrun hal ⟨mapOk_init, counts_init⟩
    obtain ⟨i, hi, rfl⟩ := List.getElem_of_mem hp
    have hpresent : s.map.record packets[i].ifindex ≠ none := fun hnone => by
      rcases hs.2.absent ⟨i, hi⟩ hnone with hpc | hpc <;> simp [hdone] at hpc
    obtain ⟨⟨r, v⟩, hv⟩ := Option.ne_none_iff_exists'.1 hpresent
    rw [BpfMap.value, hv]
    refine congrArg some (NetStats.ext_get fun field => ?_)
    rw [hs.2.counters _ r v hv, tally_weight_done hdone, get_expected]
  · intro hlen hexact
    by_contra hal
    have hinit : Bounded ({} : State packets) := fun k r v h => by simp at h
    have hs : MapOk s ∧ Lossy s := by
      refine ⟨run_invariant (fun _ _ _ => mapOk_step) hrun mapOk_init, ?_⟩
      refine run_bad (I := fun u => MapOk u ∧ Bounded u) ?_ ?_ ?_ hrun ⟨mapOk_init, hinit⟩ hal
      · exact fun _ _ _ hu hstep =>
          ⟨mapOk_step hu.1 hstep, bounded_step hvalid hu.1 hu.2 hstep⟩
      · exact fun _ _ _ hu hover hstep => lossy_of_overwrite hvalid hu.1 hu.2 hover hstep
      · exact fun _ _ _ hu hlossy hstep => lossy_step hvalid hu.1 hlossy hstep
    obtain ⟨hok, k, r, v, hv, hlt⟩ := hs
    have hk : k ∈ (packets.map (·.ifindex)).toFinset :=
      hok.keys k ((hok.wf.mem_keys k).2 (by rw [hv]; rfl))
    obtain ⟨p, hp, rfl⟩ := List.mem_map.1 (List.mem_toFinset.1 hk)
    have hval := hexact p hp
    rw [BpfMap.value, hv, Option.map_some, Option.some.injEq] at hval
    subst hval
    rw [packetCount_expected hlen, finished_all_done hdone] at hlt
    omega

/-- Two packets of 100 bytes, received on one interface. -/
def twoPackets : List Packet := [⟨2, 100, true⟩, ⟨2, 100, true⟩]

theorem valid_twoPackets : Valid twoPackets := ⟨by decide, by decide, by decide⟩

/-- One handler after the other. -/
def inTurn : List (Fin twoPackets.length) := ([0, 0, 1, 1, 1] : List (Fin 2))

/-- Both handlers look the interface up before either installs a record. -/
def bothMiss : List (Fin twoPackets.length) := ([0, 1, 0, 1] : List (Fin 2))

theorem noOverwrite_inTurn : Along (step twoPackets) (NoOverwrite twoPackets) {} inTurn := by
  decide

theorem counters_exact_inTurn : ∃ s : State twoPackets,
    run (step twoPackets) {} inTurn = some s ∧ Exact twoPackets s := by
  have hrun : ∃ s, run (step twoPackets) {} inTurn = some s ∧ ∀ i, s.pc i = .done :=
    ⟨_, rfl, by decide⟩
  obtain ⟨s, hs, hdone⟩ := hrun
  exact ⟨s, hs, (counters_exact_iff twoPackets valid_twoPackets hs hdone).1 noOverwrite_inTurn⟩

/-- When both handlers miss the interface, one packet is lost. -/
theorem packet_lost_when_both_miss :
    ¬ ∀ (packets : List Packet), Valid packets → ∀ (schedule : List (Fin packets.length))
      (s : State packets), run (step packets) {} schedule = some s →
      (∀ i, s.pc i = .done) → Exact packets s := by
  intro hclaim
  have hrun : ∃ s, run (step twoPackets) {} bothMiss = some s ∧ (∀ i, s.pc i = .done) ∧
      s.map.value 2 ≠ some (expected twoPackets 2) := ⟨_, rfl, by decide, by decide⟩
  obtain ⟨s, hs, hdone, hlost⟩ := hrun
  exact hlost (hclaim twoPackets valid_twoPackets bothMiss s hs hdone ⟨2, 100, true⟩
    (by simp [twoPackets]))

end NetEbpf

end MonitorSystem
