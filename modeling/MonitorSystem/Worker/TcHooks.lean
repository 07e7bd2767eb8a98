import Mathlib.Tactic

/-!
# The TC hooks of `NetEbpfMonitor`

`InitEbpf` attaches two programs to every interface, one for each direction, and remembers the
interface when the first of the two attaches succeeds.  `CleanupEbpf` detaches both from the
interfaces that are remembered.  The second attach is made whether or not the first has succeeded,
and nothing is remembered of it: where only the second one succeeds, its program is never detached.

What the system calls return is an input of the model.  A successful `bpf_tc_attach` adds a program
to a hook and `bpf_tc_detach` removes one; a program stays attached when the skeleton is destroyed.
`tc_hooks_cleaned_up_iff` says when no program is left.
-/

namespace MonitorSystem

namespace NetEbpfMonitor

/-! ### The program -/

/-- `bpf_tc_attach_point`. -/
inductive AttachPoint
  | ingress
  | egress
  deriving DecidableEq

/-- An interface and one of its two attach points. -/
abbrev TcHook := UInt32 × AttachPoint

/-- What the calls for the skeleton return. -/
structure Skeleton where
  opened : Bool
  loadErr : ℤ
  mapFd : ℤ

/-- An entry of `GetAllIfIndexes`, with what `if_indextoname`, `bpf_tc_hook_create` and the two
calls of `bpf_tc_attach` return for it. -/
structure Interface where
  ifindex : UInt32
  ifname : Option String
  hookErr : ℤ
  ingressErr : ℤ
  egressErr : ℤ

/-- The members of the monitor for the BPF program, and the programs that it has attached and not
detached. -/
structure TcState where
  attachedIfindexes : List UInt32 := []
  bpfObj : Bool := false
  mapFd : ℤ := -1
  loaded : Bool := false
  programs : Multiset TcHook := 0

/-- `EEXIST`. -/
def eexist : ℤ := 17

/-- `bpf_tc_attach`, when it returns `err`. -/
def bpfTcAttach (hook : TcHook) (err : ℤ) (s : TcState) : TcState :=
  if err = 0 then { s with programs := hook ::ₘ s.programs } else s

/-- `bpf_tc_detach`. -/
def bpfTcDetach (hook : TcHook) (s : TcState) : TcState :=
  { s with programs := s.programs.erase hook }

/-- The loop of `InitEbpf` goes on to the attaches: the interface has a name other than `lo`, and
its hook is created or there already. -/
def Interface.attempted (x : Interface) : Bool :=
  x.ifname.any (· ≠ "lo") && (x.hookErr = 0 || x.hookErr = -eexist)

/-- A turn of the loop of `InitEbpf`. -/
def attachInterface (s : TcState) (x : Interface) : TcState :=
  if x.attempted then
    let s := bpfTcAttach (x.ifindex, .ingress) x.ingressErr s
    let s :=
      if x.ingressErr = 0 then { s with attachedIfindexes := s.attachedIfindexes ++ [x.ifindex] }
      else s
    -- also after a failure at the ingress, and without a trace in the list
    bpfTcAttach (x.ifindex, .egress) x.egressErr s
  else s

/-- `InitEbpf`. -/
def initEbpf (skel : Skeleton) (ifindexes : List Interface) (s : TcState) : Bool × TcState :=
  if skel.opened = false then (false, s)
  else if skel.loadErr ≠ 0 then (false, s)
  else
    let s := { s with mapFd := skel.mapFd }
    if skel.mapFd < 0 then (false, s)
    else
      let s := { ifindexes.foldl attachInterface s with bpfObj := true }
      if s.attachedIfindexes.isEmpty then (false, { s with bpfObj := false })
      else (true, s)

/-- The constructor. -/
def construct (skel : Skeleton) (ifindexes : List Interface) : TcState :=
  let (loaded, s) := initEbpf skel ifindexes {}
  { s with loaded := loaded }

/-- A turn of the loop of `CleanupEbpf`. -/
def detachInterface (s : TcState) (ifindex : UInt32) : TcState :=
  bpfTcDetach (ifindex, .egress) (bpfTcDetach (ifindex, .ingress) s)

/-- `CleanupEbpf`, which `Stop` and the destructor call. -/
def cleanupEbpf (s : TcState) : TcState :=
  { s.attachedIfindexes.foldl detachInterface s with
    attachedIfindexes := []
    bpfObj := false
    mapFd := -1
    loaded := false }

/-! ### What is attached and what is detached -/

/-- The indexes for which the attach to the ingress succeeds. -/
def ingressIndexes (ifindexes : List Interface) : List UInt32 :=
  (ifindexes.filter fun x => x.attempted && x.ingressErr = 0).map (·.ifindex)

/-- The indexes for which the attach to the egress succeeds. -/
def egressIndexes (ifindexes : List Interface) : List UInt32 :=
  (ifindexes.filter fun x => x.attempted && x.egressErr = 0).map (·.ifindex)

/-- One program for each index, all at the same attach point. -/
def programsAt (point : AttachPoint) (indexes : List UInt32) : Multiset TcHook :=
  (indexes : Multiset UInt32).map fun i => (i, point)

@[simp] theorem programsAt_nil (point : AttachPoint) : programsAt point [] = 0 := rfl

@[simp] theorem programsAt_cons (point : AttachPoint) (i : UInt32) (indexes : List UInt32) :
    programsAt point (i :: indexes) = (i, point) ::ₘ programsAt point indexes := rfl

@[simp] theorem programsAt_append (point : AttachPoint) (indexes indexes' : List UInt32) :
    programsAt point (indexes ++ indexes') =
      programsAt point indexes + programsAt point indexes' := by
  rw [programsAt, ← Multiset.coe_add, Multiset.map_add, programsAt, programsAt]

theorem programsAt_le_iff (point : AttachPoint) (indexes indexes' : List UInt32) :
    programsAt point indexes ≤ programsAt point indexes' ↔
      ∀ i, indexes.count i ≤ indexes'.count i := by
  rw [programsAt, programsAt, Multiset.map_le_map_iff fun i j h => congrArg Prod.fst h,
    Multiset.le_iff_count]
  simp only [Multiset.coe_count]

theorem ingressIndexes_cons (x : Interface) (xs : List Interface) :
    ingressIndexes (x :: xs) = ingressIndexes [x] ++ ingressIndexes xs := by
  rw [ingressIndexes, ← List.singleton_append, List.filter_append, List.map_append]
  rfl

theorem egressIndexes_cons (x : Interface) (xs : List Interface) :
    egressIndexes (x :: xs) = egressIndexes [x] ++ egressIndexes xs := by
  rw [egressIndexes, ← List.singleton_append, List.filter_append, List.map_append]
  rfl

/-- One turn of the loop remembers the interface of a successful attach to the ingress, and adds
the programs of both successful attaches. -/
theorem attachInterface_spec (s : TcState) (x : Interface) :
    (attachInterface s x).attachedIfindexes = s.attachedIfindexes ++ ingressIndexes [x] ∧
      (attachInterface s x).programs =
        s.programs + (programsAt .ingress (ingressIndexes [x]) +
          programsAt .egress (egressIndexes [x])) := by
  unfold attachInterface ingressIndexes egressIndexes bpfTcAttach
  by_cases hattempted : x.attempted = true <;> by_cases hin : x.ingressErr = 0 <;>
    by_cases hout : x.egressErr = 0 <;>
    simp [hattempted, hin, hout, add_comm, ← Multiset.singleton_add, add_left_comm]

/-- The loop remembers the successful attaches to the ingress, and adds the programs of all
successful attaches. -/
theorem foldl_attachInterface (xs : List Interface) (s : TcState) :
    (xs.foldl attachInterface s).attachedIfindexes = s.attachedIfindexes ++ ingressIndexes xs ∧
      (xs.foldl attachInterface s).programs =
        s.programs + (programsAt .ingress (ingressIndexes xs) +
          programsAt .egress (egressIndexes xs)) := by
  induction xs generalizing s with
  | nil => simp [ingressIndexes, egressIndexes]
  | cons x xs ih =>
    obtain ⟨hindexes, hprograms⟩ := attachInterface_spec s x
    obtain ⟨ihindexes, ihprograms⟩ := ih (attachInterface s x)
    rw [List.foldl_cons, ihindexes, ihprograms, hindexes, hprograms, ingressIndexes_cons x xs,
      egressIndexes_cons x xs, programsAt_append, programsAt_append, List.append_assoc]
    exact ⟨rfl, by abel⟩

/-- The loop of `CleanupEbpf` removes two programs for each interface that is remembered. -/
theorem programs_foldl_detachInterface (indexes : List UInt32) (s : TcState) :
    (indexes.foldl detachInterface s).programs =
      s.programs - (programsAt .ingress indexes + programsAt .egress indexes) := by
  induction indexes generalizing s with
  | nil => simp
  | cons i indexes ih =>
    rw [List.foldl_cons, ih, programsAt_cons, programsAt_cons, Multiset.cons_add,
      Multiset.add_cons, Multiset.sub_cons, Multiset.sub_cons]
    rfl

theorem programs_cleanupEbpf (s : TcState) : (cleanupEbpf s).programs =
    s.programs - (programsAt .ingress s.attachedIfindexes +
      programsAt .egress s.attachedIfindexes) :=
  programs_foldl_detachInterface s.attachedIfindexes s

/-- A second `CleanupEbpf` detaches nothing. -/
theorem programs_iterate_cleanupEbpf (s : TcState) (n : ℕ) :
    (cleanupEbpf^[n + 1] s).programs = (cleanupEbpf s).programs ∧
      (cleanupEbpf^[n + 1] s).attachedIfindexes = [] := by
  induction n with
  | zero => exact ⟨rfl, rfl⟩
  | succ n ih =>
    obtain ⟨ihprograms, ihindexes⟩ := ih
    rw [Function.iterate_succ_apply', programs_cleanupEbpf, ihprograms, ihindexes]
    exact ⟨by simp, rfl⟩

/-! ### What is left -/

/-- `InitEbpf` comes to its loop. -/
def Skeleton.Usable (skel : Skeleton) : Prop :=
  skel.opened = true ∧ skel.loadErr = 0 ∧ 0 ≤ skel.mapFd

/-- No interface has more successful attaches to its egress than to its ingress. -/
def IngressCoversEgress (ifindexes : List Interface) : Prop :=
  ∀ i, (egressIndexes ifindexes).count i ≤ (ingressIndexes ifindexes).count i

/-- When no interface is listed twice, it is enough to look at each of them: where the attach to the
egress succeeds, the one to the ingress must have succeeded. -/
theorem ingressCoversEgress_iff_of_nodup {ifindexes : List Interface}
    (hnodup : (ifindexes.map (·.ifindex)).Nodup) : IngressCoversEgress ifindexes ↔
      ∀ x ∈ ifindexes, x.attempted = true → x.egressErr = 0 → x.ingressErr = 0 := by
  constructor
  · intro hcovers x hx hattempted hout
    have hmem : x.ifindex ∈ egressIndexes ifindexes :=
      List.mem_map_of_mem (List.mem_filter.2 ⟨hx, by simp [hattempted, hout]⟩)
    have hmem' : x.ifindex ∈ ingressIndexes ifindexes :=
      List.count_pos_iff.1 ((List.count_pos_iff.2 hmem).trans_le (hcovers x.ifindex))
    obtain ⟨y, hy, hxy⟩ := List.mem_map.1 hmem'
    obtain ⟨hy, hsuccess⟩ := List.mem_filter.1 hy
    obtain rfl := List.inj_on_of_nodup_map hnodup hy hx hxy
    simpa [hattempted] using hsuccess
  · intro hall i
    have hegress : (egressIndexes ifindexes).Nodup :=
      hnodup.sublist (List.filter_sublist.map _)
    refine (List.subperm_of_subset hegress fun j hj => ?_).count_le i
    obtain ⟨x, hx, rfl⟩ := List.mem_map.1 hj
    obtain ⟨hx, hsuccess⟩ := List.mem_filter.1 hx
    simp only [Bool.and_eq_true, decide_eq_true_eq] at hsuccess
    exact List.mem_map_of_mem (List.mem_filter.2
      ⟨hx, by simp [hsuccess.1, hall x hx hsuccess.1 hsuccess.2]⟩)

/-- No program of `InitEbpf` is attached when it has returned `false`, and none after one or more
calls of `CleanupEbpf`. -/
def CleanedUp (skel : Skeleton) (ifindexes : List Interface) : Prop :=
  ((initEbpf skel ifindexes {}).1 = false → (initEbpf skel ifindexes {}).2.programs = 0) ∧
    ∀ n, (cleanupEbpf^[n + 1] (construct skel ifindexes)).programs = 0

/-- Without a skeleton nothing is attached. -/
theorem initEbpf_of_not_usable {skel : Skeleton} (h : ¬ skel.Usable) (ifindexes : List Interface)
    (s : TcState) : (initEbpf skel ifindexes s).1 = false ∧
      (initEbpf skel ifindexes s).2.programs = s.programs ∧
      (initEbpf skel ifindexes s).2.attachedIfindexes = s.attachedIfindexes := by
  unfold initEbpf
  by_cases hopened : skel.opened = false
  · simp [hopened]
  by_cases hload : skel.loadErr = 0
  · have hfd : skel.mapFd < 0 := by
      by_contra hfd
      exact h ⟨by simpa using hopened, hload, not_lt.1 hfd⟩
    simp [hopened, hload, hfd]
  · simp [hopened, hload]

/-- With a skeleton the loop runs, and it decides what is returned. -/
theorem initEbpf_of_usable {skel : Skeleton} (h : skel.Usable) (ifindexes : List Interface) :
    ((initEbpf skel ifindexes {}).1 = false ↔ ingressIndexes ifindexes = []) ∧
      (initEbpf skel ifindexes {}).2.attachedIfindexes = ingressIndexes ifindexes ∧
      (initEbpf skel ifindexes {}).2.programs =
        programsAt .ingress (ingressIndexes ifindexes) +
          programsAt .egress (egressIndexes ifindexes) := by
  obtain ⟨hopened, hload, hfd⟩ := h
  obtain ⟨hindexes, hprograms⟩ := foldl_attachInterface ifindexes { mapFd := skel.mapFd }
  rw [List.nil_append] at hindexes
  rw [zero_add] at hprograms
  simp only [initEbpf, hopened, hload, not_lt.2 hfd, hindexes]
  by_cases hnil : ingressIndexes ifindexes = []
  · simp [hnil, hprograms]
  · simp [hnil, hprograms]

/-- After `CleanupEbpf` only programs at the egress can be left. -/
theorem programs_cleanupEbpf_construct {skel : Skeleton} (h : skel.Usable)
    (ifindexes : List Interface) : (cleanupEbpf (construct skel ifindexes)).programs =
      programsAt .egress (egressIndexes ifindexes) -
        programsAt .egress (ingressIndexes ifindexes) := by
  obtain ⟨-, hindexes, hprograms⟩ := initEbpf_of_usable h ifindexes
  rw [programs_cleanupEbpf]
  show (initEbpf skel ifindexes {}).2.programs -
    (programsAt .ingress (initEbpf skel ifindexes {}).2.attachedIfindexes +
      programsAt .egress (initEbpf skel ifindexes {}).2.attachedIfindexes) = _
  rw [hindexes, hprograms, add_tsub_add_eq_tsub_left]

/-- **When the TC hooks are cleaned up.**  For every list of interfaces and every outcome of the
system calls: no program that `InitEbpf` has attached stays attached when it returns `false`, and
none after `CleanupEbpf`, if and only if the skeleton cannot be used or no interface has more
successful attaches to its egress than to its ingress. -/
theorem tc_hooks_cleaned_up_iff (skel : Skeleton) (ifindexes : List Interface) :
    CleanedUp skel ifindexes ↔ (skel.Usable → IngressCoversEgress ifindexes) := by
  by_cases husable : skel.Usable
  · obtain ⟨hfalse, -, hprograms⟩ := initEbpf_of_usable husable ifindexes
    have hcleanup : (∀ n, (cleanupEbpf^[n + 1] (construct skel ifindexes)).programs = 0) ↔
        IngressCoversEgress ifindexes := by
      simp only [(programs_iterate_cleanupEbpf _ _).1, forall_const,
        programs_cleanupEbpf_construct husable, tsub_eq_zero_iff_le, programsAt_le_iff,
        IngressCoversEgress]
    rw [CleanedUp, hcleanup, and_iff_right_iff_imp.2]
    · simp [husable]
    · -- nothing is remembered, so the egress has no programs either
      intro hcovers hret
      have hnil := hfalse.1 hret
      have hle := (programsAt_le_iff .egress _ _).2 hcovers
      rw [hnil, programsAt_nil, nonpos_iff_eq_zero] at hle
      rw [hprograms, hnil, hle]
      rfl
  · obtain ⟨hret, hprograms, hindexes⟩ := initEbpf_of_not_usable husable ifindexes {}
    refine iff_of_true ⟨fun _ => hprograms, fun n => ?_⟩ fun h => absurd h husable
    rw [(programs_iterate_cleanupEbpf _ _).1, programs_cleanupEbpf]
    show (initEbpf skel ifindexes {}).2.programs - _ = 0
    rw [hprograms]
    exact zero_tsub _

/-- An interface that takes the program for its egress only. -/
def egressOnly (ifindex : UInt32) (ifname : String) : Interface := ⟨ifindex, some ifname, 0, -22, 0⟩

/-- An interface that takes both programs. -/
def bothWays (ifindex : UInt32) (ifname : String) : Interface := ⟨ifindex, some ifname, 0, 0, 0⟩

/-- The program at the egress of an interface stays, when `InitEbpf` fails and when it succeeds on
another interface. -/
theorem egress_left_attached :
    (¬ ∀ (skel : Skeleton) (ifindexes : List Interface), CleanedUp skel ifindexes) ∧
      (initEbpf ⟨true, 0, 5⟩ [egressOnly 2 "eth0"] {}).1 = false ∧
      (initEbpf ⟨true, 0, 5⟩ [egressOnly 2 "eth0"] {}).2.programs = {(2, .egress)} ∧
      (cleanupEbpf (construct ⟨true, 0, 5⟩ [egressOnly 2 "eth0", bothWays 3 "eth1"])).programs =
        {(2, .egress)} := by
  refine ⟨fun hclaim => ?_, by decide, by decide, by decide⟩
  have hnone := (hclaim ⟨true, 0, 5⟩ [egressOnly 2 "eth0"]).1 (by decide)
  exact absurd hnone (by decide)

end NetEbpfMonitor

end MonitorSystem
