import Mathlib.Tactic

/-!
# Unary calls over a network that may fail

Each client numbers its calls and makes them one after another: it sends a request, waits, and goes
on when it is told that the call has succeeded or that it has failed.  A server keeps a log of the
requests that have reached some point of its code.  Each request reaches it at most once, in any
order and at any time, also after its client has given the call up, and a client is told of success
only when its request is in the log.

`Records` is what then holds of the clients and of a log in every run; in particular
`Records.before`: a call that succeeded stands in the log before all later calls of its client.
-/

namespace Requests

open Function (update update_self update_of_ne)

variable {ι : Type*}

/-- The calls of all clients, each as its client sees it. -/
structure Clients (ι : Type*) where
  /-- how many requests a client has sent -/
  sent : ι → ℕ := fun _ => 0
  /-- the call that a client waits for -/
  waiting : ι → Option ℕ := fun _ => none
  /-- the calls that have succeeded -/
  succeeded : ι → List ℕ := fun _ => []

namespace Clients

/-- The call has been sent and has not failed. -/
def NotFailed (cs : Clients ι) (c : ι) (n : ℕ) : Prop :=
  n ∈ cs.succeeded c ∨ cs.waiting c = some n

variable [DecidableEq ι]

/-- Client `c` sends its next request. -/
def send (cs : Clients ι) (c : ι) : Clients ι :=
  { cs with
    sent := update cs.sent c (cs.sent c + 1)
    waiting := update cs.waiting c (some (cs.sent c)) }

/-- Client `c` is told that call `k` has succeeded. -/
def succeed (cs : Clients ι) (c : ι) (k : ℕ) : Clients ι :=
  { cs with
    waiting := update cs.waiting c none
    succeeded := update cs.succeeded c (k :: cs.succeeded c) }

/-- Client `c` is told that its call has failed. -/
def fail (cs : Clients ι) (c : ι) : Clients ι := { cs with waiting := update cs.waiting c none }

end Clients

/-- Request `r` may stand in front of `r'`: it is not a later call of the same client, if `r'` has
succeeded. -/
def InOrder (cs : Clients ι) (r r' : ι × ℕ) : Prop :=
  r.1 = r'.1 → r'.2 ∈ cs.succeeded r'.1 → r.2 < r'.2

/-- What holds of the clients and of the log in every run; a request is a client and a number. -/
structure Records (cs : Clients ι) (log : List (ι × ℕ)) : Prop where
  sent : ∀ r ∈ log, r.2 < cs.sent r.1
  nodup : log.Nodup
  waiting : ∀ c k, cs.waiting c = some k → cs.sent c = k + 1
  succeeded : ∀ c, ∀ k ∈ cs.succeeded c, (c, k) ∈ log
  order : log.Pairwise (InOrder cs)

namespace Records

variable {cs : Clients ι} {log : List (ι × ℕ)}

theorem empty : Records ({} : Clients ι) [] where
  sent := nofun
  nodup := List.nodup_nil
  waiting := nofun
  succeeded := nofun
  order := List.Pairwise.nil

/-- A request that was sent enters the log. -/
theorem append (h : Records cs log) {r : ι × ℕ} (hsent : r.2 < cs.sent r.1) (hnew : r ∉ log) :
    Records cs (log ++ [r]) where
  sent r' hr' := by
    rcases List.mem_append.1 hr' with hr' | hr'
    · exact h.sent r' hr'
    · rwa [List.mem_singleton.1 hr']
  nodup := List.nodup_append.2 ⟨h.nodup, List.nodup_singleton r, by
    rintro a ha b hb rfl
    exact hnew (List.mem_singleton.1 hb ▸ ha)⟩
  waiting := h.waiting
  succeeded c k hk := List.mem_append_left _ (h.succeeded c k hk)
  order := by
    refine List.pairwise_append.2 ⟨h.order, List.pairwise_singleton _ _, fun r₁ _ r₂ hr₂ => ?_⟩
    obtain rfl := List.mem_singleton.1 hr₂
    -- a request outside the log has not succeeded
    exact fun _ hsucceeded => absurd (h.succeeded _ _ hsucceeded) hnew

/-- In a part of the log, where a call that succeeded and a later one of its client both occur, the
later one comes second. -/
theorem before (h : Records cs log) {old new : List (ι × ℕ)} (hpart : (old ++ new).Sublist log)
    {c : ι} {k k' : ℕ} (hk : k ∈ cs.succeeded c) (hlt : k < k') (hold : (c, k') ∈ old)
    (hmem : (c, k) ∈ old ++ new) : (c, k) ∈ old := by
  refine (List.mem_append.1 hmem).resolve_right fun hnew => ?_
  have horder : InOrder cs (c, k') (c, k) :=
    (List.pairwise_append.1 (h.order.sublist hpart)).2.2 _ hold _ hnew
  exact lt_asymm hlt (horder rfl hk)

/-- If the last call of a client in a part of the log has not failed, then no later call that occurs
there has succeeded. -/
theorem le_last (h : Records cs log) {part : List (ι × ℕ)} (hpart : part.Sublist log) {c : ι}
    {n : ℕ} (hlast : part.getLast? = some (c, n)) (hn : cs.NotFailed c n) {k : ℕ}
    (hk : k ∈ cs.succeeded c) (hmem : (c, k) ∈ part) : k ≤ n := by
  rcases hn with hn | hn
  · obtain ⟨front, rfl⟩ := List.getLast?_eq_some_iff.1 hlast
    rcases List.mem_append.1 hmem with hfront | hsame
    · have horder : InOrder cs (c, k) (c, n) :=
        (List.pairwise_append.1 (h.order.sublist hpart)).2.2 _ hfront _ (List.mem_singleton_self _)
      exact (horder rfl hn).le
    · exact (congrArg Prod.snd (List.mem_singleton.1 hsame)).le
  · -- nothing has been sent after the call that is waited for
    have hlt := h.sent _ (h.succeeded c k hk)
    rw [h.waiting c n hn] at hlt
    exact Nat.lt_succ_iff.1 hlt

variable [DecidableEq ι]

theorem send (h : Records cs log) (c : ι) : Records (cs.send c) log where
  sent r hr := by
    refine (h.sent r hr).trans_le ?_
    by_cases hc : r.1 = c
    · simp [Clients.send, hc]
    · simp [Clients.send, update_of_ne hc]
  nodup := h.nodup
  waiting d k hd := by
    by_cases hc : d = c
    · subst hc
      simp only [Clients.send, update_self, Option.some.injEq] at hd ⊢
      omega
    · simp only [Clients.send, update_of_ne hc] at hd ⊢
      exact h.waiting d k hd
  succeeded := h.succeeded
  order := h.order

theorem succeed (h : Records cs log) {c : ι} {k : ℕ} (hwaiting : cs.waiting c = some k)
    (hlog : (c, k) ∈ log) : Records (cs.succeed c k) log where
  sent := h.sent
  nodup := h.nodup
  waiting d m hd := by
    by_cases hc : d = c
    · simp [Clients.succeed, hc] at hd
    · simp only [Clients.succeed, update_of_ne hc] at hd
      exact h.waiting d m hd
  succeeded d m hm := by
    by_cases hc : d = c
    · subst hc
      simp only [Clients.succeed, update_self, List.mem_cons] at hm
      rcases hm with rfl | hm
      · exact hlog
      · exact h.succeeded d m hm
    · simp only [Clients.succeed, update_of_ne hc] at hm
      exact h.succeeded d m hm
  order := by
    refine (h.order.and h.nodup).imp_of_mem fun {r r'} hr _ hrr' heq hsucceeded => ?_
    by_cases hc : r'.1 = c
    · simp only [Clients.succeed, hc, update_self, List.mem_cons] at hsucceeded
      rcases hsucceeded with hk | hold
      · -- nothing was sent after the call that succeeds now
        have hlt := h.sent r hr
        rw [heq, hc, h.waiting c k hwaiting] at hlt
        have hne : r.2 ≠ r'.2 := fun hsame => hrr'.2 (Prod.ext heq hsame)
        omega
      · exact hrr'.1 heq (by rwa [hc])
    · simp only [Clients.succeed, update_of_ne hc] at hsucceeded
      exact hrr'.1 heq hsucceeded

theorem fail (h : Records cs log) (c : ι) : Records (cs.fail c) log where
  sent := h.sent
  nodup := h.nodup
  waiting d m hd := by
    by_cases hc : d = c
    · simp [Clients.fail, hc] at hd
    · simp only [Clients.fail, update_of_ne hc] at hd
      exact h.waiting d m hd
  succeeded := h.succeeded
  order := h.order

end Records

end Requests
