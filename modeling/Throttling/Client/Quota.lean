import Throttling.Client.Helpers.Runs
import Mathlib.Algebra.BigOperators.Group.Finset.Basic
import Mathlib.Algebra.Order.BigOperators.Group.Finset
import Mathlib.Tactic.FieldSimp
/-!
# The clients of a resource keep to its limit together

The server allocates each of `n` interested clients one `n`-th of the
limit. Each client's bucket then grants at most what it holds and what it
earns at that rate (`Client.Steady.run`), whatever the others do in
between; the sum over the clients is at most what they hold together and
what the limit earns. A client's own threads may interleave as well: a
call they run between the sections of is its `ClientOp.tryConsume`
(`ClientThreads.Refines.run`).
-/

namespace Throttling

/-- Clients, by id. -/
abbrev Fleet : Type := ClientId → Client

/-- The operations of one client in an interleaving of several clients'. -/
def ownOps (c : ClientId) (ops : List (ClientId × ClientOp)) : List ClientOp :=
  (ops.filter fun op => op.1 = c).map Prod.snd

namespace Fleet

/-- One operation of one client. -/
def step (f : Fleet) (op : ClientId × ClientOp) : Fleet :=
  Function.update f op.1 ((f op.1).step op.2)

/-- An interleaving of the clients' operations. -/
def run (f : Fleet) (ops : List (ClientId × ClientOp)) : Fleet := ops.foldl step f

/-- The tokens granted for a resource to a set of clients. -/
def granted (f : Fleet) (S : Finset ClientId) (r : ResourceId) : ℚ := ∑ c ∈ S, (f c).granted r

/-- The tokens their buckets have at a moment. -/
def available (f : Fleet) (S : Finset ClientId) (r : ResourceId) (now : TimePoint) : ℚ :=
  ∑ c ∈ S, (f c).available r now

variable {f : Fleet} {S : Finset ClientId} {r : ResourceId} {t₀ t₁ : TimePoint}

/-- **A client in an interleaving** does what it would by itself. -/
theorem run_apply (f : Fleet) (ops : List (ClientId × ClientOp)) (c : ClientId) :
    f.run ops c = (f c).run (ownOps c ops) := by
  induction ops generalizing f with
  | nil => rfl
  | cons op ops ih =>
    have hrest : f.run (op :: ops) c = ((f.step op) c).run (ownOps c ops) := ih (f.step op)
    rw [hrest, step, ownOps, ownOps, List.filter_cons]
    by_cases hc : op.1 = c
    · subst hc
      simp [Client.run]
    · simp [hc, Function.update_of_ne (Ne.symm hc)]

/-- The sum of equal shares of a limit over those who share it. -/
theorem sum_share_mul (hS : S.Nonempty) (L x : ℚ) : ∑ _c ∈ S, x * (L / S.card) = L * x := by
  have hcard : (S.card : ℚ) ≠ 0 := Nat.cast_ne_zero.mpr (Finset.card_ne_zero.mpr hS)
  rw [Finset.sum_const, nsmul_eq_mul]
  field_simp

/-- What one client of the window is granted. -/
theorem granted_run_le {rate burst : ℚ} {c : ClientId} {window : List (ClientId × ClientOp)}
    (hsteady : (f c).Steady r rate burst t₀) (hwindow : Clocked t₀ (ownOps c window) t₁)
    (hsame : ∀ op ∈ ownOps c window, op.Reapplies r rate) :
    (f.run window c).granted r - (f c).granted r ≤
      (f c).available r t₀ + elapsedSeconds ℚ t₀ t₁ * rate := by
  obtain ⟨hend, hpaid⟩ := hsteady.run hwindow hsame
  have hleft := hend.available_nonneg t₁
  rw [run_apply]
  linarith

/-- **The clients of a resource keep to its limit together**, in every
interleaving of a window in which the allocation of each stays the
`n`-th part of the limit: they are granted at most what their buckets
hold at its start and what the limit earns in it; and at most the limit
and that, if their buckets were created with that allocation. The order
of the clock binds each client's own operations. -/
theorem granted_le_limit {L : ℚ} (hS : S.Nonempty) (history : ClientId → List ClientOp)
    {start : ClientId → TimePoint} (hhistory : ∀ c ∈ S, Clocked (start c) (history c) t₀)
    (hnonneg : ∀ c ∈ S, ∀ op ∈ history c, op.Nonneg)
    (hrate : ∀ c ∈ S, allocation (history c) r = some (L / S.card))
    {window : List (ClientId × ClientOp)} (hwindow : ∀ c ∈ S, Clocked t₀ (ownOps c window) t₁)
    (hsame : ∀ c ∈ S, ∀ op ∈ ownOps c window, op.Reapplies r (L / S.card))
    {f : Fleet} (hf : ∀ c ∈ S, f c = Client.new.run (history c)) :
    (f.run window).granted S r - f.granted S r ≤
        f.available S r t₀ + L * elapsedSeconds ℚ t₀ t₁ ∧
      ((∀ c ∈ S, createdWith (history c) r = some (L / S.card)) →
        (f.run window).granted S r - f.granted S r ≤ L + L * elapsedSeconds ℚ t₀ t₁) := by
  have hsteady : ∀ c ∈ S, ∀ {burst : ℚ}, createdWith (history c) r = some burst →
      (f c).Steady r (L / S.card) burst t₀ := fun c hc burst hburst =>
    hf c hc ▸ Client.steady_run (hhistory c hc) (hnonneg c hc) hburst (hrate c hc)
  have hbound : (f.run window).granted S r - f.granted S r ≤
      f.available S r t₀ + L * elapsedSeconds ℚ t₀ t₁ := by
    rw [granted, granted, available, ← Finset.sum_sub_distrib, ← sum_share_mul hS,
      ← Finset.sum_add_distrib]
    refine Finset.sum_le_sum fun c hc => ?_
    obtain ⟨burst, hburst⟩ :=
      Client.exists_createdWith (hhistory c hc) (hnonneg c hc) (hrate c hc)
    exact granted_run_le (hsteady c hc hburst) (hwindow c hc) (hsame c hc)
  refine ⟨hbound, fun hcreated => hbound.trans (add_le_add_left ?_ _)⟩
  -- What was created with its share holds at most that, at any moment.
  calc f.available S r t₀ ≤ ∑ _c ∈ S, 1 * (L / S.card) :=
        Finset.sum_le_sum fun c hc => by
          rw [one_mul]
          exact (hsteady c hc (hcreated c hc)).available_le t₀
    _ = L := by rw [sum_share_mul hS, mul_one]

/-- What gives each of two clients five of resource `1`. -/
def halvesHistory : List ClientOp :=
  [.updateTokenBuckets (fun _ => 0) ((∅ : OrderedMap ResourceId ℚ).insert 1 5)]

def halves : Fleet := fun _ => Client.new.run halvesHistory

/-- They take what they hold at once; a second later one of them hears its
allocation again and takes four more, and the other's worker is refused. -/
def halvesWindow : List (ClientId × ClientOp) :=
  [("a", .acquire ⟨1, 5, none⟩ 0),
   ("b", .acquire ⟨1, 5, none⟩ 0),
   ("b", .acquire ⟨1, 6, none⟩ 500000000),
   ("a", .updateTokenBuckets (fun _ => 1000000000) ((∅ : OrderedMap ResourceId ℚ).insert 1 5)),
   ("a", .acquire ⟨1, 4, none⟩ 1000000000),
   ("b", .workerIteration 1000000000)]

theorem halvesWindow_clocked :
    ∀ c ∈ ({"a", "b"} : Finset ClientId), Clocked 0 (ownOps c halvesWindow) 1000000000 := by
  intro c hc
  rcases Finset.mem_insert.mp hc with rfl | hb
  · exact ⟨0, ⟨le_rfl, le_rfl⟩, 1000000000, fun _ => ⟨by norm_num, le_rfl⟩,
      1000000000, ⟨le_rfl, le_rfl⟩, le_rfl⟩
  · rw [Finset.mem_singleton.mp hb]
    exact ⟨0, ⟨le_rfl, le_rfl⟩, 500000000, ⟨by norm_num, le_rfl⟩,
      1000000000, ⟨by norm_num, le_rfl⟩, le_rfl⟩

theorem halvesWindow_reapplies :
    ∀ c ∈ ({"a", "b"} : Finset ClientId), ∀ op ∈ ownOps c halvesWindow, op.Reapplies 1 5 := by
  intro c _ op hop
  obtain ⟨op', hop', rfl⟩ := List.mem_map.mp hop
  have hmem := (List.mem_filter.mp hop').1
  simp only [halvesWindow, List.mem_cons, List.not_mem_nil, or_false] at hmem
  rcases hmem with rfl | rfl | rfl | rfl | rfl | rfl
  · trivial
  · trivial
  · trivial
  · simp [ClientOp.Reapplies]
  · trivial
  · trivial

theorem halvesWindow_granted_le :
    (halves.run halvesWindow).granted {"a", "b"} 1 - halves.granted {"a", "b"} 1 = 14 ∧
      (halves.run halvesWindow).granted {"a", "b"} 1 - halves.granted {"a", "b"} 1 ≤
        10 + 10 * elapsedSeconds ℚ 0 1000000000 := by
  have hshare : (10 : ℚ) / (({"a", "b"} : Finset ClientId).card : ℚ) = 5 := by
    rw [Finset.card_pair (by decide)]
    norm_num
  refine ⟨by decide +kernel, (granted_le_limit (L := 10) (by decide) (fun _ => halvesHistory)
    (fun _ _ => ⟨0, fun _ => ⟨le_rfl, le_rfl⟩, le_rfl⟩) (fun _ _ op hop => ?_)
    (fun _ _ => ?_) halvesWindow_clocked ?_ fun _ _ => rfl).2 fun _ _ => ?_⟩
  · rw [List.mem_singleton.mp hop]
    exact ClientOp.nonneg_single (by norm_num)
  · rw [hshare]
    decide +kernel
  · rw [hshare]
    exact halvesWindow_reapplies
  · rw [hshare]
    decide +kernel

end Fleet

end Throttling
