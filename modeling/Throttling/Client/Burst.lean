import Throttling.Client.Helpers.Runs
import Mathlib.Data.Rat.Floor
/-!
# What a lowered allocation leaves of the burst

`SetRate` does not touch the burst. Where a resource's tokens are at most
its allocation at some moment, they stay so for as long as that
allocation is re-applied exactly if the bucket was created with no more
than that, or the allocation is zero and earns nothing
(`available_stays_le_iff`). Otherwise an idle client saves up to the
allocation it started with (`loweredAllocation_saves`).
-/

namespace Throttling

namespace Client

variable {c : Client} {r : ResourceId} {rate created : ℚ} {lo hi t : TimePoint}

/-- **The tokens of a resource stay within its allocation** from a moment
on, at every reading, whatever else happens while the allocation stays. -/
def StaysWithin (c : Client) (r : ResourceId) (rate : ℚ) (t : TimePoint) : Prop :=
  ∀ (later : List ClientOp) (u v : TimePoint), Clocked t later u → u ≤ v →
    (∀ op ∈ later, op.Reapplies r rate) → (c.run later).available r v ≤ rate

/-- A bucket that earns and is left alone fills up. -/
theorem Steady.exists_available_eq (h : c.Steady r rate created t) (hrate : 0 < rate) :
    ∃ later, t ≤ later ∧ c.available r later = created := by
  obtain ⟨b, hb, hwf, hlast, rfl, rfl⟩ := h
  have hburst : 0 ≤ b.burstSize := hwf.tokens_nonneg.trans hwf.tokens_le
  -- enough whole seconds to earn the cap from nothing
  set k : ℤ := ⌈b.burstSize / b.rate⌉ with hk
  have hk₀ : 0 ≤ k := Int.ceil_nonneg (div_nonneg hburst hrate.le)
  have hle : t ≤ t + k * ticksPerSecond := le_add_of_nonneg_right (mul_nonneg hk₀ (by decide))
  refine ⟨t + k * ticksPerSecond, hle, ?_⟩
  have hsecs : (k : ℚ) ≤ forwardSeconds b.lastRefillTime (t + k * ticksPerSecond) := by
    rw [forwardSeconds_of_le (hlast.trans hle)]
    refine le_trans (le_of_eq ?_) (elapsedSeconds_le_elapsedSeconds hlast le_rfl)
    rw [elapsedSeconds_eq]
    push_cast
    ring
  have hearned : b.burstSize ≤ forwardSeconds b.lastRefillTime (t + k * ticksPerSecond) * b.rate :=
    calc b.burstSize = b.burstSize / b.rate * b.rate := (div_mul_cancel₀ _ hrate.ne').symm
      _ ≤ k * b.rate := mul_le_mul_of_nonneg_right (Int.le_ceil _) hrate.le
      _ ≤ _ := mul_le_mul_of_nonneg_right hsecs hrate.le
  simp only [Client.available, hb, TokenBucket.getAvailableTokens_fst]
  rw [TokenBucket.refillLocked_tokens hwf]
  exact min_eq_right (by linarith [hwf.tokens_nonneg])

/-- With no rate, what is there is all there will be. -/
theorem Steady.available_le_of_rate_zero (h : c.Steady r 0 created t) {later : List ClientOp}
    {u v : TimePoint} (hlater : Clocked t later u) (huv : u ≤ v)
    (hsame : ∀ op ∈ later, op.Reapplies r 0) : (c.run later).available r v ≤ c.available r t := by
  obtain ⟨hsteady, hpaid⟩ := h.run hlater hsame
  obtain ⟨-, hwait⟩ := hsteady.wait huv
  have hgranted := granted_le_run hlater c r
  rw [mul_zero, add_zero] at hpaid hwait
  linarith

/-- **Which lowered allocations hold.** From a moment at which a
resource's tokens are at most its allocation, they stay so exactly if its
bucket was created with at most that, or it is zero. -/
theorem available_stays_le_iff {start : TimePoint} {ops : List ClientOp}
    (hops : Clocked start ops t) (hnonneg : ∀ op ∈ ops, op.Nonneg)
    (hcreated : createdWith ops r = some created) (hrate : allocation ops r = some rate)
    (hnow : (new.run ops).available r t ≤ rate) :
    (new.run ops).StaysWithin r rate t ↔ created ≤ rate ∨ rate = 0 := by
  have hsteady := steady_run hops hnonneg hcreated hrate
  have hrate₀ : 0 ≤ rate := by
    obtain ⟨b, -, hwf, -, rfl, -⟩ := hsteady
    exact hwf.rate_nonneg
  constructor
  · intro h
    by_contra hnot
    rw [not_or, not_le] at hnot
    obtain ⟨v, hv, hfull⟩ := hsteady.exists_available_eq (lt_of_le_of_ne hrate₀ (Ne.symm hnot.2))
    have hle := h [] t v le_rfl hv nofun
    change (new.run ops).available r v ≤ rate at hle
    linarith [hnot.1]
  · rintro (hle | rfl) later u v hlater huv hsame
    · exact ((hsteady.run hlater hsame).1.available_le v).trans hle
    · exact (hsteady.available_le_of_rate_zero hlater huv hsame).trans hnow

/-- A resource allocated `first` whose tokens are all taken, and its
allocation set to five. -/
def loweredHistory (first : ℚ) : List ClientOp :=
  [.updateTokenBuckets (fun _ => 0) ((∅ : OrderedMap ResourceId ℚ).insert 1 first),
   .acquire ⟨1, first, none⟩ 0,
   .updateTokenBuckets (fun _ => 0) ((∅ : OrderedMap ResourceId ℚ).insert 1 5)]

theorem loweredHistory_clocked (first : ℚ) : Clocked 0 (loweredHistory first) 0 :=
  ⟨0, fun _ => ⟨le_rfl, le_rfl⟩, 0, ⟨le_rfl, le_rfl⟩, 0, fun _ => ⟨le_rfl, le_rfl⟩, le_rfl⟩

theorem loweredHistory_nonneg {first : ℚ} (h : 0 ≤ first) :
    ∀ op ∈ loweredHistory first, op.Nonneg := by
  intro op hop
  simp only [loweredHistory, List.mem_cons, List.not_mem_nil, or_false] at hop
  rcases hop with rfl | rfl | rfl
  · exact ClientOp.nonneg_single h
  · trivial
  · exact ClientOp.nonneg_single (by norm_num)

/-- A bucket created with five keeps to five. -/
theorem loweredFromFive_stays_le : (new.run (loweredHistory 5)).StaysWithin 1 5 0 :=
  (available_stays_le_iff (loweredHistory_clocked 5)
    (loweredHistory_nonneg (by norm_num)) (by decide +kernel) (by decide +kernel)
    (by decide +kernel)).mpr (.inl le_rfl)

/-- **An idle client saves its old allocation.** A bucket created with ten
tokens and emptied, its allocation lowered to five, holds ten again two
seconds later. -/
theorem loweredAllocation_saves :
    ¬ ∀ (start t : TimePoint) (ops : List ClientOp) (r : ResourceId) (rate : ℚ),
      Clocked start ops t → (∀ op ∈ ops, op.Nonneg) → allocation ops r = some rate →
      (new.run ops).available r t ≤ rate → (new.run ops).StaysWithin r rate t := by
  intro hall
  have h := hall 0 0 (loweredHistory 10) 1 5 (loweredHistory_clocked 10)
    (loweredHistory_nonneg (by norm_num)) (by decide +kernel) (by decide +kernel)
    [] 0 2000000000 le_rfl (by norm_num) nofun
  exact absurd h (by decide +kernel)

end Client

end Throttling
