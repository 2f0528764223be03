import Throttling.Client.Helpers.Runs
/-!
# What re-listing a resource mints

A heartbeat that does not list a resource erases its bucket, and the next
one that does makes a new one, full. So a window of a run that always
lists the resource at one allocation can grant more than that allocation
and what it earns: what a re-listing mints is what the new bucket has over
the erased one, had that stayed. Nothing else adds to the bound.
-/

namespace Throttling

/-- A client, and of one resource the bucket it has or had last, and what
its re-listings have minted so far. -/
structure Relisting where
  client : Client
  last : Option (TokenBucket ℚ)
  minted : ℚ

namespace Relisting

/-- What an operation mints: for a resource that has no bucket and had
one, what it is listed at less what that one would hold by then. -/
def mints (s : Relisting) (r : ResourceId) : ClientOp → ℚ
  | .updateTokenBuckets now allocations =>
    match s.client.tokenBuckets[r]?, allocations[r]?, s.last with
    | none, some rate, some bucket => rate - (bucket.getAvailableTokens (now r)).1
    | _, _, _ => 0
  | _ => 0

/-- An operation that makes a bucket anew does so a second or more after
the erased one was last used. -/
def RelistsLate (s : Relisting) (r : ResourceId) : ClientOp → Prop
  | .updateTokenBuckets now allocations =>
    s.client.tokenBuckets[r]? = none → allocations[r]?.isSome → ∀ b : TokenBucket ℚ,
      s.last = some b → b.lastRefillTime + ticksPerSecond ≤ now r
  | _ => True

def step (r : ResourceId) (s : Relisting) (op : ClientOp) : Relisting :=
  let client := s.client.step op
  { client := client
    last := client.tokenBuckets[r]? <|> s.last
    minted := s.minted + s.mints r op }

/-- The record of a run. -/
def run (r : ResourceId) (s : Relisting) (ops : List ClientOp) : Relisting := ops.foldl (step r) s

/-- So do all of a run. -/
def AllRelistLate (r : ResourceId) : Relisting → List ClientOp → Prop
  | _, [] => True
  | s, op :: ops => s.RelistsLate r op ∧ AllRelistLate r (s.step r op) ops

def new : Relisting := { client := Client.new, last := none, minted := 0 }

variable {s : Relisting} {r : ResourceId} {rate : ℚ} {lo hi : TimePoint}

theorem run_client (s : Relisting) (ops : List ClientOp) :
    (s.run r ops).client = s.client.run ops := by
  induction ops generalizing s with
  | nil => rfl
  | cons op ops ih => exact ih (s.step r op)

theorem run_append (s : Relisting) (before window : List ClientOp) :
    s.run r (before ++ window) = (s.run r before).run r window := List.foldl_append

/-- **The record of a resource listed at one allocation or not at all**:
its last bucket is the one it has, if it has one, and is at that rate and
cap. -/
structure Tracks (s : Relisting) (r : ResourceId) (rate : ℚ) (now : TimePoint) : Prop where
  last_eq : ∀ b : TokenBucket ℚ, s.client.tokenBuckets[r]? = some b → s.last = some b
  wf : ∀ b : TokenBucket ℚ, s.last = some b →
    b.Wf ∧ b.lastRefillTime ≤ now ∧ b.rate = rate ∧ b.burstSize = rate

/-- What the last bucket holds, or would; before there was one, what the
first will. -/
def saved (s : Relisting) (rate : ℚ) (now : TimePoint) : ℚ :=
  match s.last with
  | some b => (b.refillLocked now).tokens
  | none => rate

theorem tracks_new (r : ResourceId) (rate : ℚ) (now : TimePoint) : new.Tracks r rate now where
  last_eq b hb := by simp [new, Client.new] at hb
  wf b hb := by simp [new] at hb

theorem Tracks.mono (h : s.Tracks r rate lo) (hle : lo ≤ hi) : s.Tracks r rate hi where
  last_eq := h.last_eq
  wf b hb := by
    obtain ⟨hwf, hlast, hr⟩ := h.wf b hb
    exact ⟨hwf, hlast.trans hle, hr⟩

theorem Tracks.saved_nonneg (h : s.Tracks r rate lo) (hrate : 0 ≤ rate) (now : TimePoint) :
    0 ≤ s.saved rate now := by
  unfold saved
  split
  · rename_i b hb
    exact (TokenBucket.wf_refillLocked (h.wf b hb).1 now).tokens_nonneg
  · exact hrate

theorem Tracks.saved_le (h : s.Tracks r rate lo) (now : TimePoint) : s.saved rate now ≤ rate := by
  unfold saved
  split
  · rename_i b hb
    obtain ⟨hwf, -, -, hburst⟩ := h.wf b hb
    rw [← hburst]
    simpa using (TokenBucket.wf_refillLocked hwf now).tokens_le
  · exact le_rfl

/-- The last bucket, had it stayed. -/
theorem Tracks.saved_wait (h : s.Tracks r rate lo) (hrate : 0 ≤ rate) (hle : lo ≤ hi) :
    s.saved rate hi ≤ s.saved rate lo + elapsedSeconds ℚ lo hi * rate := by
  unfold saved
  split
  · rename_i b hb
    obtain ⟨hwf, -, rfl, -⟩ := h.wf b hb
    exact TokenBucket.refillLocked_tokens_le_add hwf hle
  · exact le_add_of_nonneg_right (mul_nonneg (elapsedSeconds_nonneg.mpr hle) hrate)

/-- The bucket a listing creates. -/
theorem created_at (hrate : 0 ≤ rate) (t : TimePoint) :
    (TokenBucket.new rate (-1) t).Wf ∧ (TokenBucket.new rate (-1) t).lastRefillTime = t ∧
      (TokenBucket.new rate (-1) t).rate = rate ∧
      (TokenBucket.new rate (-1) t).burstSize = rate :=
  ⟨TokenBucket.wf_new _ _ _, rfl, by simp [max_eq_right hrate],
    by simp [TokenBucket.new_burstSize, max_eq_right hrate]⟩

theorem mints_of_ne {op : ClientOp}
    (hop : ∀ now allocations, op ≠ .updateTokenBuckets now allocations) : s.mints r op = 0 := by
  cases op with
  | updateTokenBuckets now allocations => exact absurd rfl (hop now allocations)
  | _ => rfl

/-- It mints nothing a second after the erased bucket was last used. -/
theorem Tracks.mints_eq_zero (h : s.Tracks r rate lo) {op : ClientOp}
    (happlies : op.ReappliesOrDrops r rate) (hlate : s.RelistsLate r op) : s.mints r op = 0 := by
  cases op with
  | acquire req now => rfl
  | workerIteration now => rfl
  | tryConsume req now => rfl
  | updateTokenBuckets now allocations =>
    rw [mints]
    rcases happlies with hlist | hdrop
    · cases hbucket : s.client.tokenBuckets[r]? with
      | some b => rfl
      | none =>
        cases hlast : s.last with
        | none => rw [hlist]
        | some b =>
          obtain ⟨hwf, -, hr, hburst⟩ := h.wf b hlast
          have hrest := hlate hbucket (by simp [hlist]) b hlast
          have hheld := TokenBucket.min_rate_burstSize_le_refillLocked hwf hrest
          have hcap := (TokenBucket.wf_refillLocked hwf (now r)).tokens_le
          rw [hr, hburst, min_self] at hheld
          rw [TokenBucket.refillLocked_burstSize, hburst] at hcap
          rw [hlist]
          exact sub_eq_zero.mpr (le_antisymm hheld hcap)
    · rw [hdrop]
      cases s.client.tokenBuckets[r]? <;> rfl

/-- **What an operation does to the record.** -/
inductive Change (s s' : Relisting) (r : ResourceId) (rate : ℚ) (lo hi : TimePoint) : ℚ → Prop
  | kept (hlast : s'.last = s.last) (hgranted : s'.client.granted r = s.client.granted r) :
      Change s s' r rate lo hi 0
  | reapplied (b : TokenBucket ℚ) (t : TimePoint) (hlo : lo ≤ t) (hhi : t ≤ hi)
      (hlast : s.last = some b) (hlast' : s'.last = some (b.setRate rate t))
      (hgranted : s'.client.granted r = s.client.granted r) : Change s s' r rate lo hi 0
  | attempted (b : TokenBucket ℚ) (count : ℚ) (t : TimePoint) (hlo : lo ≤ t) (hhi : t ≤ hi)
      (hlast : s.last = some b) (hlast' : s'.last = some (b.tryConsume count t).2)
      (hgranted : s'.client.granted r =
        s.client.granted r + if (b.tryConsume count t).1 then max 0 count else 0) :
      Change s s' r rate lo hi 0
  | listed (t : TimePoint) (hhi : t ≤ hi) (hlast : s.last = none)
      (hlast' : s'.last = some (TokenBucket.new rate (-1) t))
      (hgranted : s'.client.granted r = s.client.granted r) : Change s s' r rate lo hi 0
  | relisted (b : TokenBucket ℚ) (t : TimePoint) (hlo : lo ≤ t) (hhi : t ≤ hi)
      (hlast : s.last = some b) (hlast' : s'.last = some (TokenBucket.new rate (-1) t))
      (hgranted : s'.client.granted r = s.client.granted r) :
      Change s s' r rate lo hi (rate - (b.refillLocked t).tokens)

theorem Tracks.change (h : s.Tracks r rate lo) {op : ClientOp} (hop : op.ReadsWithin lo hi)
    (happlies : op.ReappliesOrDrops r rate) :
    Change s (s.step r op) r rate lo hi (s.mints r op) := by
  have hlast : (s.step r op).last = ((s.client.step op).tokenBuckets[r]? <|> s.last) := rfl
  cases Client.effect_step hop s.client r with
  | applied now allocations hlo hhi hbucket hgranted =>
    rw [mints]
    rw [hbucket] at hlast
    rcases happlies with hlist | hdrop
    · rw [hlist] at hlast ⊢
      cases hb : s.client.tokenBuckets[r]? with
      | some b =>
        rw [hb] at hlast
        exact .reapplied b (now r) hlo hhi (h.last_eq b hb) hlast hgranted
      | none =>
        rw [hb] at hlast
        cases hold : s.last with
        | some b => exact .relisted b (now r) hlo hhi hold hlast hgranted
        | none => exact .listed (now r) hhi hold hlast hgranted
    · rw [hdrop] at hlast ⊢
      cases s.client.tokenBuckets[r]? <;> exact .kept hlast hgranted
  | untouched hop' hbucket hgranted =>
    rw [mints_of_ne hop']
    refine .kept (hlast.trans ?_) hgranted
    rw [hbucket]
    cases hb : s.client.tokenBuckets[r]? with
    | some b => exact (h.last_eq b hb).symm
    | none => rfl
  | attempted hop' b count now hlo hhi hfound hbucket hgranted =>
    rw [mints_of_ne hop']
    rw [hbucket] at hlast
    exact .attempted b count now hlo hhi (h.last_eq b hfound) hlast hgranted

/-- **One operation.** What is saved and what was granted is at most what
was saved, what was earned, and what the operation mints. -/
theorem Tracks.step (h : s.Tracks r rate lo) (hrate : 0 ≤ rate) {op : ClientOp}
    (hop : op.ReadsWithin lo hi) (happlies : op.ReappliesOrDrops r rate) :
    (s.step r op).Tracks r rate hi ∧
      (s.step r op).saved rate hi + (s.step r op).client.granted r ≤
        s.saved rate lo + elapsedSeconds ℚ lo hi * rate + s.mints r op + s.client.granted r := by
  have hhas : ∀ b, (s.step r op).client.tokenBuckets[r]? = some b →
      (s.step r op).last = some b := by
    intro b hb
    change ((s.client.step op).tokenBuckets[r]? <|> s.last) = some b
    rw [show (s.client.step op).tokenBuckets[r]? = some b from hb]
    rfl
  -- where the last bucket is known, it is all there is to check of it
  have htracks : ∀ b, (s.step r op).last = some b → b.Wf → b.lastRefillTime ≤ hi → b.rate = rate →
      b.burstSize = rate → (s.step r op).Tracks r rate hi := by
    rintro b hlast hwf hle hr hburst
    refine ⟨hhas, fun b' hb' => ?_⟩
    obtain rfl := Option.some.inj (hlast.symm.trans hb')
    exact ⟨hwf, hle, hr, hburst⟩
  have hchange := h.change hop happlies
  generalize s.mints r op = minted at hchange ⊢
  cases hchange with
  | kept hlast hgranted =>
    refine ⟨⟨hhas, fun b hb => (h.mono hop.le).wf b (hlast ▸ hb)⟩, ?_⟩
    · -- the bucket stays as it is, or is gone and would have
      have hwait := h.saved_wait hrate hop.le
      rw [hgranted, saved, hlast, add_zero]
      exact add_le_add_left hwait _
  | reapplied b t hlo hhi hlast hlast' hgranted =>
    obtain ⟨hwf, -, rfl, hburst⟩ := h.wf b hlast
    refine ⟨htracks _ hlast' (TokenBucket.wf_setRate hwf _ _) (by simpa using hhi)
      (by simp [max_eq_right hrate]) (by simpa using hburst), ?_⟩
    rw [hgranted, saved, saved, hlast, hlast', add_zero]
    exact add_le_add_left (TokenBucket.setRate_tokens_le hwf hlo hhi) _
  | attempted b count t hlo hhi hlast hlast' hgranted =>
    obtain ⟨hwf, hle, rfl, hburst⟩ := h.wf b hlast
    refine ⟨htracks _ hlast' (TokenBucket.wf_tryConsume hwf _ _)
      ((TokenBucket.tryConsume_lastRefillTime_le (hle.trans hlo)).trans hhi) (by simp)
      (by simpa using hburst), ?_⟩
    have hpaid := TokenBucket.tryConsume_tokens_add_le hwf count hlo hhi
    rw [hgranted, saved, saved, hlast, hlast', add_zero]
    dsimp only
    linarith
  | listed t hhi hlast hlast' hgranted =>
    obtain ⟨hwf, hle, hr, hburst⟩ := created_at hrate t
    have htracks' := htracks _ hlast' hwf (hle.le.trans hhi) hr hburst
    refine ⟨htracks', ?_⟩
    have hfull := htracks'.saved_le hi
    have hearned := mul_nonneg (elapsedSeconds_nonneg.mpr hop.le) hrate
    rw [hgranted, saved.eq_def s, hlast]
    dsimp only
    linarith
  | relisted b t hlo hhi hlast hlast' hgranted =>
    obtain ⟨hwf, hle, hr, hburst⟩ := created_at hrate t
    refine ⟨htracks _ hlast' hwf (hle.le.trans hhi) hr hburst, ?_⟩
    -- the new bucket starts from the allocation, the old one's tokens being minted up to it
    obtain ⟨hwfb, -, hrb, -⟩ := h.wf b hlast
    have hlater := TokenBucket.refillLocked_tokens_le hwf hi
    have hearlier := TokenBucket.refillLocked_tokens_le_add hwfb hlo
    rw [hle, hr, forwardSeconds_of_le hhi, TokenBucket.new_tokens, hburst] at hlater
    rw [hrb] at hearlier
    rw [hgranted, saved, saved, hlast, hlast', ← elapsedSeconds_add lo t hi, add_mul]
    dsimp only
    linarith

/-- **A whole run.** -/
theorem Tracks.run (h : s.Tracks r rate lo) (hrate : 0 ≤ rate) {ops : List ClientOp}
    (hops : Clocked lo ops hi) (happlies : ∀ op ∈ ops, op.ReappliesOrDrops r rate) :
    (s.run r ops).Tracks r rate hi ∧
      (s.run r ops).saved rate hi + (s.run r ops).client.granted r + s.minted ≤
        s.saved rate lo + elapsedSeconds ℚ lo hi * rate + (s.run r ops).minted +
          s.client.granted r := by
  induction ops generalizing s lo with
  | nil =>
    have hwait := h.saved_wait hrate hops
    refine ⟨h.mono hops, ?_⟩
    rw [show s.run r [] = s from rfl]
    linarith
  | cons op ops ih =>
    obtain ⟨mid, hop, hops⟩ := hops
    obtain ⟨hstep, hpaid⟩ := h.step hrate hop (happlies op List.mem_cons_self)
    obtain ⟨hrun, hrest⟩ := ih hstep hops fun op' hop' => happlies op' (List.mem_cons_of_mem _ hop')
    refine ⟨hrun, ?_⟩
    have hminted : (s.step r op).minted = s.minted + s.mints r op := rfl
    rw [show s.run r (op :: ops) = (s.step r op).run r ops from rfl,
      ← elapsedSeconds_add lo mid hi, add_mul]
    linarith

/-- **Late re-listings mint nothing.** -/
theorem Tracks.minted_eq (h : s.Tracks r rate lo) (hrate : 0 ≤ rate) {ops : List ClientOp}
    (hops : Clocked lo ops hi) (happlies : ∀ op ∈ ops, op.ReappliesOrDrops r rate)
    (hlate : s.AllRelistLate r ops) : (s.run r ops).minted = s.minted := by
  induction ops generalizing s lo with
  | nil => rfl
  | cons op ops ih =>
    obtain ⟨mid, hop, hops⟩ := hops
    obtain ⟨hnow, hlater⟩ := hlate
    have happly := happlies op List.mem_cons_self
    obtain ⟨hstep, -⟩ := h.step hrate hop happly
    calc (s.run r (op :: ops)).minted = (s.step r op).minted :=
          ih hstep hops (fun op' hop' => happlies op' (List.mem_cons_of_mem _ hop')) hlater
      _ = s.minted + s.mints r op := rfl
      _ = s.minted := by rw [h.mints_eq_zero happly hnow, add_zero]

/-- **What a window grants of a resource that is dropped and re-listed**:
at most its allocation, what that earns, and what the re-listings in it
mint. They mint nothing, and the window keeps to the first two, if each
comes a second or more after the bucket it replaces was last used. -/
theorem granted_le_minted (hrate : 0 ≤ rate) {start t₀ t₁ : TimePoint}
    {before window : List ClientOp} (hbefore : Clocked start before t₀)
    (hwindow : Clocked t₀ window t₁)
    (happlies : ∀ op ∈ before ++ window, op.ReappliesOrDrops r rate) :
    (Client.new.run (before ++ window)).granted r - (Client.new.run before).granted r ≤
        rate + rate * elapsedSeconds ℚ t₀ t₁ +
          ((new.run r (before ++ window)).minted - (new.run r before).minted) ∧
      ((new.run r before).AllRelistLate r window →
        (Client.new.run (before ++ window)).granted r - (Client.new.run before).granted r ≤
          rate + rate * elapsedSeconds ℚ t₀ t₁) := by
  obtain ⟨hearlier, -⟩ := (tracks_new r rate start).run hrate hbefore fun op hop =>
    happlies op (List.mem_append_left _ hop)
  have hlist : ∀ op ∈ window, op.ReappliesOrDrops r rate := fun op hop =>
    happlies op (List.mem_append_right _ hop)
  obtain ⟨hend, hpaid⟩ := hearlier.run hrate hwindow hlist
  have hstart := hearlier.saved_le t₀
  have hleft := hend.saved_nonneg hrate t₁
  rw [run_client, run_client, show new.client = Client.new from rfl] at hpaid
  have hbound : (Client.new.run (before ++ window)).granted r - (Client.new.run before).granted r ≤
      rate + rate * elapsedSeconds ℚ t₀ t₁ +
        ((new.run r (before ++ window)).minted - (new.run r before).minted) := by
    rw [run_append, Client.run_append]
    linarith
  refine ⟨hbound, fun hlate => ?_⟩
  have hnone := hearlier.minted_eq hrate hwindow hlist hlate
  rw [run_append, hnone, sub_self, add_zero] at hbound
  exact hbound

/-- Resource `1` is listed at ten and drained, left out, listed again and
drained again, all at one reading. -/
def drainedTwice : List ClientOp :=
  [.updateTokenBuckets (fun _ => 0) ((∅ : OrderedMap ResourceId ℚ).insert 1 10),
   .acquire ⟨1, 10, none⟩ 0,
   .updateTokenBuckets (fun _ => 0) ∅,
   .updateTokenBuckets (fun _ => 0) ((∅ : OrderedMap ResourceId ℚ).insert 1 10),
   .acquire ⟨1, 10, none⟩ 0]

theorem drainedTwice_clocked : Clocked 0 drainedTwice 0 :=
  ⟨0, fun _ => ⟨le_rfl, le_rfl⟩, 0, ⟨le_rfl, le_rfl⟩, 0, fun _ => ⟨le_rfl, le_rfl⟩,
    0, fun _ => ⟨le_rfl, le_rfl⟩, 0, ⟨le_rfl, le_rfl⟩, le_rfl⟩

theorem drainedTwice_reappliesOrDrops : ∀ op ∈ drainedTwice, op.ReappliesOrDrops 1 10 := by
  intro op hop
  simp only [drainedTwice, List.mem_cons, List.not_mem_nil, or_false] at hop
  rcases hop with rfl | rfl | rfl | rfl | rfl
  · exact .inl (by simp)
  · trivial
  · exact .inr (by simp)
  · exact .inl (by simp)
  · trivial

/-- The re-listing mints the ten tokens the bound needs. -/
theorem drainedTwice_granted_le :
    (Client.new.run drainedTwice).granted 1 - (Client.new.run []).granted 1 = 20 ∧
      (Client.new.run drainedTwice).granted 1 - (Client.new.run []).granted 1 ≤
        10 + 10 * elapsedSeconds ℚ 0 0 +
          ((new.run 1 drainedTwice).minted - (new.run 1 []).minted) :=
  ⟨by decide +kernel, (granted_le_minted (by norm_num) (show Clocked 0 [] 0 from le_rfl)
    drainedTwice_clocked drainedTwice_reappliesOrDrops).1⟩

/-- **Re-listing mints.** A moment grants twice the allocation, the bucket
made anew being full. -/
theorem relisting_mints :
    ¬ ∀ (start t₀ t₁ : TimePoint) (before window : List ClientOp) (r : ResourceId) (rate : ℚ),
      0 ≤ rate → Clocked start before t₀ → Clocked t₀ window t₁ →
      (∀ op ∈ before ++ window, op.ReappliesOrDrops r rate) →
      (Client.new.run (before ++ window)).granted r - (Client.new.run before).granted r ≤
        rate + rate * elapsedSeconds ℚ t₀ t₁ := by
  intro hall
  have h := hall 0 0 0 [] drainedTwice 1 10 (by norm_num) le_rfl drainedTwice_clocked
    drainedTwice_reappliesOrDrops
  exact absurd h (by decide +kernel)

end Relisting

end Throttling
