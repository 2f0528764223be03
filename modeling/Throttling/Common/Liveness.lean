import Throttling.Common.System
import Mathlib.Algebra.Order.Group.Nat
import Mathlib.Data.Finset.Card
import Mathlib.Order.WellFounded
/-!
# What must happen

An execution of a guarded system goes on forever; where nothing is left
to do it stands still. A class of actions, such as those of one thread,
is treated fairly weakly, if it acts whenever it could from some time on,
or strongly, if it does whenever it could again and again.

What must happen is said by `Leads`: wherever the first holds, the second
holds then or later. `leads_of_actsIn` is the rule by which one step of a
class that acts brings it about, `leads_of_rank` the one for a loop. A
finished run is an execution fair to all that are done (`ofRun`), any run
goes on fairly to countably many classes (`ofRunFairly`), and a schedule is
followed as far as it goes (`ofSchedule`).
-/

namespace GuardedSystem

variable {σ α : Type*}

/-- **An execution**: a state at each time, and the action that follows it,
if any does. -/
structure Execution (M : GuardedSystem σ α) where
  state : ℕ → σ
  action : ℕ → Option α
  start : state 0 = M.init
  moved : ∀ n a, action n = some a → M.step (state n) a = some (state (n + 1))
  rested : ∀ n, action n = none → state (n + 1) = state n

/-- Some action of a class can happen. -/
def Enabled (M : GuardedSystem σ α) (p : α → Prop) (s : σ) : Prop :=
  ∃ a, p a ∧ (M.step s a).isSome = true

namespace Execution

variable {M : GuardedSystem σ α} (E : M.Execution)

/-- Every action meets a condition in the state it happens in. -/
def Via (C : σ → α → Prop) : Prop := ∀ (n : ℕ) (a : α), E.action n = some a → C (E.state n) a

/-- **Weakly fair**: a class that can act from some time on does. -/
def WeaklyFair (p : α → Prop) : Prop :=
  ∀ n : ℕ, (∀ m, n ≤ m → M.Enabled p (E.state m)) →
    ∃ m, n ≤ m ∧ ∃ a, E.action m = some a ∧ p a

/-- **Strongly fair**: a class that can act again and again does. -/
def StronglyFair (p : α → Prop) : Prop :=
  ∀ n : ℕ, (∀ k, n ≤ k → ∃ m, k ≤ m ∧ M.Enabled p (E.state m)) →
    ∃ m, n ≤ m ∧ ∃ a, E.action m = some a ∧ p a

/-- **Wherever the first holds, the second holds then or later.** -/
def Leads (P Q : σ → Prop) : Prop := ∀ n : ℕ, P (E.state n) → ∃ m, n ≤ m ∧ Q (E.state m)

variable {E} {C : σ → α → Prop} {p : α → Prop} {P Q : σ → Prop}

theorem StronglyFair.weaklyFair (h : E.StronglyFair p) : E.WeaklyFair p :=
  fun n hall => h n fun k hk => ⟨k, le_rfl, hall k hk⟩

/-! ## The states of an execution -/

/-- **Every state of an execution is reached**, by steps that meet what its
actions do. -/
theorem reachableVia (h : E.Via C) (n : ℕ) : M.ReachableVia C (E.state n) := by
  induction n with
  | zero =>
    rw [E.start]
    exact .init
  | succ n ih =>
    cases haction : E.action n with
    | none =>
      rw [E.rested n haction]
      exact ih
    | some a => exact ih.step (h n a haction) (E.moved n a haction)

theorem reachable (n : ℕ) : M.Reachable (E.state n) := reachableVia (fun _ _ _ => trivial) n

/-- **From one time to a later one an execution is a run**, through the
states between them. -/
theorem exists_run {n m : ℕ} (hle : n ≤ m) : ∃ V, M.Run (E.state n) V (E.state m) ∧
    ∀ s ∈ V, ∃ k, n ≤ k ∧ k ≤ m ∧ E.state k = s := by
  induction m, hle using Nat.le_induction with
  | base =>
    refine ⟨_, .start, fun s hs => ⟨n, le_rfl, le_rfl, ?_⟩⟩
    exact (List.mem_singleton.mp hs).symm
  | succ m hle ih =>
    obtain ⟨V, hrun, hbetween⟩ := ih
    cases haction : E.action m with
    | none =>
      rw [E.rested m haction]
      refine ⟨V, hrun, fun s hs => ?_⟩
      obtain ⟨k, hk, hkm, heq⟩ := hbetween s hs
      exact ⟨k, hk, by omega, heq⟩
    | some a =>
      refine ⟨_, hrun.step (E.moved m a haction), fun s hs => ?_⟩
      rcases List.mem_cons.mp hs with rfl | hs
      · exact ⟨m + 1, by omega, le_rfl, rfl⟩
      · obtain ⟨k, hk, hkm, heq⟩ := hbetween s hs
        exact ⟨k, hk, by omega, heq⟩

/-- What no action changes stays. -/
theorem stays {n m : ℕ} (hle : n ≤ m) (hP : P (E.state n))
    (h : ∀ (k : ℕ) (a : α), n ≤ k → k < m → E.action k = some a → P (E.state k) → P (E.state (k + 1))) :
    P (E.state m) := by
  induction m, hle using Nat.le_induction with
  | base => exact hP
  | succ m hle ih =>
    have hm := ih fun k a hk hlt => h k a hk (Nat.lt_succ_of_lt hlt)
    cases haction : E.action m with
    | none =>
      rw [E.rested m haction]
      exact hm
    | some a => exact h m a hle (Nat.lt_succ_self m) haction hm

/-! ## Rules -/

/-- **A loop ends**: what leads to a lower rank or out of it leads out. -/
theorem leads_of_rank (rank : σ → ℕ)
    (h : ∀ k : ℕ, E.Leads (fun s => P s ∧ rank s = k) fun s => Q s ∨ P s ∧ rank s < k) :
    E.Leads P Q := by
  have hall : ∀ k n, P (E.state n) → rank (E.state n) = k → ∃ m, n ≤ m ∧ Q (E.state m) := by
    intro k
    induction k using Nat.strong_induction_on with
    | _ k ih =>
      intro n hP hrank
      obtain ⟨m, hm, hQ | ⟨hP', hlt⟩⟩ := h k n ⟨hP, hrank⟩
      · exact ⟨m, hm, hQ⟩
      · obtain ⟨m', hm', hQ⟩ := ih _ hlt m hP' rfl
        exact ⟨m', by omega, hQ⟩
  exact fun n hP => hall _ n hP rfl

/-- **A class acts** unless a condition is left first. -/
def ActsIn (E : M.Execution) (p : α → Prop) (P : σ → Prop) : Prop :=
  ∀ n, (∀ m, n ≤ m → P (E.state m)) → ∃ m, n ≤ m ∧ ∃ a, E.action m = some a ∧ p a

theorem WeaklyFair.actsIn (hfair : E.WeaklyFair p)
    (henabled : ∀ n : ℕ, P (E.state n) → M.Enabled p (E.state n)) : E.ActsIn p P :=
  fun n hall => hfair n fun m hm => henabled m (hall m hm)

theorem StronglyFair.actsIn (hfair : E.StronglyFair p)
    (henabled : ∀ n : ℕ, (∀ m, n ≤ m → P (E.state m)) →
      ∃ m, n ≤ m ∧ M.Enabled p (E.state m)) : E.ActsIn p P :=
  fun n hall => hfair n fun k hk => henabled k fun m hm => hall m (hk.trans hm)

/-- **A class that acts** finds the condition still there. -/
theorem exists_action {n : ℕ} (hP : P (E.state n))
    (hacts : (∀ m, n ≤ m → P (E.state m)) → ∃ m, n ≤ m ∧ ∃ a, E.action m = some a ∧ p a)
    (hothers : ∀ (m : ℕ) (a : α), n ≤ m → P (E.state m) → E.action m = some a → ¬ p a →
      P (E.state (m + 1))) :
    ∃ m a, n ≤ m ∧ P (E.state m) ∧ E.action m = some a ∧ p a := by
  by_contra hnever
  -- then the condition stays, and the class acts at last
  have hforever : ∀ m, n ≤ m → P (E.state m) := by
    intro m hm
    refine stays hm hP fun k a hk _ haction hPk => ?_
    by_cases ha : p a
    · exact absurd ⟨k, a, hk, hPk, haction, ha⟩ hnever
    · exact hothers k a hk hPk haction ha
  obtain ⟨m, hm, a, haction, ha⟩ := hacts hforever
  exact hnever ⟨m, a, hm, hforever m hm, haction, ha⟩

/-- **A fair class acts** where it can go on acting until it does. -/
theorem exists_action_of_weaklyFair {n : ℕ} (hP : P (E.state n)) (hfair : E.WeaklyFair p)
    (henabled : ∀ m, n ≤ m → P (E.state m) → M.Enabled p (E.state m))
    (hothers : ∀ (m : ℕ) (a : α), n ≤ m → P (E.state m) → E.action m = some a → ¬ p a →
      P (E.state (m + 1))) :
    ∃ m a, n ≤ m ∧ P (E.state m) ∧ E.action m = some a ∧ p a :=
  exists_action hP (fun hall => hfair n fun m hm => henabled m hm (hall m hm)) hothers

/-- **One step of a class that acts.** Where the first holds its actions
bring the second about, and others leave the first or bring the second
about as well. -/
theorem leads_of_actsIn (hacts : E.ActsIn p P)
    (hprogress : ∀ (n : ℕ) (a : α), P (E.state n) → E.action n = some a → p a → Q (E.state (n + 1)))
    (hothers : ∀ (n : ℕ) (a : α), P (E.state n) → E.action n = some a → ¬ p a →
      P (E.state (n + 1)) ∨ Q (E.state (n + 1))) : E.Leads P Q := by
  intro n hP
  by_contra hnever
  have hnot : ∀ m, n ≤ m → ¬ Q (E.state m) := fun m hm hQ => hnever ⟨m, hm, hQ⟩
  obtain ⟨m, a, hm, hPm, haction, ha⟩ := exists_action hP (hacts n) fun m a hm hPm haction ha =>
    (hothers m a hPm haction ha).resolve_right (hnot (m + 1) (by omega))
  exact hnot (m + 1) (by omega) (hprogress m a hPm haction ha)

/-- **One step of a fair class**, which can act wherever the first holds. -/
theorem leads_of_weaklyFair (hfair : E.WeaklyFair p)
    (henabled : ∀ n : ℕ, P (E.state n) → M.Enabled p (E.state n))
    (hprogress : ∀ (n : ℕ) (a : α), P (E.state n) → E.action n = some a → p a → Q (E.state (n + 1)))
    (hothers : ∀ (n : ℕ) (a : α), P (E.state n) → E.action n = some a → ¬ p a →
      P (E.state (n + 1)) ∨ Q (E.state (n + 1))) : E.Leads P Q :=
  leads_of_actsIn (hfair.actsIn henabled) hprogress hothers

/-- **Steps of a class in a loop**: each of its actions lowers a rank or ends
the loop, and others keep the rank or end it. -/
theorem leads_of_actsIn_rank (rank : σ → ℕ) (hacts : E.ActsIn p P)
    (hprogress : ∀ (n : ℕ) (a : α), P (E.state n) → E.action n = some a → p a →
      Q (E.state (n + 1)) ∨ P (E.state (n + 1)) ∧ rank (E.state (n + 1)) < rank (E.state n))
    (hothers : ∀ (n : ℕ) (a : α), P (E.state n) → E.action n = some a → ¬ p a →
      Q (E.state (n + 1)) ∨ P (E.state (n + 1)) ∧ rank (E.state (n + 1)) = rank (E.state n)) :
    E.Leads P Q := by
  refine leads_of_rank rank fun k => ?_
  refine leads_of_actsIn (fun n hall => hacts n fun m hm => (hall m hm).1) ?_ ?_
  · rintro n a ⟨hP, rfl⟩ haction ha
    exact hprogress n a hP haction ha
  · rintro n a ⟨hP, rfl⟩ haction ha
    rcases hothers n a hP haction ha with hQ | ⟨hP', hsame⟩
    · exact .inr (.inl hQ)
    · exact .inl ⟨hP', hsame⟩

/-- **Steps of a fair class in a loop.** -/
theorem leads_of_weaklyFair_rank (rank : σ → ℕ) (hfair : E.WeaklyFair p)
    (henabled : ∀ n : ℕ, P (E.state n) → M.Enabled p (E.state n))
    (hprogress : ∀ (n : ℕ) (a : α), P (E.state n) → E.action n = some a → p a →
      Q (E.state (n + 1)) ∨ P (E.state (n + 1)) ∧ rank (E.state (n + 1)) < rank (E.state n))
    (hothers : ∀ (n : ℕ) (a : α), P (E.state n) → E.action n = some a → ¬ p a →
      Q (E.state (n + 1)) ∨ P (E.state (n + 1)) ∧ rank (E.state (n + 1)) = rank (E.state n)) :
    E.Leads P Q :=
  leads_of_actsIn_rank rank (hfair.actsIn henabled) hprogress hothers

/-! ## Part of a system -/

section Part

variable {σ' α' : Type*} {N : GuardedSystem σ' α'}

/-- **A part of a system**, seen from a time on at which it begins, has an
execution of its own, if it moves by its own actions only. -/
def ofPart (E : M.Execution) (view : σ → σ') (part : α → Option α') (n : ℕ)
    (hstart : view (E.state n) = N.init)
    (hmoved : ∀ (k : ℕ) (a : α) (b : α'), n ≤ k → E.action k = some a → part a = some b →
      N.step (view (E.state k)) b = some (view (E.state (k + 1))))
    (hrested : ∀ (k : ℕ) (a : α), n ≤ k → E.action k = some a → part a = none →
      view (E.state (k + 1)) = view (E.state k)) : N.Execution where
  state k := view (E.state (n + k))
  action k := (E.action (n + k)).bind part
  start := hstart
  moved k b hb := by
    obtain ⟨a, ha, hpart⟩ := Option.bind_eq_some_iff.mp hb
    exact hmoved (n + k) a b (Nat.le_add_right n k) ha hpart
  rested k hnone := by
    cases haction : E.action (n + k) with
    | none => exact congrArg view (E.rested (n + k) haction)
    | some a =>
      rw [haction] at hnone
      exact hrested (n + k) a (Nat.le_add_right n k) haction hnone

variable {view : σ → σ'} {part : α → Option α'} {n : ℕ} {hstart : view (E.state n) = N.init}
  {hmoved : ∀ (k : ℕ) (a : α) (b : α'), n ≤ k → E.action k = some a → part a = some b →
    N.step (view (E.state k)) b = some (view (E.state (k + 1)))}
  {hrested : ∀ (k : ℕ) (a : α), n ≤ k → E.action k = some a → part a = none →
    view (E.state (k + 1)) = view (E.state k)} {q : α' → Prop}

/-- **Its actions are treated fairly** where they are those of a class that
is, and nothing but the part itself keeps them from happening. -/
theorem weaklyFair_ofPart (hfair : E.WeaklyFair p) (hp : ∀ a, p a → ∃ b, part a = some b ∧ q b)
    (henabled : ∀ k, n ≤ k → N.Enabled q (view (E.state k)) → M.Enabled p (E.state k)) :
    (E.ofPart view part n hstart hmoved hrested).WeaklyFair q := by
  intro m hall
  obtain ⟨k, hk, a, haction, ha⟩ := hfair (n + m) fun k hk => by
    refine henabled k (by omega) ?_
    have hview := hall (k - n) (by omega)
    change N.Enabled q (view (E.state (n + (k - n)))) at hview
    rw [Nat.add_sub_cancel' (by omega)] at hview
    exact hview
  obtain ⟨b, hb, hq⟩ := hp a ha
  refine ⟨k - n, by omega, b, ?_, hq⟩
  change (E.action (n + (k - n))).bind part = some b
  rw [Nat.add_sub_cancel' (by omega), haction]
  exact hb

end Part

/-! ## Runs that are over -/

/-- The state a run has come to after some actions, and stays in. -/
def stateAfter (M : GuardedSystem σ α) (as : List α) (n : ℕ) : σ :=
  (M.runFrom M.init (as.take n)).getD M.init

theorem runFrom_take_succ {s s' : σ} {as : List α} (h : M.runFrom s as = some s') {n : ℕ} {a : α}
    (ha : as[n]? = some a) :
    ∃ mid next, M.runFrom s (as.take n) = some mid ∧ M.step mid a = some next ∧
      M.runFrom s (as.take (n + 1)) = some next := by
  induction as generalizing s n with
  | nil => cases ha
  | cons b as ih =>
    rw [runFrom] at h
    obtain ⟨s₁, hstep, hrest⟩ := Option.bind_eq_some_iff.mp h
    cases n with
    | zero =>
      obtain rfl : b = a := by simpa using ha
      exact ⟨s, s₁, rfl, hstep, by simp [runFrom, hstep]⟩
    | succ n =>
      obtain ⟨mid, next, hmid, hnext, hlast⟩ := ih hrest (n := n) (by simpa using ha)
      refine ⟨mid, next, ?_, hnext, ?_⟩
      · simpa [runFrom, hstep] using hmid
      · simpa [runFrom, hstep] using hlast

/-- **A run that is over**, standing still from then on. -/
def ofRun {as : List α} {s : σ} (h : M.runFrom M.init as = some s) : M.Execution where
  state := stateAfter M as
  action n := as[n]?
  start := rfl
  moved n a ha := by
    obtain ⟨mid, next, hmid, hstep, hnext⟩ := runFrom_take_succ h ha
    rw [stateAfter, stateAfter, hmid, hnext]
    exact hstep
  rested n hn := by
    have hlength : as.length ≤ n := List.getElem?_eq_none_iff.mp hn
    rw [stateAfter, stateAfter, List.take_of_length_le hlength,
      List.take_of_length_le (by omega)]

theorem ofRun_state_of_le {as : List α} {s : σ} (h : M.runFrom M.init as = some s) {n : ℕ}
    (hn : as.length ≤ n) : (ofRun h).state n = s := by
  change stateAfter M as n = s
  rw [stateAfter, List.take_of_length_le hn, h]
  rfl

/-- A run that meets a condition is a run. -/
theorem runFrom_of_runVia [∀ s a, Decidable (C s a)] {s s' : σ} {as : List α}
    (h : M.runVia C s as = some s') : M.runFrom s as = some s' := by
  induction as generalizing s with
  | nil => exact h
  | cons a as ih =>
    rw [runVia] at h
    split at h
    · obtain ⟨s₁, hstep, hrest⟩ := Option.bind_eq_some_iff.mp h
      rw [runFrom, hstep]
      exact ih hrest
    · cases h

theorem exists_of_runVia [∀ s a, Decidable (C s a)] {s s' : σ} {as : List α}
    (h : M.runVia C s as = some s') {n : ℕ} {a : α} (ha : as[n]? = some a) :
    ∃ mid, M.runFrom s (as.take n) = some mid ∧ C mid a := by
  induction as generalizing s n with
  | nil => cases ha
  | cons b as ih =>
    rw [runVia] at h
    split at h
    · rename_i hC
      obtain ⟨s₁, hstep, hrest⟩ := Option.bind_eq_some_iff.mp h
      cases n with
      | zero =>
        obtain rfl : b = a := by simpa using ha
        exact ⟨s, rfl, hC⟩
      | succ n =>
        obtain ⟨mid, hmid, hCmid⟩ := ih hrest (n := n) (by simpa using ha)
        exact ⟨mid, by simpa [runFrom, hstep] using hmid, hCmid⟩
    · cases h

/-- **Its actions meet what the run's do.** -/
theorem via_ofRun [∀ s a, Decidable (C s a)] {as : List α} {s : σ}
    (h : M.runVia C M.init as = some s) : (ofRun (runFrom_of_runVia h)).Via C := by
  intro n a ha
  obtain ⟨mid, hmid, hC⟩ := exists_of_runVia h ha
  change C (stateAfter M as n) a
  rw [stateAfter, hmid]
  exact hC

/-- **It is fair to whoever has nothing left to do.** -/
theorem stronglyFair_ofRun {as : List α} {s : σ} (h : M.runFrom M.init as = some s)
    (hdone : ¬ M.Enabled p s) : (ofRun h).StronglyFair p := by
  intro n hagain
  obtain ⟨m, hm, henabled⟩ := hagain (max n as.length) (le_max_left _ _)
  rw [ofRun_state_of_le h ((le_max_right _ _).trans hm)] at henabled
  exact absurd henabled hdone

/-! ## Schedules -/

/-- The states when a schedule is followed, passing over what cannot
happen. -/
def followed (M : GuardedSystem σ α) (schedule : ℕ → α) : ℕ → σ
  | 0 => M.init
  | n + 1 => (M.step (followed M schedule n) (schedule n)).getD (followed M schedule n)

/-- **An execution that follows a schedule.** -/
def ofSchedule (M : GuardedSystem σ α) (schedule : ℕ → α) : M.Execution where
  state := followed M schedule
  action n :=
    if (M.step (followed M schedule n) (schedule n)).isSome then some (schedule n) else none
  start := rfl
  moved n a ha := by
    split at ha
    · rename_i hcan
      obtain rfl := Option.some.inj ha
      obtain ⟨s', hs'⟩ := Option.isSome_iff_exists.mp hcan
      rw [followed, hs']
      rfl
    · cases ha
  rested n hnone := by
    split at hnone
    · cases hnone
    · rename_i hcannot
      rw [followed, Option.not_isSome_iff_eq_none.mp hcannot]
      rfl

theorem ofSchedule_action {schedule : ℕ → α} {n : ℕ} {a : α}
    (h : (ofSchedule M schedule).action n = some a) : schedule n = a := by
  change (if (M.step (followed M schedule n) (schedule n)).isSome then some (schedule n)
    else none) = some a at h
  split at h
  · exact Option.some.inj h
  · cases h

/-- **It is fair to a class it comes back to** with an action that can
happen whenever one of the class can. -/
theorem weaklyFair_ofSchedule {schedule : ℕ → α}
    (h : ∀ n : ℕ, ∃ m, n ≤ m ∧ p (schedule m) ∧
      ∀ s, M.Enabled p s → (M.step s (schedule m)).isSome = true) :
    (ofSchedule M schedule).WeaklyFair p := by
  intro n henabled
  obtain ⟨m, hm, hp, hcan⟩ := h n
  exact ⟨m, hm, schedule m, if_pos (hcan _ (henabled m hm)), hp⟩

/-! ## Fair executions exist -/

section Scheduler

open Classical in
/-- An action of a class, where one can happen. -/
noncomputable def pick (M : GuardedSystem σ α) (p : α → Prop) (s : σ) : Option α :=
  if h : M.Enabled p s then some h.choose else none

theorem pick_spec {s : σ} {a : α} (h : pick M p s = some a) :
    p a ∧ (M.step s a).isSome = true := by
  unfold pick at h
  split at h
  · rename_i henabled
    rw [← Option.some.inj h]
    exact henabled.choose_spec
  · cases h

theorem pick_isSome {s : σ} (h : M.Enabled p s) : ∃ a, pick M p s = some a :=
  ⟨h.choose, dif_pos h⟩

open Classical in
/-- The class that acts next, each having a place in a queue: the first of
those that can. -/
noncomputable def nextClass (M : GuardedSystem σ α) (classes : ℕ → α → Prop) (s : σ)
    (places : ℕ → ℕ) : Option ℕ :=
  if h : ∃ k, M.Enabled (classes k) s ∧ ∀ j, M.Enabled (classes j) s → places k ≤ places j then
    some h.choose
  else none

/-- The states when it does, and goes to the end of the queue. -/
noncomputable def scheduled (M : GuardedSystem σ α) (classes : ℕ → α → Prop) (s : σ) :
    ℕ → σ × (ℕ → ℕ)
  | 0 => (s, id)
  | n + 1 =>
    let (s', places) := scheduled M classes s n
    match nextClass M classes s' places with
    | some k =>
      (((pick M (classes k) s').bind (M.step s')).getD s', Function.update places k (n + 1 + k))
    | none => (s', places)

/-- The action of a class whose turn it is. -/
noncomputable def actionAt (M : GuardedSystem σ α) (classes : ℕ → α → Prop) (s : σ) (n : ℕ) :
    Option α :=
  let (s', places) := scheduled M classes s n
  (nextClass M classes s' places).bind fun k => pick M (classes k) s'

section Queue

variable {classes : ℕ → α → Prop} {s : σ} {places : ℕ → ℕ} {a : α} {k n : ℕ}

theorem enabled_of_nextClass (h : nextClass M classes s places = some k) :
    M.Enabled (classes k) s := by
  unfold nextClass at h
  split at h
  · rename_i hfirst
    exact Option.some.inj h ▸ hfirst.choose_spec.1
  · cases h

/-- **Whoever can act finds the turn to be at itself or at one before it.** -/
theorem exists_nextClass (h : M.Enabled (classes k) s) (places : ℕ → ℕ) :
    ∃ j, nextClass M classes s places = some j ∧ places j ≤ places k := by
  have hfirst : ∃ k, M.Enabled (classes k) s ∧
      ∀ j, M.Enabled (classes j) s → places k ≤ places j := by
    have hmem := Function.argminOn_mem places {k | M.Enabled (classes k) s} ⟨k, h⟩
    exact ⟨_, hmem, fun j hj => Function.argminOn_le places {k | M.Enabled (classes k) s} hj⟩
  exact ⟨_, dif_pos hfirst, hfirst.choose_spec.2 k h⟩

variable (M classes s) in
theorem state_scheduled (n : ℕ) : (scheduled M classes s (n + 1)).1 =
    ((actionAt M classes s n).bind (M.step (scheduled M classes s n).1)).getD
      (scheduled M classes s n).1 := by
  rw [scheduled, actionAt]
  dsimp only
  split
  · rename_i k hnext
    rw [hnext]
    rfl
  · rename_i hnext
    rw [hnext]
    rfl

theorem actionAt_spec (h : actionAt M classes s n = some a) : (∃ k, classes k a) ∧
    M.step (scheduled M classes s n).1 a = some (scheduled M classes s (n + 1)).1 := by
  have hstate := state_scheduled M classes s n
  obtain ⟨k, -, hpick⟩ := Option.bind_eq_some_iff.mp h
  obtain ⟨ha, hsome⟩ := pick_spec hpick
  obtain ⟨s', hs'⟩ := Option.isSome_iff_exists.mp hsome
  rw [h, Option.bind_some, hs'] at hstate
  exact ⟨⟨k, ha⟩, hs'.trans (congrArg some hstate.symm)⟩

/-- Who acts goes to the end, and everybody else keeps its place. -/
theorem places_scheduled (n j : ℕ) : (scheduled M classes s (n + 1)).2 j =
    if nextClass M classes (scheduled M classes s n).1 (scheduled M classes s n).2 = some j
      then n + 1 + j else (scheduled M classes s n).2 j := by
  rw [scheduled]
  dsimp only
  split
  · rename_i k hnext
    rw [hnext]
    dsimp only
    rw [Function.update_apply]
    by_cases hj : j = k
    · subst hj
      rw [if_pos rfl, if_pos rfl]
    · rw [if_neg hj, if_neg fun heq => hj (Option.some.inj heq).symm]
  · rename_i hnext
    rw [hnext, if_neg (Option.some_ne_none j).symm]

variable (M classes s) in
theorem le_places (n j : ℕ) : j ≤ (scheduled M classes s n).2 j := by
  induction n with
  | zero => exact le_rfl
  | succ n ih =>
    rw [places_scheduled]
    split <;> omega

/-- Who is no further back than a place. -/
noncomputable def ahead (M : GuardedSystem σ α) (classes : ℕ → α → Prop) (s : σ)
    (place n : ℕ) : Finset ℕ :=
  (Finset.range (place + 1)).filter fun j => (scheduled M classes s n).2 j ≤ place

theorem mem_ahead {place j : ℕ} :
    j ∈ ahead M classes s place n ↔ (scheduled M classes s n).2 j ≤ place := by
  rw [ahead, Finset.mem_filter, Finset.mem_range]
  have hle := le_places M classes s n j
  exact ⟨And.right, fun h => ⟨by omega, h⟩⟩

/-- Nobody goes ahead of a place any more from a time on. -/
theorem ahead_subset {place : ℕ} (hn : place ≤ n) :
    ahead M classes s place (n + 1) ⊆ ahead M classes s place n := by
  intro j hj
  rw [mem_ahead, places_scheduled] at hj
  rw [mem_ahead]
  split at hj
  · omega
  · exact hj

theorem card_ahead_le (s : σ) {place m : ℕ} (hn : place ≤ n) (hle : n ≤ m) :
    (ahead M classes s place m).card ≤ (ahead M classes s place n).card := by
  induction m, hle using Nat.le_induction with
  | base => exact le_rfl
  | succ m hle ih => exact (Finset.card_le_card (ahead_subset (hn.trans hle))).trans ih

/-- And whoever can act at a place finds one less ahead of it. -/
theorem card_ahead_lt (place : ℕ) (hn : place ≤ n)
    (henabled : M.Enabled (classes k) (scheduled M classes s n).1)
    (hplace : (scheduled M classes s n).2 k ≤ place) :
    (ahead M classes s place (n + 1)).card < (ahead M classes s place n).card := by
  obtain ⟨j, hnext, hle⟩ := exists_nextClass henabled (scheduled M classes s n).2
  refine Finset.card_lt_card ((Finset.ssubset_iff_of_subset (ahead_subset hn)).mpr
    ⟨j, mem_ahead.mpr (hle.trans hplace), fun hj => ?_⟩)
  rw [mem_ahead, places_scheduled, if_pos hnext] at hj
  omega

/-- **A class that can act again and again does.** -/
theorem exists_actionAt (s : σ) (hagain : ∀ m, n ≤ m → ∃ j, m ≤ j ∧
    M.Enabled (classes k) (scheduled M classes s j).1) :
    ∃ m a, n ≤ m ∧ actionAt M classes s m = some a ∧ classes k a := by
  by_contra hnever
  have hstays : ∀ m, n ≤ m → (scheduled M classes s m).2 k = (scheduled M classes s n).2 k := by
    intro m hm
    induction m, hm using Nat.le_induction with
    | base => rfl
    | succ m hm ih =>
      rw [places_scheduled, if_neg, ih]
      intro hnext
      obtain ⟨a, ha⟩ := pick_isSome (enabled_of_nextClass hnext)
      refine hnever ⟨m, a, hm, ?_, (pick_spec ha).1⟩
      rw [actionAt]
      exact Option.bind_eq_some_iff.mpr ⟨k, hnext, ha⟩
  -- so fewer and fewer are ahead of it
  have hdescends : ∀ c m, max n ((scheduled M classes s n).2 k) ≤ m →
      (ahead M classes s ((scheduled M classes s n).2 k) m).card = c → False := by
    intro c
    induction c using Nat.strong_induction_on with
    | _ c ih =>
      intro m hm hc
      obtain ⟨j, hj, henabled⟩ := hagain m (by omega)
      have hlt := card_ahead_lt ((scheduled M classes s n).2 k) (by omega) henabled
        (hstays j (by omega)).le
      have hle : (ahead M classes s ((scheduled M classes s n).2 k) j).card ≤
          (ahead M classes s ((scheduled M classes s n).2 k) m).card :=
        card_ahead_le s (by omega) hj
      exact ih _ (by omega) (j + 1) (by omega) rfl
  exact hdescends _ _ le_rfl rfl

end Queue

/-- **A run that goes on fairly.** -/
noncomputable def ofRunFairly {as : List α} {s : σ} (h : M.runFrom M.init as = some s)
    (classes : ℕ → α → Prop) : M.Execution where
  state n := if n < as.length then stateAfter M as n else (scheduled M classes s (n - as.length)).1
  action n := if n < as.length then as[n]? else actionAt M classes s (n - as.length)
  start := by
    split
    · rfl
    · rename_i hlength
      have hnil : as = [] := List.length_eq_zero_iff.mp (by omega)
      subst hnil
      exact (Option.some.inj h).symm
  moved n a ha := by
    by_cases hn : n < as.length
    · simp only [if_pos hn] at ha ⊢
      have hstep := (ofRun h).moved n a ha
      by_cases hlast : n + 1 < as.length
      · rw [if_pos hlast]
        exact hstep
      · obtain hlength : n + 1 = as.length := by omega
        rw [if_neg hlast, hlength, Nat.sub_self]
        rw [show (ofRun h).state (n + 1) = s from ofRun_state_of_le h (by omega)] at hstep
        exact hstep
    · simp only [if_neg hn] at ha ⊢
      rw [if_neg (by omega), Nat.sub_add_comm (by omega)]
      exact (actionAt_spec ha).2
  rested n hnone := by
    by_cases hn : n < as.length
    · rw [if_pos hn] at hnone
      rw [List.getElem?_eq_getElem hn] at hnone
      cases hnone
    · simp only [if_neg hn] at hnone ⊢
      rw [if_neg (by omega), Nat.sub_add_comm (by omega), state_scheduled, hnone]
      rfl

theorem ofRunFairly_state_length {as : List α} {s : σ} (h : M.runFrom M.init as = some s)
    (classes : ℕ → α → Prop) : (ofRunFairly h classes).state as.length = s := by
  simp [ofRunFairly, scheduled]

/-- Its actions are those of the run first, and then of the classes. -/
theorem ofRunFairly_action {as : List α} {s : σ} (h : M.runFrom M.init as = some s)
    {classes : ℕ → α → Prop} {n : ℕ} {a : α} (ha : (ofRunFairly h classes).action n = some a) :
    as[n]? = some a ∨ as.length ≤ n ∧ ∃ k, classes k a := by
  change (if n < as.length then as[n]? else actionAt M classes s (n - as.length)) = some a at ha
  split at ha
  · exact .inl ha
  · exact .inr ⟨by omega, (actionAt_spec ha).1⟩

/-- **It is strongly fair to every class.** -/
theorem stronglyFair_ofRunFairly {as : List α} {s : σ} (h : M.runFrom M.init as = some s)
    (classes : ℕ → α → Prop) (k : ℕ) : (ofRunFairly h classes).StronglyFair (classes k) := by
  intro n hagain
  have hlate : ∀ m, ¬ m + as.length < as.length := by omega
  have hstate : ∀ m, (ofRunFairly h classes).state (m + as.length) =
      (scheduled M classes s m).1 := by
    intro m
    change (if m + as.length < as.length then stateAfter M as (m + as.length)
      else (scheduled M classes s (m + as.length - as.length)).1) = _
    rw [if_neg (hlate m), Nat.add_sub_cancel]
  have hacts : ∀ m, n ≤ m → ∃ j, m ≤ j ∧ M.Enabled (classes k) (scheduled M classes s j).1 :=
    fun m hm => by
      obtain ⟨j, hj, henabled⟩ := hagain (m + as.length) (by omega)
      refine ⟨j - as.length, by omega, ?_⟩
      rwa [← hstate, Nat.sub_add_cancel (by omega)]
  obtain ⟨m, a, hm, haction, ha⟩ := exists_actionAt s hacts
  refine ⟨m + as.length, by omega, a, ?_, ha⟩
  change (if m + as.length < as.length then as[m + as.length]? else _) = some a
  rw [if_neg (hlate m), Nat.add_sub_cancel]
  exact haction

end Scheduler

end Execution

end GuardedSystem
