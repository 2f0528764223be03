import Throttling.Common.Liveness
import Throttling.Common.Races
import Mathlib.Data.Nat.Find
import Mathlib.Data.Finset.Lattice.Fold
import Mathlib.Data.Set.Finite.Basic
/-!
# Programs over mutexes return

Threads that keep to the order of their mutexes cannot wait in a circle;
that they all get on needs more, since a mutex may be given to others each
time it is free. Where the scheduler treats every thread fairly, strongly
so, every program a thread runs comes to its answer and returns it
(`returns_of_stronglyFair`). Weak fairness will do once no program begins
any more (`ClosedFrom.idle_of_weaklyFair`).

A program ends or its thread takes no more steps (`returns_or_idles`). A
thread that takes none wants a mutex some thread holds forever, and so
takes no more steps either; what that one wants is below what it holds, so
the chain ends.
-/

variable {M ι σ α τ κ : Type}

/-- Whose step it is. -/
def LockAction.thread : LockAction ι τ κ → τ
  | begin t _ => t
  | step t _ => t

/-- The steps a thread takes. -/
def LockAction.IsStepOf (t : τ) (a : LockAction ι τ κ) : Prop := ∃ i, a = .step t i

namespace LockState

variable [DecidableEq M] [DecidableEq τ]

section Step

variable {program : κ → Prog M ι σ α} {start : σ} {s s' : LockState M ι σ α τ}

/-- **Only its own steps move a thread** that runs a program. -/
theorem threads_of_step {a : LockAction ι τ κ} {t : τ} {p : Prog M ι σ α}
    (h : (lockSystem program start).step s a = some s') (hthread : s.threads t = some p)
    (hother : ¬ a.IsStepOf t) : s'.threads t = some p := by
  cases a with
  | begin u call =>
    simp only [lockSystem] at h
    split at h
    · rename_i hidle
      obtain rfl := Option.some.inj h
      have hne : t ≠ u := by
        rintro rfl
        rw [hidle] at hthread
        cases hthread
      rw [goto_threads_of_ne _ _ hne]
      exact hthread
    · cases h
  | step u i =>
    have hne : t ≠ u := by
      rintro rfl
      exact hother ⟨i, rfl⟩
    have hstep : s.threadStep u i = some s' := h
    cases threadStep_cases hstep with
    | returned _ => exact (s.goto_threads_of_ne none hne).trans hthread
    | locked _ _ => exact (goto_threads_of_ne _ _ hne).trans hthread
    | unlocked _ => exact (goto_threads_of_ne _ _ hne).trans hthread
    | acted _ => exact (goto_threads_of_ne _ _ hne).trans hthread

/-- A mutex that is held before a step and after it has one holder. -/
theorem holder_of_step {a : LockAction ι τ κ} {m : M} {u : τ}
    (h : (lockSystem program start).step s a = some s') (hholder : s.holder m = some u)
    (hheld : s'.holder m ≠ none) : s'.holder m = some u := by
  cases a with
  | begin t call =>
    simp only [lockSystem] at h
    split at h
    · obtain rfl := Option.some.inj h
      exact hholder
    · cases h
  | step t i =>
    have hstep : s.threadStep t i = some s' := h
    cases threadStep_cases hstep with
    | returned _ => exact hholder
    | acted _ => exact hholder
    | @locked m' rest _ hfree =>
      have hne : m ≠ m' := by
        rintro rfl
        rw [hfree] at hholder
        cases hholder
      have hsame : (s.pass m' (some t)).holder m = s.holder m := Function.update_of_ne hne _ _
      exact hsame.trans hholder
    | @unlocked m' rest _ =>
      have hne : m ≠ m' := by
        rintro rfl
        exact hheld (Function.update_self _ _ _)
      have hsame : (s.pass m' none).holder m = s.holder m := Function.update_of_ne hne _ _
      exact hsame.trans hholder

/-- A run leaves alone the threads that take no part in it. -/
theorem threads_of_runFrom {as : List (LockAction ι τ κ)} {t : τ}
    (h : (lockSystem program start).runFrom s as = some s') (hother : ∀ a ∈ as, a.thread ≠ t) :
    s'.threads t = s.threads t := by
  induction as generalizing s with
  | nil => rw [← Option.some.inj h]
  | cons a as ih =>
    rw [GuardedSystem.runFrom] at h
    obtain ⟨s₁, hstep, hrest⟩ := Option.bind_eq_some_iff.mp h
    rw [ih hrest fun b hb => hother b (List.mem_cons_of_mem a hb)]
    have hne := hother a List.mem_cons_self
    cases a with
    | begin u call =>
      simp only [lockSystem] at hstep
      split at hstep
      · rw [← Option.some.inj hstep]
        exact goto_threads_of_ne _ _ (Ne.symm hne)
      · cases hstep
    | step u i =>
      obtain ⟨p, -, -, hnext⟩ := threadStep_eq_some_iff.mp hstep
      rw [hnext]
      exact Function.update_of_ne (Ne.symm hne) _ _

end Step

/-! ## Threads that take no more steps -/

section Executions

variable {program : κ → Prog M ι σ α} {start : σ}
variable (E : (lockSystem (τ := τ) program start).Execution)

/-- **From some time on a thread takes no step**, with a program to run. -/
def IdlesFrom (t : τ) (p : Prog M ι σ α) (n : ℕ) : Prop :=
  ∀ k, n ≤ k → (E.state k).threads t = some p ∧
    ∀ a, E.action k = some a → ¬ LockAction.IsStepOf t a

/-- **A thread returns** what its program came to, at some time. -/
def ReturnsAt (t : τ) (n : ℕ) : Prop :=
  ∃ a i, (E.state n).threads t = some (.done a) ∧ E.action n = some (.step t i)

variable {E} {rank : M → ℕ} {t : τ} {p : Prog M ι σ α} {n : ℕ}

/-- A program waits for its thread's next step, the same until then. -/
theorem threads_until {k : ℕ} (hle : n ≤ k) (hthread : (E.state n).threads t = some p)
    (hnone : ∀ j, n ≤ j → j < k → ∀ a, E.action j = some a → ¬ LockAction.IsStepOf t a) :
    (E.state k).threads t = some p :=
  GuardedSystem.Execution.stays (P := fun s => s.threads t = some p) hle hthread
    fun j a hj hlt haction hsame =>
      threads_of_step (E.moved j a haction) hsame (hnone j hj hlt a haction)

/-- Its next step, if there is one, and what is left then. -/
theorem exists_next (hthread : (E.state n).threads t = some p) (hnot : ¬ IdlesFrom E t p n) :
    ∃ k i, n ≤ k ∧ (E.state k).threads t = some p ∧ E.action k = some (.step t i) ∧
      (E.state (k + 1)).threads t = p.after i (E.state k).data := by
  classical
  have hsteps : ∃ k, n ≤ k ∧ ∃ i, E.action k = some (.step t i) := by
    by_contra hnever
    refine hnot fun k hk => ⟨threads_until hk hthread fun j hj _ a ha hstep => ?_,
      fun a ha hstep => ?_⟩
    · obtain ⟨i, rfl⟩ := hstep
      exact hnever ⟨j, hj, i, ha⟩
    · obtain ⟨i, rfl⟩ := hstep
      exact hnever ⟨k, hk, i, ha⟩
  obtain ⟨hk, i, haction⟩ := Nat.find_spec hsteps
  have hsame : (E.state (Nat.find hsteps)).threads t = some p := by
    refine threads_until hk hthread fun j hj hlt a ha hstep => ?_
    obtain ⟨i', rfl⟩ := hstep
    exact Nat.find_min hsteps hlt ⟨hj, i', ha⟩
  refine ⟨Nat.find hsteps, i, hk, hsame, haction, ?_⟩
  obtain ⟨p', hp', -, hnext⟩ := threadStep_eq_some_iff.mp (E.moved _ _ haction)
  obtain rfl := Option.some.inj (hsame.symm.trans hp')
  rw [hnext]
  exact Function.update_self _ _ _

/-- **A thread returns, or it takes no more steps.** By induction on what
is left of its program. -/
theorem returns_or_idles (hthread : (E.state n).threads t = some p) :
    ∃ k, n ≤ k ∧ (ReturnsAt E t k ∨ ∃ q, IdlesFrom E t q k) := by
  induction p generalizing n with
  | done a =>
    by_cases hidles : IdlesFrom E t (.done a) n
    · exact ⟨n, le_rfl, .inr ⟨_, hidles⟩⟩
    · obtain ⟨k, i, hk, hsame, haction, -⟩ := exists_next hthread hidles
      exact ⟨k, hk, .inl ⟨a, i, hsame, haction⟩⟩
  | lock m rest ih =>
    by_cases hidles : IdlesFrom E t (.lock m rest) n
    · exact ⟨n, le_rfl, .inr ⟨_, hidles⟩⟩
    · obtain ⟨k, i, hk, -, -, hnext⟩ := exists_next hthread hidles
      obtain ⟨j, hj, hends⟩ := ih hnext
      exact ⟨j, by omega, hends⟩
  | unlock m rest ih =>
    by_cases hidles : IdlesFrom E t (.unlock m rest) n
    · exact ⟨n, le_rfl, .inr ⟨_, hidles⟩⟩
    · obtain ⟨k, i, hk, -, -, hnext⟩ := exists_next hthread hidles
      obtain ⟨j, hj, hends⟩ := ih hnext
      exact ⟨j, by omega, hends⟩
  | act update next ih =>
    by_cases hidles : IdlesFrom E t (.act update next) n
    · exact ⟨n, le_rfl, .inr ⟨_, hidles⟩⟩
    · obtain ⟨k, i, hk, -, -, hnext⟩ := exists_next hthread hidles
      obtain ⟨j, hj, hends⟩ := ih i (E.state k).data hnext
      exact ⟨j, by omega, hends⟩

/-- A thread that has not returned still runs its program. -/
theorem busy_until {k : ℕ} (hle : n ≤ k) (hbusy : (E.state n).threads t ≠ none)
    (hnone : ∀ j, n ≤ j → j < k → ¬ ReturnsAt E t j) : (E.state k).threads t ≠ none := by
  refine GuardedSystem.Execution.stays (P := fun s : LockState M ι σ α τ => s.threads t ≠ none)
    hle hbusy fun j a hj hlt haction hstill => ?_
  by_cases hstep : a.IsStepOf t
  · obtain ⟨i, rfl⟩ := hstep
    obtain ⟨p, hp, -, hnext⟩ := threadStep_eq_some_iff.mp (E.moved j _ haction)
    have hafter : (E.state (j + 1)).threads t = p.after i (E.state j).data := by
      rw [hnext]
      exact Function.update_self _ _ _
    rw [hafter]
    cases p with
    | done a => exact absurd ⟨a, i, hp, haction⟩ (hnone j hj hlt)
    | lock m rest => exact Option.some_ne_none rest
    | unlock m rest => exact Option.some_ne_none rest
    | act update next => exact Option.some_ne_none _
  · obtain ⟨p, hp⟩ := Option.ne_none_iff_exists'.mp hstill
    rw [threads_of_step (E.moved j a haction) hp hstep]
    exact Option.some_ne_none p

/-- The first return is that of the program a thread runs. -/
theorem exists_first_return (hbusy : (E.state n).threads t ≠ none)
    (h : ∃ k, n ≤ k ∧ ReturnsAt E t k) :
    ∃ k, n ≤ k ∧ ReturnsAt E t k ∧ ∀ j, n ≤ j → j ≤ k → (E.state j).threads t ≠ none := by
  classical
  obtain ⟨hk, hreturns⟩ := Nat.find_spec h
  refine ⟨Nat.find h, hk, hreturns, fun j hj hle => busy_until hj hbusy fun i hi hlt hfirst => ?_⟩
  exact Nat.find_min h (hlt.trans_le hle) ⟨hi, hfirst⟩

/-! ## Under a fair scheduler nobody idles -/

/-- **Who takes no more steps wants a mutex that is held forever**, by one
thread. -/
theorem IdlesFrom.wants_held [Nonempty ι] (h : IdlesFrom E t p n)
    (hfair : E.StronglyFair (LockAction.IsStepOf t)) :
    ∃ k m u, n ≤ k ∧ p.wants = some m ∧ ∀ j, k ≤ j → (E.state j).holder m = some u := by
  obtain ⟨i⟩ := ‹Nonempty ι›
  -- from some time on no step is open to the thread
  have hclosed : ∃ k, n ≤ k ∧ ∀ j, k ≤ j → ¬ ((E.state j).threadStep t i).isSome = true := by
    by_contra hnever
    have hagain : ∀ k, n ≤ k → ∃ j, k ≤ j ∧
        (lockSystem program start).Enabled (LockAction.IsStepOf t) (E.state j) := by
      intro k hk
      by_contra hnone
      exact hnever ⟨k, hk, fun j hj hstep => hnone ⟨j, hj, _, ⟨i, rfl⟩, hstep⟩⟩
    obtain ⟨j, hj, a, haction, hstep⟩ := hfair n hagain
    exact (h j hj).2 a haction hstep
  obtain ⟨k, hk, hclosed⟩ := hclosed
  have hheld : ∀ j, k ≤ j → ∃ m, p.wants = some m ∧ (E.state j).holder m ≠ none := by
    intro j hj
    by_contra hnone
    refine hclosed j hj (threadStep_isSome (h j (by omega)).1 i fun m hm => ?_)
    by_contra hholder
    refine hnone ⟨m, ?_, hholder⟩
    rw [wants, (h j (by omega)).1] at hm
    exact hm
  obtain ⟨m, hm, hnow⟩ := hheld k le_rfl
  obtain ⟨u, hu⟩ := Option.ne_none_iff_exists'.mp hnow
  refine ⟨k, m, u, hk, hm, fun j hj => ?_⟩
  refine GuardedSystem.Execution.stays (P := fun s => s.holder m = some u) hj hu
    fun j' a hj' _ haction hsame => holder_of_step (E.moved j' a haction) hsame ?_
  obtain ⟨m', hm', hstill⟩ := hheld (j' + 1) (by omega)
  obtain rfl := Option.some.inj (hm.symm.trans hm')
  exact hstill

/-- **Nobody idles.** The thread that holds what one wants forever takes no
more steps either, and wants something below it. -/
theorem not_idlesFrom [Nonempty ι] (hprogram : ∀ call, (program call).Ordered rank ∅ ∅)
    (hfair : ∀ t, E.StronglyFair (LockAction.IsStepOf t)) : ¬ IdlesFrom E t p n := by
  have hall : ∀ r t p n m, IdlesFrom E t p n → p.wants = some m → rank m = r → False := by
    intro r
    induction r using Nat.strong_induction_on with
    | _ r ih =>
      intro t p n m hidles hwants hrank
      obtain ⟨k, m', u, hk, hwants', hholder⟩ := hidles.wants_held (hfair t)
      obtain rfl := Option.some.inj (hwants.symm.trans hwants')
      have hdisciplined : ∀ j, Disciplined rank (E.state j) := fun j =>
        disciplined_of_reachable hprogram (GuardedSystem.Execution.reachable (E := E) j)
      have hmine : ∀ j, k ≤ j → (E.state j).holding u ≠ ∅ := by
        intro j hj hempty
        have hmem : m ∈ (E.state j).holding u := hholder j hj
        rw [hempty] at hmem
        exact hmem
      obtain ⟨q, hq⟩ : ∃ q, (E.state k).threads u = some q := by
        refine Option.ne_none_iff_exists'.mp fun hnone => ?_
        exact hmine k le_rfl ((hdisciplined k).idle u hnone)
      obtain ⟨j, hj, hreturns | ⟨q', hidles'⟩⟩ := returns_or_idles hq
      · -- who returns has given everything back
        obtain ⟨a, i, hdone, -⟩ := hreturns
        exact hmine j hj ((hdisciplined j).ordered u _ hdone)
      · obtain ⟨k', m', -, hk', hwants', -⟩ := hidles'.wants_held (hfair u)
        have hlt : rank m' < rank m := by
          refine (hdisciplined j).rank_lt (t := u) ?_ (hholder j hj)
          rw [wants, (hidles' j le_rfl).1]
          exact hwants'
        exact ih (rank m') (hrank ▸ hlt) u q' j m' hidles' hwants' rfl
  intro hidles
  obtain ⟨k, m, -, -, hwants, -⟩ := hidles.wants_held (hfair t)
  exact hall (rank m) t p n m hidles hwants rfl

/-- **Under a strongly fair scheduler every program returns**, whatever the
others do. -/
theorem returns_of_stronglyFair [Nonempty ι] (hprogram : ∀ call, (program call).Ordered rank ∅ ∅)
    (hfair : ∀ t, E.StronglyFair (LockAction.IsStepOf t))
    (hthread : (E.state n).threads t = some p) :
    ∃ k, n ≤ k ∧ ReturnsAt E t k ∧ ∀ j, n ≤ j → j ≤ k → (E.state j).threads t ≠ none := by
  refine exists_first_return (hthread ▸ Option.some_ne_none p) ?_
  obtain ⟨k, hk, hreturns | ⟨q, hidles⟩⟩ := returns_or_idles hthread
  · exact ⟨k, hk, hreturns⟩
  · exact absurd hidles (not_idlesFrom hprogram hfair)

/-! ## Once no program begins, weak fairness will do -/

/-- From some time on no program begins. -/
def ClosedFrom (E : (lockSystem (τ := τ) program start).Execution) (n : ℕ) : Prop :=
  ∀ k t call, n ≤ k → E.action k ≠ some (.begin t call)

/-- An idle thread stays so. -/
theorem ClosedFrom.idle {k : ℕ} (h : ClosedFrom E n) (hle : n ≤ k)
    (hidle : (E.state n).threads t = none) : (E.state k).threads t = none := by
  refine GuardedSystem.Execution.stays (P := fun s : LockState M ι σ α τ => s.threads t = none)
    hle hidle
    fun j a hj _ haction hnone => ?_
  cases a with
  | begin u call => exact absurd haction (h j u call hj)
  | step u i =>
    obtain ⟨p, hp, -, hnext⟩ := threadStep_eq_some_iff.mp (E.moved j _ haction)
    have hne : t ≠ u := by
      rintro rfl
      rw [hnone] at hp
      cases hp
    rw [hnext]
    exact (Function.update_of_ne hne _ _).trans hnone

/-- A thread that returned is idle. -/
theorem ReturnsAt.idle (h : ReturnsAt E t n) : (E.state (n + 1)).threads t = none := by
  obtain ⟨a, i, hdone, haction⟩ := h
  obtain ⟨p, hp, -, hnext⟩ := threadStep_eq_some_iff.mp (E.moved n _ haction)
  obtain rfl := Option.some.inj (hdone.symm.trans hp)
  rw [hnext]
  exact Function.update_self _ _ _

/-- Then every thread takes a last step. -/
theorem ClosedFrom.exists_last (h : ClosedFrom E n) (t : τ) :
    ∃ k, n ≤ k ∧ ∀ j a, k ≤ j → E.action j = some a → ¬ LockAction.IsStepOf t a := by
  have hrests : ∀ k, n ≤ k → (E.state k).threads t = none →
      ∀ j a, k ≤ j → E.action j = some a → ¬ LockAction.IsStepOf t a := by
    rintro k hk hidle j _ hj haction ⟨i, rfl⟩
    obtain ⟨p, hp, -⟩ := threadStep_eq_some_iff.mp (E.moved j _ haction)
    have hnone : (E.state j).threads t = none :=
      ClosedFrom.idle (fun k' u call hk' => h k' u call (hk.trans hk')) hj hidle
    rw [hnone] at hp
    cases hp
  cases hthread : (E.state n).threads t with
  | none => exact ⟨n, le_rfl, hrests n le_rfl hthread⟩
  | some p =>
    obtain ⟨k, hk, hreturns | ⟨q, hidles⟩⟩ := returns_or_idles hthread
    · exact ⟨k + 1, by omega, hrests (k + 1) (by omega) hreturns.idle⟩
    · exact ⟨k, hk, fun j a hj => (hidles j hj).2 a⟩

/-- At any time only so many threads run a program. -/
theorem finite_busy (n : ℕ) : {t | (E.state n).threads t ≠ none}.Finite := by
  induction n with
  | zero =>
    rw [E.start]
    exact Set.finite_empty.subset fun t ht => ht rfl
  | succ n ih =>
    cases haction : E.action n with
    | none =>
      rw [E.rested n haction]
      exact ih
    | some a =>
      have hstep := E.moved n a haction
      -- whoever acts is the one thread that may be new
      cases a with
      | begin u call =>
        refine (ih.insert u).subset fun t ht => ?_
        by_cases hu : t = u
        · exact .inl hu
        · refine .inr fun hnone => ht ?_
          simp only [lockSystem] at hstep
          split at hstep
          · rw [← Option.some.inj hstep]
            exact (goto_threads_of_ne _ _ hu).trans hnone
          · cases hstep
      | step u i =>
        refine (ih.insert u).subset fun t ht => ?_
        by_cases hu : t = u
        · exact .inl hu
        · refine .inr fun hnone => ht ?_
          obtain ⟨p, -, -, hnext⟩ := threadStep_eq_some_iff.mp hstep
          rw [hnext]
          exact (Function.update_of_ne hu _ _).trans hnone

/-- So the whole comes to rest. -/
theorem ClosedFrom.exists_rest (h : ClosedFrom E n) :
    ∃ k, n ≤ k ∧ ∀ j, k ≤ j → E.action j = none := by
  choose last hn hlast using h.exists_last
  refine ⟨max n ((finite_busy (E := E) n).toFinset.sup last), le_max_left _ _, fun j hj => ?_⟩
  have hnj : n ≤ j := (le_max_left _ _).trans hj
  by_contra hacts
  obtain ⟨a, haction⟩ := Option.ne_none_iff_exists'.mp hacts
  cases a with
  | begin t call => exact h j t call hnj haction
  | step t i =>
    by_cases hidle : (E.state n).threads t = none
    · obtain ⟨p, hp, -⟩ := threadStep_eq_some_iff.mp (E.moved j _ haction)
      rw [h.idle hnj hidle] at hp
      cases hp
    · have hmem : t ∈ (finite_busy (E := E) n).toFinset :=
        (finite_busy (E := E) n).mem_toFinset.mpr hidle
      have hle : last t ≤ j := (Finset.le_sup hmem).trans ((le_max_right _ _).trans hj)
      exact hlast t j _ hle haction ⟨i, rfl⟩

/-- **Once no program begins, all of them return** under a scheduler that
is weakly fair to each thread, and everything stands still. -/
theorem ClosedFrom.idle_of_weaklyFair [Nonempty ι] (h : ClosedFrom E n)
    (hprogram : ∀ call, (program call).Ordered rank ∅ ∅)
    (hfair : ∀ t, E.WeaklyFair (LockAction.IsStepOf t)) :
    ∃ k, n ≤ k ∧ ∀ j, k ≤ j → ∀ t, (E.state j).threads t = none := by
  obtain ⟨i⟩ := ‹Nonempty ι›
  obtain ⟨k, hk, hrest⟩ := h.exists_rest
  have hsame : ∀ j, k ≤ j → E.state j = E.state k := by
    intro j hj
    refine GuardedSystem.Execution.stays (P := fun s => s = E.state k) hj rfl
      fun j' a hj' _ haction => ?_
    rw [hrest j' hj'] at haction
    cases haction
  refine ⟨k, hk, fun j hj t => ?_⟩
  rw [hsame j hj]
  by_contra hbusy
  -- then some thread could step, now and ever after
  have hdisciplined : Disciplined rank (E.state k) :=
    disciplined_of_reachable hprogram (GuardedSystem.Execution.reachable (E := E) k)
  obtain ⟨u, hu⟩ := hdisciplined.exists_step (Option.isSome_iff_ne_none.mpr hbusy) i
  obtain ⟨m, hm, a, haction, -⟩ := hfair u k fun m hm => by
    rw [hsame m hm]
    exact ⟨_, ⟨i, rfl⟩, hu⟩
  rw [hrest m hm] at haction
  cases haction

end Executions

end LockState
