import Throttling.Common.System
import Mathlib.Logic.Function.Basic
import Mathlib.Order.BooleanAlgebra.Set
/-!
# Programs over mutexes, and the order they take them in

A program acts on shared data and takes and releases mutexes on the way;
what it does next may depend on the data and on an input of each action.
Threads run programs step by step, a mutex with one holder at a time.

`Ordered` is the discipline: a mutex is taken only below all those held,
by a rank, and a released one was held. It is checked program by program,
by the rules `Ordered.bind`, `ordered_locked` and `ordered_foldlM`; a
system whose programs all keep to it never waits for itself
(`not_wants_own`), has no circle of waiting threads (`no_circular_wait`),
and can always move on (`exists_step`).
-/

variable {M ι σ α β : Type}

/-- **A program over mutexes** of type `M` and data of type `σ`. -/
inductive Prog (M ι σ α : Type) where
  | done (result : α)
  | lock (m : M) (rest : Prog M ι σ α)
  | unlock (m : M) (rest : Prog M ι σ α)
  /-- An action on the data; what comes next sees the data as it was
  before. -/
  | act (update : ι → σ → σ) (next : ι → σ → Prog M ι σ α)

namespace Prog

/-- One program after another. -/
def bind : Prog M ι σ α → (α → Prog M ι σ β) → Prog M ι σ β
  | done a, k => k a
  | lock m rest, k => lock m (rest.bind k)
  | unlock m rest, k => unlock m (rest.bind k)
  | act update next, k => act update fun i s => (next i s).bind k

instance : Monad (Prog M ι σ) where
  pure := done
  bind := bind

/-- An action with a result. -/
def perform (f : ι → σ → α × σ) : Prog M ι σ α :=
  act (fun i s => (f i s).2) fun i s => done (f i s).1

/-- A look at the data. -/
def read (f : ι → σ → α) : Prog M ι σ α := act (fun _ s => s) fun i s => done (f i s)

/-- A scope that holds a mutex. -/
def locked (m : M) (body : Prog M ι σ α) : Prog M ι σ α :=
  lock m (body.bind fun a => unlock m (done a))

/-- The mutex a program takes next. -/
def wants : Prog M ι σ α → Option M
  | lock m _ => some m
  | _ => none

/-! ## Running alone -/

/-- What a program comes to when nothing else runs and every action has
the same input. -/
def run (i : ι) : Prog M ι σ α → σ → α × σ
  | done a, s => (a, s)
  | lock _ rest, s => rest.run i s
  | unlock _ rest, s => rest.run i s
  | act update next, s => (next i s).run i (update i s)

theorem run_bind (i : ι) (p : Prog M ι σ α) (k : α → Prog M ι σ β) (s : σ) :
    (p >>= k).run i s = (k (p.run i s).1).run i (p.run i s).2 := by
  change (p.bind k).run i s = _
  induction p generalizing s with
  | done a => rfl
  | lock m rest ih => exact ih s
  | unlock m rest ih => exact ih s
  | act update next ih => exact ih i s (update i s)

@[simp] theorem run_pure (i : ι) (a : α) (s : σ) : (pure a : Prog M ι σ α).run i s = (a, s) := rfl

@[simp] theorem run_perform (i : ι) (f : ι → σ → α × σ) (s : σ) :
    (perform f : Prog M ι σ α).run i s = f i s := rfl

@[simp] theorem run_read (i : ι) (f : ι → σ → α) (s : σ) :
    (read f : Prog M ι σ α).run i s = (f i s, s) := rfl

@[simp] theorem run_locked (i : ι) (m : M) (body : Prog M ι σ α) (s : σ) :
    (locked m body).run i s = body.run i s := by
  change (body >>= fun a => unlock m (done a)).run i s = _
  rw [run_bind]
  rfl

/-! ## The discipline -/

variable {rank : M → ℕ} {held mid held' : Set M}

/-- **Mutexes in order**: a program that starts holding `held` takes each
mutex below all it holds, releases what it holds, and ends holding
`held'`. -/
def Ordered (rank : M → ℕ) (held' : Set M) : Set M → Prog M ι σ α → Prop
  | held, done _ => held = held'
  | held, lock m rest => (∀ h ∈ held, rank m < rank h) ∧ rest.Ordered rank held' (insert m held)
  | held, unlock m rest => m ∈ held ∧ rest.Ordered rank held' (held \ {m})
  | held, act _ next => ∀ i s, (next i s).Ordered rank held' held

theorem ordered_pure (a : α) : (pure a : Prog M ι σ α).Ordered rank held held := rfl

theorem ordered_perform (f : ι → σ → α × σ) :
    (perform f : Prog M ι σ α).Ordered rank held held := fun _ _ => rfl

theorem ordered_read (f : ι → σ → α) : (read f : Prog M ι σ α).Ordered rank held held :=
  fun _ _ => rfl

/-- What holds of a program and of whatever follows it. -/
theorem Ordered.bind {p : Prog M ι σ α} {k : α → Prog M ι σ β} (hp : p.Ordered rank mid held)
    (hk : ∀ a, (k a).Ordered rank held' mid) : (p >>= k).Ordered rank held' held := by
  change (p.bind k).Ordered rank held' held
  induction p generalizing held with
  | done a =>
    obtain rfl : held = mid := hp
    exact hk a
  | lock m rest ih => exact ⟨hp.1, ih hp.2⟩
  | unlock m rest ih => exact ⟨hp.1, ih hp.2⟩
  | act update next ih => exact fun i s => ih i s (hp i s)

/-- **A scope that holds a mutex** below all those held, and whose body
gives back what it takes. -/
theorem ordered_locked {m : M} {body : Prog M ι σ α} (hrank : ∀ h ∈ held, rank m < rank h)
    (hbody : body.Ordered rank (insert m held) (insert m held)) :
    (locked m body).Ordered rank held held := by
  have hnot : m ∉ held := fun hm => lt_irrefl _ (hrank m hm)
  refine ⟨hrank, hbody.bind fun a => ⟨Set.mem_insert m held, ?_⟩⟩
  exact Set.insert_sdiff_self_of_notMem hnot

/-- A loop over a list whose every turn gives back what it takes. -/
theorem ordered_foldlM {f : β → α → Prog M ι σ β} (hf : ∀ b a, (f b a).Ordered rank held held) :
    ∀ (l : List α) (b : β), (l.foldlM f b).Ordered rank held held := by
  intro l
  induction l with
  | nil => exact fun b => ordered_pure b
  | cons a l ih =>
    intro b
    rw [List.foldlM_cons]
    exact (hf b a).bind ih

end Prog

/-! ## Threads -/

/-- **Threads that run programs** over the same data and mutexes. -/
structure LockState (M ι σ α τ : Type) where
  data : σ
  /-- Which thread holds a mutex. -/
  holder : M → Option τ
  /-- What is left of the program a thread runs, if it runs one. -/
  threads : τ → Option (Prog M ι σ α)

/-- What may happen next: an idle thread begins a program, or a thread
takes a step of its own. -/
inductive LockAction (ι τ κ : Type) where
  | begin (thread : τ) (call : κ)
  | step (thread : τ) (input : ι)

namespace LockState

variable {τ κ : Type} [DecidableEq M] [DecidableEq τ]

/-- A thread goes on with the rest of its program. -/
def goto (s : LockState M ι σ α τ) (t : τ) (rest : Option (Prog M ι σ α)) :
    LockState M ι σ α τ :=
  { s with threads := Function.update s.threads t rest }

/-- A mutex changes hands. -/
def pass (s : LockState M ι σ α τ) (m : M) (holder : Option τ) : LockState M ι σ α τ :=
  { s with holder := Function.update s.holder m holder }

/-- One step of a thread. A mutex that is held lets no other take it. -/
def threadStep (s : LockState M ι σ α τ) (t : τ) (i : ι) : Option (LockState M ι σ α τ) :=
  match s.threads t with
  | none => none
  | some (.done _) => some (s.goto t none)
  | some (.lock m rest) =>
    if (s.holder m).isSome then none else some ((s.pass m (some t)).goto t (some rest))
  | some (.unlock m rest) => some ((s.pass m none).goto t (some rest))
  | some (.act update next) =>
    some ({ s with data := update i s.data }.goto t (some (next i s.data)))

/-- The mutex a thread takes next. -/
def wants (s : LockState M ι σ α τ) (t : τ) : Option M := (s.threads t).bind Prog.wants

/-- **Waiting**: a thread's next mutex is held by another, or by itself. -/
def WaitsFor (s : LockState M ι σ α τ) (t t' : τ) : Prop :=
  ∃ m, s.wants t = some m ∧ s.holder m = some t'

end LockState

/-- The interleavings of threads that run the programs given for calls. -/
def lockSystem {τ κ : Type} [DecidableEq M] [DecidableEq τ] (program : κ → Prog M ι σ α)
    (start : σ) : GuardedSystem (LockState M ι σ α τ) (LockAction ι τ κ) where
  init := { data := start, holder := fun _ => none, threads := fun _ => none }
  step s
    | .begin t call =>
      match s.threads t with
      | none => some (s.goto t (some (program call)))
      | some _ => none
    | .step t i => s.threadStep t i

/-! ## What the discipline gives -/

namespace LockState

variable {τ κ : Type} {rank : M → ℕ} {s s' : LockState M ι σ α τ}

/-- The mutexes a thread holds. -/
def holding (s : LockState M ι σ α τ) (t : τ) : Set M := {m | s.holder m = some t}

/-- **Every thread keeps to the order** for the rest of its program, and an
idle one holds nothing. -/
structure Disciplined (rank : M → ℕ) (s : LockState M ι σ α τ) : Prop where
  idle : ∀ t, s.threads t = none → s.holding t = ∅
  ordered : ∀ t p, s.threads t = some p → p.Ordered rank ∅ (s.holding t)

/-- **No thread takes a mutex it holds.** -/
theorem Disciplined.not_wants_own (h : Disciplined rank s) {t : τ} {m : M}
    (hwants : s.wants t = some m) : s.holder m ≠ some t := by
  intro hown
  obtain ⟨p, hp, hnext⟩ := Option.bind_eq_some_iff.mp hwants
  cases p with
  | lock m' rest =>
    obtain rfl := Option.some.inj hnext
    exact lt_irrefl _ ((h.ordered t _ hp).1 m' hown)
  | _ => cases hnext

/-- **What a waiting thread waits for is below what it holds.** -/
theorem Disciplined.rank_lt (h : Disciplined rank s) {t : τ} {m m' : M}
    (hwants : s.wants t = some m) (hholds : s.holder m' = some t) : rank m < rank m' := by
  obtain ⟨p, hp, hnext⟩ := Option.bind_eq_some_iff.mp hwants
  cases p with
  | lock m₀ rest =>
    obtain rfl := Option.some.inj hnext
    exact (h.ordered t _ hp).1 m' hholds
  | _ => cases hnext

/-- **No set of threads waits for itself.** Along a chain of waiting
threads the ranks of the mutexes fall, so the chain leaves the set. -/
theorem Disciplined.no_circular_wait (h : Disciplined rank s) (S : Set τ) (hne : S.Nonempty) :
    ¬ ∀ t ∈ S, ∃ t' ∈ S, s.WaitsFor t t' := by
  intro hwaits
  have hfalls : ∀ (n : ℕ) (t : τ) (m : M), t ∈ S → s.wants t = some m → rank m = n → False := by
    intro n
    induction n using Nat.strong_induction_on with
    | _ n ih =>
      intro t m ht hwants hn
      obtain ⟨t', ht', m₁, hwants₁, hholder⟩ := hwaits t ht
      obtain rfl := Option.some.inj (hwants.symm.trans hwants₁)
      -- the holder waits in turn, for a mutex below the one it holds
      obtain ⟨t'', -, m', hwants', -⟩ := hwaits t' ht'
      have hlt := h.rank_lt hwants' hholder
      exact ih (rank m') (hn ▸ hlt) t' m' ht' hwants' rfl
  obtain ⟨t, ht⟩ := hne
  obtain ⟨-, -, m, hwants, -⟩ := hwaits t ht
  exact hfalls (rank m) t m ht hwants rfl

/-! ## One step -/

section Threads

variable [DecidableEq τ]

/-- A step of one thread leaves the others what they hold and where they
are. -/
theorem Disciplined.of_step {t : τ} {rest : Option (Prog M ι σ α)} (h : Disciplined rank s)
    (hmine : s'.threads t = rest) (hothers : ∀ u, u ≠ t → s'.threads u = s.threads u)
    (hheld : ∀ u, u ≠ t → s'.holding u = s.holding u)
    (hidle : rest = none → s'.holding t = ∅)
    (hordered : ∀ p, rest = some p → p.Ordered rank ∅ (s'.holding t)) : Disciplined rank s' where
  idle u hu := by
    by_cases ht : u = t
    · subst ht
      exact hidle (hmine.symm.trans hu)
    · rw [hheld u ht]
      exact h.idle u ((hothers u ht).symm.trans hu)
  ordered u p hp := by
    by_cases ht : u = t
    · subst ht
      exact hordered p (hmine.symm.trans hp)
    · rw [hheld u ht]
      exact h.ordered u p ((hothers u ht).symm.trans hp)

@[simp] theorem goto_threads_self (s : LockState M ι σ α τ) (t : τ)
    (rest : Option (Prog M ι σ α)) : (s.goto t rest).threads t = rest :=
  Function.update_self _ _ _

theorem goto_threads_of_ne (s : LockState M ι σ α τ) {t u : τ} (rest : Option (Prog M ι σ α))
    (h : u ≠ t) : (s.goto t rest).threads u = s.threads u :=
  Function.update_of_ne h _ _

@[simp] theorem goto_holding (s : LockState M ι σ α τ) (t u : τ)
    (rest : Option (Prog M ι σ α)) : (s.goto t rest).holding u = s.holding u := rfl

variable [DecidableEq M]

/-- A free mutex that is taken is one more for who takes it. -/
theorem holding_pass_some {m : M} {t : τ} (hfree : s.holder m = none) (u : τ) :
    (s.pass m (some t)).holding u = if u = t then insert m (s.holding u) else s.holding u := by
  ext m'
  by_cases hm : m' = m
  · subst hm
    have hnow : (s.pass m' (some t)).holder m' = some t := Function.update_self _ _ _
    by_cases hu : u = t
    · simp [holding, hnow, hu]
    · simp [holding, hnow, hu, Ne.symm hu, hfree]
  · have hsame : (s.pass m (some t)).holder m' = s.holder m' := Function.update_of_ne hm _ _
    by_cases hu : u = t
    · simp [holding, hsame, hu, hm]
    · simp [holding, hsame, hu]

/-- One that is released is one less for who held it. -/
theorem holding_pass_none {m : M} {t : τ} (hheld : s.holder m = some t) (u : τ) :
    (s.pass m none).holding u = if u = t then s.holding u \ {m} else s.holding u := by
  ext m'
  by_cases hm : m' = m
  · subst hm
    have hnow : (s.pass m' none).holder m' = none := Function.update_self _ _ _
    by_cases hu : u = t
    · simp [holding, hnow, hu]
    · simp [holding, hnow, hu, Ne.symm hu, hheld]
  · have hsame : (s.pass m none).holder m' = s.holder m' := Function.update_of_ne hm _ _
    by_cases hu : u = t
    · simp [holding, hsame, hu, hm]
    · simp [holding, hsame, hu]

/-- **A step keeps the order.** -/
theorem disciplined_threadStep {t : τ} {i : ι} (h : Disciplined rank s)
    (hstep : s.threadStep t i = some s') : Disciplined rank s' := by
  unfold threadStep at hstep
  split at hstep
  · cases hstep
  · rename_i a hthread
    obtain rfl := Option.some.inj hstep
    have hdone : s.holding t = ∅ := h.ordered t _ hthread
    exact h.of_step (s.goto_threads_self t none) (fun u hu => s.goto_threads_of_ne none hu)
      (fun u _ => rfl) (fun _ => hdone) (fun p hp => by cases hp)
  · rename_i m rest hthread
    split at hstep
    · cases hstep
    · rename_i hfree
      obtain rfl := Option.some.inj hstep
      have hnone : s.holder m = none := Option.not_isSome_iff_eq_none.mp hfree
      have hrest : rest.Ordered rank ∅ (insert m (s.holding t)) := (h.ordered t _ hthread).2
      have hholding := holding_pass_some (t := t) hnone
      refine h.of_step (goto_threads_self _ t (some rest))
        (fun u hu => goto_threads_of_ne _ (some rest) hu) (fun u hu => ?_) (fun hn => by cases hn)
        (fun p hp => ?_)
      · rw [goto_holding, hholding, if_neg hu]
      · obtain rfl := Option.some.inj hp
        rw [goto_holding, hholding, if_pos rfl]
        exact hrest
  · rename_i m rest hthread
    obtain rfl := Option.some.inj hstep
    have hrest : rest.Ordered rank ∅ (s.holding t \ {m}) := (h.ordered t _ hthread).2
    have hholding := holding_pass_none (t := t) (h.ordered t _ hthread).1
    refine h.of_step (goto_threads_self _ t (some rest))
      (fun u hu => goto_threads_of_ne _ (some rest) hu) (fun u hu => ?_) (fun hn => by cases hn)
      (fun p hp => ?_)
    · rw [goto_holding, hholding, if_neg hu]
    · obtain rfl := Option.some.inj hp
      rw [goto_holding, hholding, if_pos rfl]
      exact hrest
  · rename_i update next hthread
    obtain rfl := Option.some.inj hstep
    have hrest := h.ordered t _ hthread i s.data
    exact h.of_step (goto_threads_self _ t _) (fun u hu => goto_threads_of_ne _ _ hu)
      (fun u _ => rfl) (fun hn => by cases hn) (fun p hp => Option.some.inj hp ▸ hrest)

/-- **In every interleaving of programs that keep to the order**, every
thread does. -/
theorem disciplined_of_reachable {program : κ → Prog M ι σ α} {start : σ}
    (hprogram : ∀ call, (program call).Ordered rank ∅ ∅)
    (h : (lockSystem (τ := τ) program start).Reachable s) : Disciplined rank s := by
  refine GuardedSystem.Reachable.invariant (P := Disciplined rank) ?_ (fun s a s' hs hstep => ?_) h
  · refine ⟨fun t _ => ?_, fun t p hp => by cases hp⟩
    exact Set.eq_empty_of_forall_notMem fun m hm => by cases hm
  · cases a with
    | step t i => exact disciplined_threadStep hs hstep
    | begin t call =>
      simp only [lockSystem] at hstep
      split at hstep
      · rename_i hidle
        obtain rfl := Option.some.inj hstep
        refine hs.of_step (goto_threads_self _ t _) (fun u hu => goto_threads_of_ne _ _ hu)
          (fun u _ => rfl) (fun hn => by cases hn) (fun p hp => ?_)
        obtain rfl := Option.some.inj hp
        rw [goto_holding, hs.idle t hidle]
        exact hprogram call
      · cases hstep

/-- A thread in a program takes a step unless its next mutex is held. -/
theorem threadStep_isSome {t : τ} {p : Prog M ι σ α} (hp : s.threads t = some p) (i : ι)
    (hfree : ∀ m, s.wants t = some m → s.holder m = none) : (s.threadStep t i).isSome = true := by
  unfold threadStep
  rw [hp]
  cases p with
  | lock m rest =>
    have hnone := hfree m (by rw [wants, hp]; rfl)
    simp [hnone]
  | _ => rfl

/-- **Something can always move**: if any thread is in a program, some
thread in one can take its next step. -/
theorem Disciplined.exists_step (h : Disciplined rank s) {t : τ} (hbusy : (s.threads t).isSome)
    (i : ι) : ∃ u, (s.threadStep u i).isSome = true := by
  by_contra hstuck
  -- then every thread in a program waits for another in one
  have hwaits : ∀ u ∈ {u | (s.threads u).isSome}, ∃ u' ∈ {u | (s.threads u).isSome},
      s.WaitsFor u u' := by
    intro u hu
    obtain ⟨p, hp⟩ := Option.isSome_iff_exists.mp hu
    have hheld : ∃ m, s.wants u = some m ∧ s.holder m ≠ none := by
      by_contra hnone
      refine hstuck ⟨u, threadStep_isSome hp i fun m hm => ?_⟩
      by_contra hholder
      exact hnone ⟨m, hm, hholder⟩
    obtain ⟨m, hwants, hholder⟩ := hheld
    obtain ⟨u', hu'⟩ := Option.ne_none_iff_exists'.mp hholder
    refine ⟨u', ?_, m, hwants, hu'⟩
    by_contra hidle
    have hempty := h.idle u' (Option.not_isSome_iff_eq_none.mp hidle)
    have hmem : m ∈ s.holding u' := hu'
    rw [hempty] at hmem
    exact hmem
  exact h.no_circular_wait _ ⟨t, hbusy⟩ hwaits

end Threads

end LockState
