import Mathlib.Tactic.Basic
/-!
# Guarded transition systems, and machines that answer

A system is an initial state and a guarded step: `step s a` is the state
action `a` leads to, or nothing where `a` is not enabled. Interleaving
models are systems whose actions name the thread that moves. What holds
in runs all of whose steps meet a condition is said of `ReachableVia`, of
which plain reachability is the case of no condition; what holds of the
states between two points of a run, of `Run`. Which runs keep a predicate
in every state they pass is a matter of single steps
(`forall_passed_iff_runVia`).

What an input does not touch it can be left out for: two runs whose
inputs agree on those a view depends on end in the same view
(`view_foldl_eq`), and a view that inputs set or leave ends as it was set
last (`view_foldl_eq_getLast?`).

A machine answers every input. Two machines give the same answers over
every trace once a relation between their states survives each input
and forces equal answers (`answers_eq_of_simulation`); the relation may
read the inputs still to come. One machine answers a trace as it would
without some inputs inserted in it, once such a relation also survives
what is inserted, the other side standing still
(`originalAnswers_eq_of_stuttering`).
-/

/-- A guarded transition system. -/
structure GuardedSystem (σ α : Type*) where
  init : σ
  step : σ → α → Option σ

namespace GuardedSystem

variable {σ α : Type*} (M : GuardedSystem σ α)

/-- **States reached through steps that meet a condition.** -/
inductive ReachableVia (C : σ → α → Prop) : σ → Prop
  | init : ReachableVia C M.init
  | step {s s' : σ} {a : α} : ReachableVia C s → C s a → M.step s a = some s' →
      ReachableVia C s'

/-- The states any run reaches. -/
abbrev Reachable (s : σ) : Prop := M.ReachableVia (fun _ _ => True) s

variable {M} {C C' : σ → α → Prop}

theorem Reachable.step {s s' : σ} {a : α} (hs : M.Reachable s) (h : M.step s a = some s') :
    M.Reachable s' :=
  ReachableVia.step hs trivial h

/-- A weaker condition reaches more. -/
theorem ReachableVia.mono (hC : ∀ s a, C s a → C' s a) {s : σ} (h : M.ReachableVia C s) :
    M.ReachableVia C' s := by
  induction h with
  | init => exact .init
  | step _ hc hstep ih => exact .step ih (hC _ _ hc) hstep

theorem ReachableVia.reachable {s : σ} (h : M.ReachableVia C s) : M.Reachable s :=
  h.mono fun _ _ _ => trivial

/-- **The invariant rule.** A predicate that holds initially and survives
every step meeting the condition holds of every state reached so. -/
theorem ReachableVia.invariant {P : σ → Prop} (hinit : P M.init)
    (hstep : ∀ s a s', P s → C s a → M.step s a = some s' → P s')
    {s : σ} (h : M.ReachableVia C s) : P s := by
  induction h with
  | init => exact hinit
  | step _ hc hs ih => exact hstep _ _ _ ih hc hs

/-- The invariant rule for plain reachability. -/
theorem Reachable.invariant {P : σ → Prop} (hinit : P M.init)
    (hstep : ∀ s a s', P s → M.step s a = some s' → P s') {s : σ} (h : M.Reachable s) : P s :=
  ReachableVia.invariant hinit (fun s a s' hP _ => hstep s a s' hP) h

/-- The state a list of actions leads to, if each is enabled in turn. -/
def runFrom (M : GuardedSystem σ α) : σ → List α → Option σ
  | s, [] => some s
  | s, a :: as => (M.step s a).bind fun s' => runFrom M s' as

/-- **Running a list of actions that meet the condition anywhere** stays
within the states reached so. -/
theorem ReachableVia.runFrom {s : σ} (hs : M.ReachableVia C s) :
    ∀ {as : List α} {s' : σ}, (∀ a ∈ as, ∀ s, C s a) → M.runFrom s as = some s' →
      M.ReachableVia C s' := by
  intro as
  induction as generalizing s with
  | nil =>
    intro s' _ h
    obtain rfl : s = s' := by simpa [GuardedSystem.runFrom] using h
    exact hs
  | cons a as ih =>
    intro s' hC h
    rw [GuardedSystem.runFrom] at h
    obtain ⟨s₁, h₁, h₂⟩ := Option.bind_eq_some_iff.mp h
    exact ih (hs.step (hC a List.mem_cons_self s) h₁)
      (fun b hb => hC b (List.mem_cons_of_mem _ hb)) h₂

/-- Running a list of actions stays within the reachable states. -/
theorem Reachable.runFrom {s : σ} (hs : M.Reachable s) {as : List α} {s' : σ}
    (h : M.runFrom s as = some s') : M.Reachable s' :=
  ReachableVia.runFrom hs (fun _ _ _ => trivial) h

/-- The state a list of actions leads to, if each is enabled and meets a
condition in turn. -/
def runVia (M : GuardedSystem σ α) (C : σ → α → Prop) [∀ s a, Decidable (C s a)] :
    σ → List α → Option σ
  | s, [] => some s
  | s, a :: as => if C s a then (M.step s a).bind fun s' => runVia M C s' as else none

theorem ReachableVia.runVia [∀ s a, Decidable (C s a)] {s : σ} (hs : M.ReachableVia C s) :
    ∀ {as : List α} {s' : σ}, M.runVia C s as = some s' → M.ReachableVia C s' := by
  intro as
  induction as generalizing s with
  | nil =>
    intro s' h
    obtain rfl : s = s' := by simpa [GuardedSystem.runVia] using h
    exact hs
  | cons a as ih =>
    intro s' h
    rw [GuardedSystem.runVia] at h
    split at h
    · rename_i hC
      obtain ⟨s₁, h₁, h₂⟩ := Option.bind_eq_some_iff.mp h
      exact ih (hs.step hC h₁) h₂
    · cases h

/-! ## The states a run passes -/

/-- **A run and the states it passes**, the newest first. -/
inductive Run (M : GuardedSystem σ α) (s : σ) : List σ → σ → Prop
  | start : Run M s [s] s
  | step {V : List σ} {m m' : σ} {a : α} : Run M s V m → M.step m a = some m' →
      Run M s (m' :: V) m'

theorem Run.last_mem {s s' : σ} {V : List σ} (h : M.Run s V s') : s' ∈ V := by
  induction h with
  | start => exact List.mem_cons_self
  | step _ _ _ => exact List.mem_cons_self

/-- What a run passes is reachable from where it starts. -/
theorem Run.reachable {s s' : σ} {V : List σ} (hs : M.Reachable s) (h : M.Run s V s') :
    ∀ m ∈ V, M.Reachable m := by
  induction h with
  | start =>
    intro m hm
    obtain rfl := List.mem_singleton.mp hm
    exact hs
  | step hrun hstep ih =>
    intro m hm
    rcases List.mem_cons.mp hm with rfl | hm
    · exact (ih _ hrun.last_mem).step hstep
    · exact ih m hm

/-- The states a list of actions passes, put before those already passed. -/
def passed (M : GuardedSystem σ α) : List σ → σ → List α → List σ
  | V, _, [] => V
  | V, s, a :: as =>
    match M.step s a with
    | none => V
    | some s' => passed M (s' :: V) s' as

theorem Run.runFrom {s m s' : σ} {V : List σ} {as : List α} (h : M.Run s V m)
    (hrun : M.runFrom m as = some s') : M.Run s (M.passed V m as) s' := by
  induction as generalizing V m with
  | nil =>
    obtain rfl : m = s' := by simpa [GuardedSystem.runFrom] using hrun
    exact h
  | cons a as ih =>
    rw [GuardedSystem.runFrom] at hrun
    obtain ⟨m', hstep, hrest⟩ := Option.bind_eq_some_iff.mp hrun
    have hpassed : M.passed V m (a :: as) = M.passed (m' :: V) m' as := by
      simp only [passed, hstep]
    rw [hpassed]
    exact ih (h.step hstep) hrest

theorem mem_passed_of_mem {m : σ} (as : List α) :
    ∀ {V : List σ} {s : σ}, m ∈ V → m ∈ M.passed V s as := by
  induction as with
  | nil => exact fun h => h
  | cons a as ih =>
    intro V s h
    rw [passed]
    split
    · exact h
    · exact ih (List.mem_cons_of_mem _ h)

/-- **The steps that keep a predicate.** Where a step from a state with the
predicate leads to another exactly if it meets a condition, the runs that
pass no state without it are those whose steps all meet the condition. -/
theorem forall_passed_iff_runVia [∀ s a, Decidable (C s a)] {P : σ → Prop}
    (hstep : ∀ s a s', M.Reachable s → P s → M.step s a = some s' → (P s' ↔ C s a))
    {s s' : σ} {as : List α} (hs : M.Reachable s) (hP : P s) (hrun : M.runFrom s as = some s') :
    (∀ m ∈ M.passed [s] s as, P m) ↔ M.runVia C s as = some s' := by
  -- with any states passed before that have the predicate
  have hgeneral : ∀ (as : List α) (V : List σ) (s : σ), M.Reachable s → P s →
      (∀ m ∈ V, P m) → M.runFrom s as = some s' →
      ((∀ m ∈ M.passed V s as, P m) ↔ M.runVia C s as = some s') := by
    intro as
    induction as with
    | nil =>
      intro V s _ _ hV h
      exact iff_of_true hV h
    | cons a as ih =>
      intro V s hs hP hV h
      rw [GuardedSystem.runFrom] at h
      obtain ⟨s₁, h₁, h₂⟩ := Option.bind_eq_some_iff.mp h
      have hpassed : M.passed V s (a :: as) = M.passed (s₁ :: V) s₁ as := by
        simp only [passed, h₁]
      have hkeeps := hstep s a s₁ hs hP h₁
      rw [hpassed, GuardedSystem.runVia]
      by_cases hC : C s a
      · have hP₁ : P s₁ := hkeeps.mpr hC
        rw [if_pos hC, h₁, Option.bind_some]
        refine ih (s₁ :: V) s₁ (hs.step h₁) hP₁ (fun m hm => ?_) h₂
        rcases List.mem_cons.mp hm with rfl | hm
        · exact hP₁
        · exact hV m hm
      · rw [if_neg hC]
        refine iff_of_false (fun hall => hC (hkeeps.mp ?_)) nofun
        exact hall s₁ (mem_passed_of_mem as List.mem_cons_self)
  exact hgeneral as [s] s hs hP (fun m hm => List.mem_singleton.mp hm ▸ hP) hrun

end GuardedSystem

/-! ## Views of a run -/

section View

variable {σ ι ω : Type*} (step : σ → ι → σ) (view : σ → ω) (own : ι → Bool)

/-- The inputs that do not touch a view can be left out of a run. -/
theorem view_foldl_filter (hother : ∀ s i, own i = false → view (step s i) = view s)
    (hown : ∀ s t i, own i = true → view s = view t → view (step s i) = view (step t i)) :
    ∀ (l : List ι) (s t : σ), view s = view t →
      view (l.foldl step s) = view ((l.filter own).foldl step t) := by
  intro l
  induction l with
  | nil => exact fun s t h => h
  | cons i is ih =>
    intro s t h
    by_cases hi : own i = true
    · rw [List.filter_cons_of_pos hi]
      exact ih _ _ (hown s t i hi h)
    · rw [List.filter_cons_of_neg hi]
      exact ih _ _ ((hother s i (Bool.eq_false_iff.mpr hi)).trans h)

/-- **Two runs whose inputs agree on a view's own** end in the same view,
whatever lies between. -/
theorem view_foldl_eq (hother : ∀ s i, own i = false → view (step s i) = view s)
    (hown : ∀ s t i, own i = true → view s = view t → view (step s i) = view (step t i))
    {l l' : List ι} (h : l.filter own = l'.filter own) (s : σ) :
    view (l.foldl step s) = view (l'.foldl step s) :=
  calc view (l.foldl step s)
      = view ((l.filter own).foldl step s) := view_foldl_filter step view own hother hown l s s rfl
    _ = view ((l'.filter own).foldl step s) := by rw [h]
    _ = view (l'.foldl step s) := (view_foldl_filter step view own hother hown l' s s rfl).symm

/-- **A view that inputs set or leave** ends as it was set last. -/
theorem view_foldl_eq_getLast? (set : ι → Option ω)
    (hstep : ∀ s i, view (step s i) = (set i).getD (view s)) :
    ∀ (l : List ι) (s : σ), view (l.foldl step s) = (l.filterMap set).getLast?.getD (view s) := by
  intro l
  induction l with
  | nil => exact fun s => rfl
  | cons i is ih =>
    intro s
    have hview := hstep s i
    rw [List.foldl_cons, ih, hview]
    cases hset : set i with
    | none => rw [List.filterMap_cons_none hset, Option.getD_none]
    | some w => rw [List.filterMap_cons_some hset, List.getLast?_cons, Option.getD_some,
        Option.getD_some]

end View

/-- A machine that answers every input. -/
structure AnsweringMachine (σ ι ω : Type*) where
  step : σ → ι → ω × σ

namespace AnsweringMachine

variable {σ τ ι ω : Type*}

/-- The answers to a trace of inputs, and the state it ends in. -/
def run (M : AnsweringMachine σ ι ω) : σ → List ι → List ω × σ
  | s, [] => ([], s)
  | s, i :: is =>
    let (o, s') := M.step s i
    let (os, s'') := run M s' is
    (o :: os, s'')

theorem run_cons (M : AnsweringMachine σ ι ω) (s : σ) (i : ι) (is : List ι) :
    M.run s (i :: is) =
      ((M.step s i).1 :: (M.run (M.step s i).2 is).1, (M.run (M.step s i).2 is).2) := rfl

/-- **Simulation.** A relation between the states of two machines and the
inputs still to come gives equal answers over the whole trace, if under
it the next input is answered alike and leaves related states. -/
theorem answers_eq_of_simulation (M : AnsweringMachine σ ι ω) (N : AnsweringMachine τ ι ω)
    (Rel : σ → τ → List ι → Prop)
    (hstep : ∀ s t i is, Rel s t (i :: is) →
      (M.step s i).1 = (N.step t i).1 ∧ Rel (M.step s i).2 (N.step t i).2 is) :
    ∀ is s t, Rel s t is → (M.run s is).1 = (N.run t is).1 := by
  intro is
  induction is with
  | nil => intro s t _; rfl
  | cons i is ih =>
    intro s t hrel
    obtain ⟨hans, hrel'⟩ := hstep s t i is hrel
    rw [run_cons, run_cons, hans, ih _ _ hrel']

/-! ## Inserted inputs -/

/-- The inputs of a trace that are not marked as inserted. -/
def originals (trace : List (Bool × ι)) : List ι :=
  (trace.filter fun input => !input.1).map Prod.snd

/-- The answers a trace with insertions gives to its original inputs. -/
def originalAnswers (M : AnsweringMachine σ ι ω) (s : σ) (trace : List (Bool × ι)) : List ω :=
  ((trace.zip (M.run s (trace.map Prod.snd)).1).filter fun answered => !answered.1.1).map Prod.snd

/-- **Insertion costs nothing.** A relation that survives an inserted input
on one side alone, and an original one on both with equal answers, gives
the original inputs the answers they have without the others. -/
theorem originalAnswers_eq_of_stuttering (M : AnsweringMachine σ ι ω)
    (Rel : σ → σ → List (Bool × ι) → Prop)
    (hinserted : ∀ s t i is, Rel s t ((true, i) :: is) → Rel (M.step s i).2 t is)
    (horiginal : ∀ s t i is, Rel s t ((false, i) :: is) →
      (M.step s i).1 = (M.step t i).1 ∧ Rel (M.step s i).2 (M.step t i).2 is) :
    ∀ trace s t, Rel s t trace → M.originalAnswers s trace = (M.run t (originals trace)).1 := by
  intro trace
  induction trace with
  | nil => intro s t _; rfl
  | cons input is ih =>
    intro s t hrel
    obtain ⟨inserted, i⟩ := input
    cases inserted with
    | true =>
      have hrest := ih _ _ (hinserted s t i is hrel)
      simpa [originalAnswers, originals, run_cons] using hrest
    | false =>
      obtain ⟨hans, hrel'⟩ := horiginal s t i is hrel
      have hrest := ih _ _ hrel'
      simp only [originalAnswers, originals] at hrest
      simp [originalAnswers, originals, run_cons, hans, hrest]

end AnsweringMachine
