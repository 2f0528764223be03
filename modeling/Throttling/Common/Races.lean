import Throttling.Common.Monitors
/-!
# No data races

Two threads race where the order of their next steps matters to the data.
In a system whose threads keep to the parts they hold it never does: what
two threads can do next comes to the same in either order, and neither
keeps the other from it (`Governed.steps_commute`). The one thing they can
contend for is a mutex that both take.
-/

variable {M ι σ α β τ : Type}

namespace Prog

variable {G : Guard M σ} {Q : α → Set M → List σ → σ → Prop} {held : Set M} {s s' : σ}

/-- What is left after the next step; nothing, if that returns. -/
def after (i : ι) (s : σ) : Prog M ι σ α → Option (Prog M ι σ α)
  | done _ => none
  | lock _ rest => some rest
  | unlock _ rest => some rest
  | act _ next => some (next i s)

/-- What the next step does to the data. -/
def update (i : ι) (s : σ) : Prog M ι σ α → σ
  | act update _ => update i s
  | _ => s

/-- The mutex the next step takes or releases. -/
def mutex : Prog M ι σ α → Option M
  | lock m _ => some m
  | unlock m _ => some m
  | _ => none

/-- What the next step, taken by a thread, does to who holds what. -/
def passes [DecidableEq M] (t : τ) (holder : M → Option τ) : Prog M ι σ α → M → Option τ
  | lock m _ => Function.update holder m (some t)
  | unlock m _ => Function.update holder m none
  | _ => holder

/-- **The next step of a sound program** writes what it holds alone, -/
theorem Sound.view_update {p : Prog M ι σ α} {seen : List σ} {known : σ}
    (h : p.Sound G Q held seen known) (i : ι) {m : M} (hm : m ∉ held) :
    G.view m (p.update i s) = G.view m s := by
  cases p with
  | act update next => exact h.1.writes i s m hm
  | _ => rfl

/-- and reads it alone. -/
theorem Sound.after_eq {p : Prog M ι σ α} {seen : List σ} {known : σ}
    (h : p.Sound G Q held seen known) (i : ι) (hagree : G.Agree held s s') :
    p.after i s' = p.after i s ∧ G.Agree held (p.update i s) (p.update i s') := by
  cases p with
  | act update next =>
    obtain ⟨hnext, hupdate⟩ := h.1.reads i s s' hagree
    exact ⟨congrArg some hnext, hupdate⟩
  | _ => exact ⟨rfl, hagree⟩

variable [DecidableEq M]

theorem passes_of_ne {p : Prog M ι σ α} {t : τ} {holder : M → Option τ} {m : M}
    (hm : p.mutex ≠ some m) : p.passes t holder m = holder m := by
  cases p with
  | lock m' rest => exact Function.update_of_ne (fun heq => hm (congrArg some heq.symm)) _ _
  | unlock m' rest => exact Function.update_of_ne (fun heq => hm (congrArg some heq.symm)) _ _
  | _ => rfl

/-- What happens to a program's own mutex does not depend on who holds it. -/
theorem passes_of_eq {p : Prog M ι σ α} {t : τ} {holder holder' : M → Option τ} {m : M}
    (hm : p.mutex = some m) : p.passes t holder m = p.passes t holder' m := by
  cases p with
  | lock m' rest =>
    obtain rfl := Option.some.inj hm
    simp [passes]
  | unlock m' rest =>
    obtain rfl := Option.some.inj hm
    simp [passes]
  | _ => cases hm

/-- **Different mutexes** change hands in either order. -/
theorem passes_comm {p q : Prog M ι σ α} {t u : τ} {holder : M → Option τ}
    (hdiff : ∀ m, p.mutex = some m → q.mutex ≠ some m) :
    q.passes u (p.passes t holder) = p.passes t (q.passes u holder) := by
  funext m
  by_cases hp : p.mutex = some m
  · rw [passes_of_ne (hdiff m hp)]
    exact passes_of_eq hp
  · rw [passes_of_ne hp]
    by_cases hq : q.mutex = some m
    · exact passes_of_eq hq
    · rw [passes_of_ne hq, passes_of_ne hq, passes_of_ne hp]

end Prog

namespace LockState

variable {G : Guard M σ} {s s' s₁ s₂ : LockState M ι σ α τ} {t u : τ} {i j : ι}
variable [DecidableEq M] [DecidableEq τ]

/-- A thread's next step, in terms of its program. -/
theorem threadStep_eq_some_iff : s.threadStep t i = some s' ↔
    ∃ p, s.threads t = some p ∧ (∀ m, p.wants = some m → s.holder m = none) ∧
      s' = ⟨p.update i s.data, p.passes t s.holder,
        Function.update s.threads t (p.after i s.data)⟩ := by
  constructor
  · intro h
    cases threadStep_cases h with
    | returned hthread => exact ⟨_, hthread, nofun, rfl⟩
    | @locked m rest hthread hfree =>
      refine ⟨_, hthread, fun m' hm' => ?_, rfl⟩
      obtain rfl := Option.some.inj hm'
      exact hfree
    | unlocked hthread => exact ⟨_, hthread, nofun, rfl⟩
    | acted hthread => exact ⟨_, hthread, nofun, rfl⟩
  · rintro ⟨p, hthread, hfree, rfl⟩
    unfold threadStep
    rw [hthread]
    cases p with
    | lock m rest =>
      have hnone := hfree m rfl
      simp only [hnone, Option.isSome_none, Bool.false_eq_true, if_false]
      rfl
    | _ => rfl

omit [DecidableEq M] [DecidableEq τ] in
/-- Two threads whose next steps are about one mutex both take it. -/
theorem mutex_ne_of_governed (hs : Governed G s) (hne : t ≠ u) {p q : Prog M ι σ α}
    (hp : s.threads t = some p) (hq : s.threads u = some q)
    (hpfree : ∀ m, p.wants = some m → s.holder m = none)
    (hqfree : ∀ m, q.wants = some m → s.holder m = none)
    (hboth : ∀ m, s.wants t = some m → s.wants u ≠ some m) (m : M) (hpm : p.mutex = some m) :
    q.mutex ≠ some m := by
  intro hqm
  obtain ⟨_, _, -, hpsound⟩ := hs.threads t p hp
  obtain ⟨_, _, -, hqsound⟩ := hs.threads u q hq
  cases p with
  | lock m₁ rest =>
    obtain rfl := Option.some.inj hpm
    have hnone : s.holder m₁ = none := hpfree m₁ rfl
    cases q with
    | lock m₂ rest' =>
      obtain rfl := Option.some.inj hqm
      refine hboth m₂ ?_ ?_
      · rw [wants, hp]
        rfl
      · rw [wants, hq]
        rfl
    | unlock m₂ rest' =>
      obtain rfl := Option.some.inj hqm
      have hheld : s.holder m₂ = some u := hqsound.1
      cases hnone.symm.trans hheld
    | _ => cases hqm
  | unlock m₁ rest =>
    obtain rfl := Option.some.inj hpm
    have hheld : s.holder m₁ = some t := hpsound.1
    cases q with
    | lock m₂ rest' =>
      obtain rfl := Option.some.inj hqm
      have hnone : s.holder m₂ = none := hqfree m₂ rfl
      cases hnone.symm.trans hheld
    | unlock m₂ rest' =>
      obtain rfl := Option.some.inj hqm
      have hheld' : s.holder m₂ = some u := hqsound.1
      exact hne (Option.some.inj (hheld.symm.trans hheld'))
    | _ => cases hqm
  | _ => cases hpm

omit [DecidableEq M] [DecidableEq τ] in
/-- **What two threads do to the data** comes to the same in either order,
where the parts are all there is of the data. -/
theorem update_comm (hG : ∀ d d' : σ, (∀ m, G.view m d = G.view m d') → d = d')
    (hs : Governed G s) (hne : t ≠ u) {p q : Prog M ι σ α} (hp : s.threads t = some p)
    (hq : s.threads u = some q) :
    q.update j (p.update i s.data) = p.update i (q.update j s.data) ∧
      p.after i (q.update j s.data) = p.after i s.data ∧
      q.after j (p.update i s.data) = q.after j s.data := by
  obtain ⟨_, _, -, hpsound⟩ := hs.threads t p hp
  obtain ⟨_, _, -, hqsound⟩ := hs.threads u q hq
  -- neither sees what the other does
  have hpsees : G.Agree (s.holding t) s.data (q.update j s.data) := fun m hm =>
    hqsound.view_update j (not_mem_holding_of_ne hm hne)
  have hqsees : G.Agree (s.holding u) s.data (p.update i s.data) := fun m hm =>
    hpsound.view_update i (not_mem_holding_of_ne hm (Ne.symm hne))
  obtain ⟨hpafter, hpupdate⟩ := hpsound.after_eq i hpsees
  obtain ⟨hqafter, hqupdate⟩ := hqsound.after_eq j hqsees
  refine ⟨hG _ _ fun m => ?_, hpafter, hqafter⟩
  by_cases hm : m ∈ s.holding t
  · rw [hqsound.view_update j (not_mem_holding_of_ne hm hne)]
    exact (hpupdate m hm).symm
  · rw [hpsound.view_update i hm]
    by_cases hm' : m ∈ s.holding u
    · exact hqupdate m hm'
    · rw [hqsound.view_update j hm', hqsound.view_update j hm', hpsound.view_update i hm]

/-- **The next steps of two threads commute**, unless they take the same
mutex: each can still be made after the other, and both orders end in the
same state. -/
theorem Governed.steps_commute (hG : ∀ d d' : σ, (∀ m, G.view m d = G.view m d') → d = d')
    (hs : Governed G s) (hne : t ≠ u) (ht : s.threadStep t i = some s₁)
    (hu : s.threadStep u j = some s₂) (hboth : ∀ m, s.wants t = some m → s.wants u ≠ some m) :
    ∃ s', s₁.threadStep u j = some s' ∧ s₂.threadStep t i = some s' := by
  obtain ⟨p, hp, hpfree, rfl⟩ := threadStep_eq_some_iff.mp ht
  obtain ⟨q, hq, hqfree, rfl⟩ := threadStep_eq_some_iff.mp hu
  have hdiff := mutex_ne_of_governed hs hne hp hq hpfree hqfree hboth
  obtain ⟨hdata, hpafter, hqafter⟩ := update_comm (i := i) (j := j) hG hs hne hp hq
  -- who takes a mutex does so by name
  have hmutex : ∀ {r : Prog M ι σ α} {m : M}, r.wants = some m → r.mutex = some m := by
    intro r m hm
    cases r with
    | lock m' rest => exact hm
    | _ => cases hm
  refine ⟨⟨q.update j (p.update i s.data), q.passes u (p.passes t s.holder),
    Function.update (Function.update s.threads t (p.after i s.data)) u (q.after j s.data)⟩,
    threadStep_eq_some_iff.mpr ⟨q, ?_, fun m hm => ?_, ?_⟩,
    threadStep_eq_some_iff.mpr ⟨p, ?_, fun m hm => ?_, ?_⟩⟩
  · exact (Function.update_of_ne (Ne.symm hne) _ _).trans hq
  · dsimp only
    rw [Prog.passes_of_ne fun hpm => hdiff m hpm (hmutex hm)]
    exact hqfree m hm
  · rw [hqafter]
  · exact (Function.update_of_ne hne _ _).trans hp
  · dsimp only
    rw [Prog.passes_of_ne (hdiff m (hmutex hm))]
    exact hpfree m hm
  · rw [hpafter, hdata, Prog.passes_comm hdiff, Function.update_comm hne]

end LockState
