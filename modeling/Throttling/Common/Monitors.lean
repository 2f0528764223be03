import Throttling.Common.Locking
/-!
# Data that mutexes guard

Every mutex guards a part of the data, of which an invariant holds while
the mutex is free. A program is read off against that: where it takes a
mutex it learns the invariant, where it releases one it owes it, its
actions keep to the parts whose mutexes it holds, and between two actions
the others may change any part but those (`Prog.Sound`). What is shown
of a program that way, by rules that follow its structure, holds of it in
every interleaving of programs shown so: the invariants, whenever a mutex
is free (`governed_of_reachable`), and what a program says of its answer
and of the data it met on the way (`answer_of_run`).
-/

variable {M ι σ α β γ : Type}

/-- **What mutexes guard.** -/
structure Guard (M σ : Type) where
  /-- What the part of a mutex is like. -/
  Part : M → Type
  view : (m : M) → σ → Part m
  /-- What holds of it while the mutex is free. -/
  inv : (m : M) → Part m → Prop

namespace Guard

variable {G : Guard M σ} {held held' : Set M} {s s' s'' : σ} {m : M}

/-- The parts guarded by some mutexes are the same in two states. -/
def Agree (G : Guard M σ) (held : Set M) (s s' : σ) : Prop := ∀ m ∈ held, G.view m s' = G.view m s

theorem Agree.refl (G : Guard M σ) (held : Set M) (s : σ) : G.Agree held s s := fun _ _ => rfl

theorem Agree.trans (h : G.Agree held s s') (h' : G.Agree held s' s'') : G.Agree held s s'' :=
  fun m hm => (h' m hm).trans (h m hm)

theorem Agree.mono (h : G.Agree held s s') (hsub : held' ⊆ held) : G.Agree held' s s' :=
  fun m hm => h m (hsub hm)

/-- **Later in a program**: it may have met more, and the parts held in the
meantime are as they were. -/
structure Since (G : Guard M σ) (held : Set M) (seen : List σ) (s : σ) (seen' : List σ) (s' : σ) :
    Prop where
  seen : seen ⊆ seen'
  agree : G.Agree held s s'

variable {seen seen' seen'' : List σ}

theorem Since.refl (G : Guard M σ) (held : Set M) (seen : List σ) (s : σ) :
    G.Since held seen s seen s :=
  ⟨List.Subset.refl seen, .refl G held s⟩

theorem Since.trans (h : G.Since held seen s seen' s') (h' : G.Since held seen' s' seen'' s'') :
    G.Since held seen s seen'' s'' :=
  ⟨List.Subset.trans h.seen h'.seen, h.agree.trans h'.agree⟩

theorem Since.mono (h : G.Since held seen s seen' s') (hsub : held' ⊆ held) :
    G.Since held' seen s seen' s' :=
  ⟨h.seen, h.agree.mono hsub⟩

/-- Where something was met. -/
theorem Agree.since (h : G.Agree held s s') (x : σ) : G.Since held seen s (x :: seen) s' :=
  ⟨List.subset_cons_self x seen, h⟩

/-- **An action confined** to the parts of some mutexes: it writes no other,
and what it does and what comes next depend on no other. -/
structure Confined (G : Guard M σ) (held : Set M) (update : ι → σ → σ) (next : ι → σ → β) :
    Prop where
  writes : ∀ i s m, m ∉ held → G.view m (update i s) = G.view m s
  reads : ∀ i s s', G.Agree held s s' →
    next i s' = next i s ∧ G.Agree held (update i s) (update i s')

end Guard

namespace Prog

variable {G : Guard M σ} {Q Q' : α → Set M → List σ → σ → Prop} {held : Set M} {seen : List σ}
variable {s : σ}

/-- **What a program comes to among others.** It holds some mutexes, has
met some states of the data, the newest first, and knows one since which
the parts it holds have not changed. -/
def Sound (G : Guard M σ) (Q : α → Set M → List σ → σ → Prop) :
    Set M → List σ → σ → Prog M ι σ α → Prop
  | held, seen, s, done a => Q a held seen s
  | held, seen, s, lock m rest =>
    ∀ s', G.Agree held s s' → G.inv m (G.view m s') → rest.Sound G Q (insert m held) seen s'
  | held, seen, s, unlock m rest =>
    m ∈ held ∧ G.inv m (G.view m s) ∧ rest.Sound G Q (held \ {m}) seen s
  | held, seen, s, act update next =>
    G.Confined held update next ∧
      ∀ i s', G.Agree held s s' → (next i s').Sound G Q held (s' :: seen) (update i s')

theorem Sound.mono {p : Prog M ι σ α} (h : p.Sound G Q held seen s)
    (hQ : ∀ a held seen s, Q a held seen s → Q' a held seen s) : p.Sound G Q' held seen s := by
  induction p generalizing held seen s with
  | done a => exact hQ a held seen s h
  | lock m rest ih => exact fun s' hagree hinv => ih (h s' hagree hinv)
  | unlock m rest ih => exact ⟨h.1, h.2.1, ih h.2.2⟩
  | act update next ih => exact ⟨h.1, fun i s' hagree => ih i s' (h.2 i s' hagree)⟩

/-- What holds of a program and of whatever follows it. -/
theorem Sound.bind {p : Prog M ι σ α} {k : α → Prog M ι σ β}
    {Q : β → Set M → List σ → σ → Prop}
    (h : p.Sound G (fun a held seen s => (k a).Sound G Q held seen s) held seen s) :
    (p >>= k).Sound G Q held seen s := by
  change (p.bind k).Sound G Q held seen s
  induction p generalizing held seen s with
  | done a => exact h
  | lock m rest ih => exact fun s' hagree hinv => ih (h s' hagree hinv)
  | unlock m rest ih => exact ⟨h.1, h.2.1, ih h.2.2⟩
  | act update next ih =>
    refine ⟨⟨h.1.writes, fun i s s' hagree => ?_⟩, fun i s' hagree => ih i s' (h.2 i s' hagree)⟩
    obtain ⟨hnext, hupdate⟩ := h.1.reads i s s' hagree
    exact ⟨by rw [hnext], hupdate⟩

theorem sound_pure {a : α} (h : Q a held seen s) :
    (pure a : Prog M ι σ α).Sound G Q held seen s := h

/-- A look at parts it holds. -/
theorem sound_read {f : ι → σ → α} (hreads : ∀ i s s', G.Agree held s s' → f i s' = f i s)
    (hQ : ∀ i s', G.Agree held s s' → Q (f i s') held (s' :: seen) s') :
    (read f : Prog M ι σ α).Sound G Q held seen s := by
  refine ⟨⟨fun _ _ _ _ => rfl, fun i s s' hagree => ⟨?_, hagree⟩⟩, hQ⟩
  rw [hreads i s s' hagree]

/-- An action on parts it holds. -/
theorem sound_perform {f : ι → σ → α × σ}
    (hwrites : ∀ i s m, m ∉ held → G.view m (f i s).2 = G.view m s)
    (hreads : ∀ i s s', G.Agree held s s' →
      (f i s').1 = (f i s).1 ∧ G.Agree held (f i s).2 (f i s').2)
    (hQ : ∀ i s', G.Agree held s s' → Q (f i s').1 held (s' :: seen) (f i s').2) :
    (perform f : Prog M ι σ α).Sound G Q held seen s := by
  refine ⟨⟨hwrites, fun i s s' hagree => ?_⟩, hQ⟩
  obtain ⟨hresult, hupdate⟩ := hreads i s s' hagree
  exact ⟨by rw [hresult], hupdate⟩

/-- **A scope that holds a mutex** starts from the invariant and has to
bring it about again. -/
theorem sound_locked {m : M} {body : Prog M ι σ α} (hfree : m ∉ held)
    (hbody : ∀ s', G.Agree held s s' → G.inv m (G.view m s') →
      body.Sound G (fun a held' seen' s'' =>
        held' = insert m held ∧ G.inv m (G.view m s'') ∧ Q a held seen' s'')
        (insert m held) seen s') :
    (locked m body).Sound G Q held seen s := by
  refine fun s' hagree hinv => Sound.bind ((hbody s' hagree hinv).mono ?_)
  rintro a held' seen' s'' ⟨rfl, hinv', hQ⟩
  refine ⟨Set.mem_insert m held, hinv', ?_⟩
  have hgone : insert m held \ {m} = held := Set.insert_sdiff_self_of_notMem hfree
  rw [hgone]
  exact hQ

/-- **A loop over a list**, with an invariant that knows how far it is. -/
theorem sound_foldlM {f : β → γ → Prog M ι σ β} {J : List γ → β → List σ → σ → Prop}
    (hturn : ∀ past c b seen s, J past b seen s → (f b c).Sound G
      (fun b' held' seen' s' => held' = held ∧ J (past ++ [c]) b' seen' s') held seen s) :
    ∀ (l past : List γ) (b : β) (seen : List σ) (s : σ), J past b seen s →
      (l.foldlM f b).Sound G
        (fun b' held' seen' s' => held' = held ∧ J (past ++ l) b' seen' s') held seen s := by
  intro l
  induction l with
  | nil =>
    intro past b seen s h
    rw [List.append_nil]
    exact ⟨rfl, h⟩
  | cons c l ih =>
    intro past b seen s h
    rw [List.foldlM_cons]
    refine Sound.bind ((hturn past c b seen s h).mono ?_)
    rintro b' held' seen' s' ⟨rfl, h'⟩
    rw [List.append_cons]
    exact ih (past ++ [c]) b' seen' s' h'

end Prog

/-! ## Among other threads -/

namespace LockState

variable {τ κ : Type} {G : Guard M σ} {Q : α → Set M → List σ → σ → Prop}
variable {s s' : LockState M ι σ α τ} {t : τ} {i : ι}

/-- **The monitors keep their invariants**: every thread's program is sound
from where it is, an idle one holds nothing, and the invariant of a mutex
that is free holds. -/
structure Governed (G : Guard M σ) (s : LockState M ι σ α τ) : Prop where
  threads : ∀ t p, s.threads t = some p → ∃ seen known, G.Agree (s.holding t) known s.data ∧
    p.Sound G (fun _ held _ _ => held = ∅) (s.holding t) seen known
  idle : ∀ t, s.threads t = none → s.holding t = ∅
  free : ∀ m, s.holder m = none → G.inv m (G.view m s.data)

/-- Two threads hold nothing in common. -/
theorem not_mem_holding_of_ne {m : M} {u : τ} (hm : m ∈ s.holding u) (hne : u ≠ t) :
    m ∉ s.holding t :=
  fun hm' => hne (Option.some.inj (hm.symm.trans hm'))

variable [DecidableEq M] [DecidableEq τ]

/-- **What a step of a thread is.** -/
inductive ThreadStep (s : LockState M ι σ α τ) (t : τ) (i : ι) : LockState M ι σ α τ → Prop
  | returned {a : α} (hthread : s.threads t = some (.done a)) : ThreadStep s t i (s.goto t none)
  | locked {m : M} {rest : Prog M ι σ α} (hthread : s.threads t = some (.lock m rest))
      (hfree : s.holder m = none) : ThreadStep s t i ((s.pass m (some t)).goto t (some rest))
  | unlocked {m : M} {rest : Prog M ι σ α} (hthread : s.threads t = some (.unlock m rest)) :
      ThreadStep s t i ((s.pass m none).goto t (some rest))
  | acted {update : ι → σ → σ} {next : ι → σ → Prog M ι σ α}
      (hthread : s.threads t = some (.act update next)) :
      ThreadStep s t i ({ s with data := update i s.data }.goto t (some (next i s.data)))

theorem threadStep_cases (h : s.threadStep t i = some s') : ThreadStep s t i s' := by
  unfold threadStep at h
  split at h
  · cases h
  · rename_i a hthread
    obtain rfl := Option.some.inj h
    exact .returned hthread
  · rename_i m rest hthread
    split at h
    · cases h
    · rename_i hfree
      obtain rfl := Option.some.inj h
      exact .locked hthread (Option.not_isSome_iff_eq_none.mp hfree)
  · rename_i m rest hthread
    obtain rfl := Option.some.inj h
    exact .unlocked hthread
  · rename_i update next hthread
    obtain rfl := Option.some.inj h
    exact .acted hthread

theorem exists_of_threadStep (h : s.threadStep t i = some s') : ∃ p, s.threads t = some p := by
  cases threadStep_cases h with
  | returned hthread => exact ⟨_, hthread⟩
  | locked hthread => exact ⟨_, hthread⟩
  | unlocked hthread => exact ⟨_, hthread⟩
  | acted hthread => exact ⟨_, hthread⟩

/-- **What a step leaves the others**: where they are, what they hold, and
every part the thread does not hold itself. -/
structure Framed (G : Guard M σ) (s : LockState M ι σ α τ) (t : τ) (s' : LockState M ι σ α τ) :
    Prop where
  threads : ∀ u, u ≠ t → s'.threads u = s.threads u
  holding : ∀ u, u ≠ t → s'.holding u = s.holding u
  views : ∀ m, m ∉ s.holding t → G.view m s'.data = G.view m s.data
  free : ∀ m, s'.holder m = none → m ∉ s.holding t → s.holder m = none

/-- **A step of a sound program** goes on with what is left of it, which is
sound, or ends with what was shown of its answer. -/
theorem sound_threadStep {p : Prog M ι σ α} {seen : List σ} {known : σ}
    (hthread : s.threads t = some p) (hsound : p.Sound G Q (s.holding t) seen known)
    (hagree : G.Agree (s.holding t) known s.data)
    (hfree : ∀ m, s.holder m = none → G.inv m (G.view m s.data))
    (h : s.threadStep t i = some s') :
    Framed G s t s' ∧ (∀ m, s'.holder m = none → G.inv m (G.view m s'.data)) ∧
      ((∃ a, p = .done a ∧ s'.threads t = none ∧ s'.holding t = s.holding t ∧
          Q a (s.holding t) seen known) ∨
        ∃ p' seen' known', s'.threads t = some p' ∧ G.Agree (s'.holding t) known' s'.data ∧
          p'.Sound G Q (s'.holding t) seen' known' ∧ (seen' = seen ∨ seen' = s.data :: seen)) := by
  cases threadStep_cases h with
  | @returned a hthread' =>
    obtain rfl := Option.some.inj (hthread.symm.trans hthread')
    exact ⟨⟨fun u hu => s.goto_threads_of_ne none hu, fun _ _ => rfl, fun _ _ => rfl,
      fun _ hm _ => hm⟩, hfree, .inl ⟨a, rfl, s.goto_threads_self t none, rfl, hsound⟩⟩
  | @locked m rest hthread' hnone =>
    obtain rfl := Option.some.inj (hthread.symm.trans hthread')
    have hholding := holding_pass_some (t := t) hnone
    have hmine : ((s.pass m (some t)).goto t (some rest)).holding t = insert m (s.holding t) := by
      rw [goto_holding, hholding, if_pos rfl]
    have hstill : ∀ m', ((s.pass m (some t)).goto t (some rest)).holder m' = none →
        s.holder m' = none := by
      intro m' hm'
      by_cases hm : m' = m
      · rw [hm]
        exact hnone
      · have hsame : (s.pass m (some t)).holder m' = s.holder m' := Function.update_of_ne hm _ _
        exact hsame.symm.trans hm'
    refine ⟨⟨fun u hu => goto_threads_of_ne _ _ hu, fun u hu => ?_, fun _ _ => rfl,
      fun m' hm' _ => hstill m' hm'⟩, fun m' hm' => hfree m' (hstill m' hm'),
      .inr ⟨rest, seen, s.data, goto_threads_self _ t _, Guard.Agree.refl G _ _, ?_, .inl rfl⟩⟩
    · rw [goto_holding, hholding, if_neg hu]
    · rw [hmine]
      exact hsound s.data hagree (hfree m hnone)
  | @unlocked m rest hthread' =>
    obtain rfl := Option.some.inj (hthread.symm.trans hthread')
    obtain ⟨hheld, hinv, hrest⟩ := hsound
    have hholding := holding_pass_none (t := t) hheld
    have hmine : ((s.pass m none).goto t (some rest)).holding t = s.holding t \ {m} := by
      rw [goto_holding, hholding, if_pos rfl]
    have hholder : ∀ m', m' ≠ m →
        ((s.pass m none).goto t (some rest)).holder m' = s.holder m' := fun m' hm' =>
      Function.update_of_ne hm' _ _
    refine ⟨⟨fun u hu => goto_threads_of_ne _ _ hu, fun u hu => ?_, fun _ _ => rfl,
      fun m' hm' hnot => ?_⟩, fun m' hm' => ?_,
      .inr ⟨rest, seen, known, goto_threads_self _ t _, ?_, ?_, .inl rfl⟩⟩
    · rw [goto_holding, hholding, if_neg hu]
    · have hne : m' ≠ m := fun heq => hnot (heq ▸ hheld)
      exact (hholder m' hne).symm.trans hm'
    · by_cases hm : m' = m
      · -- it was just released, with its invariant
        subst hm
        have hview := hagree m' hheld
        change G.inv m' (G.view m' s.data)
        rw [hview]
        exact hinv
      · exact hfree m' ((hholder m' hm).symm.trans hm')
    · rw [hmine]
      exact hagree.mono Set.sdiff_subset
    · rw [hmine]
      exact hrest
  | @acted update next hthread' =>
    obtain rfl := Option.some.inj (hthread.symm.trans hthread')
    obtain ⟨hconfined, hnext⟩ := hsound
    refine ⟨⟨fun u hu => goto_threads_of_ne _ _ hu, fun _ _ => rfl,
      fun m hm => hconfined.writes i s.data m hm, fun _ hm _ => hm⟩, fun m hm => ?_,
      .inr ⟨next i s.data, s.data :: seen, update i s.data, goto_threads_self _ t _,
        Guard.Agree.refl G _ _, hnext i s.data hagree, .inr rfl⟩⟩
    have hview := hconfined.writes i s.data m fun (hmem : s.holder m = some t) => by
      cases hmem.symm.trans hm
    have hinv := hfree m hm
    rw [← hview] at hinv
    exact hinv

omit [DecidableEq M] [DecidableEq τ] in
/-- What another thread holds does not change. -/
theorem Framed.agree (h : Framed G s t s') {u : τ} (hne : u ≠ t) {known : σ}
    (hagree : G.Agree (s.holding u) known s.data) : G.Agree (s'.holding u) known s'.data := by
  intro m hm
  rw [h.holding u hne] at hm
  rw [h.views m (not_mem_holding_of_ne hm hne)]
  exact hagree m hm

/-- **A step keeps the monitors' invariants.** -/
theorem Governed.threadStep (hs : Governed G s) (h : s.threadStep t i = some s') :
    Governed G s' := by
  obtain ⟨p, hthread⟩ := exists_of_threadStep h
  obtain ⟨seen, known, hagree, hsound⟩ := hs.threads t p hthread
  obtain ⟨hframed, hfree, hmine⟩ := sound_threadStep hthread hsound hagree hs.free h
  refine ⟨fun u q hq => ?_, fun u hu => ?_, hfree⟩
  · by_cases hut : u = t
    · subst hut
      rcases hmine with ⟨a, -, hnone, -⟩ | ⟨p', seen', known', hp', hagree', hsound', -⟩
      · cases hnone.symm.trans hq
      · obtain rfl := Option.some.inj (hp'.symm.trans hq)
        exact ⟨seen', known', hagree', hsound'⟩
    · rw [hframed.threads u hut] at hq
      obtain ⟨seen', known', hagree', hsound'⟩ := hs.threads u q hq
      refine ⟨seen', known', hframed.agree hut hagree', ?_⟩
      rw [hframed.holding u hut]
      exact hsound'
  · by_cases hut : u = t
    · subst hut
      rcases hmine with ⟨a, -, -, hholding, hempty⟩ | ⟨p', seen', known', hp', -⟩
      · exact hholding.trans hempty
      · cases hp'.symm.trans hu
    · rw [hframed.threads u hut] at hu
      rw [hframed.holding u hut]
      exact hs.idle u hu

omit [DecidableEq M] in
/-- A program that begins, with nothing held, is sound. -/
theorem Governed.begin (hs : Governed G s) {p : Prog M ι σ α} (hidle : s.threads t = none)
    (hp : p.Sound G (fun _ held _ _ => held = ∅) ∅ [] s.data) :
    Governed G (s.goto t (some p)) where
  threads u q hq := by
    by_cases hut : u = t
    · subst hut
      rw [goto_threads_self] at hq
      obtain rfl := Option.some.inj hq
      refine ⟨[], s.data, Guard.Agree.refl G _ _, ?_⟩
      rw [goto_holding, hs.idle u hidle]
      exact hp
    · rw [goto_threads_of_ne _ _ hut] at hq
      exact hs.threads u q hq
  idle u hu := by
    by_cases hut : u = t
    · subst hut
      rw [goto_threads_self] at hu
      cases hu
    · rw [goto_threads_of_ne _ _ hut] at hu
      exact hs.idle u hu
  free := hs.free

/-! ## Runs -/

variable {program : κ → Prog M ι σ α} {start : σ}

/-- **In every interleaving of sound programs** the monitors keep their
invariants. -/
theorem governed_of_reachable
    (hprogram : ∀ call s, (program call).Sound G (fun _ held _ _ => held = ∅) ∅ [] s)
    (hstart : ∀ m, G.inv m (G.view m start))
    (h : (lockSystem (τ := τ) program start).Reachable s) : Governed G s := by
  refine GuardedSystem.Reachable.invariant (P := Governed G) ?_ (fun s a s' hs hstep => ?_) h
  · refine ⟨nofun, fun t _ => ?_, fun m _ => hstart m⟩
    exact Set.eq_empty_of_forall_notMem fun m hm => by cases hm
  · cases a with
    | step t i => exact hs.threadStep hstep
    | begin t call =>
      simp only [lockSystem] at hstep
      split at hstep
      · rename_i hidle
        obtain rfl := Option.some.inj hstep
        exact hs.begin hidle (hprogram call s.data)
      · cases hstep

/-- **A call under way**: what is left of it is sound, for what the whole
call says, and it has met none but given states of the data. -/
def UnderWay (G : Guard M σ) (Q : α → Set M → List σ → σ → Prop) (t : τ)
    (V : List (LockState M ι σ α τ)) (s : LockState M ι σ α τ) : Prop :=
  ∃ p seen known, s.threads t = some p ∧ G.Agree (s.holding t) known s.data ∧
    p.Sound G Q (s.holding t) seen known ∧ ∀ x ∈ seen, ∃ m ∈ V, m.data = x

/-- It goes on with a step of its own, unless that returns, -/
theorem UnderWay.threadStep {V : List (LockState M ι σ α τ)} (hway : UnderWay G Q t V s)
    (hs : Governed G s) (hmem : s ∈ V) (h : s.threadStep t i = some s')
    (hbusy : (s'.threads t).isSome = true) : UnderWay G Q t (s' :: V) s' := by
  obtain ⟨p, seen, known, hp, hagree, hsound, hseen⟩ := hway
  obtain ⟨-, -, hmine⟩ := sound_threadStep hp hsound hagree hs.free h
  rcases hmine with ⟨a, -, hnone, -⟩ | ⟨p', seen', known', hp', hagree', hsound', hseen'⟩
  · rw [hnone] at hbusy
    cases hbusy
  · refine ⟨p', seen', known', hp', hagree', hsound', fun x hx => ?_⟩
    have hold : ∀ x ∈ seen, ∃ m ∈ s' :: V, m.data = x := by
      intro x hx
      obtain ⟨m, hm, hdata⟩ := hseen x hx
      exact ⟨m, List.mem_cons_of_mem _ hm, hdata⟩
    rcases hseen' with rfl | rfl
    · exact hold x hx
    · rcases List.mem_cons.mp hx with rfl | hx
      · exact ⟨s, List.mem_cons_of_mem _ hmem, rfl⟩
      · exact hold x hx

/-- and is nothing to what others do. -/
theorem UnderWay.step_other {V : List (LockState M ι σ α τ)} (hway : UnderWay G Q t V s)
    (hs : Governed G s) {a : LockAction ι τ κ} (hother : ∀ i, a ≠ .step t i)
    (h : (lockSystem program start).step s a = some s') : UnderWay G Q t (s' :: V) s' := by
  obtain ⟨p, seen, known, hp, hagree, hsound, hseen⟩ := hway
  have hmem : ∀ x ∈ seen, ∃ m ∈ s' :: V, m.data = x := by
    intro x hx
    obtain ⟨m, hm, hdata⟩ := hseen x hx
    exact ⟨m, List.mem_cons_of_mem _ hm, hdata⟩
  cases a with
  | begin u call =>
    simp only [lockSystem] at h
    split at h
    · rename_i hidle
      obtain rfl := Option.some.inj h
      have hne : t ≠ u := by
        rintro rfl
        cases hidle.symm.trans hp
      exact ⟨p, seen, known, (goto_threads_of_ne _ _ hne).trans hp, hagree, hsound, hmem⟩
    · cases h
  | step u j =>
    have h' : s.threadStep u j = some s' := h
    have hne : t ≠ u := by
      rintro rfl
      exact hother j rfl
    obtain ⟨q, hq⟩ := exists_of_threadStep h'
    obtain ⟨seen', known', hagree', hsound'⟩ := hs.threads u q hq
    obtain ⟨hframed, -, -⟩ := sound_threadStep hq hsound' hagree' hs.free h'
    refine ⟨p, seen, known, (hframed.threads t hne).trans hp, hframed.agree hne hagree, ?_, hmem⟩
    rw [hframed.holding t hne]
    exact hsound

/-- **What a call says of its answer**, it has when it returns, whatever the
others did meanwhile: the data it speaks of are states of the run since
it began. -/
theorem answer_of_run
    (hprogram : ∀ call s, (program call).Sound G (fun _ held _ _ => held = ∅) ∅ [] s)
    (hstart : ∀ m, G.inv m (G.view m start)) {call : κ}
    (hcall : ∀ s, (program call).Sound G Q ∅ [] s) {s₀ s₁ : LockState M ι σ α τ}
    (hs : (lockSystem (τ := τ) program start).Reachable s₀)
    (hbegin : (lockSystem program start).step s₀ (.begin t call) = some s₁)
    {V : List (LockState M ι σ α τ)} (hrun : (lockSystem program start).Run s₁ V s)
    (hbusy : ∀ m ∈ V, (m.threads t).isSome = true) {a : α} (hdone : s.threads t = some (.done a)) :
    ∃ held seen known, (∀ x ∈ seen, ∃ m ∈ V, m.data = x) ∧ Q a held seen known := by
  have hs₁ := hs.step hbegin
  have hway : UnderWay G Q t V s := by
    clear hdone
    induction hrun with
    | start =>
      simp only [lockSystem] at hbegin
      split at hbegin
      · rename_i hidle
        obtain rfl := Option.some.inj hbegin
        have hempty := (governed_of_reachable hprogram hstart hs).idle t hidle
        refine ⟨_, [], s₀.data, goto_threads_self _ _ _, Guard.Agree.refl G _ _, ?_,
          fun x hx => absurd hx List.not_mem_nil⟩
        rw [goto_holding, hempty]
        exact hcall s₀.data
      · cases hbegin
    | @step V m m' b hrun hstep ih =>
      have hway := ih fun n hn => hbusy n (List.mem_cons_of_mem _ hn)
      have hm := governed_of_reachable hprogram hstart (hrun.reachable hs₁ m hrun.last_mem)
      by_cases hown : ∃ i, b = .step t i
      · obtain ⟨i, rfl⟩ := hown
        exact hway.threadStep hm hrun.last_mem hstep (hbusy m' List.mem_cons_self)
      · exact hway.step_other hm (fun i heq => hown ⟨i, heq⟩) hstep
  obtain ⟨p, seen, known, hp, -, hsound, hseen⟩ := hway
  obtain rfl := Option.some.inj (hp.symm.trans hdone)
  exact ⟨_, seen, known, hseen, hsound⟩

end LockState
