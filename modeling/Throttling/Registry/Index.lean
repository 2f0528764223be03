import Throttling.Registry.Model.Sections
import Throttling.Registry.Helpers.Index
/-!
# The reverse index under concurrency

Each section keeps the mirror, from any state that has it; so every
interleaving of sections does, whatever runs between a call's expiry
section and its own.
-/

namespace Throttling

open ClientRegistry

/-- Every operation's own section keeps the mirror. -/
theorem ClientRegistry.IndexMirrors.ownSection {reg : ClientRegistry} (h : reg.IndexMirrors)
    (now : TimePoint) (call : RegistryCall) : (reg.ownSection now call).IndexMirrors := by
  cases call with
  | registerClient clientId => exact h.registerClientLocked clientId now
  | heartbeat clientId resourceIds => exact h.heartbeatLocked clientId resourceIds now
  | unregisterClient clientId => exact h.unregisterClientLocked clientId
  | getClientsForResource => exact h
  | getInterestedResources => exact h
  | getClientCount => exact h
  | isClientRegistered => exact h

/-- **What a step does to the registry**: nothing, an expiry pass, one
operation's own section, or a change of listener. -/
theorem RegistryThreads.step_registry {s s' : RegistryThreads} {a : RegistryAction}
    (h : s.step a = some s') :
    s'.registry = s.registry ∨
    (∃ now, s'.registry = s.registry.expireStaleClients now) ∨
    (∃ now call, s'.registry = s.registry.ownSection now call) ∨
    (∃ listener, s'.registry = s.registry.setListener listener) := by
  cases a with
  | invoke t call =>
    simp only [RegistryThreads.step] at h
    split at h
    · split at h <;> · obtain rfl := Option.some.inj h; exact Or.inl rfl
    · cases h
  | expireSection t now =>
    simp only [RegistryThreads.step] at h
    split at h
    · obtain rfl := Option.some.inj h
      exact Or.inr (Or.inl ⟨now, rfl⟩)
    · cases h
  | ownSection t now =>
    simp only [RegistryThreads.step] at h
    split at h
    · rename_i call _
      obtain rfl := Option.some.inj h
      exact Or.inr (Or.inr (Or.inl ⟨now, call, rfl⟩))
    · cases h
  | setListener listener =>
    obtain rfl := Option.some.inj h
    exact Or.inr (Or.inr (Or.inr ⟨listener, rfl⟩))

/-- **The index mirrors the interests in every reachable state**, of any
number of threads, at any readings: `c` is in the entry of `r` exactly
when `c` is registered with `r` among its interests, and no entry is
empty. -/
theorem indexMirrors_of_reachable {heartbeatTimeout : ℤ} {s : RegistryThreads}
    (h : (registrySystem heartbeatTimeout).Reachable s) : s.registry.IndexMirrors := by
  refine GuardedSystem.Reachable.invariant (P := fun s => s.registry.IndexMirrors)
    (indexMirrors_new heartbeatTimeout) (fun s a s' hs hstep => ?_) h
  rcases RegistryThreads.step_registry hstep with heq | ⟨now, heq⟩ | ⟨now, call, heq⟩ | ⟨l, heq⟩
  · rw [heq]; exact hs
  · rw [heq]; exact hs.expireStaleClients now
  · rw [heq]; exact hs.ownSection now call
  · exact hs.congr (by rw [heq]; rfl) (by rw [heq]; rfl)

/-- **A call run without interruption** is its two sections in a row; so
what sequential callers bring about is reachable. -/
theorem RegistryThreads.reachable_call {heartbeatTimeout : ℤ} {s : RegistryThreads}
    (hs : (registrySystem heartbeatTimeout).Reachable s) {t : ℕ} (ht : s.pc t = .idle)
    (call : RegistryCall) (hcall : call.refused = false) (expiry : ClientId → TimePoint)
    (now : TimePoint) :
    (registrySystem heartbeatTimeout).Reachable
      { s with registry := (s.registry.expireStaleClients expiry).ownSection now call } := by
  have hpc : Function.update s.pc t .idle = s.pc := by rw [← ht, Function.update_eq_self]
  have hrun : (registrySystem heartbeatTimeout).runFrom s
      [.invoke t call, .expireSection t expiry, .ownSection t now] =
        some { s with registry := (s.registry.expireStaleClients expiry).ownSection now call } := by
    simp [GuardedSystem.runFrom, registrySystem, RegistryThreads.step, ht, hcall, hpc]
  exact GuardedSystem.Reachable.runFrom hs hrun

/-- Two threads, and an expiry that falls between a heartbeat's two
sections: client `"a"` is gone when its heartbeat runs. -/
def silentExpiryRun : List RegistryAction :=
  [.invoke 0 (.registerClient "a"), .invoke 1 (.registerClient "b"),
   .expireSection 0 fun _ => 0, .expireSection 1 fun _ => 0, .ownSection 1 0, .ownSection 0 0,
   .invoke 0 (.heartbeat "a" {1, 2}), .expireSection 0 fun _ => 10, .ownSection 0 10,
   .invoke 1 (.heartbeat "b" {2}), .expireSection 1 fun _ => 10, .ownSection 1 2000000000,
   .invoke 0 (.heartbeat "a" {3}), .expireSection 0 fun _ => 10,
   .invoke 1 .getClientCount, .expireSection 1 fun _ => 2000000000, .ownSection 0 2000000000]

theorem silentExpiryRun_indexMirrors :
    ∃ s, (registrySystem 1).runFrom (registrySystem 1).init silentExpiryRun = some s ∧
      s.registry.IndexMirrors := by
  obtain ⟨s, hs⟩ : ∃ s, (registrySystem 1).runFrom (registrySystem 1).init silentExpiryRun =
      some s := ⟨_, rfl⟩
  exact ⟨s, hs, indexMirrors_of_reachable (GuardedSystem.Reachable.runFrom .init hs)⟩

end Throttling
