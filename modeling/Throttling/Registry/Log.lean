import Throttling.Registry.Model.Sections
import Throttling.Registry.Helpers.Index
/-!
# The listener's log

What a listener can know is the callbacks it received. Replayed on a
mirror of the clients and their interests, they give at each callback
the registry as it was when the callback was made, and in between the
registry as it is: the four places that notify do so after they have
changed `clients_`, with the difference they made, and the one that does
not, a registration renewed, makes none.
-/

namespace Throttling

/-- What a listener keeps: the clients, and the interests of each. -/
abbrev ListenerMirror : Type := OrderedMap ClientId (Finset ResourceId)

namespace ListenerMirror

/-- One callback, replayed. -/
def replay (mirror : ListenerMirror) : ListenerEvent → ListenerMirror
  | .onClientJoined clientId => mirror.insert clientId ∅
  | .onClientLeft clientId _ => mirror.erase clientId
  | .onResourceInterestChanged clientId addedResources removedResources =>
    mirror.alter clientId fun interests =>
      interests.map fun interests => (interests \ removedResources) ∪ addedResources

/-- A callback that says something new, and true, of what the mirror has. -/
def Fits (mirror : ListenerMirror) : ListenerEvent → Prop
  | .onClientJoined clientId => mirror[clientId]? = none
  | .onClientLeft clientId interestedResources => mirror[clientId]? = some interestedResources
  | .onResourceInterestChanged clientId addedResources removedResources =>
    ∃ interests : Finset ResourceId, mirror[clientId]? = some interests ∧
      Disjoint addedResources interests ∧ removedResources ⊆ interests ∧
      (addedResources ≠ ∅ ∨ removedResources ≠ ∅)

/-- The mirror has the clients of the map, and the interests of each. -/
def Mirrors (mirror : ListenerMirror) (clients : OrderedMap ClientId ClientInfo) : Prop :=
  ∀ c : ClientId, mirror[c]? = (clients[c]?).map ClientInfo.interestedResources

/-- The mirror after a list of callbacks. -/
def replayAll (mirror : ListenerMirror) (notifications : List Notification) : ListenerMirror :=
  notifications.foldl (fun mirror notification => mirror.replay notification.event) mirror

/-- **Each callback fits the mirror it meets**, and leaves it with the
clients the registry had when the callback was made. -/
def Follows (mirror : ListenerMirror) : List Notification → Prop
  | [] => True
  | notification :: rest =>
    mirror.Fits notification.event ∧
      (mirror.replay notification.event).Mirrors notification.clients ∧
      (mirror.replay notification.event).Follows rest

theorem replayAll_append (mirror : ListenerMirror) (ns : List Notification) (n : Notification) :
    mirror.replayAll (ns ++ [n]) = (mirror.replayAll ns).replay n.event := by
  simp [replayAll]

theorem follows_append (mirror : ListenerMirror) (ns : List Notification) (n : Notification) :
    mirror.Follows (ns ++ [n]) ↔ mirror.Follows ns ∧ (mirror.replayAll ns).Fits n.event ∧
      ((mirror.replayAll ns).replay n.event).Mirrors n.clients := by
  induction ns generalizing mirror with
  | nil => simp [Follows, replayAll]
  | cons n' ns ih =>
    have hrest := ih (mirror.replay n'.event)
    simp only [List.cons_append, Follows, hrest, and_assoc]
    rfl

end ListenerMirror

open ListenerMirror

namespace ClientRegistry

/-- One operation of the registry, with the readings it takes. -/
def perform (reg : ClientRegistry) (call : RegistryCall) (expiry : ClientId → TimePoint)
    (now : TimePoint) : ClientRegistry :=
  match call with
  | .registerClient clientId => (reg.registerClient clientId expiry now).2
  | .heartbeat clientId resourceIds => (reg.heartbeat clientId resourceIds expiry now).2
  | .unregisterClient clientId => (reg.unregisterClient clientId expiry).2
  | .getClientsForResource resourceId => (reg.getClientsForResource resourceId expiry).2
  | .getInterestedResources clientId => (reg.getInterestedResources clientId expiry).2
  | .getClientCount => (reg.getClientCount expiry).2
  | .isClientRegistered clientId => (reg.isClientRegistered clientId expiry).2

/-- **The log is faithful**: a listener is attached, every callback it
received fitted, and what it has is what the registry has. -/
structure LogFaithful (reg : ClientRegistry) : Prop where
  attached : reg.listener = true
  follows : ListenerMirror.Follows ∅ reg.notifications
  mirrors : (ListenerMirror.replayAll ∅ reg.notifications).Mirrors reg.clients

variable {reg reg' : ClientRegistry}

/-! ## Telling, and keeping silent -/

/-- A change the listener is told of as it was made. -/
theorem LogFaithful.notify (h : reg.LogFaithful) (event : ListenerEvent)
    (hlistener : reg'.listener = reg.listener)
    (hnotifications : reg'.notifications = reg.notifications)
    (hfits : (ListenerMirror.replayAll ∅ reg.notifications).Fits event)
    (hmirrors : ((ListenerMirror.replayAll ∅ reg.notifications).replay event).Mirrors
      reg'.clients) : (reg'.notify event).LogFaithful := by
  have hattached : reg'.listener = true := hlistener.trans h.attached
  have htold : reg'.notify event =
      { reg' with notifications := reg.notifications ++ [⟨event, reg'.clients⟩] } := by
    rw [ClientRegistry.notify, if_pos hattached, hnotifications]
  rw [htold]
  refine ⟨hattached, ?_, ?_⟩
  · exact (follows_append _ _ _).mpr ⟨h.follows, hfits, hmirrors⟩
  · rw [replayAll_append]
    exact hmirrors

/-- A change it need not be told of: nobody came or left, and nobody's
interests changed. -/
theorem LogFaithful.silent (h : reg.LogFaithful) (hlistener : reg'.listener = reg.listener)
    (hnotifications : reg'.notifications = reg.notifications)
    (hinterests : ∀ c : ClientId, (reg'.clients[c]?).map ClientInfo.interestedResources =
      (reg.clients[c]?).map ClientInfo.interestedResources) : reg'.LogFaithful where
  attached := hlistener.trans h.attached
  follows := by rw [hnotifications]; exact h.follows
  mirrors c := by rw [hnotifications, hinterests]; exact h.mirrors c

/-! ## The sections -/

/-- `RemoveClientLocked` tells of the client it removes, with the interests
it had. -/
theorem LogFaithful.removeClientLocked (h : reg.LogFaithful) (clientId : ClientId) :
    (reg.removeClientLocked clientId).LogFaithful := by
  cases hinfo : reg.clients[clientId]? with
  | none => rwa [ClientRegistry.removeClientLocked, hinfo]
  | some info =>
    have hmine := h.mirrors clientId
    rw [hinfo] at hmine
    rw [ClientRegistry.removeClientLocked, hinfo]
    refine h.notify (.onClientLeft clientId info.interestedResources) rfl rfl hmine fun c => ?_
    have hc := h.mirrors c
    rw [replay, OrderedMap.lookup_erase, OrderedMap.lookup_erase]
    split
    · rfl
    · exact hc

/-- So does an expiry pass, of each client in turn. -/
theorem LogFaithful.expireStaleClients (h : reg.LogFaithful) (now : ClientId → TimePoint) :
    (reg.expireStaleClients now).LogFaithful := by
  rw [ClientRegistry.expireStaleClients]
  induction reg.staleClients now generalizing reg with
  | nil => exact h
  | cons c cs ih => exact ih (h.removeClientLocked c)

/-- A registration tells of a new client, and not of one it renews. -/
theorem LogFaithful.registerClientLocked (h : reg.LogFaithful) (clientId : ClientId)
    (now : TimePoint) : (reg.registerClientLocked clientId now).2.LogFaithful := by
  have hmine := h.mirrors clientId
  cases hinfo : reg.clients[clientId]? with
  | none =>
    rw [hinfo] at hmine
    rw [ClientRegistry.registerClientLocked, hinfo]
    refine h.notify (.onClientJoined clientId) rfl rfl hmine fun c => ?_
    have hc := h.mirrors c
    rw [replay, OrderedMap.lookup_insert, OrderedMap.lookup_insert]
    split
    · rfl
    · exact hc
  | some it =>
    rw [ClientRegistry.registerClientLocked, hinfo]
    refine h.silent rfl rfl fun c => ?_
    rw [OrderedMap.lookup_insert]
    split
    · rename_i hc
      rw [← hc, hinfo]
      rfl
    · rfl

/-- **The diff of a heartbeat** is what turns the old interests into the
new, and is told where it is not empty. -/
theorem LogFaithful.heartbeatLocked (h : reg.LogFaithful) (clientId : ClientId)
    (resourceIds : Finset ResourceId) (now : TimePoint) :
    (reg.heartbeatLocked clientId resourceIds now).2.LogFaithful := by
  have hmine := h.mirrors clientId
  cases hinfo : reg.clients[clientId]? with
  | none => rwa [heartbeatLocked_of_none hinfo]
  | some it =>
    rw [hinfo] at hmine
    have hdiff : (it.interestedResources \ (it.interestedResources \ resourceIds)) ∪
        (resourceIds \ it.interestedResources) = resourceIds := by
      ext r
      simp only [Finset.mem_union, Finset.mem_sdiff]
      tauto
    rw [ClientRegistry.heartbeatLocked, hinfo]
    dsimp only
    split
    · rename_i hchanged
      refine h.notify (.onResourceInterestChanged clientId _ _) rfl rfl
        ⟨_, hmine, Finset.sdiff_disjoint, Finset.sdiff_subset, hchanged⟩ fun c => ?_
      have hc := h.mirrors c
      rw [replay, OrderedMap.lookup_alter, OrderedMap.lookup_insert, hmine]
      split
      · exact congrArg some hdiff
      · exact hc
    · -- no difference either way: the interests are the ones on record
      rename_i hsame
      obtain ⟨hadded, hremoved⟩ := not_or.mp hsame
      have heq : it.interestedResources = resourceIds :=
        Finset.Subset.antisymm (Finset.sdiff_eq_empty_iff_subset.mp (not_not.mp hremoved))
          (Finset.sdiff_eq_empty_iff_subset.mp (not_not.mp hadded))
      refine h.silent rfl rfl fun c => ?_
      rw [OrderedMap.lookup_insert]
      split
      · rename_i hc
        rw [← hc, hinfo]
        simp [heq]
      · rfl

theorem LogFaithful.unregisterClientLocked (h : reg.LogFaithful) (clientId : ClientId) :
    (reg.unregisterClientLocked clientId).2.LogFaithful := by
  unfold ClientRegistry.unregisterClientLocked
  split
  · exact h
  · exact h.removeClientLocked clientId

theorem LogFaithful.ownSection (h : reg.LogFaithful) (now : TimePoint) (call : RegistryCall) :
    (reg.ownSection now call).LogFaithful := by
  cases call with
  | registerClient clientId => exact h.registerClientLocked clientId now
  | heartbeat clientId resourceIds => exact h.heartbeatLocked clientId resourceIds now
  | unregisterClient clientId => exact h.unregisterClientLocked clientId
  | _ => exact h

/-! ## Whole operations -/

/-- An operation that is not refused is its two sections. -/
theorem perform_eq (reg : ClientRegistry) (call : RegistryCall) (expiry : ClientId → TimePoint)
    (now : TimePoint) :
    reg.perform call expiry now =
      if call.refused then reg else (reg.expireStaleClients expiry).ownSection now call := by
  cases call with
  | registerClient clientId =>
    rw [perform, registerClient, RegistryCall.refused]
    by_cases hempty : clientId.isEmpty = true
    · rw [if_pos hempty, if_pos hempty]
    · rw [if_neg hempty, if_neg hempty, ownSection]
  | _ => rfl

/-- `SetListener`, and what that listener is told from then on. -/
def attach (reg : ClientRegistry) : ClientRegistry :=
  { reg.setListener true with notifications := [] }

theorem logFaithful_attach (h : reg.clients = ∅) : reg.attach.LogFaithful where
  attached := rfl
  follows := trivial
  mirrors := by simp [Mirrors, replayAll, attach, setListener, h]

theorem LogFaithful.perform (h : reg.LogFaithful) (call : RegistryCall)
    (expiry : ClientId → TimePoint) (now : TimePoint) :
    (reg.perform call expiry now).LogFaithful := by
  rw [perform_eq]
  split
  · exact h
  · exact (h.expireStaleClients expiry).ownSection now call

/-- **Listener events are a faithful log of the registry.** After any
operations, at any readings, on a registry that was empty when the
listener was attached: every callback fitted the mirror and left it with
the clients of that moment, and the mirror has the clients there are. -/
theorem logFaithful_of_operations (reg : ClientRegistry) (hempty : reg.clients = ∅)
    (operations : List (RegistryCall × (ClientId → TimePoint) × TimePoint)) :
    (operations.foldl (fun reg operation => reg.perform operation.1 operation.2.1 operation.2.2)
      reg.attach).LogFaithful := by
  have hall : ∀ reg : ClientRegistry, reg.LogFaithful →
      (operations.foldl
        (fun reg operation => reg.perform operation.1 operation.2.1 operation.2.2)
        reg).LogFaithful := by
    induction operations with
    | nil => exact fun reg h => h
    | cons operation rest ih => exact fun reg h => ih _ (h.perform _ _ _)
  exact hall _ (logFaithful_attach hempty)

/-- A client joins, changes its interests twice, and is expired by a query
another client's heartbeat comes after. -/
def loggedOperations : List (RegistryCall × (ClientId → TimePoint) × TimePoint) :=
  [(.registerClient "a", fun _ => 0, 0), (.heartbeat "a" {1, 2}, fun _ => 0, 0),
   (.heartbeat "a" {2, 3}, fun _ => 1, 1), (.registerClient "b", fun _ => 1, 1500000000),
   (.getClientCount, fun _ => 1500000000, 1500000000), (.registerClient "a", fun _ => 0, 0),
   (.heartbeat "b" {3}, fun _ => 1500000000, 1500000000)]

theorem loggedOperations_logFaithful :
    (loggedOperations.foldl
      (fun reg operation => reg.perform operation.1 operation.2.1 operation.2.2)
      (new 1).attach).LogFaithful :=
  logFaithful_of_operations (new 1) rfl loggedOperations

end ClientRegistry

/-- **And so they are under concurrency**: from a faithful log, any step of
any thread that does not change the listener leaves one. -/
theorem RegistryThreads.logFaithful_step {s s' : RegistryThreads} {a : RegistryAction}
    (h : s.registry.LogFaithful) (hlistener : ∀ listener, a ≠ .setListener listener)
    (hstep : s.step a = some s') : s'.registry.LogFaithful := by
  cases a with
  | invoke t call =>
    simp only [RegistryThreads.step] at hstep
    split at hstep
    · split at hstep <;> · obtain rfl := Option.some.inj hstep; exact h
    · cases hstep
  | expireSection t now =>
    simp only [RegistryThreads.step] at hstep
    split at hstep
    · obtain rfl := Option.some.inj hstep
      exact h.expireStaleClients now
    · cases hstep
  | ownSection t now =>
    simp only [RegistryThreads.step] at hstep
    split at hstep
    · obtain rfl := Option.some.inj hstep
      exact h.ownSection now _
    · cases hstep
  | setListener listener => exact absurd rfl (hlistener listener)

end Throttling
