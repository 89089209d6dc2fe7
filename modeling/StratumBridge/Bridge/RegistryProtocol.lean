import StratumBridge.Bridge.GuardProtocol

/-! # The registry of connections

A connection that is accepted draws a client id, keeps it and is listed under it. Taking it
down removes the entry of the id it keeps, if that id reads as present. No other task touches
the registry.
-/

namespace StratumBridge

open Interaction

variable [Platform] {deployment : Deployment}

/-- The calls that list connections, with what they depend on. -/
inductive RegistryCall where
  | accepted (uid : Nat)
  /-- The client id of a connection is read. -/
  | read (uid : Nat) (id : Int)
  | drew (instanceId : Nat) (id : Int)
  | assigned (uid : Nat) (id : Int)
  | inserted (instanceId : Nat) (id : Int) (uid : Nat)
  | removed (instanceId : Nat) (id : Int)
deriving DecidableEq

def registryCall : (op : BridgeOp) → op.Answer → Option RegistryCall
  | .newSessionUid, uid => some (.accepted uid)
  | .context uid .read, context => some (.read uid context.id)
  | .registry instanceId .nextId, id => some (.drew instanceId id)
  | .context uid (.setId id), _ => some (.assigned uid id)
  | .registry instanceId (.insert id uid), _ => some (.inserted instanceId id uid)
  | .registry instanceId (.remove id), _ => some (.removed instanceId id)
  | _, _ => none

/-- The calls of other tasks: they only look at connections. -/
def RegistryCall.Looks (call : RegistryCall) : Prop := ∃ uid id, call = .read uid id

variable (deployment) in
/-- The share handler of a connection. -/
def handlerOf (uid : Nat) : Nat := (deployment.contexts uid).instanceId

/-- A new connection draws one id from its handler, keeps it and is listed under it; a connection
that is taken down is removed from the list of its handler under the id it keeps. -/
def RegistryPermits (deployment : Deployment) (request : BridgeRequest)
    (calls : List RegistryCall) : BridgeOp → Prop
  | .newSessionUid => request = .connect ∧ calls = []
  | .registry instanceId .nextId => request = .connect ∧
      (∃ uid, .accepted uid ∈ calls ∧ instanceId = handlerOf deployment uid) ∧
        ∀ other id, .drew other id ∉ calls
  | .context uid (.setId id) => request = .connect ∧ .accepted uid ∈ calls ∧
      .drew (handlerOf deployment uid) id ∈ calls
  | .registry instanceId (.insert id uid) => request = .connect ∧ .accepted uid ∈ calls ∧
      instanceId = handlerOf deployment uid ∧ .drew instanceId id ∈ calls
  | .registry instanceId (.remove id) => ∃ uid, request = .disconnect uid ∧
      instanceId = handlerOf deployment uid ∧ .read uid id ∈ calls
  | _ => True

/-- What a finished task has done to the registry. -/
def RegistryCompletes (deployment : Deployment) : BridgeRequest → List RegistryCall → Prop
  | .connect, calls => ∃ uid id, .accepted uid ∈ calls ∧ .drew (handlerOf deployment uid) id ∈ calls ∧
      .assigned uid id ∈ calls ∧ .inserted (handlerOf deployment uid) id uid ∈ calls
  | .disconnect uid, calls => ∃ id, .read uid id ∈ calls ∧
      (0 < id → .removed (handlerOf deployment uid) id ∈ calls)
  | _, _ => True

@[reducible] def registrations (deployment : Deployment) :
    Protocol bridgeSignature BridgeRequest RegistryCall BridgeResult where
  select := registryCall
  permits := RegistryPermits deployment
  answers := GuardAnswers deployment
  completes := fun request calls _ => RegistryCompletes deployment request calls

section Tasks

variable {α β : Type} {request : BridgeRequest} {calls : List RegistryCall} {uid : Nat}

/-- The kinds of operations that leave the registry and the ids alone. -/
def unregisteredKinds : List Kind := Kind.except [.registry, .accept]

theorem registrations_passes {op : BridgeOp} (other : op.kind ∈ unregisteredKinds) :
    (registrations deployment).Passes RegistryCall.Looks op := by
  have noRegistry : Kind.registry ∉ unregisteredKinds := by decide
  have noAccept : Kind.accept ∉ unregisteredKinds := by decide
  constructor
  · intro request calls
    change RegistryPermits deployment request calls op
    unfold RegistryPermits
    split
    · exact absurd other noAccept
    · exact absurd other noRegistry
    · exact absurd other noRegistry
    · exact absurd other noRegistry
    · exact absurd other noRegistry
    · trivial
  · intro answer item chosen
    change registryCall op answer = some item at chosen
    unfold registryCall at chosen
    split at chosen
    · exact absurd other noAccept
    · exact ⟨_, _, (Option.some.inj chosen).symm⟩
    · exact absurd other noRegistry
    · exact absurd other noRegistry
    · exact absurd other noRegistry
    · exact absurd other noRegistry
    · cases chosen

/-- A task of other kinds only looks at connections. -/
theorem Uses.looks {task : Task α} (uses : Uses unregisteredKinds task) :
    (registrations deployment).Obeys request calls task fun after _ =>
      ∃ added, after = calls ++ added ∧ ∀ call ∈ added, call.Looks :=
  Protocol.obeys_of_passes (Program.Within.mono uses fun _ member => registrations_passes member)

/-- What more calls keep, a task of other kinds keeps. -/
theorem registrations_skip {holds : List RegistryCall → Prop} {first : Task α} {rest : α → Task β}
    {post : List RegistryCall → β → Prop} (uses : Uses unregisteredKinds first)
    (kept : ∀ before added, holds before → holds (before ++ added)) (before : holds calls)
    (tail : ∀ result after, holds after →
      (registrations deployment).Obeys request after (rest result) post) :
    (registrations deployment).Obeys request calls (first >>= rest) post := by
  refine uses.looks.bind ?_
  rintro _ result ⟨added, rfl, -⟩
  exact tail result _ (kept calls added before)

theorem readContext_registers :
    (registrations deployment).Obeys request calls (readContext uid) fun after context =>
      context.instanceId = handlerOf deployment uid ∧ after = calls ++ [.read uid context.id] :=
  ⟨trivial, fun _ known => ⟨known, rfl⟩⟩

/-- A new connection is listed under the id it draws. -/
theorem acceptConnection_registers :
    (registrations deployment).Obeys .connect [] acceptConnection fun after _ =>
      RegistryCompletes deployment .connect after := by
  refine ⟨⟨rfl, rfl⟩, fun uid _ => readContext_registers.bind ?_⟩
  rintro _ context ⟨own, rfl⟩
  rw [own]
  refine ⟨⟨rfl, ⟨uid, ?_, rfl⟩, ?_⟩, fun id _ => ⟨trivial, fun _ _ => ?_⟩⟩
  · simp [registryCall]
  · simp [registryCall]
  refine ⟨⟨rfl, ?_, ?_⟩, fun _ _ => ⟨⟨rfl, ?_, rfl, ?_⟩, fun _ _ => ⟨uid, id, ?_, ?_, ?_, ?_⟩⟩⟩
  all_goals simp [registryCall]

/-- A connection with an id that reads as present is removed under it. -/
theorem unregister_registers :
    (registrations deployment).Obeys (.disconnect uid) calls
      (unregister (handlerOf deployment uid) uid) fun after _ =>
        RegistryCompletes deployment (.disconnect uid) after := by
  refine readContext_registers.bind ?_
  rintro _ context ⟨-, rfl⟩
  have seen : .read uid context.id ∈ calls ++ [RegistryCall.read uid context.id] :=
    List.mem_append_right _ List.mem_cons_self
  unfold Context.clientId
  by_cases positive : 0 < context.id
  · rw [if_pos positive]
    refine ⟨⟨uid, rfl, rfl, seen⟩, fun _ _ => ⟨_, List.mem_append_left _ seen, fun _ => ?_⟩⟩
    exact List.mem_append_right _ List.mem_cons_self
  · rw [if_neg positive]
    exact ⟨_, seen, fun absurdity => absurd absurdity positive⟩

theorem registryCompletes_append (before added : List RegistryCall)
    (completes : RegistryCompletes deployment (.disconnect uid) before) :
    RegistryCompletes deployment (.disconnect uid) (before ++ added) := by
  obtain ⟨id, seen, removes⟩ := completes
  exact ⟨id, List.mem_append_left _ seen, fun positive => List.mem_append_left _ (removes positive)⟩

theorem onDisconnect_registers :
    (registrations deployment).Obeys (.disconnect uid) [] (onDisconnect uid) fun after _ =>
      RegistryCompletes deployment (.disconnect uid) after := by
  have quiet : Kind.quiet ∈ unregisteredKinds := by decide
  have registers : Kind.registration ∈ unregisteredKinds := by decide
  have closes : Kind.session ∈ unregisteredKinds := by decide
  have correlates : Kind.correlation ∈ unregisteredKinds := by decide
  have anything : ∀ before added : List RegistryCall, True → True := fun _ _ _ => trivial
  refine readContext_registers.bind ?_
  rintro _ context ⟨own, rfl⟩
  rw [own]
  refine registrations_skip (deactivateClientVardiff_uses _ uid quiet registers) anything trivial
    fun _ _ _ => ?_
  refine registrations_skip (uses_quiet quiet (.context uid .disconnect) rfl) anything trivial
    fun _ _ _ => ?_
  refine unregister_registers.bind fun after _ completes => ?_
  refine registrations_skip (walletAddr_uses quiet uid) registryCompletes_append completes
    fun wallet _ completes => ?_
  refine registrations_skip (workerName_uses quiet uid) registryCompletes_append completes
    fun worker _ completes => ?_
  refine registrations_skip (remoteApp_uses quiet uid) registryCompletes_append completes
    fun app _ completes => ?_
  refine registrations_skip (recordDisconnect_uses _ uid quiet wallet worker app)
    registryCompletes_append completes fun _ _ completes => ?_
  refine (closeSession_uses uid quiet closes correlates wallet worker app).looks.mono ?_
  rintro _ _ ⟨added, rfl, -⟩
  exact registryCompletes_append _ added completes

/-- **Every task keeps to the registry protocol.** -/
theorem bridgeProgram_registers (request : BridgeRequest) :
    (registrations deployment).Obeys request [] (bridgeProgram deployment.settings request)
      fun after _ => RegistryCompletes deployment request after := by
  have uses := bridgeProgram_uses deployment.settings request
  have plain : ∀ {task : Task BridgeResult}, Uses unregisteredKinds task →
      (∀ calls, RegistryCompletes deployment request calls) →
        (registrations deployment).Obeys request [] task fun after _ =>
          RegistryCompletes deployment request after :=
    fun uses idle => uses.looks.mono fun after _ _ => idle after
  cases request with
  | connect => exact acceptConnection_registers.bind fun _ _ completes => completes
  | disconnect uid => exact onDisconnect_registers.bind fun _ _ completes => completes
  | submit =>
      exact plain (uses.mono (by decide : submissionKinds ⊆ unregisteredKinds)) fun _ => trivial
  | confirmBlock =>
      exact plain (uses.mono (by decide : confirmationKinds ⊆ unregisteredKinds)) fun _ => trivial
  | authorize =>
      exact plain (uses.mono (by decide : authorizationKinds ⊆ unregisteredKinds)) fun _ => trivial
  | subscribe =>
      exact plain (uses.mono (by decide : subscriptionKinds ⊆ unregisteredKinds)) fun _ => trivial
  | newParent =>
      exact plain (uses.mono (by decide : refreshKinds ⊆ unregisteredKinds)) fun _ => trivial
  | _ =>
      exact plain (uses.mono (by decide : publicationKinds ⊆ unregisteredKinds)) fun _ => trivial

end Tasks

/-- **Registry protocol.** Every run is explained by it. -/
theorem registrations_execute (events : List (bridge deployment).Event) :
    @System.Explained (bridge deployment) RegistryCall (registrations deployment)
      (System.execute events).log :=
  System.explained_execute bridgeProgram_registers events fun thread op answer made =>
    guardAnswers_of_did made

end StratumBridge
