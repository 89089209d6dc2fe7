import StratumBridge.Bridge.RegistryProtocol
import StratumBridge.Interaction.Observation

/-! # Counting a connection in the statistics of its worker

An authorization takes its connection off the statistics of the old identity, stores the new
identity, and counts the connection in the statistics of that one, step by step; so does the end
of a connection, up to the first of these. A task that is between two steps has something in hand.
-/

namespace StratumBridge

open Interaction

variable [Platform] {deployment : Deployment}

/-- The wallet and the supplied worker name of a connection. -/
def Context.identity (context : Context) : Text × Text :=
  (context.walletAddr, if context.workerNameSupplied then context.workerName else [])

/-- `stats_key` of an identity. -/
def keyOf (identity : Text × Text) : Text :=
  Text.toLowercase (Text.trim identity.1) ++ [Char.ofNat 0] ++ identity.2

/-- What a task has in hand of the registration of its connection. -/
inductive Hand where
  /-- Nothing: the connection is counted if and only if it is marked as registered. -/
  | settled
  /-- A registration that is released and still counts; the identities read since. -/
  | leaving (seen : List (Text × Text))
  | closing (handle : Nat)
  /-- Nothing: the connection is not registered. -/
  | detached
  /-- A registration that is claimed and does not count yet; the identities read since. -/
  | joining (seen : List (Text × Text))
  | holding (handle : Nat)
deriving DecidableEq

namespace Hand

def AtRest (hand : Hand) : Prop := hand = .settled ∨ hand = .detached

def see (identity : Text × Text) : Hand → Hand
  | .leaving seen => .leaving (seen ++ [identity])
  | .joining seen => .joining (seen ++ [identity])
  | hand => hand

/-- The entry to leave was looked up. -/
def found (entry : Option Nat) : Hand → Hand
  | .leaving _ => (entry.map closing).getD .detached
  | hand => hand

/-- The entry to join was looked up, or created. -/
def given (handle : Nat) : Hand → Hand
  | .joining _ => .holding handle
  | hand => hand

section AtRest

omit [Platform]

theorem atRest_settled : settled.AtRest := .inl rfl

theorem atRest_detached : detached.AtRest := .inr rfl

variable {hand : Hand} (rest : hand.AtRest)
include rest

theorem AtRest.see_eq (identity : Text × Text) : hand.see identity = hand := by
  rcases rest with rfl | rfl <;> rfl

theorem AtRest.found_eq (entry : Option Nat) : hand.found entry = hand := by
  rcases rest with rfl | rfl <;> rfl

theorem AtRest.given_eq (handle : Nat) : hand.given handle = hand := by
  rcases rest with rfl | rfl <;> rfl

end AtRest

/-- What a call leaves in the hand of a task that works on a connection. -/
def next (owner : Option Nat) (hand : Hand) : (op : BridgeOp) → op.Answer → Hand
  | .context uid .read, context => if owner = some uid then hand.see context.identity else hand
  | .context _ .releaseVardiffRegistration, released => if released then .leaving [] else .detached
  | .context _ .claimVardiffRegistration, claimed => if claimed then .joining [] else .settled
  | .stats _ (.find _), entry => hand.found entry
  | .getCreateStats _ _ _ _, handle => hand.given handle
  | .stats _ (.write _ .connectionClosed), _ => .detached
  | .stats _ (.write _ .connectionOpened), _ => .settled
  | _, _ => hand

end Hand

/-- The key of a wallet and a worker name that were read. -/
def Spells (seen : List (Text × Text)) (key : Text) : Prop :=
  ∃ first ∈ seen, ∃ second ∈ seen, key = keyOf (first.1, second.2)

/-- The connection a task registers or unregisters. -/
def BridgeRequest.registers : BridgeRequest → Option Nat
  | .authorize uid _ | .disconnect uid => some uid
  | _ => none

/-- A task releases, counts off, renames, claims and counts its own connection in this order. -/
def HandPermits (deployment : Deployment) (owner : Option Nat) (hand : Hand) : BridgeOp → Prop
  | .context uid .releaseVardiffRegistration => owner = some uid ∧ hand = .settled
  | .context uid .claimVardiffRegistration => owner = some uid ∧ hand = .detached
  | .context uid (.setWalletAddr _) => owner = some uid ∧ hand = .detached
  | .context uid (.setWorkerName worker supplied) => owner = some uid ∧ hand = .detached ∧
      supplied = decide (Text.trim worker ≠ [])
  | .stats instanceId (.find key) => ∀ seen, hand = .leaving seen →
      ∃ uid, owner = some uid ∧ instanceId = handlerOf deployment uid ∧ Spells seen key
  | .getCreateStats instanceId _ key _ => ∀ seen, hand = .joining seen →
      ∃ uid, owner = some uid ∧ instanceId = handlerOf deployment uid ∧ Spells seen key
  | .stats instanceId (.write handle .connectionClosed) =>
      ∃ uid, owner = some uid ∧ instanceId = handlerOf deployment uid ∧ hand = .closing handle
  | .stats instanceId (.write handle .connectionOpened) =>
      ∃ uid, owner = some uid ∧ instanceId = handlerOf deployment uid ∧ hand = .holding handle
  | _ => True

/-- The observer of a task: the connection it registers, and what it has in hand. -/
@[reducible] def hands (deployment : Deployment) : Monitor bridgeSignature where
  Ghost := Option Nat × Hand
  allowed := fun ghost op => HandPermits deployment ghost.1 ghost.2 op
  answers := GuardAnswers deployment
  next := fun ghost op answer => (ghost.1, ghost.2.next ghost.1 op answer)

section Tasks

variable {α β : Type} {owner : Option Nat} {hand : Hand} {uid : Nat}

/-- The kinds of operations that neither register a connection nor name it. -/
def stillKinds : List Kind := Kind.except [.registration, .identity]

theorem hands_still {op : BridgeOp} (rest : hand.AtRest) (still : op.kind ∈ stillKinds) :
    HandPermits deployment owner hand op ∧ ∀ answer, hand.next owner op answer = hand := by
  have noRegistration : Kind.registration ∉ stillKinds := by decide
  have noIdentity : Kind.identity ∉ stillKinds := by decide
  constructor
  · unfold HandPermits
    split
    · exact absurd still noRegistration
    · exact absurd still noRegistration
    · exact absurd still noIdentity
    · exact absurd still noIdentity
    · rintro seen rfl
      rcases rest with absurdity | absurdity <;> cases absurdity
    · rintro seen rfl
      rcases rest with absurdity | absurdity <;> cases absurdity
    · exact absurd still noRegistration
    · exact absurd still noRegistration
    · trivial
  · intro answer
    unfold Hand.next
    split
    · rw [rest.see_eq, ite_self]
    · exact absurd still noRegistration
    · exact absurd still noRegistration
    · exact rest.found_eq _
    · exact rest.given_eq _
    · exact absurd still noRegistration
    · exact absurd still noRegistration
    · rfl

/-- A task of other kinds leaves a hand at rest as it is. -/
theorem Uses.rests {task : Task α} (uses : Uses stillKinds task) (rest : hand.AtRest) :
    (hands deployment).Follows (owner, hand) task fun after _ => after = (owner, hand) := by
  induction task with
  | done result => rfl
  | call op next ih =>
      obtain ⟨permitted, same⟩ := hands_still rest uses.1
      refine ⟨permitted, fun answer _ => ?_⟩
      change (hands deployment).Follows (owner, hand.next owner op answer) (next answer) _
      rw [same answer]
      exact ih answer (uses.2 answer)

theorem hands_skip {first : Task α} {next : α → Task β} {post : Option Nat × Hand → β → Prop}
    (uses : Uses stillKinds first) (rest : hand.AtRest)
    (tail : ∀ result, (hands deployment).Follows (owner, hand) (next result) post) :
    (hands deployment).Follows (owner, hand) (first >>= next) post := by
  refine (uses.rests rest).bind ?_
  rintro _ result rfl
  exact tail result

/-- Two identities that were read spell a key. -/
theorem spells_of_mem {seen : List (Text × Text)} {first second : Context}
    (one : first.identity ∈ seen) (two : second.identity ∈ seen) :
    Spells seen (Text.toLowercase (Text.trim first.walletAddr) ++ [Char.ofNat 0] ++
      if second.workerNameSupplied then second.workerName else []) :=
  ⟨first.identity, one, second.identity, two, rfl⟩

theorem readContext_hands (rest : hand.AtRest) :
    (hands deployment).Follows (owner, hand) (readContext uid) fun after context =>
      context.instanceId = handlerOf deployment uid ∧ after = (owner, hand) := by
  refine ⟨trivial, fun context known => ⟨known, ?_⟩⟩
  change (owner, if owner = some uid then hand.see context.identity else hand) = (owner, hand)
  rw [rest.see_eq, ite_self]

theorem deactivateClientVardiff_hands :
    (hands deployment).Follows (some uid, .settled)
      (deactivateClientVardiff (handlerOf deployment uid) uid) fun after _ =>
        after = (some uid, .detached) := by
  refine ⟨⟨rfl, rfl⟩, fun registered _ => ?_⟩
  cases (registered : Bool) with
  | false => rfl
  | true =>
      refine ⟨trivial, fun first _ => ⟨trivial, fun second _ => ⟨?_, fun found _ => ?_⟩⟩⟩
      · intro seen same
        simp only [Hand.next, Hand.see, if_true] at same
        cases same
        exact ⟨uid, rfl, rfl, spells_of_mem (by simp) (by simp)⟩
      · simp only [Hand.next, Hand.see, if_true]
        cases (found : Option Nat) with
        | none => rfl
        | some handle =>
            exact ⟨⟨uid, rfl, rfl, rfl⟩, fun _ _ => ⟨trivial, fun now _ => ⟨trivial, fun _ _ => rfl⟩⟩⟩

theorem activateClientVardiff_hands :
    (hands deployment).Follows (some uid, .detached)
      (activateClientVardiff (handlerOf deployment uid) uid) fun after _ =>
        after = (some uid, .settled) := by
  refine ⟨⟨rfl, rfl⟩, fun claimed _ => ?_⟩
  cases (claimed : Bool) with
  | false => rfl
  | true =>
      refine ⟨trivial, fun _ _ => ⟨trivial, fun named _ => ⟨trivial, fun first _ =>
        ⟨trivial, fun second _ => ⟨trivial, fun now _ => ⟨?_, fun handle _ => ?_⟩⟩⟩⟩⟩⟩
      · intro seen same
        simp only [Hand.next, Hand.see, if_true] at same
        cases same
        exact ⟨uid, rfl, rfl, spells_of_mem (by simp) (by simp)⟩
      · simp only [Hand.next, Hand.see, if_true]
        refine ⟨⟨uid, rfl, rfl, rfl⟩, fun _ _ => ?_⟩
        exact ⟨trivial, fun now _ => ⟨trivial, fun _ _ => ⟨trivial, fun _ _ => ⟨trivial, fun _ _ =>
          ⟨trivial, fun _ _ => rfl⟩⟩⟩⟩⟩

theorem storeIdentity_hands (wallet worker : Text) :
    (hands deployment).Follows (some uid, .detached) (storeIdentity uid wallet worker)
      fun after _ => after = (some uid, .detached) := by
  refine ⟨⟨rfl, rfl⟩, fun _ _ => ⟨⟨rfl, rfl, rfl⟩, fun _ _ => ?_⟩⟩
  exact (effectiveWorkerName_uses (by decide) uid).rests Hand.atRest_detached

theorem registerIdentity_hands (wallet : Text) :
    (hands deployment).Follows (some uid, .detached)
      (registerIdentity (handlerOf deployment uid) uid wallet) fun after _ =>
        after.1 = some uid ∧ after.2.AtRest := by
  unfold registerIdentity
  split
  · exact ⟨rfl, .inr rfl⟩
  · refine activateClientVardiff_hands.mono ?_
    rintro _ _ rfl
    exact ⟨rfl, .inl rfl⟩

theorem authorize_hands (eventId : Option Value) (identity : Text) (password : Option Text) :
    (hands deployment).Follows (some uid, .settled)
      (authorize deployment.settings uid eventId identity password) fun after _ =>
        after.2.AtRest := by
  have quiet : Kind.quiet ∈ stillKinds := by decide
  refine (readContext_hands Hand.atRest_settled).bind ?_
  rintro _ context ⟨own, rfl⟩
  rw [own]
  refine hands_skip (authorizedWallet_uses deployment.settings _ _ quiet _) Hand.atRest_settled
    fun wallet => ?_
  refine deactivateClientVardiff_hands.bind ?_
  rintro _ _ rfl
  refine (storeIdentity_hands wallet _).bind ?_
  rintro _ label rfl
  refine hands_skip (walletAddr_uses quiet uid) Hand.atRest_detached fun stored => ?_
  refine (registerIdentity_hands stored).bind ?_
  rintro ⟨_, hand⟩ _ ⟨rfl, rest⟩
  refine hands_skip (remoteApp_uses quiet uid) rest fun app => ?_
  refine hands_skip (storePayouts_uses uid quiet (by decide) _ _) rest fun _ => ?_
  refine hands_skip (openSession_uses uid quiet (by decide) (by decide) _ _ _) rest fun _ => ?_
  refine ((answerAuthorization_uses deployment.settings uid (by decide) (by decide) (by decide)
    eventId).rests rest).mono ?_
  rintro _ _ rfl
  exact rest

theorem onDisconnect_hands :
    (hands deployment).Follows (some uid, .settled) (onDisconnect uid) fun after _ =>
      after.2.AtRest := by
  have quiet : Kind.quiet ∈ stillKinds := by decide
  refine (readContext_hands Hand.atRest_settled).bind ?_
  rintro _ context ⟨own, rfl⟩
  rw [own]
  refine deactivateClientVardiff_hands.bind ?_
  rintro _ _ rfl
  have detached := Hand.atRest_detached
  refine hands_skip (uses_quiet quiet (.context uid .disconnect) rfl) detached fun _ => ?_
  refine hands_skip (unregister_uses _ uid quiet (by decide)) detached fun _ => ?_
  refine hands_skip (walletAddr_uses quiet uid) detached fun wallet => ?_
  refine hands_skip (workerName_uses quiet uid) detached fun worker => ?_
  refine hands_skip (remoteApp_uses quiet uid) detached fun app => ?_
  refine hands_skip (recordDisconnect_uses _ uid quiet wallet worker app) detached fun _ => ?_
  refine ((closeSession_uses uid quiet (by decide) (by decide) wallet worker app).rests
    detached).mono ?_
  rintro _ _ rfl
  exact detached

/-- **Every task keeps to the order.** -/
theorem bridgeProgram_hands (request : BridgeRequest) :
    (hands deployment).Follows (request.registers, .settled)
      (bridgeProgram deployment.settings request) fun after _ => after.2.AtRest := by
  have quiet : Kind.quiet ∈ stillKinds := by decide
  have publishes : jobKinds ⊆ stillKinds := by decide
  have settled := Hand.atRest_settled
  have uses := bridgeProgram_uses deployment.settings request
  have plain : ∀ {task : Task BridgeResult}, Uses stillKinds task →
      (hands deployment).Follows (request.registers, .settled) task fun after _ =>
        after.2.AtRest := by
    intro task uses
    refine (uses.rests settled).mono ?_
    rintro _ _ rfl
    exact settled
  cases request with
  | authorize uid event =>
      have handled : (hands deployment).Follows (some uid, .settled)
          (handleAuthorize deployment.settings uid event) fun after _ => after.2.AtRest := by
        unfold handleAuthorize
        split
        · exact settled
        · exact authorize_hands event.id _ _
      exact handled.bind fun _ _ rest => rest
  | disconnect uid => exact onDisconnect_hands.bind fun _ _ rest => rest
  | pruneStats instanceId => exact ⟨trivial, fun now _ => ⟨trivial, fun _ _ => settled⟩⟩
  | submit => exact plain (uses.mono (by decide : submissionKinds ⊆ stillKinds))
  | confirmBlock => exact plain (uses.mono (by decide : confirmationKinds ⊆ stillKinds))
  | connect => exact plain (uses.mono (by decide : connectionKinds ⊆ stillKinds))
  | subscribe => exact plain (uses.mono (by decide : subscriptionKinds ⊆ stillKinds))
  | newParent => exact plain (uses.mono (by decide : refreshKinds ⊆ stillKinds))
  | fetchKaspaParent hFc payee force =>
      exact plain ((fetchKaspaParent_uses deployment.settings quiet (by decide) (by decide)
        (by decide) hFc payee force).bind fun _ => uses_done _)
  | immediateJob uid =>
      exact plain (((sendImmediateJobToClient_uses deployment.settings uid).mono publishes).bind
        fun _ => uses_done _)
  | newBlock uid =>
      exact plain (((newBlockAvailable_uses deployment.settings uid).mono publishes).bind
        fun _ => uses_done _)
  | retarget instanceId key next =>
      exact plain ((retarget_uses instanceId quiet key next).bind fun _ => uses_done _)
  | createStats uid =>
      exact plain ((createStatsLater_uses uid quiet).bind fun _ => uses_done _)

end Tasks

/-- **Registration protocol.** Every run is observed. -/
theorem hands_execute (events : List (bridge deployment).Event) :
    @System.Observed (bridge deployment) (hands deployment)
      (fun request => (request.registers, .settled)) (fun after _ => after.2.AtRest)
      (System.execute events) :=
  System.observed_execute bridgeProgram_hands events fun _ _ _ made => guardAnswers_of_did made

end StratumBridge
