import StratumBridge.Bridge.Provenance
import StratumBridge.Interaction.Recording

/-! # Handshakes

A new connection starts without an extranonce. Its subscription names the miner's software and
assigns it an extranonce; only the handlers of its subscription and of its authorization tell
it one.
-/

namespace StratumBridge

open Interaction

/-- The text of an extranonce of two bytes. -/
def Text.ofExtranonce (value : Nat) : List Char := Text.padZeros 4 (Nat.toDigits 16 value)

variable [Platform] {deployment : Deployment}

/-- What a handshake draws: the number of a connection, or an extranonce. -/
inductive HandshakeCall where
  | accepted (uid : Nat)
  | drew (next : Nat)

def handshakeCall : (op : BridgeOp) → op.Answer → Option HandshakeCall
  | .newSessionUid, uid => some (.accepted uid)
  | .nextExtranonce, next => some (.drew next)
  | _, _ => none

/-- Which operation a draw is. -/
inductive Draws : (op : BridgeOp) → op.Answer → HandshakeCall → Prop where
  | accepted (uid : Nat) : Draws .newSessionUid uid (.accepted uid)
  | drew (next : Nat) : Draws .nextExtranonce next (.drew next)

theorem handshakeCall_cases {op : BridgeOp} {answer : op.Answer} {item : HandshakeCall}
    (chosen : handshakeCall op answer = some item) : Draws op answer item := by
  unfold handshakeCall at chosen
  split at chosen
  · cases chosen
    exact .accepted _
  · cases chosen
    exact .drew _
  · exact nomatch chosen

/-- The request is the subscription of the connection. -/
def BridgeRequest.Subscribes (request : BridgeRequest) (uid : Nat) : Prop :=
  ∃ event, request = .subscribe uid event

/-- The request is the authorization of the connection. -/
def BridgeRequest.Authorizes (request : BridgeRequest) (uid : Nat) : Prop :=
  ∃ event, request = .authorize uid event

/-- Accepting a connection clears its extranonce, and its subscription assigns one it drew. -/
def HandshakePermits (request : BridgeRequest) (calls : List HandshakeCall) : BridgeOp → Prop
  | .context uid (.setExtranonce text) =>
      (.accepted uid ∈ calls ∧ text = []) ∨
        (request.Subscribes uid ∧
          (text = [] ∨ ∃ next, .drew next ∈ calls ∧ text = Text.ofExtranonce next))
  | .context uid (.setRemoteApp _) => request.Subscribes uid
  | .send uid message =>
      message.kind = .sendExtranonce → request.Subscribes uid ∨ request.Authorizes uid
  | _ => True

@[reducible] def handshakes :
    Protocol bridgeSignature BridgeRequest HandshakeCall BridgeResult where
  select := handshakeCall
  permits := HandshakePermits
  answers := fun _ _ => True
  completes := fun _ _ _ => True

section Tasks

variable {α : Type} {request : BridgeRequest} {calls : List HandshakeCall} {uid : Nat}

/-- The kinds of operations that are no part of a handshake. -/
def unshakenKinds : List Kind := Kind.except [.handshake, .sendExtranonce]

theorem handshakePermits_of_unshaken {op : BridgeOp} (other : op.kind ∈ unshakenKinds) :
    HandshakePermits request calls op := by
  have noWrite : Kind.handshake ∉ unshakenKinds := by decide
  have noMessage : Kind.sendExtranonce ∉ unshakenKinds := by decide
  unfold HandshakePermits
  split
  · exact absurd other noWrite
  · exact absurd other noWrite
  · exact fun carries => absurd (carries ▸ other) noMessage
  · trivial

theorem Uses.unshaken {kinds : List Kind} {task : Task α} (uses : Uses kinds task)
    (subset : kinds ⊆ unshakenKinds) : handshakes.Obeys request calls task fun _ _ => True := by
  refine Protocol.obeys_of_permitted ?_
  induction task with
  | done result => trivial
  | call op next ih =>
      exact ⟨fun _ => handshakePermits_of_unshaken (subset uses.1),
        fun answer => ih answer (uses.2 answer)⟩

/-- A handler of the connection may send it any message. -/
theorem reply_handshake (own : request.Subscribes uid ∨ request.Authorizes uid)
    (message : Message) : handshakes.Obeys request calls (reply uid message) fun _ _ => True := by
  refine ⟨fun _ => own, fun delivered _ => ?_⟩
  cases (delivered : Bool) <;> exact trivial

theorem sendExtranonce_handshake (own : request.Subscribes uid ∨ request.Authorizes uid) :
    handshakes.Obeys request calls (sendExtranonce uid) fun _ _ => True := by
  have quiet : Kind.quiet ∈ unshakenKinds := by decide
  refine ((readContext_uses quiet uid).unshaken (List.Subset.refl _)).bind fun _ _ _ => ?_
  exact reply_handshake own _

theorem assignExtranonceForMiner_handshake (own : request.Subscribes uid) (settings : Settings)
    (app : Text) : handshakes.Obeys request calls (assignExtranonceForMiner settings uid app)
      fun _ _ => True := by
  unfold assignExtranonceForMiner
  split
  · exact ⟨.inr ⟨own, .inl rfl⟩, fun _ _ => trivial⟩
  · refine ⟨trivial, fun next _ => ⟨.inr ⟨own, .inr ⟨next, ?_, rfl⟩⟩, fun _ _ => trivial⟩⟩
    exact List.mem_append_right _ List.mem_cons_self

theorem storeRemoteApp_handshake (own : request.Subscribes uid) (param : Option Value) :
    handshakes.Obeys request calls (storeRemoteApp uid param) fun _ _ => True := by
  unfold storeRemoteApp
  split
  · exact ⟨own, fun _ _ => trivial⟩
  · trivial

theorem handleSubscribe_handshake (own : request.Subscribes uid) (settings : Settings)
    (event : SubmitEvent) : handshakes.Obeys request calls (handleSubscribe settings uid event)
      fun _ _ => True := by
  have quiet : Kind.quiet ∈ unshakenKinds := by decide
  have self : unshakenKinds ⊆ unshakenKinds := List.Subset.refl _
  refine (storeRemoteApp_handshake own _).bind fun _ _ _ => ?_
  refine ((remoteApp_uses quiet uid).unshaken self).bind fun _ app _ => ?_
  refine (assignExtranonceForMiner_handshake own settings app).bind fun _ _ _ => ?_
  refine ((readContext_uses quiet uid).unshaken self).bind fun _ context _ => ?_
  refine (reply_handshake (.inl own) _).bind fun _ replied _ => ?_
  cases replied with
  | error error => trivial
  | ok _ =>
      dsimp only
      split
      · refine (reply_handshake (.inl own) _).bind fun _ sent _ => ?_
        cases sent with
        | error error => trivial
        | ok _ => exact reply_handshake (.inl own) _
      · split
        · split
          · trivial
          · exact sendExtranonce_handshake (.inl own)
        · trivial

theorem acceptConnection_handshake :
    handshakes.Obeys request calls acceptConnection fun _ _ => True := by
  have quiet : Kind.quiet ∈ unshakenKinds := by decide
  refine ⟨trivial, fun uid _ => ?_⟩
  have drawn : .accepted uid ∈ calls ++ (handshakeCall .newSessionUid uid).toList :=
    List.mem_append_right _ List.mem_cons_self
  refine ⟨trivial, fun context _ => ⟨trivial, fun idx _ => ⟨.inl ⟨?_, rfl⟩, fun _ _ =>
    ⟨trivial, fun _ _ => ⟨trivial, fun _ _ => trivial⟩⟩⟩⟩⟩
  exact List.mem_append_left _ (List.mem_append_left _ drawn)

theorem sendAuthorizedExtranonce_handshake (own : request.Authorizes uid) (settings : Settings) :
    handshakes.Obeys request calls (sendAuthorizedExtranonce settings uid) fun _ _ => True := by
  have quiet : Kind.quiet ∈ unshakenKinds := by decide
  refine ((readContext_uses quiet uid).unshaken (List.Subset.refl _)).bind fun _ _ _ => ?_
  split
  · trivial
  · exact sendExtranonce_handshake (.inr own)

theorem answerAuthorization_handshake (own : request.Authorizes uid) (settings : Settings)
    (eventId : Option Value) :
    handshakes.Obeys request calls (answerAuthorization settings uid eventId)
      fun _ _ => True := by
  have publishes : jobKinds ⊆ unshakenKinds := by decide
  refine (reply_handshake (.inr own) _).bind fun _ replied _ => ?_
  cases replied with
  | error error => trivial
  | ok _ =>
      refine (sendAuthorizedExtranonce_handshake own settings).bind fun _ sent _ => ?_
      cases sent with
      | error error => trivial
      | ok _ =>
          exact ((sendImmediateJobToClient_uses settings uid).unshaken publishes).bind
            fun _ _ _ => trivial

theorem authorize_handshake (own : request.Authorizes uid) (settings : Settings)
    (eventId : Option Value) (identity : Text) (password : Option Text) :
    handshakes.Obeys request calls (authorize settings uid eventId identity password)
      fun _ _ => True := by
  have quiet : Kind.quiet ∈ unshakenKinds := by decide
  have self : unshakenKinds ⊆ unshakenKinds := List.Subset.refl _
  have registers : Kind.registration ∈ unshakenKinds := by decide
  have identifies : Kind.identity ∈ unshakenKinds := by decide
  have pays : Kind.payoutWrite ∈ unshakenKinds := by decide
  have opens : Kind.session ∈ unshakenKinds := by decide
  have correlates : Kind.correlation ∈ unshakenKinds := by decide
  refine ((readContext_uses quiet _).unshaken self).bind fun _ context _ => ?_
  refine ((authorizedWallet_uses settings _ _ quiet _).unshaken self).bind fun _ wallet _ => ?_
  refine ((deactivateClientVardiff_uses _ _ quiet registers).unshaken self).bind fun _ _ _ => ?_
  refine ((storeIdentity_uses uid quiet identifies _ _).unshaken self).bind fun _ label _ => ?_
  refine ((walletAddr_uses quiet _).unshaken self).bind fun _ stored _ => ?_
  refine ((registerIdentity_uses _ _ quiet registers _).unshaken self).bind fun _ _ _ => ?_
  refine ((remoteApp_uses quiet uid).unshaken self).bind fun _ app _ => ?_
  refine ((storePayouts_uses uid quiet pays _ _).unshaken self).bind fun _ _ _ => ?_
  refine ((openSession_uses uid quiet opens correlates _ _ _).unshaken self).bind fun _ _ _ => ?_
  exact answerAuthorization_handshake own settings eventId

/-- **Every task keeps to the handshake protocol.** -/
theorem bridgeProgram_handshake (settings : Settings) (request : BridgeRequest) :
    handshakes.Obeys request [] (bridgeProgram settings request) fun _ _ => True := by
  have uses := bridgeProgram_uses settings request
  cases request with
  | connect => exact acceptConnection_handshake.bind fun _ _ _ => trivial
  | subscribe uid event =>
      exact (handleSubscribe_handshake ⟨event, rfl⟩ settings event).bind fun _ _ _ => trivial
  | authorize uid event =>
      have handled : handshakes.Obeys (.authorize uid event) []
          (handleAuthorize settings uid event) fun _ _ => True := by
        unfold handleAuthorize
        split
        · trivial
        · exact authorize_handshake ⟨event, rfl⟩ settings _ _ _
      exact handled.bind fun _ _ _ => trivial
  | submit uid event => exact uses.unshaken (by decide : submissionKinds ⊆ unshakenKinds)
  | confirmBlock => exact uses.unshaken (by decide : confirmationKinds ⊆ unshakenKinds)
  | newParent uid => exact uses.unshaken (by decide : refreshKinds ⊆ unshakenKinds)
  | disconnect uid => exact uses.unshaken (by decide : disconnectionKinds ⊆ unshakenKinds)
  | _ => exact uses.unshaken (by decide : publicationKinds ⊆ unshakenKinds)

end Tasks

/-- **Handshake protocol.** Every run is explained by it. -/
theorem handshakes_execute (events : List (bridge deployment).Event) :
    @System.Explained (bridge deployment) HandshakeCall handshakes (System.execute events).log :=
  System.explained_execute (bridgeProgram_handshake deployment.settings) events
    fun _ _ _ _ => trivial

/-! ## The fields a handshake writes -/

/-- The extranonce of a connection after a section on it. -/
def ContextOp.extranonceAfter : ContextOp → Text → Text
  | .setExtranonce text, _ => text
  | _, held => held

/-- The user agent of a connection after a section on it. -/
def ContextOp.remoteAppAfter : ContextOp → Text → Text
  | .setRemoteApp app, _ => app
  | _, held => held

section Fields

variable {state after : BridgeState} {env : Env} {op : BridgeOp} {answer : op.Answer} {uid : Nat}

theorem performOp_extranonce (performed : performOp state env op = some (answer, after)) :
    (after.contexts uid).extranonce =
      match op with
      | .context other op => if other = uid then op.extranonceAfter (state.contexts uid).extranonce
          else (state.contexts uid).extranonce
      | _ => (state.contexts uid).extranonce := by
  refine performOp_field Context.extranonce ContextOp.extranonceAfter ?_ performed
  intro op context next answer acted
  cases op with
  | lockJobBuild =>
      obtain ⟨-, same⟩ := Option.ite_none_left_eq_some.mp acted
      cases same
      rfl
  | ensureDefaultWorkerName =>
      cases acted
      exact apply_ite Context.extranonce _ _ _ |>.trans (ite_self _)
  | _ =>
      cases acted
      rfl

theorem performOp_remoteApp (performed : performOp state env op = some (answer, after)) :
    (after.contexts uid).remoteApp =
      match op with
      | .context other op => if other = uid then op.remoteAppAfter (state.contexts uid).remoteApp
          else (state.contexts uid).remoteApp
      | _ => (state.contexts uid).remoteApp := by
  refine performOp_field Context.remoteApp ContextOp.remoteAppAfter ?_ performed
  intro op context next answer acted
  cases op with
  | lockJobBuild =>
      obtain ⟨-, same⟩ := Option.ite_none_left_eq_some.mp acted
      cases same
      rfl
  | ensureDefaultWorkerName =>
      cases acted
      exact apply_ite Context.remoteApp _ _ _ |>.trans (ite_self _)
  | _ =>
      cases acted
      rfl

end Fields

end StratumBridge
