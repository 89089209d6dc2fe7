import StratumBridge.Interaction.Balance
import StratumBridge.Interaction.Ownership
import StratumBridge.Bridge.HandshakeProtocol

/-! # Telling a miner its extranonce

An extranonce can reach a miner in the answer to its subscription, right behind it, or after
its authorization. Each of the three places decides by its own tests of the user agent.
-/

namespace StratumBridge

open Interaction

/-- What a message means for the work of a miner. -/
inductive Sent where
  | extranonce (text : Text)
  | job
deriving DecidableEq

def Sent.text : Sent → Option Text
  | .extranonce text => some text
  | .job => none

def Message.sent : Message → Option Sent
  | .subscribed _ embedded => embedded.map fun (text, _) => .extranonce text
  | .setExtranonce text _ _ => some (.extranonce text)
  | .setExtranonceCommon text _ => some (.extranonce text)
  | .notify _ _ _ => some .job
  | _ => none

section Model

variable [Platform] {deployment : Deployment}

/-- The messages that reach a miner. -/
def sentTo (uid : Nat) : (op : BridgeOp) → op.Answer → Option Sent
  | .send other message, delivered => if other = uid ∧ delivered = true then message.sent else none
  | _, _ => none

/-- The extranonces that reach a miner. -/
def extranonceTo (uid : Nat) (op : BridgeOp) (answer : op.Answer) : Option Text :=
  (sentTo uid op answer).bind Sent.text

/-- The extranonce and the user agent of a connection. -/
def agentOf (uid : Nat) (state : BridgeState) : Text × Text :=
  ((state.contexts uid).extranonce, (state.contexts uid).remoteApp)

/-- The extranonces a subscription sends. -/
def subscribeSends (settings : Settings) (extranonce app : Text) : List Text :=
  (if isBitmain app then [extranonce] else []) ++
    if settings.kaspaCommonProtocol then [extranonce]
    else if Text.contains (Text.ofString "iceriver") (Text.toLowercase app) ∧ extranonce ≠ [] then
      [extranonce]
    else []

/-- The extranonces an authorization sends. -/
def authorizeSends (settings : Settings) (extranonce app : Text) : List Text :=
  if extranonce = [] ∨ isBitmain app ∨ isIceriver app ∨ settings.kaspaCommonProtocol then []
  else [extranonce]

/-! ## The handlers -/

section Handlers

variable {uid : Nat} {α : Type} {held : Text × Text} {calls : List Sent}

/-- The kinds of operations that neither change the agent nor send it work. -/
def sparingKinds : List Kind := Kind.except [.handshake, .sendExtranonce, .sendNotify]

theorem agentOf_performOp {state after : BridgeState} {env : Env} {op : BridgeOp}
    {answer : op.Answer} (performed : performOp state env op = some (answer, after))
    (other : op.kind ≠ .handshake) : agentOf uid after = agentOf uid state := by
  have extranonce := @performOp_extranonce _ _ _ _ _ _ uid performed
  have remoteApp := @performOp_remoteApp _ _ _ _ _ _ uid performed
  refine Prod.ext (extranonce.trans ?_) (remoteApp.trans ?_)
  · cases op with
    | context connection op =>
        cases op with
        | setExtranonce | setRemoteApp => exact absurd rfl other
        | _ => exact ite_self _
    | _ => rfl
  · cases op with
    | context connection op =>
        cases op with
        | setExtranonce | setRemoteApp => exact absurd rfl other
        | _ => exact ite_self _
    | _ => rfl

theorem sentTo_of_kind {op : BridgeOp} (answer : op.Answer) (noExtranonce : op.kind ≠ .sendExtranonce)
    (noJob : op.kind ≠ .sendNotify) : sentTo uid op answer = none := by
  cases op with
  | send connection message =>
      cases message with
      | subscribed | setExtranonce | setExtranonceCommon => exact absurd rfl noExtranonce
      | notify => exact absurd rfl noJob
      | _ => exact ite_self _
  | _ => rfl

/-- Only the messages of a handshake carry an extranonce. -/
theorem exists_send_of_extranonce {op : BridgeOp} {answer : op.Answer} {text : Text}
    (sent : sentTo uid op answer = some (.extranonce text)) :
    ∃ message, op = .send uid message ∧ message.kind = .sendExtranonce := by
  unfold sentTo at sent
  split at sent
  · obtain ⟨⟨rfl, -⟩, carried⟩ := Option.ite_none_right_eq_some.mp sent
    refine ⟨_, rfl, ?_⟩
    unfold Message.sent at carried
    split at carried
    · rfl
    · rfl
    · rfl
    · exact nomatch carried
    · exact nomatch carried
  · exact nomatch sent

theorem sent_job {op : BridgeOp} {answer : op.Answer} {item : Sent}
    (sent : sentTo uid op answer = some item) (other : op.kind ≠ .sendExtranonce) :
    item = .job := by
  cases item with
  | job => rfl
  | extranonce text =>
      obtain ⟨message, rfl, carries⟩ := exists_send_of_extranonce sent
      exact absurd carries other

theorem Uses.spares {kinds : List Kind} {task : Task α} (uses : Uses kinds task)
    (subset : kinds ⊆ sparingKinds) :
    Program.Within (@System.Spares (bridge deployment) _ _ (agentOf uid) (sentTo uid)) task := by
  induction task with
  | done result => trivial
  | call op next ih =>
      have sparing := subset uses.1
      have noWrite : Kind.handshake ∉ sparingKinds := by decide
      have noExtranonce : Kind.sendExtranonce ∉ sparingKinds := by decide
      have noJob : Kind.sendNotify ∉ sparingKinds := by decide
      refine ⟨fun state env answer after performed => ⟨?_, ?_⟩, fun answer => ih answer (uses.2 answer)⟩
      · exact agentOf_performOp performed fun same => noWrite (same ▸ sparing)
      · exact sentTo_of_kind answer (fun same => noExtranonce (same ▸ sparing))
          fun same => noJob (same ▸ sparing)

variable (deployment) in
/-- What a handler can end in, while it alone handles the connection. -/
abbrev Handles (uid : Nat) (task : Task α) (held : Text × Text) (calls : List Sent)
    (post : α → Text × Text → List Sent → Prop) : Prop :=
  @System.Ensures (bridge deployment) _ _ _ (agentOf uid) (sentTo uid) task held calls post

theorem handles_skip {β : Type} {kinds : List Kind} {first : Task α} {rest : α → Task β}
    {post : β → Text × Text → List Sent → Prop} (uses : Uses kinds first)
    (subset : kinds ⊆ sparingKinds)
    (tail : ∀ result, Handles deployment uid (rest result) held calls post) :
    Handles deployment uid (first >>= rest) held calls post :=
  System.ensures_bind_of_within (uses.spares subset) tail

theorem readContext_handles : Handles deployment uid (readContext uid) held calls
    fun context after made => context.extranonce = held.1 ∧ context.remoteApp = held.2 ∧
      after = held ∧ made = calls := by
  rintro state env answer after rfl performed
  change performOp state env (.context uid .read) = some (answer, after) at performed
  have same := (Prod.mk.inj (Option.some.inj (performOp_context_act performed))).1
  refine ⟨congrArg Context.extranonce same.symm, congrArg Context.remoteApp same.symm, ?_,
    List.append_nil calls⟩
  exact agentOf_performOp performed nofun

theorem remoteApp_handles : Handles deployment uid (remoteApp uid) held calls
    fun app after made => app = held.2 ∧ after = held ∧ made = calls := by
  refine readContext_handles.bind ?_
  rintro context after made ⟨-, named, rfl, rfl⟩
  exact ⟨named, rfl, rfl⟩

theorem reply_handles (message : Message) : Handles deployment uid (reply uid message) held calls
    fun result after made => after = held ∧
      (result = .ok () → made = calls ++ message.sent.toList) := by
  rintro state env answer after rfl performed
  change performOp state env (.send uid message) = some (answer, after) at performed
  have noWrite : (BridgeOp.send uid message).kind ≠ .handshake := by
    cases message <;> exact fun same => nomatch same
  have kept : agentOf uid after = agentOf uid state := agentOf_performOp performed noWrite
  cases (answer : Bool) with
  | true =>
      have sent : sentTo uid (.send uid message) true = message.sent := if_pos ⟨rfl, rfl⟩
      exact ⟨kept, fun _ => congrArg (fun sent => calls ++ Option.toList sent) sent⟩
  | false => exact ⟨kept, fun failed => nomatch failed⟩

theorem sendExtranonce_handles : Handles deployment uid (sendExtranonce uid) held calls
    fun result after made => after = held ∧
      (result = .ok () → made = calls ++ [.extranonce held.1]) := by
  refine readContext_handles.bind ?_
  rintro context after made ⟨same, -, rfl, rfl⟩
  refine (reply_handles _).mono fun result after made ⟨kept, told⟩ => ⟨kept, fun fine => ?_⟩
  rw [told fine, same]
  rfl

theorem storeRemoteApp_handles (param : Option Value) :
    Handles deployment uid (storeRemoteApp uid param) held calls fun _ _ made => made = calls := by
  unfold storeRemoteApp
  split
  · exact fun state env answer after same performed => List.append_nil calls
  · rfl

theorem assignExtranonceForMiner_handles (app : Text) :
    Handles deployment uid (assignExtranonceForMiner deployment.settings uid app) held calls
      fun _ after made => after.2 = held.2 ∧ made = calls := by
  have assigns : ∀ text, Handles deployment uid (call (.context uid (.setExtranonce text))) held
      calls fun _ after made => after.2 = held.2 ∧ made = calls := by
    rintro text state env answer after rfl performed
    change performOp state env (.context uid (.setExtranonce text)) = some (answer, after)
      at performed
    have moved := @performOp_remoteApp _ _ _ _ _ _ uid performed
    exact ⟨moved.trans (if_pos rfl), List.append_nil calls⟩
  unfold assignExtranonceForMiner
  split
  · exact assigns []
  · have quiet : Kind.quiet ∈ sparingKinds := by decide
    exact handles_skip (uses_quiet quiet .nextExtranonce rfl) (List.Subset.refl _)
      fun next => assigns _

omit [Platform] in
theorem sent_subscribeReply (id : Option Value) (app extranonce : Text) :
    (subscribeReply id app extranonce).sent.toList =
      (if isBitmain app then [extranonce] else []).map .extranonce := by
  unfold subscribeReply
  split <;> rfl

theorem sendCommonSetup_handles (extranonce : Text) (seed : ℚ) :
    Handles deployment uid (sendCommonSetup uid extranonce seed) held calls
      fun result after made => after = held ∧
        (result = .ok () → made = calls ++ [.extranonce extranonce]) := by
  refine (reply_handles _).bind ?_
  rintro sent after made ⟨rfl, told⟩
  cases sent with
  | error error => exact ⟨rfl, fun failed => nomatch failed⟩
  | ok _ =>
      obtain rfl := told rfl
      refine (reply_handles _).mono fun result after made ⟨kept, told⟩ => ⟨kept, fun fine => ?_⟩
      rw [told fine]
      exact List.append_nil _

/-- **Subscription.** What a completed subscription sends. -/
theorem handleSubscribe_handles (event : SubmitEvent) :
    Handles deployment uid (handleSubscribe deployment.settings uid event) held []
      fun result after made => result = .ok () →
        made = (subscribeSends deployment.settings after.1 after.2).map .extranonce := by
  refine (storeRemoteApp_handles _).bind ?_
  rintro _ named made rfl
  refine remoteApp_handles.bind ?_
  rintro app after made ⟨rfl, rfl, rfl⟩
  refine (assignExtranonceForMiner_handles _).bind ?_
  rintro _ assigned made ⟨same, rfl⟩
  refine readContext_handles.bind ?_
  rintro context after made ⟨held, -, rfl, rfl⟩
  refine (reply_handles _).bind ?_
  rintro replied after made ⟨rfl, told⟩
  cases replied with
  | error error => exact fun failed => nomatch failed
  | ok _ =>
      obtain rfl := told rfl
      rw [List.nil_append, sent_subscribeReply, ← same, held]
      dsimp only
      split
      case isTrue common =>
        refine (sendCommonSetup_handles _ _).mono fun result after made ⟨kept, told⟩ fine => ?_
        rw [told fine, kept, subscribeSends, if_pos common, List.map_append]
        rfl
      case isFalse common =>
        split
        case isTrue iceriver =>
          split
          case isTrue empty =>
            intro _
            have silent : ¬(Text.contains (Text.ofString "iceriver") (Text.toLowercase after.2) ∧
                after.1 ≠ []) := fun both => both.2 empty
            rw [subscribeSends, if_neg common, if_neg silent, List.append_nil]
          case isFalse nonempty =>
            refine sendExtranonce_handles.mono fun result after made ⟨kept, told⟩ fine => ?_
            rw [told fine, kept, subscribeSends, if_neg common,
              if_pos (And.intro iceriver nonempty), List.map_append]
            rfl
        case isFalse other =>
          intro _
          have silent : ¬(Text.contains (Text.ofString "iceriver") (Text.toLowercase after.2) ∧
              after.1 ≠ []) := fun both => other both.1
          rw [subscribeSends, if_neg common, if_neg silent, List.append_nil]

/-- A task that takes no part in the handshake leaves the agent alone and sends it only jobs. -/
theorem Uses.sends_jobs {kinds : List Kind} {task : Task α} (uses : Uses kinds task)
    (subset : kinds ⊆ unshakenKinds) : Handles deployment uid task held calls
      fun _ after made => after = held ∧ ∃ jobs, (∀ item ∈ jobs, item = .job) ∧
        made = calls ++ jobs := by
  have noWrite : Kind.handshake ∉ unshakenKinds := by decide
  have noExtranonce : Kind.sendExtranonce ∉ unshakenKinds := by decide
  induction task generalizing held calls with
  | done result => exact ⟨rfl, [], fun _ => nofun, (List.append_nil calls).symm⟩
  | call op next ih =>
      rintro state env answer after rfl performed
      have unshaken := subset uses.1
      have kept : agentOf uid after = agentOf uid state :=
        agentOf_performOp performed fun same => noWrite (same ▸ unshaken)
      have jobs : ∀ item ∈ (sentTo uid op answer).toList, item = .job := by
        intro item sent
        exact sent_job (Option.mem_toList.mp sent) fun same => noExtranonce (same ▸ unshaken)
      rw [kept]
      refine (ih answer (uses.2 answer)).mono ?_
      rintro result moved made ⟨rfl, more, only, rfl⟩
      refine ⟨rfl, (sentTo uid op answer).toList ++ more, fun item member => ?_,
        List.append_assoc ..⟩
      exact (List.mem_append.mp member).elim (jobs item) (only item)

theorem sendAuthorizedExtranonce_handles :
    Handles deployment uid (sendAuthorizedExtranonce deployment.settings uid) held []
      fun result after made => after = held ∧ (result = .ok () →
        made = (authorizeSends deployment.settings held.1 held.2).map .extranonce) := by
  refine readContext_handles.bind ?_
  rintro context after made ⟨same, named, rfl, rfl⟩
  rw [same, named]
  split
  case isTrue silent =>
    refine ⟨rfl, fun _ => ?_⟩
    rw [authorizeSends, if_pos silent]
    rfl
  case isFalse expected =>
    refine sendExtranonce_handles.mono fun result after made ⟨kept, told⟩ => ⟨kept, fun fine => ?_⟩
    rw [told fine, authorizeSends, if_neg expected]
    rfl

theorem answerAuthorization_handles (eventId : Option Value) :
    Handles deployment uid (answerAuthorization deployment.settings uid eventId) held []
      fun result after made => result = .ok () → after = held ∧ ∃ jobs, (∀ item ∈ jobs, item = .job) ∧
        made = (authorizeSends deployment.settings held.1 held.2).map .extranonce ++ jobs := by
  have publishes : jobKinds ⊆ unshakenKinds := by decide
  refine (reply_handles _).bind ?_
  rintro replied after made ⟨rfl, told⟩
  cases replied with
  | error error => exact fun failed => nomatch failed
  | ok _ =>
      obtain rfl := told rfl
      refine sendAuthorizedExtranonce_handles.bind ?_
      rintro sent after made ⟨rfl, told⟩
      cases sent with
      | error error => exact fun failed => nomatch failed
      | ok _ =>
          obtain rfl := told rfl
          refine ((sendImmediateJobToClient_uses _ uid).sends_jobs publishes).bind ?_
          exact fun _ after made outcome _ => outcome

/-- **Authorization.** What a completed authorization sends: extranonces, then jobs. -/
theorem handleAuthorize_handles (event : SubmitEvent) :
    Handles deployment uid (handleAuthorize deployment.settings uid event) held []
      fun result after made => result = .ok () → after = held ∧ ∃ jobs, (∀ item ∈ jobs, item = .job) ∧
        made = (authorizeSends deployment.settings held.1 held.2).map .extranonce ++ jobs := by
  have quiet : Kind.quiet ∈ sparingKinds := by decide
  have registers : Kind.registration ∈ sparingKinds := by decide
  have identifies : Kind.identity ∈ sparingKinds := by decide
  have pays : Kind.payoutWrite ∈ sparingKinds := by decide
  have opens : Kind.session ∈ sparingKinds := by decide
  have correlates : Kind.correlation ∈ sparingKinds := by decide
  have self : sparingKinds ⊆ sparingKinds := List.Subset.refl _
  unfold handleAuthorize
  split
  · exact fun failed => nomatch failed
  · refine handles_skip (readContext_uses quiet _) self fun context => ?_
    refine handles_skip (authorizedWallet_uses _ _ _ quiet _) self fun wallet => ?_
    refine handles_skip (deactivateClientVardiff_uses _ _ quiet registers) self fun _ => ?_
    refine handles_skip (storeIdentity_uses uid quiet identifies _ _) self fun label => ?_
    refine handles_skip (walletAddr_uses quiet _) self fun stored => ?_
    refine handles_skip (registerIdentity_uses _ _ quiet registers _) self fun _ => ?_
    refine handles_skip (remoteApp_uses quiet uid) self fun app => ?_
    refine handles_skip (storePayouts_uses uid quiet pays _ _) self fun _ => ?_
    refine handles_skip (openSession_uses uid quiet opens correlates _ _ _) self fun _ => ?_
    exact answerAuthorization_handles event.id

end Handlers

end Model

end StratumBridge
