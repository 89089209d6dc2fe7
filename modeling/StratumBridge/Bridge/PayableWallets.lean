import StratumBridge.Bridge.HandshakeProtocol
import StratumBridge.Interaction.Reach

/-! # Payable wallets

An authorization stores the wallet its username names, cleaned into an address text, or
the pool's own address when nothing in it looks like a wallet. Templates are requested for
the stored wallet, and a wallet that does not decode fails the request and costs the miner
its connection. The last resort of the cleaning, a text that only matches the wallet
pattern, is stored without being decoded.
-/

namespace StratumBridge

open Interaction

section Model

variable [Platform] {deployment : Deployment}

/-! ## Names and stored wallets -/

/-- The node's decoder accepts the text. -/
def Decodes (text : Text) : Prop := (Platform.parseAddress text).isSome = true

instance (text : Text) : Decidable (Decodes text) :=
  inferInstanceAs (Decidable ((Platform.parseAddress text).isSome = true))

/-- The wallet of a username: what stands before the first dot. -/
def namedWallet (identity : Text) : Text := (splitOn '.' identity).getD 0 []

/-- A wallet with a network in front of it. -/
def prefixedWallet (wallet : Text) : Text :=
  if hasKaspaPrefix wallet then wallet else Text.ofString "kaspa:" ++ wallet

/-- The wallet is an address, as it stands or behind `kaspa:`; or no text in it matches the
wallet pattern; or the first text that does is an address. -/
def PayableName (identity : Text) : Prop :=
  Decodes (namedWallet identity) ∨ Decodes (prefixedWallet (namedWallet identity)) ∨
    ∀ found ∈ walletFind (prefixedWallet (namedWallet identity)), Decodes found

/-- The wallet an authorization stores for a username. -/
def storedWallet (settings : Settings) (identity : Text) : Text :=
  (cleanWallet (namedWallet identity)).getD settings.poolFallbackAddress

section Names

variable {settings : Settings} {text : Text}

/-- Past the decoder, cleaning finds what matches the wallet pattern. -/
theorem cleanWallet_of_not_decodes (plain : ¬Decodes text) (prefixed : ¬Decodes (prefixedWallet text)) :
    cleanWallet text = walletFind (prefixedWallet text) := by
  unfold Decodes at plain prefixed
  unfold prefixedWallet at prefixed ⊢
  rw [cleanWallet, if_neg plain]
  split
  · rfl
  · next unprefixed =>
      rw [if_neg unprefixed] at prefixed
      rw [cleanPrefixedWallet, if_neg prefixed]

theorem cleanWallet_of_decodes (decodes : Decodes text ∨ Decodes (prefixedWallet text)) :
    ∃ wallet, cleanWallet text = some wallet ∧ Decodes wallet := by
  by_cases plain : Decodes text
  · have accepted : (Platform.parseAddress text).isSome = true := plain
    exact ⟨text, by rw [cleanWallet, if_pos accepted], plain⟩
  · have prefixed := decodes.resolve_left plain
    have unprefixed : ¬hasKaspaPrefix text = true := by
      intro explicit
      rw [prefixedWallet, if_pos explicit] at prefixed
      exact plain prefixed
    refine ⟨prefixedWallet text, ?_, prefixed⟩
    rw [prefixedWallet, if_neg unprefixed] at prefixed ⊢
    unfold Decodes at plain prefixed
    rw [cleanWallet, if_neg plain, if_neg unprefixed, cleanPrefixedWallet, if_pos prefixed]

/-- The stored wallet decodes exactly when the name is payable. -/
theorem decodes_storedWallet_iff (fallback : Decodes settings.poolFallbackAddress)
    (identity : Text) : Decodes (storedWallet settings identity) ↔ PayableName identity := by
  unfold storedWallet PayableName
  generalize namedWallet identity = text
  by_cases decodes : Decodes text ∨ Decodes (prefixedWallet text)
  · obtain ⟨wallet, cleaned, payable⟩ := cleanWallet_of_decodes decodes
    rw [cleaned]
    exact iff_of_true payable (or_assoc.mp (Or.inl decodes))
  · obtain ⟨plain, prefixed⟩ := not_or.mp decodes
    rw [cleanWallet_of_not_decodes plain prefixed]
    have reduced : (Decodes text ∨ Decodes (prefixedWallet text) ∨
        ∀ found ∈ walletFind (prefixedWallet text), Decodes found) ↔
          ∀ found ∈ walletFind (prefixedWallet text), Decodes found := by
      rw [or_iff_right plain, or_iff_right prefixed]
    rw [reduced]
    cases walletFind (prefixedWallet text) with
    | none => exact iff_of_true fallback fun found matched => nomatch matched
    | some found =>
        exact ⟨fun decoded other matched => Option.some.inj matched ▸ decoded,
          fun all => all found rfl⟩

end Names

/-! ## What authorizations store -/

/-- Only an authorization stores a wallet: the one of its username. -/
def WalletPermits (settings : Settings) (request : BridgeRequest) : BridgeOp → Prop
  | .context uid (.setWalletAddr wallet) =>
      ∃ event identity, request = .authorize uid event ∧
        textParam event.params.head? = some identity ∧ wallet = storedWallet settings identity
  | _ => True

@[reducible] def wallets (settings : Settings) :
    Protocol bridgeSignature BridgeRequest Unit BridgeResult where
  select := fun _ _ => none
  permits := fun request _ op => WalletPermits settings request op
  answers := fun _ _ => True
  completes := fun _ _ _ => True

/-- The kinds of operations that do not set an identity. -/
def anonymousKinds : List Kind := Kind.except [.identity]

section Tasks

variable {α : Type} {settings : Settings} {request : BridgeRequest} {calls : List Unit}

theorem Uses.anonymous {kinds : List Kind} {task : Task α} (uses : Uses kinds task)
    (subset : kinds ⊆ anonymousKinds) :
    (wallets settings).Obeys request calls task fun _ _ => True := by
  have noIdentity : Kind.identity ∉ anonymousKinds := by decide
  refine Protocol.obeys_of_permitted (Program.Within.mono uses ?_)
  intro op used calls
  change WalletPermits settings request op
  unfold WalletPermits
  split
  · exact absurd (subset used) noIdentity
  · trivial

theorem authorizedWallet_stores (instanceId uid : Nat) (identity : Text) :
    (wallets settings).Obeys request calls
      (authorizedWallet settings instanceId uid (namedWallet identity))
      fun _ wallet => wallet = storedWallet settings identity := by
  unfold authorizedWallet storedWallet
  cases cleanWallet (namedWallet identity) with
  | some wallet => exact rfl
  | none => exact ⟨trivial, fun _ _ => ⟨trivial, fun _ _ => rfl⟩⟩

theorem storeIdentity_stores {uid : Nat} {wallet : Text} (worker : Text)
    (own : WalletPermits settings request (.context uid (.setWalletAddr wallet))) :
    (wallets settings).Obeys request calls (storeIdentity uid wallet worker)
      fun _ _ => True := by
  have quiet : Kind.quiet ∈ anonymousKinds := by decide
  refine ⟨own, fun _ _ => ⟨trivial, fun _ _ => ?_⟩⟩
  exact (effectiveWorkerName_uses quiet uid).anonymous (List.Subset.refl _)

theorem handleAuthorize_stores (uid : Nat) (event : SubmitEvent) :
    (wallets settings).Obeys (.authorize uid event) calls (handleAuthorize settings uid event)
      fun _ _ => True := by
  have quiet : Kind.quiet ∈ anonymousKinds := by decide
  have self : anonymousKinds ⊆ anonymousKinds := List.Subset.refl _
  have registers : Kind.registration ∈ anonymousKinds := by decide
  unfold handleAuthorize
  split
  · trivial
  · next identity named =>
    refine ((readContext_uses quiet _).anonymous self).bind fun _ context _ => ?_
    refine (authorizedWallet_stores _ _ identity).bind fun _ wallet stored => ?_
    refine ((deactivateClientVardiff_uses _ _ quiet registers).anonymous self).bind fun _ _ _ => ?_
    refine (storeIdentity_stores _ ⟨event, identity, rfl, named, stored⟩).bind fun _ label _ => ?_
    refine ((walletAddr_uses quiet _).anonymous self).bind fun _ held _ => ?_
    refine ((registerIdentity_uses _ _ quiet registers _).anonymous self).bind fun _ _ _ => ?_
    refine ((remoteApp_uses quiet uid).anonymous self).bind fun _ app _ => ?_
    refine ((storePayouts_uses uid quiet (by decide) _ _).anonymous self).bind fun _ _ _ => ?_
    refine ((openSession_uses uid quiet (by decide) (by decide) _ _ _).anonymous self).bind
      fun _ _ _ => ?_
    exact (answerAuthorization_uses settings uid (by decide) (by decide) (by decide) _).anonymous
      self

/-- **Every task stores only the wallet of its username.** -/
theorem bridgeProgram_stores (settings : Settings) (request : BridgeRequest) :
    (wallets settings).Obeys request [] (bridgeProgram settings request) fun _ _ => True := by
  have uses := bridgeProgram_uses settings request
  cases request with
  | authorize uid event => exact (handleAuthorize_stores uid event).bind fun _ _ _ => trivial
  | subscribe uid event =>
      have subscribes : Uses anonymousKinds (handleSubscribe settings uid event) :=
        handleSubscribe_uses settings uid (by decide) (by decide) (by decide) (by decide) event
      exact (subscribes.anonymous (List.Subset.refl _)).bind fun _ _ _ => trivial
  | connect => exact uses.anonymous (by decide : connectionKinds ⊆ anonymousKinds)
  | disconnect => exact uses.anonymous (by decide : disconnectionKinds ⊆ anonymousKinds)
  | submit uid event => exact uses.anonymous (by decide : submissionKinds ⊆ anonymousKinds)
  | confirmBlock => exact uses.anonymous (by decide : confirmationKinds ⊆ anonymousKinds)
  | newParent uid => exact uses.anonymous (by decide : refreshKinds ⊆ anonymousKinds)
  | _ => exact uses.anonymous (by decide : publicationKinds ⊆ anonymousKinds)

end Tasks

theorem wallets_execute (events : List (bridge deployment).Event) :
    @System.Explained (bridge deployment) Unit (wallets deployment.settings)
      (System.execute events).log :=
  System.explained_execute (bridgeProgram_stores deployment.settings) events
    fun _ _ _ _ => trivial

/-- A stored wallet is the one of a username that authorized. -/
theorem exists_authorize_of_stored {events : List (bridge deployment).Event} {thread uid : Nat}
    {wallet : Text}
    (stored : .did thread (.context uid (.setWalletAddr wallet)) () ∈ (System.execute events).log) :
    ∃ event identity, .started thread (.authorize uid event) ∈ (System.execute events).log ∧
      textParam event.params.head? = some identity ∧
        wallet = storedWallet deployment.settings identity := by
  obtain ⟨front, back, split⟩ := List.append_of_mem stored
  obtain ⟨request, started, event, identity, rfl, named, same⟩ :=
    (wallets_execute events).calls front thread _ _ back split
  refine ⟨event, identity, ?_, named, same⟩
  rw [split]
  exact List.mem_append_left _ started

/-! ## What templates are requested for -/

/-- The wallet of a connection after a section on it. -/
def ContextOp.walletAfter : ContextOp → Text → Text
  | .setWalletAddr wallet, _ => wallet
  | _, held => held

/-- The wallet an operation stores for the connection. -/
def walletWrite (uid : Nat) : (op : BridgeOp) → op.Answer → Option Text
  | .context other (.setWalletAddr wallet), _ => if other = uid then some wallet else none
  | _, _ => none

theorem performOp_walletAddr {state after : BridgeState} {env : Env} {op : BridgeOp}
    {answer : op.Answer} {uid : Nat}
    (performed : performOp state env op = some (answer, after)) :
    (after.contexts uid).walletAddr =
      (walletWrite uid op answer).getD (state.contexts uid).walletAddr := by
  have moved : (after.contexts uid).walletAddr = _ :=
    performOp_field Context.walletAddr ContextOp.walletAfter ?_ performed
  · rw [moved]
    cases op with
    | context other op =>
        cases op with
        | setWalletAddr wallet =>
            by_cases same : other = uid
            · simp only [walletWrite, ContextOp.walletAfter, if_pos same, Option.getD_some]
            · simp only [walletWrite, if_neg same, Option.getD_none]
        | _ => exact ite_self _
    | _ => rfl
  · intro op context next answer acted
    cases op with
    | lockJobBuild =>
        obtain ⟨-, same⟩ := Option.ite_none_left_eq_some.mp acted
        cases same
        rfl
    | ensureDefaultWorkerName =>
        cases acted
        exact apply_ite Context.walletAddr _ _ _ |>.trans (ite_self _)
    | _ =>
        cases acted
        rfl

/-- Once a wallet is stored, a read of the connection returns one that was. -/
theorem exists_stored_of_read {events : List (bridge deployment).Event}
    {front back : Record deployment} {thread uid : Nat} {context : Context}
    (split : (System.execute events).log = front ++ .did thread (.context uid .read) context :: back)
    (some : ∃ writer wallet, .did writer (.context uid (.setWalletAddr wallet)) () ∈ front) :
    ∃ writer, .did writer (.context uid (.setWalletAddr context.walletAddr)) () ∈ front := by
  obtain ⟨before, event, rest, -, rfl, -, env, after, performed⟩ :=
    System.exists_calls_of_did split
  have read : context = (System.execute before).state.contexts uid := by
    change performOp _ env (.context uid .read) = _ at performed
    cases performed
    rfl
  have held : context.walletAddr = _ := (congrArg Context.walletAddr read).trans
    (@System.view_eq_last (bridge deployment) _ (walletWrite uid)
      (fun state => (state.contexts uid).walletAddr)
      (fun _ _ _ _ _ performed => performOp_walletAddr performed) before)
  obtain ⟨writer, wallet, wrote⟩ := some
  have member : wallet ∈ @System.callsOf (bridge deployment) _ (walletWrite uid)
      (System.execute before).log :=
    System.mem_callsOf.mpr ⟨writer, _, _, wrote, if_pos rfl⟩
  obtain ⟨last, isLast⟩ := Option.ne_none_iff_exists'.mp
    (mt List.getLast?_eq_none_iff.mp (List.ne_nil_of_mem member))
  rw [isLast, Option.getD_some] at held
  obtain ⟨author, op, answer, inLog, chosen⟩ :=
    System.mem_callsOf.mp (List.mem_of_getLast? isLast)
  unfold walletWrite at chosen
  split at chosen
  · obtain ⟨rfl, same⟩ := Option.ite_none_right_eq_some.mp chosen
    obtain rfl := Option.some.inj same
    exact ⟨author, held ▸ inLog⟩
  · exact nomatch chosen

section Templates

variable {settings : Settings} {wallet error : Text}

/-- The error of a template request for a wallet that does not decode. -/
def undecodable (wallet : Text) : Text := Text.ofString "Could not decode address " ++ wallet

omit [Platform] in
theorem not_undecodable (failed : Text.ofString "Failed to " <+: error) :
    error ≠ undecodable wallet := by
  rintro rfl
  obtain ⟨rest, same⟩ := failed
  exact absurd (List.cons.inj same).1 (by decide)

theorem resolveCoinbaseRecipient_of_decodes (decodes : Decodes wallet)
    (overrideAddr : Option Address) :
    ∃ recipient, resolveCoinbaseRecipient overrideAddr wallet = .ok recipient := by
  unfold resolveCoinbaseRecipient
  cases overrideAddr with
  | some address => exact ⟨address, rfl⟩
  | none =>
      obtain ⟨recipient, accepted⟩ := Option.isSome_iff_exists.mp decodes
      exact ⟨recipient, by rw [accepted]⟩

/-- For a wallet that decodes, a request fails with an error about the node's answer. -/
theorem templateAttempts_failure (decodes : Decodes wallet) {sessionUid generation laneId : Nat}
    {kasPayout : Option Address} {remaining : Nat}
    (fails : Program.Returns (fun _ _ => True) (.error error)
      (templateAttempts settings wallet sessionUid generation kasPayout laneId remaining)) :
    Text.ofString "Failed to " <+: error := by
  have failed : ∀ {message tail : Text}, Text.ofString "Failed to " <+: message →
      (.error (message ++ tail) : Except Text Block) = .error error →
        Text.ofString "Failed to " <+: error := by
    intro message tail front same
    exact Except.error.inj same ▸ front.trans (List.prefix_append message tail)
  induction remaining with
  | zero =>
      cases fails
      exact ⟨Text.ofString "get valid block template after 3 attempts", by decide⟩
  | succ remaining ih =>
      obtain ⟨recipient, resolved⟩ :=
        resolveCoinbaseRecipient_of_decodes decodes settings.coinbaseAddressOverride
      rw [templateAttempts, resolved] at fails
      obtain ⟨reply, -, fails⟩ := fails
      cases reply with
      | failed nodeError =>
          dsimp only [Program.bind] at fails
          split at fails
          · exact ih fails
          · exact failed (by decide) fails
      | malformed nodeError =>
          dsimp only [Program.bind] at fails
          split at fails
          · exact ih fails
          · split at fails
            · exact failed (by decide) fails
            · exact failed (by decide) fails
      | block fcBlock =>
          dsimp only [Program.bind] at fails
          split at fails
          · split at fails
            · exact ih fails
            · exact failed (by decide) fails
          · split at fails
            · obtain ⟨parent, -, wrapped⟩ := Program.returns_bind.mp fails
              cases wrapped
            · cases fails

/-- A template request fails to decode its wallet exactly when the wallet does not decode. -/
theorem requestTemplate_undecodable_iff (noOverride : settings.coinbaseAddressOverride = none)
    (uid : Nat) :
    Program.Returns (fun _ _ => True) (.error (undecodable wallet))
      (requestTemplate settings uid wallet) ↔ ¬Decodes wallet := by
  constructor
  · rintro ⟨generation, -, kasPayout, -, fails⟩ decodes
    exact not_undecodable (templateAttempts_failure decodes fails) rfl
  · intro refused
    have missing : Platform.parseAddress wallet = none :=
      Option.not_isSome_iff_eq_none.mp refused
    refine ⟨(0 : Nat), trivial, (none : Option Address), trivial, ?_⟩
    change Program.Returns _ _ (templateAttempts settings wallet uid 0 none uid (2 + 1))
    rw [templateAttempts, noOverride, resolveCoinbaseRecipient, missing]
    rfl

end Templates

end Model

section Sample

attribute [local instance] Sample.minerPlatform

/-- Solo mining on a node that knows one address, which is the pool's. -/
@[reducible] def soloDeployment : Deployment where
  settings :=
    { mergedMining := false
      kaspaPay := none
      kaspaClient := false
      paired := rfl
      coinbaseTag := []
      coinbaseAddressOverride := none
      poolFallbackAddress := Sample.minerAddress
      kaspaCommonProtocol := false
      bitmainExtranonce := true
      targetCalculation := .standard
      legacyParentJobInterval := 0
      commonParentJobInterval := 0 }
  contexts := fun _ =>
    { remoteAddr := ['a']
      remotePort := 1
      instanceId := 0
      seed := 64
      connectTime := 0
      walletAddr := []
      workerName := []
      workerNameSupplied := false
      canxiumAddr := []
      kasPayout := none
      remoteApp := []
      id := 1
      extranonce := []
      templateGeneration := 0
      jobBuildLocked := false
      parentRefreshHeld := false
      lastParentJobAt := none
      disconnecting := false
      sessionOpened := false
      vardiffRegistered := false }

/-- A username is authorized, up to the wallet's store. -/
def authorizing (username : Text) : List (bridge soloDeployment).Event :=
  .start (.authorize 1 ⟨none, [.string username]⟩) :: List.replicate 3 (.step 0 {})

/-- The letters of an address with a wrong checksum. -/
def mistypedWallet : Text := Text.ofString "kaspa:" ++ List.replicate 61 'q'

end Sample

end StratumBridge
