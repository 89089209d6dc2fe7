import StratumBridge.Bridge.Authorize

/-! # Sessions

A connection is registered when it is accepted, subscribes and authorizes in any order,
and is taken down once, after its read loop has ended.
-/

namespace StratumBridge

open Interaction

variable [Platform]

/-! ## Accepting a connection -/

/-- `on_connect`: draw a client id and register the connection under it. -/
def onConnect (instanceId uid : Nat) : Task Unit := do
  let idx : Int ← call (.registry instanceId .nextId)
  call (.context uid (.setExtranonce []))
  call (.context uid (.setId idx))
  call (.registry instanceId (.insert idx uid))

/-- Accept a connection under a fresh session number. -/
def acceptConnection : Task Unit := do
  let uid : Nat ← call .newSessionUid
  let context ← readContext uid
  onConnect context.instanceId uid

/-- Five seconds after a connection was accepted, an authorized one gets its statistics. -/
def createStatsLater (uid : Nat) : Task Unit := do
  let context ← readContext uid
  if context.walletAddr = [] then pure ()
  else do
    let _ ← getCreateStats context.instanceId uid
    return ()

/-! ## Subscription -/

/-- `assign_extranonce_for_miner`. -/
def assignExtranonceForMiner (settings : Settings) (uid : Nat) (app : Text) : Task Unit :=
  if isBitmain app && !settings.bitmainExtranonce then call (.context uid (.setExtranonce []))
  else do
    let next : Nat ← call .nextExtranonce
    call (.context uid (.setExtranonce (Text.padZeros 4 (Nat.toDigits 16 next))))

/-- The answer to a subscription. -/
def subscribeReply (id : Option Value) (app extranonce : Text) : Message :=
  .subscribed id
    (if isBitmain app then some (extranonce, extranonce2Size extranonce) else none)

/-- Extranonce and difficulty of the common protocol, before authorization. -/
def sendCommonSetup (uid : Nat) (extranonce : Text) (seed : ℚ) : Task (Except Text Unit) := do
  let sent ← reply uid (.setExtranonceCommon extranonce (extranonce2Size extranonce))
  match sent with
  | .error error => return .error error
  | .ok () => reply uid (.setDifficultyCommon seed)

/-- The first parameter of a subscription names the miner's software. -/
def storeRemoteApp (uid : Nat) : Option Value → Task Unit
  | some (.string app) => call (.context uid (.setRemoteApp app))
  | _ => pure ()

/-- `mining.subscribe`. -/
def handleSubscribe (settings : Settings) (uid : Nat) (event : SubmitEvent) :
    Task (Except Text Unit) := do
  storeRemoteApp uid event.params.head?
  let app ← remoteApp uid
  assignExtranonceForMiner settings uid app
  let context ← readContext uid
  let extranonce := context.extranonce
  let replied ← reply uid (subscribeReply event.id app extranonce)
  match replied with
  | .error error => return .error error
  | .ok () =>
      if settings.kaspaCommonProtocol then sendCommonSetup uid extranonce context.seed
      else if Text.contains (Text.ofString "iceriver") (Text.toLowercase app) then
        if extranonce = [] then return .ok ()
        else sendExtranonce uid
      else return .ok ()

/-! ## Taking a connection down -/

/-- Remove a connection from the registry, if it has an id. -/
def unregister (instanceId uid : Nat) : Task Unit := do
  let context ← readContext uid
  match context.clientId with
  | some id => call (.registry instanceId (.remove id))
  | none => pure ()

/-- Sessions that revealed neither a worker nor a user agent are not reported. -/
def reportsClose (worker app : Text) : Bool :=
  (nonempty app).isSome || ((nonempty worker).bind WorkerName.new).isSome

/-- Report the end of a session. -/
def closeSession (uid : Nat) (wallet worker app : Text) : Task Unit :=
  if reportsClose worker app then do
    let context ← readContext uid
    let correlationId : Nat ← call .newCorrelationId
    call (.emit (.sessionClosed uid ((nonempty wallet).bind WalletAddress.new)
      ((nonempty worker).bind WorkerName.new) context.remoteAddr (nonempty app)
      context.connectTime correlationId))
  else pure ()

/-- Count the end of a connection that was authorized. -/
def recordDisconnect (instanceId uid : Nat) (wallet worker app : Text) : Task Unit :=
  if wallet = [] ∧ worker = [] then pure ()
  else do
    let labels ← workerContext instanceId uid app
    call (.record (.disconnect labels))

/-- `on_disconnect`. -/
def onDisconnect (uid : Nat) : Task Unit := do
  let context ← readContext uid
  deactivateClientVardiff context.instanceId uid
  call (.context uid .disconnect)
  unregister context.instanceId uid
  let wallet ← walletAddr uid
  let worker ← workerName uid
  let app ← remoteApp uid
  recordDisconnect context.instanceId uid wallet worker app
  closeSession uid wallet worker app

end StratumBridge
