import StratumBridge.Bridge.Publication

/-! # Authorization

`mining.authorize` names the wallet and worker of a connection and, in the password
field, an optional Kaspa payout address. A later authorization on the same connection
overwrites all of them.
-/

namespace StratumBridge

open Interaction

variable [Platform]

/-! ## Parsing -/

/-- Split at a character, keeping empty parts. -/
def splitOn (separator : Char) : Text → List Text
  | [] => [[]]
  | char :: rest =>
      if char = separator then [] :: splitOn separator rest
      else
        match splitOn separator rest with
        | [] => [[char]]
        | part :: parts => (char :: part) :: parts

def startsWith (text : Text) (expected : String) : Bool := expected.toList.isPrefixOf text

def hasKaspaPrefix (text : Text) : Bool :=
  startsWith text "kaspa:" || startsWith text "kaspatest:" || startsWith text "kaspadev:"

/-- Did the miner try to give a payout address? -/
def looksLikePayoutAttempt (raw : Text) : Bool :=
  hasKaspaPrefix (Text.toLowercase (Text.trim raw))

/-- Read the password as a payout address. Only an explicitly prefixed address
counts; everything else pays the pool. -/
def parseKasPayout (raw : Option Text) : Option Address :=
  match raw with
  | none => none
  | some raw =>
      let raw := Text.trim raw
      if looksLikePayoutAttempt raw then
        let candidate := Text.trim (raw.takeWhile fun char => char ≠ ',' ∧ char ≠ ' ')
        if hasKaspaPrefix candidate then Platform.parseAddress candidate else none
      else none

def isWalletChar (char : Char) : Bool := char.isLower || char.isDigit

/-- A match of `WALLET_REGEX` at the start of a text. -/
def walletMatch (text : Text) : Option Text :=
  ["kaspatest:", "kaspadev:", "kaspa:"].findSome? fun expected =>
    let body := (text.drop expected.length).take 61
    if startsWith text expected && decide (body.length = 61) && body.all isWalletChar then
      some (expected.toList ++ body)
    else none

/-- The first match of `WALLET_REGEX` in a text. -/
def walletFind : Text → Option Text
  | [] => none
  | char :: rest => (walletMatch (char :: rest)).or (walletFind rest)

/-- Coerce a prefixed wallet text into an address text. -/
def cleanPrefixedWallet (text : Text) : Option Text :=
  if (Platform.parseAddress text).isSome then some text else walletFind text

def cleanWallet (text : Text) : Option Text :=
  if (Platform.parseAddress text).isSome then some text
  else if hasKaspaPrefix text then walletFind text
  else cleanPrefixedWallet (Text.ofString "kaspa:" ++ text)

def processCanxiumAddress (address : Text) : Text :=
  let marker := Text.ofString "canxiuminer:"
  let lower := Text.toLowercase address
  let stripped :=
    if startsWith address "0x" then address.drop 2
    else if startsWith lower "canxiuminer:0x" then
      address.take marker.length ++ address.drop (marker.length + 2)
    else address
  if startsWith (Text.toLowercase stripped) "canxiuminer:" then stripped else marker ++ stripped

/-! ## The handler -/

/-- Detach a connection from the statistics of its current identity. -/
def deactivateClientVardiff (instanceId uid : Nat) : Task Unit := do
  let registered : Bool ← call (.context uid .releaseVardiffRegistration)
  if registered then do
    let found ← getStatsIfExists instanceId uid
    match found with
    | some handle => do
        writeStats instanceId handle .connectionClosed
        let now : Nat ← call .now
        writeStats instanceId handle (.touchSession now)
    | none => pure ()
  else pure ()

/-- Attach a connection to the statistics of its identity, once. -/
def activateClientVardiff (instanceId uid : Nat) : Task Unit := do
  let claimed : Bool ← call (.context uid .claimVardiffRegistration)
  if claimed then do
    let handle ← getCreateStats instanceId uid
    writeStats instanceId handle .connectionOpened
    let now : Nat ← call .now
    writeStats instanceId handle (.setVarDiffStart now)
    writeStats instanceId handle .resetVarDiffShares
    writeStats instanceId handle .resetVarDiffWindow
    writeStats instanceId handle (.touchSession now)
  else pure ()

/-- Register a connection under its identity, if it has a wallet. -/
def registerIdentity (instanceId uid : Nat) (wallet : Text) : Task Unit :=
  if wallet = [] then pure () else activateClientVardiff instanceId uid

/-- The wallet of an authorization: the cleaned address, or the pool's own. -/
def authorizedWallet (settings : Settings) (instanceId uid : Nat) (address : Text) : Task Text :=
  match cleanWallet address with
  | some wallet => pure wallet
  | none => do
      let context ← readContext uid
      call (.record (.badAddress instanceId context.remoteAddr))
      return settings.poolFallbackAddress

/-- Store the identity of an authorization in the connection. -/
def storeIdentity (uid : Nat) (wallet worker : Text) : Task Text := do
  call (.context uid (.setWalletAddr wallet))
  call (.context uid (.setWorkerName worker (decide (Text.trim worker ≠ []))))
  effectiveWorkerName uid

/-- Store the payout addresses of an authorization. -/
def storePayouts (uid : Nat) (canxium : Text) (payout : Option Address) : Task Unit := do
  if canxium = [] then pure () else call (.context uid (.setCanxiumAddr canxium))
  call (.context uid (.setKasPayout payout))

/-- A text, unless it is empty. -/
def nonempty (text : Text) : Option Text := if text = [] then none else some text

/-- Report the session of a connection, on its first authorization. -/
def openSession (uid : Nat) (wallet worker app : Text) : Task Unit := do
  let first : Bool ← call (.context uid .claimSessionOpen)
  if first then do
    let context ← readContext uid
    let correlationId : Nat ← call .newCorrelationId
    call (.emit (.sessionOpened uid (WalletAddress.new wallet)
      ((nonempty worker).bind WorkerName.new) context.remoteAddr (nonempty app)
      context.connectTime correlationId))
  else pure ()

/-- The bytes a miner has left behind its extranonce. -/
def extranonce2Size (extranonce : Text) : Nat := 8 - extranonce.length / 2

/-- `send_extranonce`. -/
def sendExtranonce (uid : Nat) : Task (Except Text Unit) := do
  let context ← readContext uid
  reply uid (.setExtranonce context.extranonce
    (if isBitmain context.remoteApp then some (extranonce2Size context.extranonce) else none)
    (Text.contains (Text.ofString "IceRiver") context.remoteApp))

/-- Send the extranonce after authorization, to miners that expect it there. -/
def sendAuthorizedExtranonce (settings : Settings) (uid : Nat) : Task (Except Text Unit) := do
  let context ← readContext uid
  if context.extranonce = [] ∨ isBitmain context.remoteApp ∨ isIceriver context.remoteApp
      ∨ settings.kaspaCommonProtocol then return .ok ()
  else sendExtranonce uid

/-- Answer an authorization, and give the connection work. -/
def answerAuthorization (settings : Settings) (uid : Nat) (eventId : Option Value) :
    Task (Except Text Unit) := do
  let replied ← reply uid (.reply eventId true)
  match replied with
  | .error error => return .error error
  | .ok () => do
      let extranonce ← sendAuthorizedExtranonce settings uid
      match extranonce with
      | .error error => return .error error
      | .ok () => do
          sendImmediateJobToClient settings uid
          return .ok ()

/-- `mining.authorize` with a decoded address parameter. -/
def authorize (settings : Settings) (uid : Nat) (eventId : Option Value) (identity : Text)
    (password : Option Text) : Task (Except Text Unit) := do
  let context ← readContext uid
  let parts := splitOn '.' identity
  let worker := parts.getD 1 []
  let canxium := (parts[2]?.map processCanxiumAddress).getD []
  let wallet ← authorizedWallet settings context.instanceId uid (parts.getD 0 [])
  deactivateClientVardiff context.instanceId uid
  let label ← storeIdentity uid wallet worker
  let stored ← walletAddr uid
  registerIdentity context.instanceId uid stored
  let app ← remoteApp uid
  storePayouts uid canxium (parseKasPayout password)
  openSession uid wallet label app
  answerAuthorization settings uid eventId

def textParam : Option Value → Option Text
  | some (.string text) => some text
  | _ => none

/-- `mining.authorize`. -/
def handleAuthorize (settings : Settings) (uid : Nat) (event : SubmitEvent) :
    Task (Except Text Unit) :=
  match textParam event.params.head? with
  | none => pure (.error (Text.ofString "expected param[0] to be address string"))
  | some identity => authorize settings uid event.id identity (textParam event.params[1]?)

end StratumBridge
