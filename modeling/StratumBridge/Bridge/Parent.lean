import StratumBridge.Bridge.Operations

/-! # Templates and their Kaspa parents

A full template asks the ZKas node for a block and the Kaspa node for a parent that
commits to it; when no parent can be had, a synthetic one is built. A parent-only
refresh asks the Kaspa node again for a lane that is still open. Parents are cached
for a moment under the lane and the payee they were requested for.
-/

namespace StratumBridge

open Interaction

variable [Platform]

/-! ## Pre-proof-of-work hashes -/

def leBytes (value count : Nat) : List Byte :=
  (List.range count).map fun index => BitVec.ofNat 8 (value >>> (8 * index))

/-- `serialize_block_header`: the hash of a header without timestamp and nonce. -/
def serializeBlockHeader (block : Block) : Except Text Hash :=
  let header := block.header
  let parents := header.parentsByLevel.flatMap fun level =>
    leBytes level.length 8 ++ level.flatMap hashBytes
  let blueWork := (leBytes header.blueWork 24).reverse.dropWhile fun byte => byte = 0
  .ok (Platform.blockHasher (leBytes header.version 2
    ++ leBytes header.parentsByLevel.length 8 ++ parents
    ++ hashBytes header.hashMerkleRoot ++ hashBytes header.acceptedIdMerkleRoot
    ++ hashBytes header.utxoCommitment
    ++ leBytes 0 8 ++ leBytes header.bits 4 ++ leBytes 0 8
    ++ leBytes header.daaScore 8 ++ leBytes header.blueScore 8
    ++ leBytes blueWork.length 8 ++ blueWork
    ++ hashBytes header.pruningPoint))

/-! ## Requests -/

def textBytes (text : Text) : List Byte := text.map fun char => BitVec.ofNat 8 char.toNat

/-- The coinbase tag of a connection's template: session and generation make the
ZKas block of every template distinct. -/
def buildLaneCoinbaseTag (base : List Byte) (sessionUid generation : Nat) : List Byte :=
  base ++ textBytes (Text.ofString "/s" ++ Text.hex16 sessionUid
    ++ Text.ofString "/g" ++ Text.hex16 generation)

def resolveCoinbaseRecipient (overrideAddr : Option Address) (walletAddr : Text) :
    Except Text Address :=
  match overrideAddr with
  | some address => .ok address
  | none =>
      match Platform.parseAddress walletAddr with
      | some address => .ok address
      | none => .error (Text.ofString "Could not decode address " ++ walletAddr)

/-- The extra data of a parent request: the commitment to a lane. -/
def parentExtraData (hFc : Hash) : List Byte := Platform.embedCommitment [] hFc []

/-- `KASPA_PARENT_TTL`, in milliseconds. -/
def kaspaParentTtl : Nat := 150

/-- The recipient of a parent request: the payee, or the operator. -/
def parentRecipient (settings : Settings) (payee : Option Address) : Option Address :=
  payee.or settings.kaspaPay

/-- Ask the Kaspa node for a parent and cache it. -/
def requestKaspaParent (hFc : Hash) (pay : Address) : Task (Except Text Block) := do
  call (.parent .acquirePermit)
  let reply : TemplateReply ← call (.kaspaTemplate pay (parentExtraData hFc))
  match reply with
  | .failed _ => do
      call (.parent .releasePermit)
      return .error (Text.ofString "kaspa getBlockTemplate")
  | .malformed error => do
      call (.parent .releasePermit)
      return .error (Text.ofString "kaspa block conversion: " ++ error)
  | .block parent => do
      let now : Nat ← call .now
      call (.parent (.writeCache ⟨hFc, Platform.addressText pay, parent, now⟩))
      call (.parent .releasePermit)
      return .ok parent

/-- The cache entry usable for this lane and payee, its age aside. -/
def CachedParent.matching (cached : Option CachedParent) (hFc : Hash) (payKey : Text)
    (force : Bool) : Option CachedParent :=
  cached.filter fun entry => !force && decide (entry.hFc = hFc) && decide (entry.payKey = payKey)

/-- Fetch a Kaspa parent committing to a lane and paying the payee, or the operator
when there is no payee. -/
def fetchKaspaParent (settings : Settings) (hFc : Hash) (payee : Option Address)
    (force : Bool) : Task (Except Text Block) :=
  if settings.kaspaClient then
    match parentRecipient settings payee with
    | none => pure (.error (Text.ofString "no Kaspa pay address"))
    | some pay => do
        let cached : Option CachedParent ← call (.parent .readCache)
        match CachedParent.matching cached hFc (Platform.addressText pay) force with
        | some entry => do
            let now : Nat ← call .now
            if now - entry.fetchedAt < kaspaParentTtl then return .ok entry.parent
            else requestKaspaParent hFc pay
        | none => requestKaspaParent hFc pay
  else pure (.error (Text.ofString "no Kaspa node client"))

/-- Fetch a newer parent for the lane of a job, while its solution is unclaimed. -/
def refreshMergedParent (settings : Settings) (currentParent : Block)
    (payee : Option Address) : Task (Except Text (Option Block)) :=
  if settings.mergedMining && settings.kaspaClient then
    match committedHFc currentParent with
    | none => pure (.error (Text.ofString "merged parent has no ZKMM commitment"))
    | some hFc => do
        let unsolved : Bool ← call (.pending (.isUnsolved hFc))
        if unsolved then do
          let fetched ← fetchKaspaParent settings hFc payee true
          return fetched.map some
        else return .ok none
  else pure (.ok none)

/-! ## Full templates -/

/-- The minute of the hour of a wall-clock reading. -/
def minuteOfHour (systemTime : Nat) : Nat := systemTime / 1000 / 60 % 60

/-- Who a full template's parent pays: nobody but the operator in the lane's fee
minute, else the miner's own payout address. -/
def templatePayee (laneId systemTime : Nat) (kasPayout : Option Address) : Option Address :=
  if isPoolFeeMinute laneId (minuteOfHour systemTime) then none else kasPayout

/-- The parent a fetch yields: a synthetic one when the fetch failed. -/
def parentOrSynthetic (fcBlock : Block) : Except Text Block → Block
  | .ok parent => parent
  | .error _ => (buildParentBlock fcBlock).1

/-- Wrap a ZKas block into a parent and keep the block for its solution. The payee
is chosen once, here, and its flag is stored with the lane. -/
def mergedTemplate (settings : Settings) (fcBlock : Block) (kasPayout : Option Address)
    (laneId : Nat) : Task Block := do
  let hFc := fcBlock.header.hash
  let systemTime : Nat ← call .systemTime
  let payee := templatePayee laneId systemTime kasPayout
  let fetched ← fetchKaspaParent settings hFc payee false
  call (.pending (.insertWithPayee hFc fcBlock payee.isNone))
  return parentOrSynthetic fcBlock fetched

def oddDigits (error : Text) : Bool := Text.contains (Text.ofString "Odd number of digits") error

/-- The attempts of a template request that remain; the last one reports. -/
def templateAttempts (settings : Settings) (walletAddr : Text) (sessionUid generation : Nat)
    (kasPayout : Option Address) (laneId : Nat) : Nat → Task (Except Text Block)
  | 0 => pure (.error (Text.ofString "Failed to get valid block template after 3 attempts"))
  | remaining + 1 =>
      let retry := templateAttempts settings walletAddr sessionUid generation kasPayout laneId
        remaining
      match resolveCoinbaseRecipient settings.coinbaseAddressOverride walletAddr with
      | .error error => pure (.error error)
      | .ok recipient => do
          let tag := buildLaneCoinbaseTag settings.coinbaseTag sessionUid generation
          let reply : TemplateReply ← call (.zkasTemplate recipient tag)
          match reply with
          | .failed error =>
              if 0 < remaining then retry
              else return .error (Text.ofString "Failed to get block template after 3 attempts: "
                ++ error)
          | .malformed error =>
              if oddDigits error && decide (0 < remaining) then retry
              else if oddDigits error then
                return .error (Text.ofString "Failed to convert RPC block to Block after 3 attempts: "
                  ++ error)
              else return .error (Text.ofString "Failed to convert RPC block to Block: " ++ error)
          | .block fcBlock =>
              match serializeBlockHeader fcBlock with
              | .error error =>
                  if oddDigits error && decide (0 < remaining) then retry
                  else return .error (Text.ofString "Failed to serialize block header: " ++ error)
              | .ok _ =>
                  if settings.mergedMining then do
                    let parent ← mergedTemplate settings fcBlock kasPayout laneId
                    return .ok parent
                  else return .ok fcBlock

/-- Get a block template for a connection, in up to three attempts. -/
def getBlockTemplate (settings : Settings) (walletAddr : Text) (sessionUid generation : Nat)
    (kasPayout : Option Address) (laneId : Nat) : Task (Except Text Block) :=
  templateAttempts settings walletAddr sessionUid generation kasPayout laneId 3

end StratumBridge
