import StratumBridge.Bridge.Parent

/-! # The two settlement legs of a solution

A solved parent may be worth a Kaspa block, and it may prove the ZKas block it
commits to. The Kaspa leg comes first and is independent of the claim that lets one
solution of a lane reach the ZKas node.
-/

namespace StratumBridge

open Interaction

variable [Platform]

/-- The ZKas target of the lane a parent commits to, while the lane is pending. -/
def mergedFcTarget (settings : Settings) (parentBlock : Block) : Task (Option Nat) :=
  if settings.mergedMining then
    match committedHFc parentBlock with
    | none => pure none
    | some hFc => do
        let fcBlock : Option Block ← call (.pending (.get hFc))
        return fcBlock.map fun fcBlock => calculateTarget fcBlock.header.bits
  else pure none

/-- The hash under which a solved job lands on the ZKas chain, in merged mode. -/
def mergedChainHash (settings : Settings) (parentBlock : Block) : Option Hash :=
  if settings.mergedMining then committedHFc parentBlock else none

/-- Claim the one ZKas solution of the lane a job commits to. -/
def claimNetworkSolution (settings : Settings) (jobBlock : Block) : Task Bool :=
  if settings.mergedMining then
    match committedHFc jobBlock with
    | none => pure true
    | some hFc => call (.pending (.claimSolution hFc))
  else pure true

def RejectReason.text : RejectReason → Text
  | .blockInvalid => Text.ofString "BlockInvalid"
  | .isInIBD => Text.ofString "IsInIBD"
  | .routeIsFull => Text.ofString "RouteIsFull"

/-- The outcome of the Kaspa leg for a reply of the Kaspa node. -/
def parentOutcome (hash payoutWallet : Text) : SubmitReply → MergedParentSubmitOutcome
  | .success => .accepted hash payoutWallet
  | .reject reason => .rejected hash reason.text
  | .failed error => .transportError hash error

/-- Submit a solved parent to Kaspa, if it clears the target of its own bits. -/
def submitMergedParentIfSolved (settings : Settings) (parent : Block) :
    Task MergedParentSubmitOutcome :=
  if settings.mergedMining then
    if (checkPow parent.header parent.header.nonce).1 then
      if settings.kaspaClient then do
        let kaspaHash := Text.ofHash (Platform.headerHash parent.header)
        let payoutWallet := (settings.kaspaPay.map Platform.addressText).getD []
        let reply : SubmitReply ← call (.kaspaSubmit parent)
        return parentOutcome kaspaHash payoutWallet reply
      else pure .noKaspaClient
    else pure .doesNotClearKaspa
  else pure .notMerged

/-- Preserve the Kaspa reward before deduplicating the committed ZKas block. -/
def submitParentThenClaimZkas (settings : Settings) (solvedParent jobParent : Block)
    (clearsZkas : Bool) : Task (MergedParentSubmitOutcome × Bool) := do
  let outcome ← submitMergedParentIfSolved settings solvedParent
  if clearsZkas then do
    let claimed ← claimNetworkSolution settings jobParent
    return (outcome, claimed)
  else return (outcome, false)

/-! ## Submission to the ZKas node -/

inductive BlockSubmitOutcome where
  | accepted
  | rejectedByNode (reason : RejectReason)
deriving DecidableEq

/-- The message of a failed remote call; its cause is not part of the text. -/
def submitFailed : Text := Text.ofString "Failed to submit block"

def errDuplicateBlock : Text := Text.ofString "ErrDuplicateBlock"

def isDuplicateError (error : Text) : Bool :=
  Text.contains errDuplicateBlock error || Text.contains (Text.ofString "duplicate") error

/-- Send a block to the ZKas node, once per block hash. A transport failure takes
the mark back so that the submission can be retried. -/
def submitAssembled (block : Block) : Task (Except Text BlockSubmitOutcome) := do
  let blockHash := Text.ofHash (Platform.headerHash block.header)
  let now : Nat ← call .now
  let marked : Bool ← call (.tryMarkBlock blockHash now)
  if marked then do
    let reply : SubmitReply ← call (.zkasSubmit block)
    match reply with
    | .success => return .ok .accepted
    | .reject reason => return .ok (.rejectedByNode reason)
    | .failed _ =>
        if isDuplicateError submitFailed then return .error submitFailed
        else do
          let later : Nat ← call .now
          call (.unmarkBlock blockHash later)
          return .error submitFailed
  else return .error (errDuplicateBlock ++ Text.ofString ": block already submitted")

def noPendingBlock : Text :=
  Text.ofString "merged: no pending ZKas block for the solved parent (stale template)"

/-- Submit a solved block. In merged mode the solved block is a parent, and the
ZKas block it commits to is sent with the parent as its proof. -/
def submitBlock (settings : Settings) (block : Block) :
    Task (Except Text BlockSubmitOutcome) :=
  if settings.mergedMining then
    match committedHFc block with
    | none => pure (.error noPendingBlock)
    | some hFc => do
        let fcBlock : Option Block ← call (.pending (.get hFc))
        match fcBlock with
        | none => return .error noPendingBlock
        | some fcBlock => submitAssembled (assembleAuxBlock block fcBlock)
  else submitAssembled block

end StratumBridge
