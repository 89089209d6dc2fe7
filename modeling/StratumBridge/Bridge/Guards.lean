import StratumBridge.Chain.Block
import StratumBridge.Foundation.Fifo

/-! # Submission guards

Two guards remember recent submissions by key: one keeps a miner's submission from
being credited again, the other keeps a block from being sent to the node again.
Both expire their entries from the front of a queue and drop the oldest entries
beyond a capacity; they differ in what an entry records.
-/

namespace StratumBridge

/-- Entries by key, oldest key first in `order`. -/
structure SubmitGuard (ν : Type) where
  ttl : Nat
  maxEntries : Nat
  entries : AList fun _ : Text => ν
  order : List Text

namespace SubmitGuard

variable {ν : Type}

def new (ttl maxEntries : Nat) : SubmitGuard ν := ⟨ttl, maxEntries, ∅, []⟩

/-- Remove the entries of expired keys at the front, then the oldest entries beyond
the capacity. A key without an entry counts as expired. -/
def prune (stamp : ν → Nat) (guard : SubmitGuard ν) (now : Nat) : SubmitGuard ν :=
  let forget := fun (entries : AList fun _ : Text => ν) (key : Text) => entries.erase key
  let expired := Fifo.drain
    (fun order entries =>
      match order.head?.bind entries.lookup with
      | some entry => decide (guard.ttl < now - stamp entry)
      | none => true)
    forget guard.order guard.entries
  let bounded := Fifo.drain
    (fun _ entries => decide (guard.maxEntries < entries.keys.length))
    forget expired.1 expired.2
  { guard with entries := bounded.2, order := bounded.1 }

end SubmitGuard

/-! ## Blocks sent to the node -/

/-- Block hashes with the time of their submission. -/
abbrev BlockSubmitGuard := SubmitGuard Nat

namespace BlockSubmitGuard

/-- Mark a block hash as submitted, unless it already is. -/
def tryMark (guard : BlockSubmitGuard) (hash : Text) (now : Nat) : Bool × BlockSubmitGuard :=
  let pruned := guard.prune id now
  if hash ∈ pruned.entries then (false, pruned)
  else (true, { pruned with
    entries := pruned.entries.insert hash now
    order := pruned.order ++ [hash] })

/-- Forget a mark. The key stays in the order and expires from there. -/
def remove (guard : BlockSubmitGuard) (hash : Text) (now : Nat) : BlockSubmitGuard :=
  let pruned := guard.prune id now
  { pruned with entries := pruned.entries.erase hash }

end BlockSubmitGuard

/-! ## Submissions already handled -/

inductive DuplicateSubmitOutcome where
  | inFlight
  | accepted
  | stale
  | lowDiff
  | bad
deriving DecidableEq

structure DuplicateSubmitEntry where
  ts : Nat
  outcome : DuplicateSubmitOutcome
deriving DecidableEq

/-- Submission keys with the outcome of the first submission under each. -/
abbrev DuplicateSubmitGuard := SubmitGuard DuplicateSubmitEntry

namespace DuplicateSubmitGuard

def get (guard : DuplicateSubmitGuard) (key : Text) (now : Nat) :
    Option DuplicateSubmitOutcome × DuplicateSubmitGuard :=
  let pruned := guard.prune DuplicateSubmitEntry.ts now
  ((pruned.entries.lookup key).map DuplicateSubmitEntry.outcome, pruned)

def insertInflight (guard : DuplicateSubmitGuard) (key : Text) (now : Nat) :
    DuplicateSubmitGuard :=
  let pruned := guard.prune DuplicateSubmitEntry.ts now
  if key ∈ pruned.entries then pruned
  else { pruned with
    entries := pruned.entries.insert key ⟨now, .inFlight⟩
    order := pruned.order ++ [key] }

def setOutcome (guard : DuplicateSubmitGuard) (key : Text) (now : Nat)
    (outcome : DuplicateSubmitOutcome) : DuplicateSubmitGuard :=
  let pruned := guard.prune DuplicateSubmitEntry.ts now
  if key ∈ pruned.entries then
    { pruned with entries := pruned.entries.insert key ⟨now, outcome⟩ }
  else pruned

/-- The critical section of a submission: the recorded outcome of the key, or the
key marked as in flight. -/
def check (guard : DuplicateSubmitGuard) (key : Text) (now : Nat) :
    Option DuplicateSubmitOutcome × DuplicateSubmitGuard :=
  match guard.get key now with
  | (some outcome, after) => (some outcome, after)
  | (none, after) => (none, after.insertInflight key now)

/-- No entry is expired at `now` and the guard is within capacity. -/
def Fits (guard : DuplicateSubmitGuard) (now : Nat) : Prop :=
  (∀ key ∈ guard.entries, ∀ entry, guard.entries.lookup key = some entry →
    now - entry.ts ≤ guard.ttl) ∧ guard.entries.keys.length ≤ guard.maxEntries

end DuplicateSubmitGuard

end StratumBridge
