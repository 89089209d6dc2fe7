import Mathlib.Data.List.AList
import Mathlib.Data.Rat.Defs
import Mathlib.Algebra.Order.Ring.Rat
import StratumBridge.Foundation.TokenBucket

/-! # The anti-abuse guard

The listener keeps, for every source address with a live connection, the number of its
connections and a token bucket for its frames. A ticket is handed out with every accepted
connection and gives its slot back when it is dropped.
-/

namespace StratumBridge

/-- A configured floating-point number. -/
inductive Float64 where
  | finite (value : ℚ)
  /-- An infinity or not a number. -/
  | nonFinite
deriving DecidableEq

inductive AntiAbuseConfigError where
  | zeroConnCap
  | zeroIpCap
  | invalidFrameRate (value : Float64)
  | invalidFrameBurst (value : Float64)
deriving DecidableEq

structure AntiAbuseConfig where
  maxConnPerIp : Nat
  maxTrackedIps : Nat
  frameRatePerSec : ℚ
  frameBurst : ℚ
deriving DecidableEq

namespace AntiAbuseConfig

/-- A number that is finite and positive. -/
def positive : Float64 → Option ℚ
  | .finite value => if 0 < value then some value else none
  | .nonFinite => none

/-- `AntiAbuseConfig::new`. -/
def new (maxConnPerIp maxTrackedIps : Nat) (frameRatePerSec frameBurst : Float64) :
    Except AntiAbuseConfigError AntiAbuseConfig :=
  if maxConnPerIp = 0 then .error .zeroConnCap
  else if maxTrackedIps = 0 then .error .zeroIpCap
  else
    match positive frameRatePerSec with
    | none => .error (.invalidFrameRate frameRatePerSec)
    | some rate =>
        match positive frameBurst with
        | none => .error (.invalidFrameBurst frameBurst)
        | some burst => .ok ⟨maxConnPerIp, maxTrackedIps, rate, burst⟩

/-- `AntiAbuseConfig::production`. -/
def production : AntiAbuseConfig := ⟨256, 65536, 100, 200⟩

/-- What validation leaves. -/
structure Valid (config : AntiAbuseConfig) : Prop where
  conns : 0 < config.maxConnPerIp
  ips : 0 < config.maxTrackedIps
  rate : 0 < config.frameRatePerSec
  burst : 0 < config.frameBurst

theorem pos_of_positive {number : Float64} {value : ℚ} (passes : positive number = some value) :
    0 < value := by
  cases number with
  | nonFinite => exact nomatch passes
  | finite value =>
      obtain ⟨above, same⟩ := Option.ite_none_right_eq_some.mp passes
      cases same
      exact above

theorem valid_of_new {maxConnPerIp maxTrackedIps : Nat} {frameRatePerSec frameBurst : Float64}
    {config : AntiAbuseConfig}
    (built : new maxConnPerIp maxTrackedIps frameRatePerSec frameBurst = .ok config) :
    config.Valid := by
  unfold new at built
  split at built
  · exact nomatch built
  next conns =>
    split at built
    · exact nomatch built
    next ips =>
      split at built
      · exact nomatch built
      next rate rateFound =>
        split at built
        · exact nomatch built
        next burst burstFound =>
          cases built
          exact ⟨Nat.pos_of_ne_zero conns, Nat.pos_of_ne_zero ips, pos_of_positive rateFound,
            pos_of_positive burstFound⟩

end AntiAbuseConfig

/-! ## The guard -/

structure IpEntry where
  connCount : Nat
  /-- `tokens` and `last_refill`. -/
  bucket : TokenBucket ℚ
deriving DecidableEq

def IpEntry.new (burst now : ℚ) : IpEntry := ⟨0, .full burst now⟩

/-- `IpEntry::try_consume`. -/
def IpEntry.tryConsume (entry : IpEntry) (now rate burst : ℚ) : Bool × IpEntry :=
  ((entry.bucket.tryConsume rate burst now).1,
    { entry with bucket := (entry.bucket.tryConsume rate burst now).2 })

inductive AntiAbuseRejection where
  | connCapPerIp (active cap : Nat)
  | ipCapReached
deriving DecidableEq

/-- The entries of the tracked addresses. -/
structure AntiAbuseGuard (Ip : Type) where
  entries : AList fun _ : Ip => IpEntry

namespace AntiAbuseGuard

variable {Ip : Type} [DecidableEq Ip]

def empty : AntiAbuseGuard Ip := ⟨∅⟩

/-- `conn_count`. -/
def connCount (guard : AntiAbuseGuard Ip) (ip : Ip) : Nat :=
  ((guard.entries.lookup ip).map IpEntry.connCount).getD 0

/-- `tracked_ip_count`. -/
def trackedIpCount (guard : AntiAbuseGuard Ip) : Nat := guard.entries.keys.length

/-- `state.entry(ip).or_insert_with(..)`: the entry, and the map that now holds it. -/
def entryOrInsert (guard : AntiAbuseGuard Ip) (ip : Ip) (fresh : IpEntry) :
    IpEntry × AntiAbuseGuard Ip :=
  match guard.entries.lookup ip with
  | some entry => (entry, guard)
  | none => (fresh, ⟨guard.entries.insert ip fresh⟩)

/-- `try_accept_connection`: whether a ticket is given, and the state after. -/
def tryAcceptConnection (config : AntiAbuseConfig) (guard : AntiAbuseGuard Ip) (ip : Ip)
    (now : ℚ) : Except AntiAbuseRejection Unit × AntiAbuseGuard Ip :=
  if ip ∉ guard.entries ∧ config.maxTrackedIps ≤ guard.trackedIpCount then
    (.error .ipCapReached, guard)
  else
    let (entry, guard) := guard.entryOrInsert ip (.new config.frameBurst now)
    if config.maxConnPerIp ≤ entry.connCount then
      (.error (.connCapPerIp entry.connCount config.maxConnPerIp), guard)
    else (.ok (), ⟨guard.entries.insert ip { entry with connCount := entry.connCount + 1 }⟩)

/-- `try_consume_frame`. -/
def tryConsumeFrame (config : AntiAbuseConfig) (guard : AntiAbuseGuard Ip) (ip : Ip) (now : ℚ) :
    Bool × AntiAbuseGuard Ip :=
  match guard.entries.lookup ip with
  | some entry =>
      let (granted, entry) := entry.tryConsume now config.frameRatePerSec config.frameBurst
      (granted, ⟨guard.entries.insert ip entry⟩)
  | none => (false, guard)

/-- `release`, when a ticket is dropped. -/
def release (guard : AntiAbuseGuard Ip) (ip : Ip) : AntiAbuseGuard Ip :=
  match guard.entries.lookup ip with
  | some entry =>
      let entry := { entry with connCount := entry.connCount - 1 }
      if entry.connCount = 0 then ⟨guard.entries.erase ip⟩ else ⟨guard.entries.insert ip entry⟩
  | none => guard

/-! ## What each operation does -/

section Lookups

variable {guard : AntiAbuseGuard Ip} {ip other : Ip} {entry : IpEntry} {now : ℚ}
  {config : AntiAbuseConfig}

theorem connCount_of_lookup (found : guard.entries.lookup ip = some entry) :
    guard.connCount ip = entry.connCount := by
  rw [connCount, found]
  rfl

theorem connCount_of_notMem (untracked : ip ∉ guard.entries) : guard.connCount ip = 0 := by
  rw [connCount, AList.lookup_eq_none.mpr untracked]
  rfl

@[simp] theorem connCount_insert (entry : IpEntry) :
    connCount ⟨guard.entries.insert ip entry⟩ ip = entry.connCount :=
  connCount_of_lookup (AList.lookup_insert _)

theorem connCount_insert_ne (different : other ≠ ip) (entry : IpEntry) :
    connCount ⟨guard.entries.insert ip entry⟩ other = guard.connCount other := by
  rw [connCount, connCount, AList.lookup_insert_ne different]

@[simp] theorem connCount_erase : connCount ⟨guard.entries.erase ip⟩ ip = 0 := by
  have untracked : ip ∉ (⟨guard.entries.erase ip⟩ : AntiAbuseGuard Ip).entries :=
    fun member => (AList.mem_erase.mp member).1 rfl
  exact connCount_of_notMem untracked

theorem connCount_erase_ne (different : other ≠ ip) :
    connCount ⟨guard.entries.erase ip⟩ other = guard.connCount other := by
  rw [connCount, connCount, AList.lookup_erase_ne different]

/-- Writing a tracked address adds none. -/
theorem length_insert_of_mem (tracked : ip ∈ guard.entries) (entry : IpEntry) :
    (guard.entries.insert ip entry).keys.length = guard.entries.keys.length := by
  have positive : 0 < guard.entries.keys.length := List.length_pos_of_mem tracked
  rw [AList.keys_insert, List.length_cons, List.length_erase_of_mem tracked]
  omega

theorem length_insert_of_notMem (untracked : ip ∉ guard.entries) (entry : IpEntry) :
    (guard.entries.insert ip entry).keys.length = guard.entries.keys.length + 1 := by
  rw [AList.keys_insert, List.length_cons, List.erase_of_not_mem untracked]

/-- What an accept does: it is refused and changes nothing, or it counts the connection of an
address with a free slot. -/
inductive Accepts (config : AntiAbuseConfig) (guard : AntiAbuseGuard Ip) (ip : Ip) (now : ℚ) :
    Except AntiAbuseRejection Unit × AntiAbuseGuard Ip → Prop where
  | refused (rejection : AntiAbuseRejection) : Accepts config guard ip now (.error rejection, guard)
  | known (entry : IpEntry) (found : guard.entries.lookup ip = some entry)
      (free : entry.connCount < config.maxConnPerIp) :
      Accepts config guard ip now
        (.ok (), ⟨guard.entries.insert ip { entry with connCount := entry.connCount + 1 }⟩)
  | fresh (untracked : ip ∉ guard.entries) (room : guard.trackedIpCount < config.maxTrackedIps) :
      Accepts config guard ip now
        (.ok (), ⟨guard.entries.insert ip ⟨1, .full config.frameBurst now⟩⟩)

theorem tryAcceptConnection_cases (valid : config.Valid) :
    Accepts config guard ip now (guard.tryAcceptConnection config ip now) := by
  unfold tryAcceptConnection
  split
  · exact .refused _
  next allowed =>
    cases found : guard.entries.lookup ip with
    | some entry =>
        simp only [entryOrInsert, found]
        split
        · exact .refused _
        next free => exact .known entry found (Nat.lt_of_not_le free)
    | none =>
        have untracked := AList.lookup_eq_none.mp found
        have room : guard.trackedIpCount < config.maxTrackedIps :=
          Nat.lt_of_not_le fun saturated => allowed ⟨untracked, saturated⟩
        have free : ¬ config.maxConnPerIp ≤ 0 := Nat.not_le.mpr valid.conns
        simp only [entryOrInsert, found, IpEntry.new, if_neg free, AList.insert_insert,
          Nat.zero_add]
        exact .fresh untracked room

end Lookups

end AntiAbuseGuard

end StratumBridge
