import StratumBridge.Web.Config

/-! # The command line

The command line overrides what the file says. Global settings are replaced one by one; the
instances are either replaced as a whole, each by its own spec, or the only one is changed.
-/

namespace StratumBridge

/-! ## Numbers and flags -/

namespace Text

/-- Digits of an unsigned number below a bound. -/
def readBounded (bound : Nat) : Text → Nat → Except Text Nat
  | [], value => .ok value
  | char :: rest, value =>
      match digitValue 10 char with
      | none => .error (ofString "invalid digit found in string")
      | some digit =>
          if value * 10 + digit < bound then readBounded bound rest (value * 10 + digit)
          else .error (ofString "number too large to fit in target type")

/-- `str::parse` for an unsigned number of this many bits. -/
def parseUnsigned (width : Nat) (text : Text) : Except Text Nat :=
  match text with
  | [] => .error (ofString "cannot parse integer from empty string")
  | ['+'] => .error (ofString "invalid digit found in string")
  | '+' :: digits => readBounded (2 ^ width) digits 0
  | digits => readBounded (2 ^ width) digits 0

/-- The sign of a number and what follows it; true is negative. -/
def splitSign : Text → Bool × Text
  | '-' :: rest => (true, rest)
  | '+' :: rest => (false, rest)
  | text => (false, text)

/-- An exponent, if the text ends in one. -/
def readExponent : Text → Option Int
  | [] => some 0
  | char :: text =>
      let (negative, digits) := splitSign text
      if (char = 'e' ∨ char = 'E') ∧ digits ≠ [] then
        (readDigits 10 digits 0).map fun value => if negative then -value else value
      else none

/-- A decimal number, read exactly and then rounded once. -/
def readDecimal (text : Text) : Option Float := do
  let whole := text.takeWhile Char.isDigit
  let behind := text.dropWhile Char.isDigit
  let fraction := if behind.head? = some '.' then behind.tail.takeWhile Char.isDigit else []
  let rest := if behind.head? = some '.' then behind.tail.dropWhile Char.isDigit else behind
  if whole ++ fraction = [] then none
  else do
    let exponent ← readExponent rest
    let mantissa ← readDigits 10 (whole ++ fraction) 0
    let scale := exponent - fraction.length
    return Float.ofScientific mantissa (scale < 0) scale.natAbs

/-- `str::parse` for a float. -/
def parseF64 (text : Text) : Except Text Float :=
  let (negative, digits) := splitSign text
  let name := toLowercase digits
  let magnitude :=
    if name = ofString "inf" ∨ name = ofString "infinity" then some (1 / 0)
    else if name = ofString "nan" then some (0 / 0)
    else readDecimal digits
  match text, magnitude with
  | [], _ => .error (ofString "cannot parse float from empty string")
  | _, none => .error (ofString "invalid float literal")
  | _, some value => .ok (if negative then -value else value)

/-- `str::split_once`. -/
def splitOnce (separator : Char) (text : Text) : Option (Text × Text) :=
  if separator ∈ text then
    some (text.takeWhile (· ≠ separator), (text.dropWhile (· ≠ separator)).tail)
  else none

end Text

def parseBool (text : Text) : Except Text Bool :=
  let word := String.ofList (Text.toLowercase (Text.trim text))
  if word ∈ ["true", "1", "yes", "y", "on", "enable", "enabled"] then .ok true
  else if word ∈ ["false", "0", "no", "n", "off", "disable", "disabled"] then .ok false
  else .error (Text.ofString "invalid boolean value: " ++ text)

/-! ## Instance specs -/

inductive SpecKey where
  | port
  | prom
  | diff
  | wait
  | extranonce
  | log
  | varDiff
  | sharesPerMin
  | varDiffStats
  | pow2Clamp
deriving DecidableEq

/-- The key of a name in lower case. -/
def SpecKey.ofName (name : Text) : Option SpecKey :=
  let table : List (SpecKey × List String) := [
    (.port, ["port", "stratum", "stratum_port"]),
    (.prom, ["prom", "prom_port"]),
    (.diff, ["diff", "min_share_diff"]),
    (.wait, ["wait", "block_wait_time"]),
    (.extranonce, ["extranonce", "extranonce_size"]),
    (.log, ["log", "log_to_file"]),
    (.varDiff, ["var_diff"]),
    (.sharesPerMin, ["shares_per_min"]),
    (.varDiffStats, ["var_diff_stats"]),
    (.pow2Clamp, ["pow2_clamp"])]
  (table.find? fun entry => String.ofList name ∈ entry.2).map Prod.fst

/-- The key and the value of a trimmed part. A part without a key is a port. -/
def specEntry (part : Text) : Text × Text :=
  match Text.splitOnce '=' part with
  | some (key, value) => (Text.trim key, Text.trim value)
  | none => (Text.ofString "port", part)

/-- What the parts of a spec have set so far. -/
structure SpecState where
  config : InstanceConfig
  hasPort : Bool
  hasDiff : Bool

/-- The message of a number that does not parse. -/
def invalidNumber (name : String) (value message : Text) : Text :=
  Text.ofString "invalid " ++ Text.ofString name ++ Text.ofString " '" ++ value ++
    Text.ofString "': " ++ message

/-- One value of a spec, under its key. -/
def SpecState.set (spec value : Text) (state : SpecState) : SpecKey → Except Text SpecState
  | .port =>
      let normalized := normalizePort value
      if normalized = [] then
        .error (Text.ofString "instance port is empty in '" ++ spec ++ Text.ofString "'")
      else .ok { state with
        config := { state.config with stratumPort := normalized }, hasPort := true }
  | .prom => .ok { state with
      config := { state.config with promPort := deserializeOptionalPort (some value) } }
  | .diff => do
      let diff ← (Text.parseF64 value).mapError (invalidNumber "min_share_diff" value)
      return { state with config := { state.config with minShareDiff := diff }, hasDiff := true }
  | .wait => do
      let ms ← (Text.parseUnsigned 64 value).mapError (invalidNumber "block_wait_time" value)
      return { state with
        config := { state.config with blockWaitTime := some (UInt64.ofNat ms) } }
  | .extranonce => do
      let size ← (Text.parseUnsigned 8 value).mapError (invalidNumber "extranonce_size" value)
      return { state with
        config := { state.config with extranonceSize := some (UInt8.ofNat size) } }
  | .log => do
      let enabled ← parseBool value
      return { state with config := { state.config with logToFile := some enabled } }
  | .varDiff => do
      let enabled ← parseBool value
      return { state with config := { state.config with varDiff := some enabled } }
  | .sharesPerMin => do
      let shares ← (Text.parseUnsigned 32 value).mapError (invalidNumber "shares_per_min" value)
      return { state with
        config := { state.config with sharesPerMin := some (UInt32.ofNat shares) } }
  | .varDiffStats => do
      let enabled ← parseBool value
      return { state with config := { state.config with varDiffStats := some enabled } }
  | .pow2Clamp => do
      let enabled ← parseBool value
      return { state with config := { state.config with pow2Clamp := some enabled } }

/-- One part of a spec. -/
def SpecState.read (spec : Text) (state : SpecState) (rawPart : Text) : Except Text SpecState :=
  let part := Text.trim rawPart
  if part = [] then .ok state
  else
    let (key, value) := specEntry part
    match SpecKey.ofName (Text.toLowercase key) with
    | some known => state.set spec value known
    | none => .error (Text.ofString "unknown instance key '" ++ key ++ Text.ofString "' in '" ++
        spec ++ Text.ofString "'")

def SpecState.initial : SpecState where
  config := { stratumPort := [], minShareDiff := 0 }
  hasPort := false
  hasDiff := false

def parseInstanceSpec (spec : Text) (defaultMinShareDiff : Option Float) :
    Except Text InstanceConfig := do
  let state ← (spec.splitOn ',').foldlM (SpecState.read spec) SpecState.initial
  if !state.hasPort then
    .error (Text.ofString "instance is missing required 'port' in '" ++ spec ++
      Text.ofString "'")
  else if state.hasDiff then return state.config
  else match defaultMinShareDiff with
    | some diff => return { state.config with minShareDiff := diff }
    | none => .error (Text.ofString "instance is missing required 'diff' (min_share_diff) in '" ++
        spec ++ Text.ofString "' and no global --min-share-diff was provided")

/-! ## Overrides -/

/-- The flags that override the configuration. Durations are in milliseconds. -/
structure Cli where
  kaspadAddress : Option Text := none
  blockWaitTime : Option UInt64 := none
  printStats : Option Bool := none
  logToFile : Option Bool := none
  healthCheckPort : Option Text := none
  webDashboardPort : Option Text := none
  varDiff : Option Bool := none
  sharesPerMin : Option UInt32 := none
  varDiffStats : Option Bool := none
  extranonceSize : Option UInt8 := none
  pow2Clamp : Option Bool := none
  coinbaseTagSuffix : Option Text := none
  stratumPort : Option Text := none
  minShareDiff : Option Float := none
  promPort : Option Text := none
  instances : List Text := []
  instanceLogToFile : Option Bool := none
  instanceVarDiff : Option Bool := none
  instanceSharesPerMin : Option UInt32 := none
  instanceVarDiffStats : Option Bool := none
  instancePow2Clamp : Option Bool := none

namespace Cli

def overrideGlobal (cli : Cli) (global : GlobalConfig) : GlobalConfig where
  kaspadAddress := cli.kaspadAddress.getD global.kaspadAddress
  mergedKaspaAddress := global.mergedKaspaAddress
  mergedKaspaPayAddress := global.mergedKaspaPayAddress
  blockWaitTime := cli.blockWaitTime.getD global.blockWaitTime
  printStats := cli.printStats.getD global.printStats
  logToFile := cli.logToFile.getD global.logToFile
  healthCheckPort := cli.healthCheckPort.getD global.healthCheckPort
  webDashboardPort := (cli.webDashboardPort.map normalizePort).getD global.webDashboardPort
  varDiff := cli.varDiff.getD global.varDiff
  sharesPerMin := cli.sharesPerMin.getD global.sharesPerMin
  varDiffStats := cli.varDiffStats.getD global.varDiffStats
  extranonceSize := cli.extranonceSize.getD global.extranonceSize
  pow2Clamp := cli.pow2Clamp.getD global.pow2Clamp
  coinbaseTagSuffix :=
    (cli.coinbaseTagSuffix.map fun suffix => deserializeCoinbaseTagSuffix (some suffix)).getD
      global.coinbaseTagSuffix

/-- A flag for a single instance is given, other than the difficulty. -/
def singleInstanceFlags (cli : Cli) : Bool :=
  cli.stratumPort.isSome || cli.promPort.isSome || cli.instanceLogToFile.isSome ||
    cli.instanceVarDiff.isSome || cli.instanceSharesPerMin.isSome ||
    cli.instanceVarDiffStats.isSome || cli.instancePow2Clamp.isSome

def hasInstanceOverrides (cli : Cli) : Bool :=
  cli.singleInstanceFlags || cli.minShareDiff.isSome

/-- The port is not checked here. -/
def overrideInstance (cli : Cli) (config : InstanceConfig) : InstanceConfig where
  stratumPort := (cli.stratumPort.map normalizePort).getD config.stratumPort
  minShareDiff := cli.minShareDiff.getD config.minShareDiff
  promPort := (cli.promPort.map normalizePort).or config.promPort
  logToFile := cli.instanceLogToFile.or config.logToFile
  blockWaitTime := config.blockWaitTime
  extranonceSize := config.extranonceSize
  varDiff := cli.instanceVarDiff.or config.varDiff
  sharesPerMin := cli.instanceSharesPerMin.or config.sharesPerMin
  varDiffStats := cli.instanceVarDiffStats.or config.varDiffStats
  pow2Clamp := cli.instancePow2Clamp.or config.pow2Clamp
  kaspaCommonProtocol := config.kaspaCommonProtocol

/-- The instances of the specs. No two may have the same port. -/
def specInstances (cli : Cli) : Except Text (List InstanceConfig) := do
  let instances ← cli.instances.mapM fun spec => parseInstanceSpec spec cli.minShareDiff
  (rejectDuplicates [] instances).mapError fun
    | .duplicateStratumPort port => Text.ofString "duplicate stratum port: " ++ port
    | other => other.message
  return instances

end Cli

def applyCliOverrides (config : BridgeConfig) (cli : Cli) : Except Text BridgeConfig :=
  let global := cli.overrideGlobal config.global
  if cli.instances ≠ [] then
    if cli.singleInstanceFlags then
      .error (Text.ofString <| "when using --instance, do not use the single-instance flags " ++
        "--stratum-port/--prom-port/--instance-*; put per-instance overrides inside the " ++
        "--instance spec")
    else do
      let instances ← cli.specInstances
      return { global, instances }
  else if cli.hasInstanceOverrides ∧ config.instances.length ≠ 1 then
    .error (Text.ofString <| "instance-specific CLI overrides are only supported when exactly " ++
      "one instance is configured")
  else
    match config.instances with
    | [only] => .ok { global, instances := [cli.overrideInstance only] }
    | instances => .ok { global, instances }

/-! ## The port of a spec -/

/-- The port that a part of a spec names, as it is read. -/
def portOfPart (rawPart : Text) : Option Text :=
  let part := Text.trim rawPart
  let entry := specEntry part
  if part ≠ [] ∧ SpecKey.ofName (Text.toLowercase entry.1) = some .port then
    some (normalizePort entry.2)
  else none

/-- The last port of a spec counts. -/
def specPort (spec : Text) : Text := ((spec.splitOn ',').filterMap portOfPart).getLastD []

/-- Only the port key sets the port, and it never sets an empty one. -/
theorem SpecState.set_port {spec value : Text} {state next : SpecState} {key : SpecKey}
    (step : state.set spec value key = .ok next) :
    if key = .port then
      next.config.stratumPort = normalizePort value ∧ normalizePort value ≠ []
    else next.config.stratumPort = state.config.stratumPort ∧ next.hasPort = state.hasPort := by
  cases key with
  | port =>
      rw [if_pos rfl]
      simp only [SpecState.set] at step
      split at step
      · cases step
      next present =>
        obtain rfl := Except.ok.inj step
        exact ⟨rfl, present⟩
  | prom =>
      obtain rfl := Except.ok.inj step
      exact ⟨rfl, rfl⟩
  | _ =>
      obtain ⟨parsed, -, same⟩ := bind_eq_ok_iff.mp step
      obtain rfl := Except.ok.inj same
      exact ⟨rfl, rfl⟩

/-- A spec that has a port so far has one as it is read. -/
def SpecState.Ported (state : SpecState) : Prop :=
  state.hasPort = true →
    state.config.stratumPort ≠ [] ∧ normalizePort state.config.stratumPort = state.config.stratumPort

theorem SpecState.read_port {spec rawPart : Text} {state next : SpecState}
    (ported : state.Ported) (step : state.read spec rawPart = .ok next) :
    next.config.stratumPort = (portOfPart rawPart).getD state.config.stratumPort ∧
      next.Ported := by
  simp only [SpecState.read] at step
  split at step
  next blank =>
    obtain rfl := Except.ok.inj step
    have unnamed : portOfPart rawPart = none := if_neg fun named => named.1 blank
    rw [unnamed]
    exact ⟨rfl, ported⟩
  next present =>
    split at step
    next key known =>
      have set := SpecState.set_port step
      by_cases isPort : key = .port
      · subst isPort
        rw [if_pos rfl] at set
        have named : portOfPart rawPart = some _ := if_pos ⟨present, known⟩
        rw [named]
        exact ⟨set.1, fun _ => set.1 ▸ ⟨set.2, normalizePort_idem _⟩⟩
      · rw [if_neg isPort] at set
        have unnamed : portOfPart rawPart = none :=
          if_neg fun named => isPort (Option.some.inj (known.symm.trans named.2))
        rw [unnamed]
        exact ⟨set.1, fun has => set.1 ▸ ported (set.2 ▸ has)⟩
    next => cases step

/-- The port after all parts is the last one named. -/
theorem SpecState.foldlM_port {spec : Text} {parts : List Text} {state last : SpecState}
    (ported : state.Ported) (run : parts.foldlM (SpecState.read spec) state = .ok last) :
    last.config.stratumPort = (parts.filterMap portOfPart).getLastD state.config.stratumPort ∧
      last.Ported := by
  induction parts generalizing state with
  | nil =>
      obtain rfl := Except.ok.inj run
      exact ⟨rfl, ported⟩
  | cons part rest ih =>
      rw [List.foldlM_cons] at run
      obtain ⟨next, step, run⟩ := bind_eq_ok_iff.mp run
      obtain ⟨port, nextPorted⟩ := SpecState.read_port ported step
      obtain ⟨final, lastPorted⟩ := ih nextPorted run
      refine ⟨?_, lastPorted⟩
      rw [final, port]
      cases named : portOfPart part with
      | none => rw [List.filterMap_cons_none named, Option.getD_none]
      | some found => rw [List.filterMap_cons_some named, Option.getD_some, List.getLastD_cons]

/-- **Specs.** An accepted spec names a port, and the instance listens on the last one. -/
theorem stratumPort_of_parseInstanceSpec {spec : Text} {diff : Option Float}
    {config : InstanceConfig} (parsed : parseInstanceSpec spec diff = .ok config) :
    config.stratumPort = specPort spec ∧ config.stratumPort ≠ [] ∧
      normalizePort config.stratumPort = config.stratumPort := by
  obtain ⟨state, run, checked⟩ := bind_eq_ok_iff.mp parsed
  have start : SpecState.initial.Ported := fun absurdity => Bool.noConfusion absurdity
  obtain ⟨port, ported⟩ := SpecState.foldlM_port start run
  cases has : state.hasPort with
  | false =>
      rw [has] at checked
      cases checked
  | true =>
      have kept : config.stratumPort = state.config.stratumPort := by
        rw [has] at checked
        simp only [Bool.not_true, Bool.false_eq_true, if_false] at checked
        split at checked
        · obtain rfl := Except.ok.inj checked
          rfl
        · split at checked
          · obtain rfl := Except.ok.inj checked
            rfl
          · cases checked
      exact ⟨kept.trans port, kept ▸ ported has⟩

end StratumBridge
