import StratumBridge.Web.Config

/-! # Updating the configuration

The dashboard may change the configuration file. The file is read, the fields that the request
names are replaced, and the file is written again; the bridge reads it at its next start.
-/

namespace StratumBridge

/-! ## The update -/

/-- What came of writing a file. After a failure it may hold anything. -/
inductive WriteOutcome where
  | done
  | failed (message : Text) (left : ByteArray)

inductive UpdateError where
  | body (message : Text)
  | serialize (message : Text)
  | write (message : Text)
deriving DecidableEq

def UpdateError.message : UpdateError → Text
  | .body message => message
  | .serialize message => Text.ofString "Failed to serialize config to YAML: " ++ message
  | .write message => message

/-- `fs::read_to_string`, of a file that is there. -/
def readToString (file : ByteArray) : Option Text := (String.fromUTF8? file).map String.toList

/-- The bytes `fs::write` puts in a file. -/
def writeText (text : Text) : ByteArray := (String.ofList text).toUTF8

/-- Replace a field if the request names it with a value of its type. -/
def patchField {α : Type} (named : Option Json) (accept : Json → Option α) (old : α) : α :=
  (named.bind accept).getD old

/-- A suffix is taken off, or given and trimmed. -/
def acceptSuffix : Json → Option (Option Text)
  | .null => some none
  | .string suffix =>
      let trimmed := Text.trim suffix
      some (if trimmed = [] then none else some trimmed)
  | _ => none

/-- An optional port is taken off, or given and normalized. -/
def acceptPromPort : Json → Option (Option Text)
  | .string port =>
      let normalized := normalizePort port
      some (if normalized = [] then none else some normalized)
  | .null => some none
  | _ => none

def GlobalConfig.patch (updates : Json) (config : GlobalConfig) : GlobalConfig :=
  let named := fun key : String => updates.get (Text.ofString key)
  { config with
    kaspadAddress := patchField (named "kaspad_address") Json.asStr config.kaspadAddress
    blockWaitTime := patchField (named "block_wait_time") Json.asU64 config.blockWaitTime
    printStats := patchField (named "print_stats") Json.asBool config.printStats
    logToFile := patchField (named "log_to_file") Json.asBool config.logToFile
    healthCheckPort := patchField (named "health_check_port") Json.asStr config.healthCheckPort
    webDashboardPort := patchField (named "web_dashboard_port")
      (fun value => value.asStr.map normalizePort) config.webDashboardPort
    varDiff := patchField (named "var_diff") Json.asBool config.varDiff
    sharesPerMin := patchField (named "shares_per_min")
      (fun value => value.asU64.map UInt64.toUInt32) config.sharesPerMin
    varDiffStats := patchField (named "var_diff_stats") Json.asBool config.varDiffStats
    extranonceSize := patchField (named "extranonce_size")
      (fun value => value.asU64.map UInt64.toUInt8) config.extranonceSize
    pow2Clamp := patchField (named "pow2_clamp") Json.asBool config.pow2Clamp
    coinbaseTagSuffix := patchField (named "coinbase_tag_suffix") acceptSuffix
      config.coinbaseTagSuffix }

def InstanceConfig.patch (updates : Json) (config : InstanceConfig) : InstanceConfig :=
  let named := fun key : String => updates.get (Text.ofString key)
  { config with
    stratumPort := patchField (named "stratum_port")
      (fun value => value.asStr.map normalizePort) config.stratumPort
    minShareDiff := patchField (named "min_share_diff") Json.asF64 config.minShareDiff
    promPort := patchField (named "prom_port") acceptPromPort config.promPort }

/-- The fields of an instance are those of the first one, which is made if there is none. -/
def patchFirst (updates : Json) : List InstanceConfig → List InstanceConfig
  | [] => [InstanceConfig.patch updates {}]
  | first :: rest => first.patch updates :: rest

def BridgeConfig.patch (updates : Json) (config : BridgeConfig) : BridgeConfig where
  global := config.global.patch updates
  instances := patchFirst updates config.instances

/-- The configuration to change; the default one where the file is empty or not accepted. -/
def configToUpdate (serde : Serde) (file : ByteArray) : BridgeConfig :=
  match (readToString file).getD [] with
  | [] => {}
  | content => (BridgeConfig.fromYaml serde content).toOption.getD {}

/-- `update_config_from_json`: its result, and the file after it. -/
def updateConfigFromJson (serde : Serde) (disk : WriteOutcome) (file : ByteArray) (body : Text) :
    Except UpdateError Unit × ByteArray :=
  match serde.parseJson body with
  | .error message => (.error (.body message), file)
  | .ok updates =>
      match ((configToUpdate serde file).patch updates).toYaml serde with
      | .error message => (.error (.serialize message), file)
      | .ok yaml =>
          match disk with
          | .done => (.ok (), writeText yaml)
          | .failed message left => (.error (.write message), left)

/-! ## What an update is for -/

/-- What a number is as an unsigned integer of so many bits. -/
def denotesUnsigned {α : Type} (bits : Nat) (narrow : UInt64 → α) (value : Json) : Option α :=
  value.asU64.bind fun number => if number.toNat < 2 ^ bits then some (narrow number) else none

/-- The field is the one that is named, or as it was. -/
def Replaces {α : Type} (named : Option Json) (denotes : Json → Option α) (old new : α) : Prop :=
  match named with
  | none => new = old
  | some value => denotes value = some new

/-- The named global fields are replaced, and no others. -/
structure GlobalConfig.Replaced (updates : Json) (old new : GlobalConfig) : Prop where
  kaspadAddress : Replaces (updates.get (Text.ofString "kaspad_address")) Json.asStr
    old.kaspadAddress new.kaspadAddress
  mergedKaspaAddress : new.mergedKaspaAddress = old.mergedKaspaAddress
  mergedKaspaPayAddress : new.mergedKaspaPayAddress = old.mergedKaspaPayAddress
  blockWaitTime : Replaces (updates.get (Text.ofString "block_wait_time")) Json.asU64
    old.blockWaitTime new.blockWaitTime
  printStats : Replaces (updates.get (Text.ofString "print_stats")) Json.asBool
    old.printStats new.printStats
  logToFile : Replaces (updates.get (Text.ofString "log_to_file")) Json.asBool
    old.logToFile new.logToFile
  healthCheckPort : Replaces (updates.get (Text.ofString "health_check_port")) Json.asStr
    old.healthCheckPort new.healthCheckPort
  webDashboardPort : Replaces (updates.get (Text.ofString "web_dashboard_port"))
    (fun value => value.asStr.map normalizePort) old.webDashboardPort new.webDashboardPort
  varDiff : Replaces (updates.get (Text.ofString "var_diff")) Json.asBool old.varDiff new.varDiff
  sharesPerMin : Replaces (updates.get (Text.ofString "shares_per_min"))
    (denotesUnsigned 32 UInt64.toUInt32) old.sharesPerMin new.sharesPerMin
  varDiffStats : Replaces (updates.get (Text.ofString "var_diff_stats")) Json.asBool
    old.varDiffStats new.varDiffStats
  extranonceSize : Replaces (updates.get (Text.ofString "extranonce_size"))
    (denotesUnsigned 8 UInt64.toUInt8) old.extranonceSize new.extranonceSize
  pow2Clamp : Replaces (updates.get (Text.ofString "pow2_clamp")) Json.asBool
    old.pow2Clamp new.pow2Clamp
  coinbaseTagSuffix : Replaces (updates.get (Text.ofString "coinbase_tag_suffix")) acceptSuffix
    old.coinbaseTagSuffix new.coinbaseTagSuffix

/-- The named fields of an instance are replaced, and no others. -/
structure InstanceConfig.Replaced (updates : Json) (old new : InstanceConfig) : Prop where
  stratumPort : Replaces (updates.get (Text.ofString "stratum_port"))
    (fun value => value.asStr.map normalizePort) old.stratumPort new.stratumPort
  minShareDiff : Replaces (updates.get (Text.ofString "min_share_diff")) Json.asF64
    old.minShareDiff new.minShareDiff
  promPort : Replaces (updates.get (Text.ofString "prom_port")) acceptPromPort
    old.promPort new.promPort
  others : new = { old with
    stratumPort := new.stratumPort
    minShareDiff := new.minShareDiff
    promPort := new.promPort }

/-- Exactly the named fields are replaced; those of an instance, in the first one. -/
structure BridgeConfig.Replaced (updates : Json) (old new : BridgeConfig) : Prop where
  global : old.global.Replaced updates new.global
  instances : ∃ first rest changed, old.instances = first :: rest ∧
    new.instances = changed :: rest ∧ first.Replaced updates changed

/-- The configuration a file holds. -/
def FileHolds (serde : Serde) (file : ByteArray) (config : BridgeConfig) : Prop :=
  ∃ content, readToString file = some content ∧ BridgeConfig.fromYaml serde content = .ok config

/-- **Atomic and exact.** A refused update leaves the file as it was; after another one the file
holds the old configuration with exactly the named fields replaced. -/
def UpdateExact (serde : Serde) (file : ByteArray) (body : Text) :
    Except UpdateError Unit × ByteArray → Prop
  | (.error _, after) => after = file
  | (.ok (), after) => ∃ updates old new, serde.parseJson body = .ok updates ∧
      FileHolds serde file old ∧ FileHolds serde after new ∧ old.Replaced updates new

/-! ## When it does that -/

/-- The fields an update may name, and whether a value can be one of theirs. -/
def recognised : List (String × (Json → Bool)) :=
  [("kaspad_address", fun value => value.asStr.isSome),
    ("block_wait_time", fun value => value.asU64.isSome),
    ("print_stats", fun value => value.asBool.isSome),
    ("log_to_file", fun value => value.asBool.isSome),
    ("health_check_port", fun value => value.asStr.isSome),
    ("web_dashboard_port", fun value => value.asStr.isSome),
    ("var_diff", fun value => value.asBool.isSome),
    ("shares_per_min", fun value => value.asU64.any (·.toNat < 2 ^ 32)),
    ("var_diff_stats", fun value => value.asBool.isSome),
    ("extranonce_size", fun value => value.asU64.any (·.toNat < 2 ^ 8)),
    ("pow2_clamp", fun value => value.asBool.isSome),
    ("coinbase_tag_suffix", fun value => value.isNull || value.asStr.isSome),
    ("stratum_port", fun value => value.asStr.isSome),
    ("min_share_diff", fun value => value.asF64.isSome),
    ("prom_port", fun value => value.isNull || value.asStr.isSome)]

/-- Every field that is named has a value of its type and size. -/
def Representable (updates : Json) : Prop :=
  ∀ field ∈ recognised, ∀ value, updates.get (Text.ofString field.1) = some value →
    field.2 value = true

/-- A stratum port that is named is not empty, and no other instance has it. -/
def PortFits (updates : Json) (old : BridgeConfig) : Prop :=
  ∀ port, (updates.get (Text.ofString "stratum_port")).bind Json.asStr = some port →
    normalizePort port ≠ [] ∧ ∀ entry ∈ old.instances.tail, entry.stratumPort ≠ normalizePort port

/-- The durations of the configuration, with the one that is named, survive being written. -/
def TimesSurvive (updates : Json) (old : BridgeConfig) : Prop :=
  Survives (patchField (updates.get (Text.ofString "block_wait_time")) Json.asU64
    old.global.blockWaitTime) ∧
    ∀ entry ∈ old.instances, ∀ ms ∈ entry.blockWaitTime, Survives ms

section Fields

variable {α : Type} {named : Option Json} {denotes accept : Json → Option α} {old new : α}

theorem replaces_patchField (extends' : ∀ value given, denotes value = some given →
    accept value = some given) (fits : ∀ value, named = some value → (denotes value).isSome) :
    Replaces named denotes old (patchField named accept old) := by
  cases named with
  | none => rfl
  | some value =>
      obtain ⟨given, denoted⟩ := Option.isSome_iff_exists.mp (fits value rfl)
      have accepted := extends' value given denoted
      rw [patchField, Option.bind_some, accepted, Option.getD_some]
      exact denoted

theorem Replaces.fits (replaces : Replaces named denotes old new) :
    ∀ value, named = some value → (denotes value).isSome := by
  rintro value rfl
  exact Option.isSome_iff_exists.mpr ⟨new, replaces⟩

/-- What a field is replaced by is determined. -/
theorem Replaces.unique {other : α} (first : Replaces named denotes old new)
    (second : Replaces named denotes old other) : new = other := by
  cases named with
  | none => exact first.trans (Eq.symm second)
  | some value => exact Option.some.inj (Eq.trans (Eq.symm first) second)

end Fields

theorem accept_of_denotesUnsigned {α : Type} {bits : Nat} {narrow : UInt64 → α} {value : Json}
    {given : α} (denoted : denotesUnsigned bits narrow value = some given) :
    value.asU64.map narrow = some given := by
  obtain ⟨number, read, kept⟩ := Option.bind_eq_some_iff.mp denoted
  split at kept
  · rw [read]
    exact kept
  · exact nomatch kept

theorem isSome_denotesUnsigned {α : Type} {bits : Nat} {narrow : UInt64 → α} {value : Json} :
    (denotesUnsigned bits narrow value).isSome = value.asU64.any (·.toNat < 2 ^ bits) := by
  unfold denotesUnsigned
  cases value.asU64 with
  | none => rfl
  | some number =>
      by_cases small : number.toNat < 2 ^ bits
      · simp [small]
      · simp [small]

theorem isSome_acceptSuffix (value : Json) :
    (acceptSuffix value).isSome = (value.isNull || value.asStr.isSome) := by
  cases value <;> rfl

theorem isSome_acceptPromPort (value : Json) :
    (acceptPromPort value).isSome = (value.isNull || value.asStr.isSome) := by
  cases value <;> rfl

section Patch

variable {updates : Json} {old new : BridgeConfig}

/-- If every named value can be given, the update gives it. -/
theorem BridgeConfig.replaced_patch (representable : Representable updates)
    (nonempty : old.instances ≠ []) : old.Replaced updates (old.patch updates) := by
  have same : ∀ {α : Type} {read : Json → Option α} (value given), read value = some given →
      read value = some given := fun _ _ read => read
  simp only [Representable, recognised, List.forall_mem_cons] at representable
  obtain ⟨kaspad, wait, stats, log, health, web, diff, shares, diffStats, extranonce, clamp, suffix,
    stratum, share, prom, -⟩ := representable
  have port : ∀ value, (Option.map normalizePort value).isSome = value.isSome :=
    fun _ => Option.isSome_map
  refine ⟨⟨?_, rfl, rfl, ?_, ?_, ?_, ?_, ?_, ?_, ?_, ?_, ?_, ?_, ?_⟩, ?_⟩
  · exact replaces_patchField same kaspad
  · exact replaces_patchField same wait
  · exact replaces_patchField same stats
  · exact replaces_patchField same log
  · exact replaces_patchField same health
  · exact replaces_patchField same fun value named => (port _).trans (web value named)
  · exact replaces_patchField same diff
  · exact replaces_patchField (fun _ _ => accept_of_denotesUnsigned)
      fun value named => isSome_denotesUnsigned.trans (shares value named)
  · exact replaces_patchField same diffStats
  · exact replaces_patchField (fun _ _ => accept_of_denotesUnsigned)
      fun value named => isSome_denotesUnsigned.trans (extranonce value named)
  · exact replaces_patchField same clamp
  · exact replaces_patchField same
      fun value named => (isSome_acceptSuffix value).trans (suffix value named)
  · obtain ⟨first, rest, instances⟩ := List.exists_cons_of_ne_nil nonempty
    refine ⟨first, rest, first.patch updates, instances, ?_, ?_, ?_, ?_, rfl⟩
    · rw [BridgeConfig.patch, instances, patchFirst]
    · exact replaces_patchField same fun value named => (port _).trans (stratum value named)
    · exact replaces_patchField same share
    · exact replaces_patchField same
        fun value named => (isSome_acceptPromPort value).trans (prom value named)

/-- An exact update was given values only. -/
theorem BridgeConfig.Replaced.representable (replaced : old.Replaced updates new) :
    Representable updates := by
  obtain ⟨global, first, rest, changed, -, -, single⟩ := replaced
  have port : ∀ value, (Option.map normalizePort value).isSome = value.isSome :=
    fun _ => Option.isSome_map
  simp only [Representable, recognised, List.forall_mem_cons]
  refine ⟨global.kaspadAddress.fits, global.blockWaitTime.fits, global.printStats.fits,
    global.logToFile.fits, global.healthCheckPort.fits, ?_, global.varDiff.fits, ?_,
    global.varDiffStats.fits, ?_, global.pow2Clamp.fits, ?_, ?_, single.minShareDiff.fits, ?_,
    fun _ => nofun⟩
  · exact fun value named => (port _).symm.trans (global.webDashboardPort.fits value named)
  · exact fun value named => isSome_denotesUnsigned.symm.trans (global.sharesPerMin.fits value named)
  · exact fun value named =>
      isSome_denotesUnsigned.symm.trans (global.extranonceSize.fits value named)
  · exact fun value named =>
      (isSome_acceptSuffix value).symm.trans (global.coinbaseTagSuffix.fits value named)
  · exact fun value named => (port _).symm.trans (single.stratumPort.fits value named)
  · exact fun value named => (isSome_acceptPromPort value).symm.trans (single.promPort.fits value named)

theorem GlobalConfig.Replaced.unique {old new other : GlobalConfig}
    (one : old.Replaced updates new) (two : old.Replaced updates other) : new = other :=
  GlobalConfig.ext (one.kaspadAddress.unique two.kaspadAddress)
    (one.mergedKaspaAddress.trans two.mergedKaspaAddress.symm)
    (one.mergedKaspaPayAddress.trans two.mergedKaspaPayAddress.symm)
    (one.blockWaitTime.unique two.blockWaitTime) (one.printStats.unique two.printStats)
    (one.logToFile.unique two.logToFile) (one.healthCheckPort.unique two.healthCheckPort)
    (one.webDashboardPort.unique two.webDashboardPort) (one.varDiff.unique two.varDiff)
    (one.sharesPerMin.unique two.sharesPerMin) (one.varDiffStats.unique two.varDiffStats)
    (one.extranonceSize.unique two.extranonceSize) (one.pow2Clamp.unique two.pow2Clamp)
    (one.coinbaseTagSuffix.unique two.coinbaseTagSuffix)

theorem InstanceConfig.Replaced.unique {old new other : InstanceConfig}
    (one : old.Replaced updates new) (two : old.Replaced updates other) : new = other := by
  have port := one.stratumPort.unique two.stratumPort
  have share := one.minShareDiff.unique two.minShareDiff
  have prom := one.promPort.unique two.promPort
  calc new = _ := one.others
    _ = _ := by rw [port, share, prom]
    _ = other := two.others.symm

/-- What an exact update makes of a configuration is determined. -/
theorem BridgeConfig.Replaced.unique {other : BridgeConfig} (one : old.Replaced updates new)
    (two : old.Replaced updates other) : new = other := by
  obtain ⟨global, first, rest, changed, instances, kept, single⟩ := one
  obtain ⟨otherGlobal, second, others, otherChanged, alsoInstances, alsoKept, otherSingle⟩ := two
  obtain ⟨rfl, rfl⟩ := List.cons.inj (instances.symm.trans alsoInstances)
  refine BridgeConfig.ext (global.unique otherGlobal) ?_
  rw [kept, alsoKept, single.unique otherSingle]

/-! ### What is written -/

theorem patchField_of {α : Type} {named : Option Json} {accept : Json → Option α} {field : α}
    (Good : α → Prop) (before : Good field)
    (given : ∀ value made, accept value = some made → Good made) :
    Good (patchField named accept field) := by
  unfold patchField
  cases accepted : named.bind accept with
  | none => exact before
  | some made =>
      obtain ⟨value, -, made⟩ := Option.bind_eq_some_iff.mp accepted
      exact given value _ made

theorem normal_of_asStr {value : Json} {port : Text}
    (given : value.asStr.map normalizePort = some port) : normalizePort port = port := by
  obtain ⟨text, -, rfl⟩ := Option.map_eq_some_iff.mp given
  exact normalizePort_idem text

theorem GlobalConfig.Normal.patch {config : GlobalConfig} (normal : config.Normal)
    (updates : Json) : (config.patch updates).Normal := by
  refine ⟨patchField_of (fun port => normalizePort port = port) normal.webDashboardPort
      fun _ _ => normal_of_asStr,
    patchField_of (fun suffix => deserializeCoinbaseTagSuffix suffix = suffix)
      normal.coinbaseTagSuffix fun value made given => ?_⟩
  cases value with
  | null =>
      cases given
      rfl
  | string suffix =>
      cases given
      exact deserializeCoinbaseTagSuffix_idem (some suffix)
  | bool | number | array | object => exact nomatch given

theorem InstanceConfig.Normal.patch {config : InstanceConfig} (normal : config.Normal)
    (updates : Json) : (config.patch updates).Normal := by
  refine ⟨patchField_of (fun port => normalizePort port = port) normal.stratumPort
      fun _ _ => normal_of_asStr,
    patchField_of (fun port => deserializeOptionalPort port = port) normal.promPort
      fun value made given => ?_⟩
  cases value with
  | null =>
      cases given
      rfl
  | string port =>
      cases given
      exact deserializeOptionalPort_idem (some port)
  | bool | number | array | object => exact nomatch given

theorem BridgeConfig.Normal.patch (normal : old.Normal) (nonempty : old.instances ≠ [])
    (updates : Json) : (old.patch updates).Normal := by
  refine ⟨normal.global.patch updates, ?_⟩
  obtain ⟨first, rest, instances⟩ := List.exists_cons_of_ne_nil nonempty
  have before := normal.instances
  rw [instances, List.forall_mem_cons] at before
  rw [BridgeConfig.patch, instances, patchFirst, List.forall_mem_cons]
  exact ⟨before.1.patch updates, before.2⟩

theorem InstanceConfig.Normal.reread_eq_self_iff {config : InstanceConfig}
    (normal : config.Normal) :
    config.reread = config ↔ ∀ ms ∈ config.blockWaitTime, Survives ms := by
  rw [InstanceConfig.ext_iff]
  simp only [InstanceConfig.reread, normal.stratumPort, normal.promPort, true_and, and_true]
  cases config.blockWaitTime with
  | none => exact iff_of_true rfl fun _ member => absurd member (Option.not_mem_none _)
  | some ms => simp [rereadMs_eq_self_iff]

/-- Reading changes nothing but the durations that do not survive. -/
theorem BridgeConfig.Normal.reread_eq_self_iff (normal : old.Normal) :
    old.reread = old ↔ Survives old.global.blockWaitTime ∧
      ∀ entry ∈ old.instances, ∀ ms ∈ entry.blockWaitTime, Survives ms := by
  have global : old.global.reread = old.global ↔ Survives old.global.blockWaitTime := by
    rw [GlobalConfig.ext_iff]
    simp only [GlobalConfig.reread, normal.global.webDashboardPort,
      normal.global.coinbaseTagSuffix, true_and, and_true]
    exact rereadMs_eq_self_iff
  have each : old.instances.map InstanceConfig.reread = old.instances ↔
      ∀ entry ∈ old.instances, entry.reread = entry := by
    have mapped := @List.map_inj_left _ _ old.instances InstanceConfig.reread id
    rwa [List.map_id] at mapped
  rw [BridgeConfig.ext_iff]
  refine and_congr global (each.trans (forall₂_congr fun entry member => ?_))
  exact (normal.instances entry member).reread_eq_self_iff

theorem waits_patchFirst (updates : Json) (instances : List InstanceConfig)
    (nonempty : instances ≠ []) :
    (patchFirst updates instances).map InstanceConfig.blockWaitTime =
      instances.map InstanceConfig.blockWaitTime := by
  obtain ⟨first, rest, rfl⟩ := List.exists_cons_of_ne_nil nonempty
  rfl

/-- The durations to write are those of the file, and the one that is named. -/
theorem survives_patch_iff (nonempty : old.instances ≠ []) :
    (Survives (old.patch updates).global.blockWaitTime ∧
      ∀ entry ∈ (old.patch updates).instances, ∀ ms ∈ entry.blockWaitTime, Survives ms) ↔
      TimesSurvive updates old := by
  have overWaits : ∀ instances : List InstanceConfig,
      (∀ entry ∈ instances, ∀ ms ∈ entry.blockWaitTime, Survives ms) ↔
        ∀ wait ∈ instances.map InstanceConfig.blockWaitTime, ∀ ms ∈ wait, Survives ms := by
    intro instances
    rw [List.forall_mem_map]
  have same : (old.patch updates).instances.map InstanceConfig.blockWaitTime =
      old.instances.map InstanceConfig.blockWaitTime := waits_patchFirst updates _ nonempty
  rw [overWaits, same, ← overWaits]
  rfl

/-- Only the port that is named can make a valid configuration invalid. -/
theorem valid_patch_iff (valid : old.Valid) :
    (old.patch updates).Valid ↔ PortFits updates old := by
  obtain ⟨first, rest, instances⟩ := List.exists_cons_of_ne_nil valid.nonempty
  have patched : (old.patch updates).instances = first.patch updates :: rest := by
    rw [BridgeConfig.patch, instances, patchFirst]
  have ports := valid.ports
  have distinct := valid.distinct
  rw [instances, List.forall_mem_cons] at ports
  rw [instances, List.map_cons, List.nodup_cons] at distinct
  have port : (first.patch updates).stratumPort =
      (((updates.get (Text.ofString "stratum_port")).bind Json.asStr).map normalizePort).getD
        first.stratumPort := by
    rw [Option.map_bind]
    rfl
  have meets : (old.patch updates).Valid ↔ (first.patch updates).stratumPort ≠ [] ∧
      (first.patch updates).stratumPort ∉ rest.map InstanceConfig.stratumPort := by
    constructor
    · rintro ⟨-, present, different⟩
      rw [patched, List.forall_mem_cons] at present
      rw [patched, List.map_cons, List.nodup_cons] at different
      exact ⟨present.1, different.1⟩
    · rintro ⟨present, different⟩
      refine ⟨?_, ?_, ?_⟩ <;> rw [patched]
      · exact List.cons_ne_nil _ _
      · exact List.forall_mem_cons.mpr ⟨present, ports.2⟩
      · exact List.nodup_cons.mpr ⟨different, distinct.2⟩
  rw [meets, port, PortFits, instances, List.tail_cons]
  cases (updates.get (Text.ofString "stratum_port")).bind Json.asStr with
  | none => exact iff_of_true ⟨ports.1, distinct.1⟩ fun _ => nofun
  | some given =>
      simp only [Option.map_some, Option.getD_some, List.mem_map, not_exists, not_and,
        Option.some.injEq, forall_eq', ne_eq]

end Patch

/-! ## Files -/

/-- A file that was written is read back. -/
theorem readToString_writeText (text : Text) : readToString (writeText text) = some text := by
  have decoded : String.fromUTF8? (String.ofList text).toUTF8 = some (String.ofList text) :=
    dif_pos (String.ofList text).isValidUTF8
  rw [readToString, writeText, decoded, Option.map_some, String.toList_ofList]

/-- Only an empty file holds no text. -/
theorem eq_empty_of_readToString {file : ByteArray} (read : readToString file = some []) :
    file = ByteArray.empty := by
  unfold readToString String.fromUTF8? at read
  split at read
  next valid =>
    have characters := Option.some.inj read
    have string : String.fromUTF8 file valid = "" := by
      rw [← @String.ofList_toList (String.fromUTF8 file valid), characters]
    exact congrArg String.toByteArray string
  next => exact nomatch read

theorem writeText_ne_empty {text : Text} (nonempty : text ≠ []) :
    writeText text ≠ ByteArray.empty := by
  intro empty
  have nothing : readToString ByteArray.empty = some [] := readToString_writeText []
  rw [← empty, readToString_writeText] at nothing
  exact nonempty (Option.some.inj nothing)

section Update

variable {serde : Serde} {file : ByteArray} {body : Text} {updates : Json} {old new : BridgeConfig}

theorem FileHolds.unique (first : FileHolds serde file old) (second : FileHolds serde file new) :
    old = new := by
  obtain ⟨content, read, parsed⟩ := first
  obtain ⟨other, alsoRead, alsoParsed⟩ := second
  obtain rfl := Option.some.inj (read.symm.trans alsoRead)
  exact Except.ok.inj (parsed.symm.trans alsoParsed)

/-- What a file holds is what is updated. -/
theorem configToUpdate_of_fileHolds (nonempty : file ≠ ByteArray.empty)
    (holds : FileHolds serde file old) : configToUpdate serde file = old := by
  obtain ⟨content, read, parsed⟩ := holds
  unfold configToUpdate
  rw [read, Option.getD_some]
  cases content with
  | nil => exact absurd (eq_empty_of_readToString read) nonempty
  | cons char rest =>
      dsimp only
      rw [parsed]
      rfl

theorem FileHolds.normal_valid (holds : FileHolds serde file old) : old.Normal ∧ old.Valid := by
  obtain ⟨content, -, parsed⟩ := holds
  obtain ⟨document, -, accepted⟩ := bind_eq_ok_iff.mp parsed
  exact BridgeConfig.normal_valid_of_ofDocument accepted

/-- What a written file holds. -/
theorem fileHolds_writeText_iff {yaml : Text} (back : serde.parseYaml yaml = .ok old.document) :
    FileHolds serde (writeText yaml) new ↔ new = old.reread ∧ old.reread.Valid := by
  rw [← BridgeConfig.ofDocument_document]
  have parsed : BridgeConfig.fromYaml serde yaml = BridgeConfig.ofDocument old.document := by
    rw [BridgeConfig.fromYaml, back]
    rfl
  constructor
  · rintro ⟨content, read, held⟩
    obtain rfl := Option.some.inj ((readToString_writeText yaml).symm.trans read)
    exact parsed.symm.trans held
  · exact fun held => ⟨yaml, readToString_writeText yaml, parsed.trans held⟩

/-- The update does what it is for: it was refused before the file was touched, or the file holds
a configuration, every named value can be given, the port fits, the durations survive, and the
file is written. -/
def UpdateMeets (serde : Serde) (disk : WriteOutcome) (file : ByteArray) (body : Text) : Prop :=
  (∃ message, serde.parseJson body = .error message) ∨ (∃ message, disk = .failed message file) ∨
    disk = .done ∧ ∃ updates old, serde.parseJson body = .ok updates ∧ FileHolds serde file old ∧
      Representable updates ∧ PortFits updates old ∧ TimesSurvive updates old

/-- What a finished update leaves is exact exactly if nothing it was given is lost. -/
theorem exact_written_iff (nonempty : file ≠ ByteArray.empty)
    (given : serde.parseJson body = .ok updates) {yaml : Text}
    (back : serde.parseYaml yaml =
      .ok ((configToUpdate serde file).patch updates).document) :
    UpdateExact serde file body (.ok (), writeText yaml) ↔
      ∃ old, FileHolds serde file old ∧ Representable updates ∧ PortFits updates old ∧
        TimesSurvive updates old := by
  constructor
  · rintro ⟨found, old, new, parsed, holds, written, replaced⟩
    obtain rfl := Except.ok.inj (given.symm.trans parsed)
    obtain ⟨normal, valid⟩ := holds.normal_valid
    rw [configToUpdate_of_fileHolds nonempty holds] at back
    obtain ⟨rfl, accepted⟩ := (fileHolds_writeText_iff back).mp written
    have representable := replaced.representable
    have same := replaced.unique (BridgeConfig.replaced_patch representable valid.nonempty)
    have kept := (normal.patch valid.nonempty updates).reread_eq_self_iff.mp same
    rw [same] at accepted
    exact ⟨old, holds, representable, (valid_patch_iff valid).mp accepted,
      (survives_patch_iff valid.nonempty).mp kept⟩
  · rintro ⟨old, holds, representable, fits, survive⟩
    obtain ⟨normal, valid⟩ := holds.normal_valid
    rw [configToUpdate_of_fileHolds nonempty holds] at back
    have same := (normal.patch valid.nonempty updates).reread_eq_self_iff.mpr
      ((survives_patch_iff valid.nonempty).mpr survive)
    have accepted := (valid_patch_iff valid).mpr fits
    have written : FileHolds serde (writeText yaml) (old.patch updates) := by
      refine (fileHolds_writeText_iff back).mpr ⟨same.symm, ?_⟩
      rw [same]
      exact accepted
    exact ⟨updates, old, _, given, holds, written,
      BridgeConfig.replaced_patch representable valid.nonempty⟩

/-- **Configuration update.** For every file that is not empty and every body, if the
configuration that is written can be read back, the update is atomic and exact exactly if it
meets the condition. -/
theorem update_exact_iff (disk : WriteOutcome) (nonempty : file ≠ ByteArray.empty)
    (roundTrips : ∀ updates, serde.parseJson body = .ok updates →
      serde.RoundTrips ((configToUpdate serde file).patch updates).document) :
    UpdateExact serde file body (updateConfigFromJson serde disk file body) ↔
      UpdateMeets serde disk file body := by
  unfold updateConfigFromJson UpdateMeets
  cases given : serde.parseJson body with
  | error message => exact iff_of_true rfl (.inl ⟨message, rfl⟩)
  | ok updates =>
      obtain ⟨yaml, emitted, back⟩ := roundTrips updates given
      have serialized : ((configToUpdate serde file).patch updates).toYaml serde = .ok yaml :=
        emitted
      simp only [serialized, reduceCtorEq, exists_false, false_or]
      cases disk with
      | failed message left =>
          simp only [UpdateExact, WriteOutcome.failed.injEq, reduceCtorEq, false_and, or_false]
          exact ⟨fun same => ⟨message, rfl, same⟩, fun ⟨_, _, same⟩ => same⟩
      | done =>
          simp only [reduceCtorEq, exists_false, false_or, true_and, Except.ok.injEq]
          rw [exact_written_iff nonempty given back]
          constructor
          · exact fun ⟨old, meets⟩ => ⟨updates, old, rfl, meets⟩
          · rintro ⟨_, old, rfl, meets⟩
            exact ⟨old, meets⟩

end Update

namespace Sample

/-- The body of a request that turns the statistics off. -/
def quietBody : Text := Text.ofString "\x7b\"print_stats\":false\x7d"

/-- The body of a request for more bytes of extranonce than there are numbers for. -/
def wideBody : Text := Text.ofString "\x7b\"extranonce_size\":256\x7d"

def quietUpdate : Json := .object [(Text.ofString "print_stats", .bool false)]

def wideUpdate : Json := .object [(Text.ofString "extranonce_size", .number (.posInt 256))]

/-- The file of an operator who says one thing only. -/
def shortYaml : Text := Text.ofString "print_stats: true\n"

/-- The default configuration as it is written, with or without statistics. -/
def fullYaml (statistics : String) : Text :=
  Text.ofString "kaspad_address: localhost:16110\nmerged_kaspa_address: ''\n" ++
    Text.ofString "merged_kaspa_pay_address: ''\nblock_wait_time: 1000\nprint_stats: " ++
    Text.ofString statistics ++ Text.ofString "\nlog_to_file: true\nhealth_check_port: ''\n" ++
    Text.ofString "web_dashboard_port: ''\nvar_diff: true\nshares_per_min: 20\n" ++
    Text.ofString "var_diff_stats: false\nextranonce_size: 0\npow2_clamp: false\n" ++
    Text.ofString "coinbase_tag_suffix: null\ninstances:\n- stratum_port: :5555\n" ++
    Text.ofString "  min_share_diff: 8192.0\n  prom_port: null\n  log_to_file: null\n" ++
    Text.ofString "  block_wait_time: null\n  extranonce_size: null\n  var_diff: null\n" ++
    Text.ofString "  shares_per_min: null\n  var_diff_stats: null\n  pow2_clamp: null\n" ++
    Text.ofString "  kaspa_common_protocol: false\n"

/-- What the parsers do with these texts. -/
def serde : Serde where
  parseJson body :=
    if body = quietBody then .ok quietUpdate
    else if body = wideBody then .ok wideUpdate
    else .error (Text.ofString "expected value")
  parseYaml content :=
    if content = shortYaml then .ok { global := { printStats := some true } }
    else if content = fullYaml "true" then .ok (BridgeConfig.document {})
    else if content = fullYaml "false" then
      .ok (BridgeConfig.document { global := { printStats := false } })
    else .error (Text.ofString "did not find expected node")
  emitYaml document :=
    .ok (fullYaml (if document.global.printStats = some true then "true" else "false"))

theorem fileHolds_shortYaml : FileHolds serde (writeText shortYaml) {} :=
  ⟨shortYaml, readToString_writeText _, rfl⟩

theorem shortYaml_nonempty : writeText shortYaml ≠ ByteArray.empty :=
  writeText_ne_empty (by decide +kernel)

theorem representable_of_check {updates : Json} (check : recognised.all (fun field =>
    (updates.get (Text.ofString field.1)).all field.2) = true) : Representable updates := by
  intro field member value named
  have fits := List.all_eq_true.mp check field member
  rwa [named] at fits

theorem update_exact_iff_sample :
    UpdateExact serde (writeText shortYaml) quietBody
      (updateConfigFromJson serde .done (writeText shortYaml) quietBody) := by
  have given : serde.parseJson quietBody = .ok quietUpdate := by simp only [serde, if_true]
  have unnamed : quietUpdate.get (Text.ofString "stratum_port") = none := rfl
  refine (update_exact_iff .done shortYaml_nonempty fun updates parsed => ?_).mpr
    (.inr (.inr ⟨rfl, quietUpdate, {}, given, fileHolds_shortYaml,
      representable_of_check (by decide +kernel), ?_, ?_⟩))
  · obtain rfl := Except.ok.inj (given.symm.trans parsed)
    rw [configToUpdate_of_fileHolds shortYaml_nonempty fileHolds_shortYaml]
    have quiet : (BridgeConfig.patch quietUpdate {}).document.global.printStats ≠ some true := by
      decide +kernel
    have short : fullYaml "false" ≠ shortYaml := by decide +kernel
    have loud : fullYaml "false" ≠ fullYaml "true" := by decide +kernel
    refine ⟨fullYaml "false", ?_, ?_⟩
    · simp only [serde, if_neg quiet]
    · simp only [serde, if_neg short, if_neg loud, if_true]
      rfl
  · rw [PortFits, unnamed]
    exact fun _ => nofun
  · refine ⟨.inl (by decide), fun entry member => ?_⟩
    obtain rfl := List.mem_singleton.mp member
    exact fun _ => nofun

/-- A value that does not fit is cut off, and the request succeeds. -/
theorem update_truncates :
    updateConfigFromJson serde .done (writeText shortYaml) wideBody =
        (.ok (), writeText (fullYaml "true")) ∧
      ¬UpdateExact serde (writeText shortYaml) wideBody
        (updateConfigFromJson serde .done (writeText shortYaml) wideBody) := by
  have different : wideBody ≠ quietBody := by decide +kernel
  have given : serde.parseJson wideBody = .ok wideUpdate := by
    simp only [serde, if_neg different, if_true]
  have written : updateConfigFromJson serde .done (writeText shortYaml) wideBody =
      (.ok (), writeText (fullYaml "true")) := by
    unfold updateConfigFromJson
    rw [given, configToUpdate_of_fileHolds shortYaml_nonempty fileHolds_shortYaml]
    have loud : (BridgeConfig.patch wideUpdate {}).document.global.printStats = some true := by
      decide +kernel
    simp only [BridgeConfig.toYaml, serde, if_pos loud]
  refine ⟨written, ?_⟩
  rw [written]
  rintro ⟨updates, old, new, parsed, -, -, replaced⟩
  obtain rfl := Except.ok.inj (given.symm.trans parsed)
  have named : wideUpdate.get (Text.ofString "extranonce_size") = some (.number (.posInt 256)) := rfl
  have extranonce := replaced.global.extranonceSize
  rw [named] at extranonce
  exact nomatch extranonce

end Sample

end StratumBridge
