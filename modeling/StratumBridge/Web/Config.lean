import StratumBridge.Bridge.Text

/-! # The configuration file

The bridge reads its configuration from YAML and writes it back with all global fields at the
top. What is read is normalized: a bare port gets its colon, an empty optional port or suffix is
none, a duration may be any number of milliseconds.
-/

namespace StratumBridge

/-! ## Documents -/

/-- A number of JSON or YAML; the negative integers are the ones below zero. -/
inductive Number where
  | posInt (value : UInt64)
  | negInt (value : Int64)
  | float (value : Float)

namespace Number

def asU64 : Number → Option UInt64
  | .posInt value => some value
  | _ => none

def asI64 : Number → Option Int64
  | .posInt value => if value.toNat < 2 ^ 63 then some value.toInt64 else none
  | .negInt value => some value
  | .float _ => none

def asF64 : Number → Float
  | .posInt value => value.toFloat
  | .negInt value => Float.ofInt value.toInt
  | .float value => value

end Number

/-- `serde_json::Value`. -/
inductive Json where
  | null
  | bool (value : Bool)
  | number (value : Number)
  | string (value : Text)
  | array (values : List Json)
  | object (entries : List (Text × Json))

namespace Json

def get : Json → Text → Option Json
  | .object entries, key => entries.lookup key
  | _, _ => none

def asStr : Json → Option Text
  | .string value => some value
  | _ => none

def asBool : Json → Option Bool
  | .bool value => some value
  | _ => none

def asU64 : Json → Option UInt64
  | .number value => value.asU64
  | _ => none

def asF64 : Json → Option Float
  | .number value => some value.asF64
  | _ => none

def isNull : Json → Bool
  | .null => true
  | _ => false

end Json

/-- A YAML value where a duration is expected. -/
inductive DurationValue where
  | number (value : Number)
  | other

/-- The entries of an instance. A null entry is an absent one. -/
structure InstanceDocument where
  stratumPort : Text
  minShareDiff : Float
  promPort : Option Text
  logToFile : Option Bool
  blockWaitTime : Option DurationValue
  extranonceSize : Option UInt8
  varDiff : Option Bool
  sharesPerMin : Option UInt32
  varDiffStats : Option Bool
  pow2Clamp : Option Bool
  kaspaCommonProtocol : Option Bool

/-- The global entries, which stand at the top of the file. -/
structure GlobalDocument where
  kaspadAddress : Option Text := none
  mergedKaspaAddress : Option Text := none
  mergedKaspaPayAddress : Option Text := none
  blockWaitTime : Option DurationValue := none
  printStats : Option Bool := none
  logToFile : Option Bool := none
  healthCheckPort : Option Text := none
  webDashboardPort : Option Text := none
  varDiff : Option Bool := none
  sharesPerMin : Option UInt32 := none
  varDiffStats : Option Bool := none
  extranonceSize : Option UInt8 := none
  pow2Clamp : Option Bool := none
  coinbaseTagSuffix : Option Text := none

/-- The entries of a configuration file that the derived structures know. -/
structure Document where
  global : GlobalDocument := {}
  instances : Option (List InstanceDocument) := none
  stratumPort : Option Text := none
  minShareDiff : Option Float := none
  promPort : Option Text := none

/-- What `serde_json` and `serde_yaml` do with text; an error is its message. -/
structure Serde where
  parseJson : Text → Except Text Json
  parseYaml : Text → Except Text Document
  emitYaml : Document → Except Text Text

/-- The document is written, and read back as it was. -/
def Serde.RoundTrips (serde : Serde) (document : Document) : Prop :=
  ∃ yaml, serde.emitYaml document = .ok yaml ∧ serde.parseYaml yaml = .ok document

/-! ## Values -/

def normalizePort (portOrAddr : Text) : Text :=
  let trimmed := Text.trim portOrAddr
  match trimmed with
  | [] => []
  | ':' :: _ => trimmed
  | _ => if trimmed.all Char.isDigit then ':' :: trimmed else trimmed

def deserializeOptionalPort (port : Option Text) : Option Text :=
  port.bind fun port =>
    let normalized := normalizePort port
    if normalized = [] then none else some normalized

/-- A duration in milliseconds. A negative one wraps, and a float is rounded down. -/
def deserializeDurationMs : DurationValue → Except Text UInt64
  | .number value =>
      match value.asI64 with
      | some ms => .ok ms.toUInt64
      | none => .ok value.asF64.toUInt64
  | .other => .error (Text.ofString "duration must be a number")

def deserializeOptionalDurationMs : Option DurationValue → Except Text (Option UInt64)
  | some value => (deserializeDurationMs value).map some
  | none => .ok none

def serializeDurationMs (duration : UInt64) : DurationValue := .number (.posInt duration)

def deserializeCoinbaseTagSuffix (suffix : Option Text) : Option Text :=
  suffix.bind fun suffix =>
    let trimmed := Text.trim suffix
    if trimmed = [] then none else some trimmed

/-! ## Configurations -/

/-- The settings of one instance; durations are in milliseconds. -/
@[ext] structure InstanceConfig where
  stratumPort : Text := Text.ofString ":5555"
  minShareDiff : Float := 8192
  promPort : Option Text := none
  logToFile : Option Bool := none
  blockWaitTime : Option UInt64 := none
  extranonceSize : Option UInt8 := none
  varDiff : Option Bool := none
  sharesPerMin : Option UInt32 := none
  varDiffStats : Option Bool := none
  pow2Clamp : Option Bool := none
  kaspaCommonProtocol : Bool := false

/-- The settings all instances share. -/
@[ext] structure GlobalConfig where
  kaspadAddress : Text := Text.ofString "localhost:16110"
  mergedKaspaAddress : Text := []
  mergedKaspaPayAddress : Text := []
  blockWaitTime : UInt64 := 1000
  printStats : Bool := true
  logToFile : Bool := true
  healthCheckPort : Text := []
  webDashboardPort : Text := []
  varDiff : Bool := true
  sharesPerMin : UInt32 := 20
  varDiffStats : Bool := false
  extranonceSize : UInt8 := 0
  pow2Clamp : Bool := false
  coinbaseTagSuffix : Option Text := none

@[ext] structure BridgeConfig where
  global : GlobalConfig := {}
  instances : List InstanceConfig := [{}]

/-- The derived `InstanceConfig::deserialize`. -/
def InstanceConfig.deserialize (document : InstanceDocument) : Except Text InstanceConfig := do
  let blockWaitTime ← deserializeOptionalDurationMs document.blockWaitTime
  return {
    stratumPort := normalizePort document.stratumPort
    minShareDiff := document.minShareDiff
    promPort := deserializeOptionalPort document.promPort
    logToFile := document.logToFile
    blockWaitTime
    extranonceSize := document.extranonceSize
    varDiff := document.varDiff
    sharesPerMin := document.sharesPerMin
    varDiffStats := document.varDiffStats
    pow2Clamp := document.pow2Clamp
    kaspaCommonProtocol := document.kaspaCommonProtocol.getD false }

/-- The derived `GlobalConfig::deserialize`: what is absent has its default. -/
def GlobalConfig.deserialize (document : GlobalDocument) : Except Text GlobalConfig := do
  let absent : GlobalConfig := {}
  let blockWaitTime ← deserializeOptionalDurationMs document.blockWaitTime
  return {
    kaspadAddress := document.kaspadAddress.getD absent.kaspadAddress
    mergedKaspaAddress := document.mergedKaspaAddress.getD absent.mergedKaspaAddress
    mergedKaspaPayAddress := document.mergedKaspaPayAddress.getD absent.mergedKaspaPayAddress
    blockWaitTime := blockWaitTime.getD absent.blockWaitTime
    printStats := document.printStats.getD absent.printStats
    logToFile := document.logToFile.getD absent.logToFile
    healthCheckPort := document.healthCheckPort.getD absent.healthCheckPort
    webDashboardPort := (document.webDashboardPort.map normalizePort).getD absent.webDashboardPort
    varDiff := document.varDiff.getD absent.varDiff
    sharesPerMin := document.sharesPerMin.getD absent.sharesPerMin
    varDiffStats := document.varDiffStats.getD absent.varDiffStats
    extranonceSize := document.extranonceSize.getD absent.extranonceSize
    pow2Clamp := document.pow2Clamp.getD absent.pow2Clamp
    coinbaseTagSuffix := deserializeCoinbaseTagSuffix document.coinbaseTagSuffix }

/-! ## Reading and writing -/

inductive ConfigError where
  | malformed (message : Text)
  | noInstances
  | missingStratumPort (index : Nat)
  | duplicateStratumPort (port : Text)
deriving DecidableEq

def ConfigError.message : ConfigError → Text
  | .malformed message => message
  | .noInstances => Text.ofString "instances array cannot be empty"
  | .missingStratumPort index =>
      Text.ofString "Instance " ++ Text.decimal index ++
        Text.ofString " missing required 'stratum_port'"
  | .duplicateStratumPort port => Text.ofString "Duplicate stratum_port: " ++ port

/-- Every instance from this index on has a stratum port. -/
def requirePorts : Nat → List InstanceConfig → Except ConfigError Unit
  | _, [] => .ok ()
  | index, config :: rest =>
      if config.stratumPort = [] then .error (.missingStratumPort index)
      else requirePorts (index + 1) rest

/-- No instance has the stratum port of one seen before. -/
def rejectDuplicates : List Text → List InstanceConfig → Except ConfigError Unit
  | _, [] => .ok ()
  | seen, config :: rest =>
      if config.stratumPort ∈ seen then .error (.duplicateStratumPort config.stratumPort)
      else rejectDuplicates (config.stratumPort :: seen) rest

/-- The instances of a file, or the single one that its top describes. -/
def instancesOf (document : Document) : Except ConfigError (List InstanceConfig) :=
  match document.instances with
  | some entries => do
      let instances ← (entries.mapM InstanceConfig.deserialize).mapError .malformed
      if instances = [] then .error .noInstances
      else do
        requirePorts 0 instances
        return instances
  | none =>
      let absent : InstanceConfig := {}
      return [{
        stratumPort := (deserializeOptionalPort document.stratumPort).getD absent.stratumPort
        minShareDiff := document.minShareDiff.getD absent.minShareDiff
        promPort := deserializeOptionalPort document.promPort }]

/-- `BridgeConfig::from_yaml` once the document is read. -/
def BridgeConfig.ofDocument (document : Document) : Except ConfigError BridgeConfig := do
  let global ← (GlobalConfig.deserialize document.global).mapError .malformed
  let instances ← instancesOf document
  rejectDuplicates [] instances
  return { global, instances }

def BridgeConfig.fromYaml (serde : Serde) (content : Text) : Except ConfigError BridgeConfig := do
  let document ← (serde.parseYaml content).mapError .malformed
  BridgeConfig.ofDocument document

/-- The derived `InstanceConfig::serialize`. -/
def InstanceConfig.serialize (config : InstanceConfig) : InstanceDocument where
  stratumPort := config.stratumPort
  minShareDiff := config.minShareDiff
  promPort := config.promPort
  logToFile := config.logToFile
  blockWaitTime := config.blockWaitTime.map serializeDurationMs
  extranonceSize := config.extranonceSize
  varDiff := config.varDiff
  sharesPerMin := config.sharesPerMin
  varDiffStats := config.varDiffStats
  pow2Clamp := config.pow2Clamp
  kaspaCommonProtocol := some config.kaspaCommonProtocol

/-- The derived `GlobalConfig::serialize`. -/
def GlobalConfig.serialize (config : GlobalConfig) : GlobalDocument where
  kaspadAddress := some config.kaspadAddress
  mergedKaspaAddress := some config.mergedKaspaAddress
  mergedKaspaPayAddress := some config.mergedKaspaPayAddress
  blockWaitTime := some (serializeDurationMs config.blockWaitTime)
  printStats := some config.printStats
  logToFile := some config.logToFile
  healthCheckPort := some config.healthCheckPort
  webDashboardPort := some config.webDashboardPort
  varDiff := some config.varDiff
  sharesPerMin := some config.sharesPerMin
  varDiffStats := some config.varDiffStats
  extranonceSize := some config.extranonceSize
  pow2Clamp := some config.pow2Clamp
  coinbaseTagSuffix := config.coinbaseTagSuffix

/-- `BridgeConfigYaml`: the global fields at the top, then the instances. -/
def BridgeConfig.document (config : BridgeConfig) : Document where
  global := config.global.serialize
  instances := some (config.instances.map InstanceConfig.serialize)

def BridgeConfig.toYaml (serde : Serde) (config : BridgeConfig) : Except Text Text :=
  serde.emitYaml config.document

/-! ## Normal values -/

@[simp] theorem normalizePort_idem (port : Text) :
    normalizePort (normalizePort port) = normalizePort port := by
  have trimmed := Text.trim_idem port
  generalize same : Text.trim port = text at trimmed
  have again : normalizePort text = normalizePort port := by
    unfold normalizePort
    rw [trimmed, same]
  cases text with
  | nil => rw [← again]; rfl
  | cons char rest =>
      by_cases colon : char = ':'
      · subst colon
        have kept : normalizePort port = ':' :: rest := by simp only [normalizePort, same]
        rw [kept] at again ⊢
        exact again
      · have plain : normalizePort port =
            if (char :: rest).all Char.isDigit then ':' :: char :: rest else char :: rest := by
          simp only [normalizePort, same]
          split
          · contradiction
          · exact absurd (by simp_all) colon
          · rfl
        by_cases digits : (char :: rest).all Char.isDigit = true
        · have marked : normalizePort port = ':' :: char :: rest := plain.trans (if_pos digits)
          have behind : Text.trim (':' :: char :: rest) = ':' :: char :: rest :=
            Text.trim_cons (by decide) (List.cons_ne_nil _ _) trimmed
          rw [marked]
          simp only [normalizePort, behind]
        · have kept : normalizePort port = char :: rest := plain.trans (if_neg digits)
          rw [kept] at again ⊢
          exact again

@[simp] theorem deserializeOptionalPort_idem (port : Option Text) :
    deserializeOptionalPort (deserializeOptionalPort port) = deserializeOptionalPort port := by
  cases port with
  | none => rfl
  | some port =>
      by_cases empty : normalizePort port = []
      · simp [deserializeOptionalPort, empty]
      · simp [deserializeOptionalPort, empty]

@[simp] theorem deserializeCoinbaseTagSuffix_idem (suffix : Option Text) :
    deserializeCoinbaseTagSuffix (deserializeCoinbaseTagSuffix suffix) =
      deserializeCoinbaseTagSuffix suffix := by
  cases suffix with
  | none => rfl
  | some suffix =>
      by_cases empty : Text.trim suffix = []
      · simp [deserializeCoinbaseTagSuffix, empty]
      · simp [deserializeCoinbaseTagSuffix, empty]

/-- Reading would not change the ports of the instance. -/
structure InstanceConfig.Normal (config : InstanceConfig) : Prop where
  stratumPort : normalizePort config.stratumPort = config.stratumPort
  promPort : deserializeOptionalPort config.promPort = config.promPort

/-- Reading would not change the port or the suffix. -/
structure GlobalConfig.Normal (config : GlobalConfig) : Prop where
  webDashboardPort : normalizePort config.webDashboardPort = config.webDashboardPort
  coinbaseTagSuffix :
    deserializeCoinbaseTagSuffix config.coinbaseTagSuffix = config.coinbaseTagSuffix

structure BridgeConfig.Normal (config : BridgeConfig) : Prop where
  global : config.global.Normal
  instances : ∀ entry ∈ config.instances, entry.Normal

/-- What is checked of a configuration that is read. -/
structure BridgeConfig.Valid (config : BridgeConfig) : Prop where
  nonempty : config.instances ≠ []
  ports : ∀ entry ∈ config.instances, entry.stratumPort ≠ []
  distinct : (config.instances.map InstanceConfig.stratumPort).Nodup

theorem requirePorts_eq_ok_iff {index : Nat} {instances : List InstanceConfig} :
    requirePorts index instances = .ok () ↔ ∀ entry ∈ instances, entry.stratumPort ≠ [] := by
  induction instances generalizing index with
  | nil => exact iff_of_true rfl fun _ => nofun
  | cons config rest ih =>
      rw [requirePorts, List.forall_mem_cons]
      split
      next missing => exact iff_of_false nofun fun present => present.1 missing
      next present => rw [ih, and_iff_right present]

theorem rejectDuplicates_eq_ok_iff {seen : List Text} {instances : List InstanceConfig} :
    rejectDuplicates seen instances = .ok () ↔
      (∀ entry ∈ instances, entry.stratumPort ∉ seen) ∧
        (instances.map InstanceConfig.stratumPort).Nodup := by
  induction instances generalizing seen with
  | nil => exact iff_of_true rfl ⟨fun _ => nofun, List.nodup_nil⟩
  | cons config rest ih =>
      rw [rejectDuplicates, List.forall_mem_cons, List.map_cons, List.nodup_cons]
      split
      next known => exact iff_of_false nofun fun fresh => fresh.1.1 known
      next fresh =>
          rw [ih]
          simp only [List.mem_cons, not_or, List.mem_map, not_exists, not_and]
          constructor
          · rintro ⟨others, distinct⟩
            exact ⟨⟨fresh, fun entry member => (others entry member).2⟩,
              fun entry member => (others entry member).1, distinct⟩
          · rintro ⟨⟨-, others⟩, different, distinct⟩
            exact ⟨fun entry member => ⟨different entry member, others entry member⟩, distinct⟩

/-! ## Reading back -/

/-- The duration that is read where this one was written. -/
def rereadMs (ms : UInt64) : UInt64 := if ms.toNat < 2 ^ 63 then ms else ms.toFloat.toUInt64

/-- The duration is read back as it was written: it is a signed number, or a float holds it. -/
def Survives (ms : UInt64) : Prop := ms.toNat < 2 ^ 63 ∨ ms.toFloat.toUInt64 = ms

theorem rereadMs_eq_self_iff {ms : UInt64} : rereadMs ms = ms ↔ Survives ms := by
  unfold rereadMs Survives
  split
  next small => exact iff_of_true rfl (.inl small)
  next large => exact (or_iff_right large).symm

theorem deserializeDurationMs_serialize (ms : UInt64) :
    deserializeDurationMs (serializeDurationMs ms) = .ok (rereadMs ms) := by
  by_cases small : ms.toNat < 2 ^ 63
  · simp only [deserializeDurationMs, serializeDurationMs, rereadMs, Number.asI64, if_pos small,
      UInt64.toUInt64_toInt64]
  · simp only [deserializeDurationMs, serializeDurationMs, rereadMs, Number.asI64, if_neg small,
      Number.asF64]

def InstanceConfig.reread (config : InstanceConfig) : InstanceConfig :=
  { config with
    stratumPort := normalizePort config.stratumPort
    promPort := deserializeOptionalPort config.promPort
    blockWaitTime := config.blockWaitTime.map rereadMs }

def GlobalConfig.reread (config : GlobalConfig) : GlobalConfig :=
  { config with
    blockWaitTime := rereadMs config.blockWaitTime
    webDashboardPort := normalizePort config.webDashboardPort
    coinbaseTagSuffix := deserializeCoinbaseTagSuffix config.coinbaseTagSuffix }

/-- The configuration that is read where this one was written. -/
def BridgeConfig.reread (config : BridgeConfig) : BridgeConfig :=
  ⟨config.global.reread, config.instances.map InstanceConfig.reread⟩

theorem InstanceConfig.deserialize_serialize (config : InstanceConfig) :
    InstanceConfig.deserialize config.serialize = .ok config.reread := by
  unfold InstanceConfig.deserialize InstanceConfig.serialize
  cases waits : config.blockWaitTime with
  | none =>
      simp [deserializeOptionalDurationMs, InstanceConfig.reread, waits]
  | some ms =>
      simp [deserializeOptionalDurationMs, deserializeDurationMs_serialize, InstanceConfig.reread,
        waits]
      rfl

theorem GlobalConfig.deserialize_serialize (config : GlobalConfig) :
    GlobalConfig.deserialize config.serialize = .ok config.reread := by
  unfold GlobalConfig.deserialize GlobalConfig.serialize
  simp [deserializeOptionalDurationMs, deserializeDurationMs_serialize, GlobalConfig.reread]
  rfl

theorem mapM_deserialize_serialize (instances : List InstanceConfig) :
    (instances.map InstanceConfig.serialize).mapM InstanceConfig.deserialize =
      .ok (instances.map InstanceConfig.reread) := by
  induction instances with
  | nil => rfl
  | cons config rest ih =>
      rw [List.map_cons, List.mapM_cons, InstanceConfig.deserialize_serialize, ih]
      rfl

section Except

variable {ε δ α β : Type}

theorem bind_eq_ok_iff {first : Except ε α} {rest : α → Except ε β} {result : β} :
    (first >>= rest) = .ok result ↔ ∃ value, first = .ok value ∧ rest value = .ok result := by
  cases first with
  | error message => exact iff_of_false nofun fun ⟨_, absurdity, _⟩ => nomatch absurdity
  | ok value =>
      exact ⟨fun same => ⟨value, rfl, same⟩, fun ⟨_, found, same⟩ => Except.ok.inj found ▸ same⟩

theorem mapError_eq_ok_iff {wrap : ε → δ} {first : Except ε α} {value : α} :
    first.mapError wrap = .ok value ↔ first = .ok value := by
  cases first with
  | error message => exact iff_of_false nofun nofun
  | ok found => exact ⟨fun same => congrArg _ (Except.ok.inj same), fun same => same ▸ rfl⟩

/-- What a list of results is made of. -/
theorem mapM_eq_ok_forall {read : α → Except ε β} {items : List α} {values : List β}
    (all : items.mapM read = .ok values) : ∀ value ∈ values, ∃ item, read item = .ok value := by
  induction items generalizing values with
  | nil =>
      obtain rfl : [] = values := Except.ok.inj all
      exact fun _ => nofun
  | cons item rest ih =>
      rw [List.mapM_cons] at all
      obtain ⟨first, head, all⟩ := bind_eq_ok_iff.mp all
      obtain ⟨others, tail, all⟩ := bind_eq_ok_iff.mp all
      obtain rfl : first :: others = values := Except.ok.inj all
      exact List.forall_mem_cons.mpr ⟨⟨item, head⟩, ih tail⟩

end Except

theorem instancesOf_eq_ok_iff {document : Document} {entries : List InstanceDocument}
    (several : document.instances = some entries) {instances : List InstanceConfig} :
    instancesOf document = .ok instances ↔
      entries.mapM InstanceConfig.deserialize = .ok instances ∧ instances ≠ [] ∧
        ∀ entry ∈ instances, entry.stratumPort ≠ [] := by
  simp only [instancesOf, several, bind_eq_ok_iff, mapError_eq_ok_iff]
  constructor
  · rintro ⟨found, read, checked⟩
    split at checked
    · exact nomatch checked
    next nonempty =>
      obtain ⟨_, ported, same⟩ := bind_eq_ok_iff.mp checked
      obtain rfl := Except.ok.inj same
      exact ⟨read, nonempty, requirePorts_eq_ok_iff.mp ported⟩
  · rintro ⟨read, nonempty, ported⟩
    refine ⟨instances, read, ?_⟩
    rw [if_neg nonempty]
    exact bind_eq_ok_iff.mpr ⟨(), requirePorts_eq_ok_iff.mpr ported, rfl⟩

theorem BridgeConfig.ofDocument_eq_ok_iff {document : Document} {config : BridgeConfig} :
    BridgeConfig.ofDocument document = .ok config ↔
      GlobalConfig.deserialize document.global = .ok config.global ∧
        instancesOf document = .ok config.instances ∧
        (config.instances.map InstanceConfig.stratumPort).Nodup := by
  simp only [BridgeConfig.ofDocument, bind_eq_ok_iff, mapError_eq_ok_iff]
  constructor
  · rintro ⟨global, read, instances, found, _, distinct, same⟩
    obtain rfl := Except.ok.inj same
    exact ⟨read, found, (rejectDuplicates_eq_ok_iff.mp distinct).2⟩
  · rintro ⟨read, found, distinct⟩
    refine ⟨_, read, _, found, (), rejectDuplicates_eq_ok_iff.mpr ⟨?_, distinct⟩, rfl⟩
    exact fun _ _ => List.not_mem_nil

/-- **Reading back.** A configuration that was written is accepted if it is valid, and is read
as it was written up to what reading changes. -/
theorem BridgeConfig.ofDocument_document {config result : BridgeConfig} :
    BridgeConfig.ofDocument config.document = .ok result ↔
      result = config.reread ∧ config.reread.Valid := by
  have several : config.document.instances = some _ := rfl
  rw [ofDocument_eq_ok_iff, instancesOf_eq_ok_iff several, mapM_deserialize_serialize]
  have global : GlobalConfig.deserialize config.document.global = .ok config.global.reread :=
    GlobalConfig.deserialize_serialize _
  rw [global]
  constructor
  · rintro ⟨same, ⟨sameInstances, nonempty, ports⟩, distinct⟩
    obtain rfl : config.reread = result := by
      rw [BridgeConfig.reread, Except.ok.inj same, Except.ok.inj sameInstances]
    exact ⟨rfl, nonempty, ports, distinct⟩
  · rintro ⟨rfl, nonempty, ports, distinct⟩
    exact ⟨rfl, ⟨rfl, nonempty, ports⟩, distinct⟩

theorem InstanceConfig.normal_of_deserialize {document : InstanceDocument}
    {config : InstanceConfig} (read : InstanceConfig.deserialize document = .ok config) :
    config.Normal := by
  obtain ⟨wait, -, same⟩ := bind_eq_ok_iff.mp read
  obtain rfl := Except.ok.inj same
  exact ⟨normalizePort_idem _, deserializeOptionalPort_idem _⟩

theorem GlobalConfig.normal_of_deserialize {document : GlobalDocument} {config : GlobalConfig}
    (read : GlobalConfig.deserialize document = .ok config) : config.Normal := by
  obtain ⟨wait, -, same⟩ := bind_eq_ok_iff.mp read
  obtain rfl := Except.ok.inj same
  refine ⟨?_, deserializeCoinbaseTagSuffix_idem _⟩
  cases document.webDashboardPort with
  | none => rfl
  | some port => exact normalizePort_idem port

theorem normalizePort_of_deserializeOptionalPort {port : Option Text} {normalized : Text}
    (read : deserializeOptionalPort port = some normalized) :
    normalizePort normalized = normalized ∧ normalized ≠ [] := by
  obtain ⟨found, -, kept⟩ := Option.bind_eq_some_iff.mp read
  by_cases empty : normalizePort found = []
  · exact nomatch (if_pos empty).symm.trans kept
  · obtain rfl := Option.some.inj ((if_neg empty).symm.trans kept)
    exact ⟨normalizePort_idem _, empty⟩

/-- The instance that the top of a file describes. -/
theorem normal_of_single {port promPort : Option Text} {config : InstanceConfig}
    (stratum : config.stratumPort =
      (deserializeOptionalPort port).getD (Text.ofString ":5555"))
    (prom : config.promPort = deserializeOptionalPort promPort) :
    config.Normal ∧ config.stratumPort ≠ [] := by
  have promNormal : deserializeOptionalPort config.promPort = config.promPort :=
    prom ▸ deserializeOptionalPort_idem promPort
  cases read : deserializeOptionalPort port with
  | none =>
      rw [read, Option.getD_none] at stratum
      exact ⟨⟨stratum ▸ by decide, promNormal⟩, stratum ▸ by decide⟩
  | some normalized =>
      rw [read, Option.getD_some] at stratum
      obtain ⟨normal, nonempty⟩ := normalizePort_of_deserializeOptionalPort read
      exact ⟨⟨stratum ▸ normal, promNormal⟩, stratum ▸ nonempty⟩

/-- **What is read.** A configuration that is read is valid, and its values are normal. -/
theorem BridgeConfig.normal_valid_of_ofDocument {document : Document} {config : BridgeConfig}
    (read : BridgeConfig.ofDocument document = .ok config) : config.Normal ∧ config.Valid := by
  obtain ⟨global, found, distinct⟩ := ofDocument_eq_ok_iff.mp read
  have normal := GlobalConfig.normal_of_deserialize global
  cases several : document.instances with
  | some entries =>
      obtain ⟨all, nonempty, ports⟩ := (instancesOf_eq_ok_iff several).mp found
      refine ⟨⟨normal, fun entry member => ?_⟩, nonempty, ports, distinct⟩
      obtain ⟨item, made⟩ := mapM_eq_ok_forall all entry member
      exact InstanceConfig.normal_of_deserialize made
  | none =>
      rw [instancesOf, several] at found
      have only := Except.ok.inj found
      have single : ∀ entry ∈ config.instances, entry.Normal ∧ entry.stratumPort ≠ [] := by
        intro entry member
        rw [← only] at member
        obtain rfl := List.mem_singleton.mp member
        exact normal_of_single rfl rfl
      refine ⟨⟨normal, fun entry member => (single entry member).1⟩, ?_,
        fun entry member => (single entry member).2, distinct⟩
      rw [← only]
      exact List.cons_ne_nil _ _

end StratumBridge
