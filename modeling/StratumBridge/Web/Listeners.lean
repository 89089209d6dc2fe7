import StratumBridge.Web.CommandLine

/-! # Listeners

Every instance listens on the bind address of its stratum port. That the ports differ is checked
before the bind addresses are made of them, and the command line may change a port after it.
-/

namespace StratumBridge

/-! ## Bind addresses -/

/-- The address that stands for every interface. -/
def anyAddress : Text := Text.ofString "0.0.0.0"

def bindAddrFromPort (portOrAddr : Text) : Text :=
  let normalized := normalizePort portOrAddr
  if normalized = [] then normalized
  else if normalized.head? = some ':' then anyAddress ++ normalized else normalized

theorem head?_anyAddress (port : Text) : (anyAddress ++ port).head? = some '0' := rfl

theorem normalizePort_eq_nil_iff {port : Text} : normalizePort port = [] ↔ Text.trim port = [] := by
  unfold normalizePort
  cases trimmed : Text.trim port with
  | nil => exact iff_of_true rfl rfl
  | cons char rest =>
      apply iff_of_false _ (List.cons_ne_nil _ _)
      simp only
      split
      · contradiction
      · exact List.cons_ne_nil _ _
      · split
        · exact List.cons_ne_nil _ _
        · exact List.cons_ne_nil _ _

theorem bindAddrFromPort_bare {port : Text}
    (normal : normalizePort (':' :: port) = ':' :: port) :
    bindAddrFromPort (':' :: port) = anyAddress ++ ':' :: port := by
  simp only [bindAddrFromPort, normal, if_neg (List.cons_ne_nil _ _), List.head?_cons, if_true]

theorem bindAddrFromPort_full {port : Text} (normal : normalizePort port = port)
    (full : port.head? ≠ some ':') : bindAddrFromPort port = port := by
  simp only [bindAddrFromPort, normal, if_neg full, ite_self]

/-- A port is bare, or it is its own bind address. -/
theorem bindAddrFromPort_cases {port : Text} (normal : normalizePort port = port) :
    (∃ bare, port = ':' :: bare ∧ bindAddrFromPort port = anyAddress ++ ':' :: bare) ∨
      (port.head? ≠ some ':' ∧ bindAddrFromPort port = port) := by
  by_cases colon : port.head? = some ':'
  · obtain ⟨bare, rfl⟩ := List.head?_eq_some_iff.mp colon
    exact .inl ⟨bare, rfl, bindAddrFromPort_bare normal⟩
  · exact .inr ⟨colon, bindAddrFromPort_full normal colon⟩

/-- A bare port and the same port of every interface are both among the ports. -/
def Clash (ports : List Text) : Prop :=
  ∃ bare, ':' :: bare ∈ ports ∧ anyAddress ++ ':' :: bare ∈ ports

/-- Two ports share a bind address only if one is bare and the other spells it out. -/
theorem clash_of_bindAddrFromPort_eq {ports : List Text} {first second : Text}
    (firstMember : first ∈ ports) (secondMember : second ∈ ports)
    (firstNormal : normalizePort first = first) (secondNormal : normalizePort second = second)
    (same : bindAddrFromPort first = bindAddrFromPort second) (different : first ≠ second) :
    Clash ports := by
  rcases bindAddrFromPort_cases firstNormal with ⟨bare, rfl, bound⟩ | ⟨-, bound⟩
  · rcases bindAddrFromPort_cases secondNormal with ⟨other, rfl, otherBound⟩ | ⟨-, otherBound⟩
    · rw [bound, otherBound] at same
      exact absurd (List.append_cancel_left same) different
    · rw [bound, otherBound] at same
      exact ⟨bare, firstMember, same ▸ secondMember⟩
  · rcases bindAddrFromPort_cases secondNormal with ⟨other, rfl, otherBound⟩ | ⟨-, otherBound⟩
    · rw [bound, otherBound] at same
      exact ⟨other, secondMember, same ▸ firstMember⟩
    · rw [bound, otherBound] at same
      exact absurd same different

/-- Different ports have different bind addresses, unless they clash. -/
theorem nodup_bindAddrs_iff {ports : List Text}
    (normal : ∀ port ∈ ports, normalizePort port = port) (distinct : ports.Nodup) :
    (ports.map bindAddrFromPort).Nodup ↔ ¬Clash ports := by
  rw [List.nodup_map_iff_inj_on distinct]
  constructor
  · rintro injective ⟨bare, bareMember, fullMember⟩
    have bound := bindAddrFromPort_bare (normal _ bareMember)
    have starts := head?_anyAddress (':' :: bare)
    have full : bindAddrFromPort (anyAddress ++ ':' :: bare) = anyAddress ++ ':' :: bare := by
      apply bindAddrFromPort_full (normal _ fullMember)
      rw [starts]
      decide
    have same := injective _ bareMember _ fullMember (bound.trans full.symm)
    rw [← same, List.head?_cons] at starts
    exact absurd starts (by decide)
  · intro apart first firstMember second secondMember same
    by_contra different
    exact apart (clash_of_bindAddrFromPort_eq firstMember secondMember (normal _ firstMember)
      (normal _ secondMember) same different)

/-! ## The configuration in force -/

/-- What a file and the command line, if it overrides anything, give. -/
def configured (serde : Serde) (content : Text) (cli : Option Cli) : Except Text BridgeConfig := do
  let config ← (BridgeConfig.fromYaml serde content).mapError ConfigError.message
  match cli with
  | none => return config
  | some cli => applyCliOverrides config cli

/-- Every instance has a port, and no two listen on the same address. -/
structure BridgeConfig.Usable (config : BridgeConfig) : Prop where
  ports : ∀ entry ∈ config.instances, entry.stratumPort ≠ []
  distinct : (config.instances.map fun entry => bindAddrFromPort entry.stratumPort).Nodup

/-- The ports that a file asks for. -/
def Document.ports (document : Document) : List Text :=
  match document.instances with
  | some entries => entries.map fun entry => normalizePort entry.stratumPort
  | none => [(deserializeOptionalPort document.stratumPort).getD (Text.ofString ":5555")]

/-- The ports that the command line asks for, where the file asks for these. -/
def Cli.portsInForce (cli : Cli) (ports : List Text) : List Text :=
  if cli.instances ≠ [] then cli.instances.map specPort
  else match cli.stratumPort with
    | some port => [normalizePort port]
    | none => ports

def portsInForce (document : Document) : Option Cli → List Text
  | none => document.ports
  | some cli => cli.portsInForce document.ports

/-- The command line takes the only instance's port away. -/
def Cli.BlanksPort (cli : Cli) : Prop :=
  cli.instances = [] ∧ ∃ port, cli.stratumPort = some port ∧ Text.trim port = []

/-! ## Ports as they were asked for -/

theorem map_of_mapM_eq_ok {ε α β γ : Type} {read : α → Except ε β} {image : β → γ} {asked : α → γ}
    (agree : ∀ item value, read item = .ok value → image value = asked item)
    {items : List α} {values : List β} (all : items.mapM read = .ok values) :
    values.map image = items.map asked := by
  induction items generalizing values with
  | nil =>
      obtain rfl : [] = values := Except.ok.inj all
      rfl
  | cons item rest ih =>
      rw [List.mapM_cons] at all
      obtain ⟨first, head, all⟩ := bind_eq_ok_iff.mp all
      obtain ⟨others, tail, all⟩ := bind_eq_ok_iff.mp all
      obtain rfl : first :: others = values := Except.ok.inj all
      rw [List.map_cons, List.map_cons, agree item first head, ih tail]

theorem stratumPort_of_deserialize (document : InstanceDocument) (config : InstanceConfig)
    (read : InstanceConfig.deserialize document = .ok config) :
    config.stratumPort = normalizePort document.stratumPort := by
  obtain ⟨wait, -, same⟩ := bind_eq_ok_iff.mp read
  obtain rfl := Except.ok.inj same
  rfl

/-- A file that is read gives the ports it asks for. -/
theorem ports_of_ofDocument {document : Document} {config : BridgeConfig}
    (read : BridgeConfig.ofDocument document = .ok config) :
    config.instances.map InstanceConfig.stratumPort = document.ports := by
  obtain ⟨-, found, -⟩ := BridgeConfig.ofDocument_eq_ok_iff.mp read
  cases several : document.instances with
  | some entries =>
      obtain ⟨all, -, -⟩ := (instancesOf_eq_ok_iff several).mp found
      rw [Document.ports, several]
      exact map_of_mapM_eq_ok stratumPort_of_deserialize all
  | none =>
      rw [instancesOf, several] at found
      rw [Document.ports, several, ← Except.ok.inj found]
      rfl

/-- The ports of a configuration, as they were checked. -/
structure Checked (ports : List Text) : Prop where
  normal : ∀ port ∈ ports, normalizePort port = port
  distinct : ports.Nodup

theorem checked_of_ofDocument {document : Document} {config : BridgeConfig}
    (read : BridgeConfig.ofDocument document = .ok config) :
    Checked (config.instances.map InstanceConfig.stratumPort) ∧
      [] ∉ config.instances.map InstanceConfig.stratumPort := by
  obtain ⟨normal, valid⟩ := BridgeConfig.normal_valid_of_ofDocument read
  refine ⟨⟨?_, valid.distinct⟩, ?_⟩
  · intro port member
    obtain ⟨entry, listed, rfl⟩ := List.mem_map.mp member
    exact (normal.instances entry listed).stratumPort
  · intro member
    obtain ⟨entry, listed, empty⟩ := List.mem_map.mp member
    exact valid.ports entry listed empty

/-- Specs that are accepted give the ports they ask for. -/
theorem ports_of_specInstances {cli : Cli} {instances : List InstanceConfig}
    (parsed : cli.specInstances = .ok instances) :
    instances.map InstanceConfig.stratumPort = cli.instances.map specPort ∧
      Checked (instances.map InstanceConfig.stratumPort) ∧
      [] ∉ instances.map InstanceConfig.stratumPort := by
  obtain ⟨found, all, checked⟩ := bind_eq_ok_iff.mp parsed
  obtain ⟨_, distinct, same⟩ := bind_eq_ok_iff.mp checked
  obtain rfl := Except.ok.inj same
  have fresh := rejectDuplicates_eq_ok_iff.mp (mapError_eq_ok_iff.mp distinct)
  have each : ∀ config ∈ found, config.stratumPort ≠ [] ∧
      normalizePort config.stratumPort = config.stratumPort := by
    intro config member
    obtain ⟨spec, parsed⟩ := mapM_eq_ok_forall all config member
    exact (stratumPort_of_parseInstanceSpec parsed).2
  refine ⟨map_of_mapM_eq_ok (fun _ _ parsed => (stratumPort_of_parseInstanceSpec parsed).1) all,
    ⟨?_, fresh.2⟩, ?_⟩
  · intro port member
    obtain ⟨config, listed, rfl⟩ := List.mem_map.mp member
    exact (each config listed).2
  · intro member
    obtain ⟨config, listed, empty⟩ := List.mem_map.mp member
    exact (each config listed).1 empty

/-! ## Usable listeners -/

/-- The override of the only instance's port is not checked again. -/
theorem ports_of_override {cli : Cli} (plain : cli.instances = []) {config : InstanceConfig}
    (checked : Checked [config.stratumPort]) (nonblank : [] ∉ [config.stratumPort]) :
    [(cli.overrideInstance config).stratumPort] = cli.portsInForce [config.stratumPort] ∧
      Checked [(cli.overrideInstance config).stratumPort] ∧
      ([] ∉ [(cli.overrideInstance config).stratumPort] ↔ ¬cli.BlanksPort) := by
  cases given : cli.stratumPort with
  | none =>
      have kept : (cli.overrideInstance config).stratumPort = config.stratumPort := by
        simp only [Cli.overrideInstance, given, Option.map_none, Option.getD_none]
      have named : cli.portsInForce [config.stratumPort] = [config.stratumPort] := by
        simp only [Cli.portsInForce, plain, ne_eq, not_true_eq_false, if_false, given]
      have unblanked : ¬cli.BlanksPort := by
        rintro ⟨-, port, some, -⟩
        rw [given] at some
        cases some
      rw [kept, named]
      exact ⟨rfl, checked, iff_of_true nonblank unblanked⟩
  | some port =>
      have replaced : (cli.overrideInstance config).stratumPort = normalizePort port := by
        simp only [Cli.overrideInstance, given, Option.map_some, Option.getD_some]
      have named : cli.portsInForce [config.stratumPort] = [normalizePort port] := by
        simp only [Cli.portsInForce, plain, ne_eq, not_true_eq_false, if_false, given]
      rw [replaced, named]
      refine ⟨rfl, ⟨?_, List.nodup_singleton _⟩, ?_⟩
      · intro entry member
        obtain rfl := List.mem_singleton.mp member
        exact normalizePort_idem port
      · rw [List.mem_singleton, eq_comm, normalizePort_eq_nil_iff, not_iff_not]
        constructor
        · exact fun blank => ⟨plain, port, given, blank⟩
        · rintro ⟨-, other, some, blank⟩
          rw [given] at some
          rwa [Option.some.inj some]

/-- What the command line makes of checked ports. -/
theorem ports_of_applyCliOverrides {cli : Cli} {config result : BridgeConfig}
    (checked : Checked (config.instances.map InstanceConfig.stratumPort))
    (nonblank : [] ∉ config.instances.map InstanceConfig.stratumPort)
    (applied : applyCliOverrides config cli = .ok result) :
    result.instances.map InstanceConfig.stratumPort =
        cli.portsInForce (config.instances.map InstanceConfig.stratumPort) ∧
      Checked (result.instances.map InstanceConfig.stratumPort) ∧
      ([] ∉ result.instances.map InstanceConfig.stratumPort ↔ ¬cli.BlanksPort) := by
  simp only [applyCliOverrides] at applied
  split at applied
  next specs =>
    split at applied
    · cases applied
    next =>
      obtain ⟨instances, parsed, same⟩ := bind_eq_ok_iff.mp applied
      obtain rfl := Except.ok.inj same
      obtain ⟨ports, distinct, named⟩ := ports_of_specInstances parsed
      have asked : cli.portsInForce (config.instances.map InstanceConfig.stratumPort) =
          cli.instances.map specPort := if_pos specs
      exact ⟨ports.trans asked.symm, distinct,
        iff_of_true named fun blanks => specs blanks.1⟩
  next plain =>
    have plain : cli.instances = [] := not_not.mp plain
    split at applied
    · cases applied
    next allowed =>
      split at applied
      next only single =>
        obtain rfl := Except.ok.inj applied
        rw [single] at checked nonblank
        rw [single]
        exact ports_of_override plain checked nonblank
      next several =>
        obtain rfl := Except.ok.inj applied
        have unset : cli.stratumPort = none := by
          by_contra given
          apply allowed
          constructor
          · simp only [Cli.hasInstanceOverrides, Cli.singleInstanceFlags,
              Option.isSome_iff_ne_none.mpr given, Bool.true_or]
          · intro single
            obtain ⟨only, listed⟩ := List.length_eq_one_iff.mp single
            exact several only listed
        have kept : cli.portsInForce (config.instances.map InstanceConfig.stratumPort) =
            config.instances.map InstanceConfig.stratumPort := by
          simp only [Cli.portsInForce, plain, ne_eq, not_true_eq_false, if_false, unset]
        rw [kept]
        refine ⟨rfl, checked, iff_of_true nonblank ?_⟩
        rintro ⟨-, port, some, -⟩
        rw [unset] at some
        cases some

/-- A configuration with checked ports is usable unless a port is blank or two clash. -/
theorem usable_iff_of_checked {config : BridgeConfig}
    (checked : Checked (config.instances.map InstanceConfig.stratumPort)) :
    config.Usable ↔ [] ∉ config.instances.map InstanceConfig.stratumPort ∧
      ¬Clash (config.instances.map InstanceConfig.stratumPort) := by
  have bound : config.instances.map (fun entry => bindAddrFromPort entry.stratumPort) =
      (config.instances.map InstanceConfig.stratumPort).map bindAddrFromPort := by
    rw [List.map_map]
    rfl
  rw [← nodup_bindAddrs_iff checked.normal checked.distinct, ← bound]
  constructor
  · rintro ⟨ports, distinct⟩
    refine ⟨fun member => ?_, distinct⟩
    obtain ⟨entry, listed, empty⟩ := List.mem_map.mp member
    exact ports entry listed empty
  · rintro ⟨ports, distinct⟩
    exact ⟨fun entry listed empty => ports (List.mem_map.mpr ⟨entry, listed, empty⟩), distinct⟩

/-- **Usable listeners.** A configuration that is accepted gives every instance a listener of its
own, unless the command line takes the port away or two of its ports clash. -/
theorem listeners_usable_iff {serde : Serde} {content : Text} {document : Document}
    {cli : Option Cli} {result : BridgeConfig} (parsed : serde.parseYaml content = .ok document)
    (accepted : configured serde content cli = .ok result) :
    result.Usable ↔
      (∀ flags, cli = some flags → ¬flags.BlanksPort) ∧ ¬Clash (portsInForce document cli) := by
  obtain ⟨config, read, applied⟩ := bind_eq_ok_iff.mp accepted
  have read : BridgeConfig.ofDocument document = .ok config := by
    have found := mapError_eq_ok_iff.mp read
    rwa [BridgeConfig.fromYaml, parsed] at found
  have ports := ports_of_ofDocument read
  obtain ⟨checked, nonblank⟩ := checked_of_ofDocument read
  cases cli with
  | none =>
      obtain rfl := Except.ok.inj applied
      rw [usable_iff_of_checked checked, ports, portsInForce]
      rw [ports] at nonblank
      exact and_congr_left' (iff_of_true nonblank fun flags some => nomatch some)
  | some flags =>
      obtain ⟨asked, checked, blank⟩ := ports_of_applyCliOverrides checked nonblank applied
      rw [usable_iff_of_checked checked, blank, asked, ports, portsInForce]
      apply and_congr_left'
      constructor
      · intro kept other same
        exact Option.some.inj same ▸ kept
      · exact fun kept => kept flags rfl

namespace Sample

/-- A file with one port, in its short form. -/
def portYaml : Text := Text.ofString "stratum_port: '5555'\n"

/-- A file with two instances on port 5555 of every interface. -/
def clashYaml : Text :=
  Text.ofString "instances:\n- stratum_port: ':5555'\n  min_share_diff: 8192.0\n" ++
    Text.ofString "- stratum_port: 0.0.0.0:5555\n  min_share_diff: 8192.0\n"

def instanceDocument (port : String) : InstanceDocument where
  stratumPort := Text.ofString port
  minShareDiff := 8192
  promPort := none
  logToFile := none
  blockWaitTime := none
  extranonceSize := none
  varDiff := none
  sharesPerMin := none
  varDiffStats := none
  pow2Clamp := none
  kaspaCommonProtocol := none

def portDocument : Document := { stratumPort := some (Text.ofString "5555") }

def clashDocument : Document :=
  { instances := some [instanceDocument ":5555", instanceDocument "0.0.0.0:5555"] }

/-- What the parsers do with these files. -/
def portSerde : Serde where
  parseJson _ := .error (Text.ofString "expected value")
  parseYaml content :=
    if content = portYaml then .ok portDocument
    else if content = clashYaml then .ok clashDocument
    else .error (Text.ofString "did not find expected node")
  emitYaml document := if document.instances.isSome then .ok clashYaml else .ok portYaml

/-- The configuration with these stratum ports and nothing else set. -/
def listening (ports : List String) : BridgeConfig :=
  { instances := ports.map fun port => { stratumPort := Text.ofString port } }

theorem parseYaml_portYaml : portSerde.parseYaml portYaml = .ok portDocument := by
  simp only [portSerde, if_true]

theorem parseYaml_clashYaml : portSerde.parseYaml clashYaml = .ok clashDocument := by
  have different : clashYaml ≠ portYaml := by decide +kernel
  simp only [portSerde, if_neg different, if_true]

/-- The command line may give the port of the file's only instance. -/
theorem configured_portYaml (port : Text) :
    configured portSerde portYaml (some { stratumPort := some port }) =
      .ok { instances := [{ stratumPort := normalizePort port }] } := by
  unfold configured BridgeConfig.fromYaml
  rw [parseYaml_portYaml]
  rfl

theorem configured_clashYaml :
    configured portSerde clashYaml none = .ok (listening [":5555", "0.0.0.0:5555"]) := by
  unfold configured BridgeConfig.fromYaml
  rw [parseYaml_clashYaml]
  rfl

theorem listeners_usable_iff_sample : (listening [":6666"]).Usable := by
  have accepted := configured_portYaml (Text.ofString "6666")
  apply (listeners_usable_iff parseYaml_portYaml accepted).mpr
  constructor
  · rintro flags same ⟨-, port, given, blank⟩
    obtain rfl := Option.some.inj same
    obtain rfl := Option.some.inj given
    exact absurd blank (by decide +kernel)
  · rintro ⟨bare, -, member⟩
    have starts := congrArg List.head? (List.mem_singleton.mp member)
    rw [head?_anyAddress] at starts
    exact absurd starts (by decide +kernel)

/-- Two spellings of one address pass, and so does an empty port on the command line. -/
theorem listeners_clash_or_missing :
    (configured portSerde clashYaml none = .ok (listening [":5555", "0.0.0.0:5555"]) ∧
        ¬(listening [":5555", "0.0.0.0:5555"]).Usable) ∧
      configured portSerde portYaml (some { stratumPort := some [] }) = .ok (listening [""]) ∧
        ¬(listening [""]).Usable := by
  constructor
  · refine ⟨configured_clashYaml, fun usable => absurd usable.distinct ?_⟩
    decide +kernel
  · refine ⟨configured_portYaml [], fun usable => ?_⟩
    exact usable.ports _ (List.mem_singleton.mpr rfl) rfl

end Sample

end StratumBridge
