import StratumBridge.Bridge.Text
import StratumBridge.Foundation.Bytes
import StratumBridge.Foundation.SegmentReader

/-! # The header of a forwarded connection

A forwarder puts a PROXY v2 header in front of what the miner sends. The header says how long it
is, so that the bridge can take it off the stream and leave the miner's bytes untouched.
-/

namespace StratumBridge

abbrev ByteText := List (BitVec 8)

/-! ## Headers -/

inductive ProxyCommand where
  | localConnection
  | proxied
deriving DecidableEq

inductive TransportProtocol where
  | unspecified
  | stream
  | datagram
deriving DecidableEq

/-- The addresses of a header, numbers in network order. -/
inductive ProxyAddresses where
  | unspecified
  | ipv4 (source destination : BitVec 32) (sourcePort destinationPort : BitVec 16)
  | ipv6 (source destination : BitVec 128) (sourcePort destinationPort : BitVec 16)
  | unix (source destination : BitVec 864)
deriving DecidableEq

inductive SocketAddr where
  | v4 (ip : BitVec 32) (port : BitVec 16)
  | v6 (ip : BitVec 128) (port : BitVec 16)
deriving DecidableEq

/-- The endpoint that a header names as the client's, if it is one of the internet. -/
def ProxyAddresses.source : ProxyAddresses → Option SocketAddr
  | .ipv4 source _ port _ => some (.v4 source port)
  | .ipv6 source _ port _ => some (.v6 source port)
  | _ => none

/-- A value behind the addresses, with its type. -/
structure Tlv where
  kind : BitVec 8
  value : ByteText
  fits : value.length < 2 ^ 16

namespace ProxyHeader

def signature : ByteText :=
  [0x0D, 0x0A, 0x0D, 0x0A, 0x00, 0x0D, 0x0A, 0x51, 0x55, 0x49, 0x54, 0x0A]

def commandByte : ProxyCommand → BitVec 8
  | .localConnection => 0x20
  | .proxied => 0x21

def familyBits : ProxyAddresses → BitVec 8
  | .unspecified => 0x00
  | .ipv4 .. => 0x10
  | .ipv6 .. => 0x20
  | .unix .. => 0x30

def protocolBits : TransportProtocol → BitVec 8
  | .unspecified => 0x00
  | .stream => 0x01
  | .datagram => 0x02

def addressBytes : ProxyAddresses → ByteText
  | .unspecified => []
  | .ipv4 source destination sourcePort destinationPort =>
      Bytes.ofNatBE 4 source.toNat ++ Bytes.ofNatBE 4 destination.toNat ++
        Bytes.ofNatBE 2 sourcePort.toNat ++ Bytes.ofNatBE 2 destinationPort.toNat
  | .ipv6 source destination sourcePort destinationPort =>
      Bytes.ofNatBE 16 source.toNat ++ Bytes.ofNatBE 16 destination.toNat ++
        Bytes.ofNatBE 2 sourcePort.toNat ++ Bytes.ofNatBE 2 destinationPort.toNat
  | .unix source destination =>
      Bytes.ofNatBE 108 source.toNat ++ Bytes.ofNatBE 108 destination.toNat

def tlvBytes (tlv : Tlv) : ByteText := tlv.kind :: Bytes.ofNatBE 2 tlv.value.length ++ tlv.value

end ProxyHeader

/-- A well-formed header. Behind its addresses it holds TLVs; an unspecified family may be
followed by anything. -/
structure ProxyHeader where
  command : ProxyCommand
  protocol : TransportProtocol
  addresses : ProxyAddresses
  extra : ByteText
  fits : (ProxyHeader.addressBytes addresses ++ extra).length < 2 ^ 16
  tlvs : addresses = .unspecified ∨ ∃ tlvs : List Tlv, extra = tlvs.flatMap ProxyHeader.tlvBytes

namespace ProxyHeader

/-- The address block with the TLVs. -/
def block (header : ProxyHeader) : ByteText := addressBytes header.addresses ++ header.extra

/-- The first sixteen bytes. -/
def fixed (header : ProxyHeader) : ByteText :=
  signature ++ [commandByte header.command,
    familyBits header.addresses ||| protocolBits header.protocol] ++
    Bytes.ofNatBE 2 header.block.length

def bytes (header : ProxyHeader) : ByteText := header.fixed ++ header.block

theorem length_fixed (header : ProxyHeader) : header.fixed.length = 16 := by
  rw [fixed, List.length_append, Bytes.length_ofNatBE]
  rfl

theorem length_bytes (header : ProxyHeader) :
    header.bytes.length = 16 + header.block.length := by
  rw [bytes, List.length_append, length_fixed]

theorem take_fixed (header : ProxyHeader) : header.fixed.take 12 = signature := rfl

/-- The last two of the first sixteen bytes are the length of what follows. -/
theorem toNatBE_drop_fixed (header : ProxyHeader) :
    Bytes.toNatBE (header.fixed.drop 14) = header.block.length := by
  have size : header.fixed.drop 14 = Bytes.ofNatBE 2 header.block.length := rfl
  rw [size, Bytes.toNatBE_ofNatBE]
  exact Nat.mod_eq_of_lt header.fits

end ProxyHeader

/-! ## The parser -/

/-- The part of a parsed header that says what it is about. -/
structure ParsedHeader where
  command : ProxyCommand
  protocol : TransportProtocol
  addresses : ProxyAddresses
deriving DecidableEq

/-- The `ppp` library: `v2::Header::try_from`, with the text of its errors, and the text of
addresses. -/
structure Ppp where
  tryFrom : ByteText → Except Text ParsedHeader
  debug : ProxyAddresses → Text

/-- A well-formed header is parsed to what it says. -/
def Ppp.FollowsSpec (ppp : Ppp) : Prop :=
  ∀ header : ProxyHeader,
    ppp.tryFrom header.bytes = .ok ⟨header.command, header.protocol, header.addresses⟩

/-! ## Reading a header -/

inductive ProxyV2Source where
  | client (endpoint : SocketAddr)
  | healthCheck
deriving DecidableEq

/-- The bytes that arrive before the deadline. -/
abbrev ProxyStream := SegmentReader Text (BitVec 8)

/-- A read that failed, unless the deadline passed first. -/
def proxyReadError (step : String) : Option Text → Text
  | some message => Text.ofString step ++ message
  | none => Text.ofString "timed out reading PROXY protocol header"

/-- What the addresses of a parsed header make of a connection. The command is not looked at. -/
def sourceOfAddresses (ppp : Ppp) : ProxyAddresses → Except Text ProxyV2Source
  | .ipv4 source _ sourcePort _ => .ok (.client (.v4 source sourcePort))
  | .ipv6 source _ sourcePort _ => .ok (.client (.v6 source sourcePort))
  | .unspecified => .ok .healthCheck
  | other => .error (Text.ofString "unsupported PROXY address family: " ++ ppp.debug other)

def sourceOfHeader (ppp : Ppp) (header : ByteText) : Except Text ProxyV2Source :=
  match ppp.tryFrom header with
  | .ok parsed => sourceOfAddresses ppp parsed.addresses
  | .error message => .error (Text.ofString "parse v2 header: " ++ message)

def readProxyV2Source (ppp : Ppp) (stream : ProxyStream) :
    Except Text ProxyV2Source × ProxyStream :=
  match stream.readExact 16 with
  | (.error ending, stream) => (.error (proxyReadError "read v2 fixed header: " ending), stream)
  | (.ok fixed, stream) =>
      if fixed.take 12 ≠ ProxyHeader.signature then
        (.error (Text.ofString "not a PROXY protocol v2 header"), stream)
      else
        let addrLen := Bytes.toNatBE (fixed.drop 14)
        match stream.readExact addrLen with
        | (.error ending, stream) =>
            (.error (proxyReadError "read v2 address block: " ending), stream)
        | (.ok block, stream) => (sourceOfHeader ppp (fixed ++ block), stream)

/-- A well-formed header is taken off the stream, and its addresses decide. -/
theorem readProxyV2Source_of_header {ppp : Ppp} (follows : ppp.FollowsSpec)
    {header : ProxyHeader} {miner : ByteText} {stream : ProxyStream}
    (sent : stream.unread = header.bytes ++ miner) :
    ∃ left, readProxyV2Source ppp stream = (sourceOfAddresses ppp header.addresses, left) ∧
      left.unread = miner := by
  have split : stream.unread = header.fixed ++ (header.block ++ miner) := by
    rw [sent, ProxyHeader.bytes, List.append_assoc]
  obtain ⟨behind, first, unread⟩ := SegmentReader.readExact_append split
  obtain ⟨left, second, unread⟩ := SegmentReader.readExact_append unread
  rw [ProxyHeader.length_fixed] at first
  refine ⟨left, ?_, unread⟩
  have parsed := follows header
  rw [ProxyHeader.bytes] at parsed
  simp only [readProxyV2Source, first, ProxyHeader.take_fixed, ne_eq, not_true_eq_false, if_false,
    ProxyHeader.toNatBE_drop_fixed, second, sourceOfHeader, parsed]

/-! ## Framing -/

/-- What is expected of a stream with a header in front of a miner's bytes. -/
structure FramesSoundly (header : ProxyHeader) (miner : ByteText) (stream : ProxyStream)
    (outcome : Except Text ProxyV2Source × ProxyStream) : Prop where
  health : header.command = .localConnection → outcome.1 = .ok .healthCheck
  client : header.command = .proxied → ∀ endpoint, header.addresses.source = some endpoint →
    outcome.1 = .ok (.client endpoint)
  consumed : outcome.2.unread = stream.unread.drop (16 + header.block.length)
  intact : outcome.2.unread = miner

theorem sourceOfAddresses_client {ppp : Ppp} {addresses : ProxyAddresses} {endpoint : SocketAddr}
    (named : addresses.source = some endpoint) :
    sourceOfAddresses ppp addresses = .ok (.client endpoint) := by
  cases addresses with
  | unspecified => cases named
  | ipv4 source destination sourcePort destinationPort =>
      obtain rfl := Option.some.inj named
      rfl
  | ipv6 source destination sourcePort destinationPort =>
      obtain rfl := Option.some.inj named
      rfl
  | unix source destination => cases named

theorem sourceOfAddresses_healthCheck_iff {ppp : Ppp} {addresses : ProxyAddresses} :
    sourceOfAddresses ppp addresses = .ok .healthCheck ↔ addresses = .unspecified := by
  cases addresses with
  | unspecified => exact iff_of_true rfl rfl
  | _ =>
      apply iff_of_false
      · intro same
        cases same
      · intro same
        cases same

/-- **Framing.** However the stream is cut, a header is taken off it exactly, and is understood
unless it is local and carries addresses. -/
theorem proxy_framing_iff {ppp : Ppp} (follows : ppp.FollowsSpec) {header : ProxyHeader}
    {miner : ByteText} {stream : ProxyStream} (sent : stream.unread = header.bytes ++ miner) :
    FramesSoundly header miner stream (readProxyV2Source ppp stream) ↔
      (header.command = .localConnection → header.addresses = .unspecified) := by
  obtain ⟨left, outcome, unread⟩ := readProxyV2Source_of_header follows sent
  rw [outcome]
  constructor
  · intro sound command
    exact sourceOfAddresses_healthCheck_iff.mp (sound.health command)
  · intro plain
    exact {
      health := fun command => sourceOfAddresses_healthCheck_iff.mpr (plain command)
      client := fun _ _ named => sourceOfAddresses_client named
      consumed := by
        rw [unread, sent, ← ProxyHeader.length_bytes, List.drop_left]
      intact := unread }

namespace Sample

/-! A parser of the format, with none of the library's own errors. -/

def readWord (count : Nat) (bytes : ByteText) : BitVec (8 * count) × ByteText :=
  (BitVec.ofNat _ (Bytes.toNatBE (bytes.take count)), bytes.drop count)

theorem readWord_append {count : Nat} (word : BitVec (8 * count)) (rest : ByteText) :
    readWord count (Bytes.ofNatBE count word.toNat ++ rest) = (word, rest) := by
  have size := Bytes.length_ofNatBE count word.toNat
  have small : word.toNat < 256 ^ count := by
    have bound := word.isLt
    rwa [Nat.pow_mul] at bound
  rw [readWord, List.take_left' size, List.drop_left' size, Bytes.toNatBE_ofNatBE,
    Nat.mod_eq_of_lt small, BitVec.ofNat_toNat, BitVec.setWidth_eq]

def parseCommand (byte : BitVec 8) : Option ProxyCommand :=
  if byte = 0x20 then some .localConnection
  else if byte = 0x21 then some .proxied
  else none

def parseProtocol (bits : BitVec 8) : Option TransportProtocol :=
  if bits = 0x00 then some .unspecified
  else if bits = 0x01 then some .stream
  else if bits = 0x02 then some .datagram
  else none

/-- Two addresses and two ports. -/
def readEndpoints (count : Nat) (bytes : ByteText) :
    BitVec (8 * count) × BitVec (8 * count) × BitVec 16 × BitVec 16 :=
  let source := readWord count bytes
  let destination := readWord count source.2
  let sourcePort := readWord 2 destination.2
  (source.1, destination.1, sourcePort.1, (readWord 2 sourcePort.2).1)

theorem readEndpoints_append {count : Nat} (source destination : BitVec (8 * count))
    (sourcePort destinationPort : BitVec (8 * 2)) (rest : ByteText) :
    readEndpoints count (Bytes.ofNatBE count source.toNat ++
        Bytes.ofNatBE count destination.toNat ++ Bytes.ofNatBE 2 sourcePort.toNat ++
        Bytes.ofNatBE 2 destinationPort.toNat ++ rest) =
      (source, destination, sourcePort, destinationPort) := by
  simp only [readEndpoints, List.append_assoc, readWord_append]

def parseAddresses (family : BitVec 8) (block : ByteText) : Option ProxyAddresses :=
  if family = 0x00 then some .unspecified
  else if family = 0x10 ∧ 12 ≤ block.length then
    let (source, destination, sourcePort, destinationPort) := readEndpoints 4 block
    some (.ipv4 source destination sourcePort destinationPort)
  else if family = 0x20 ∧ 36 ≤ block.length then
    let (source, destination, sourcePort, destinationPort) := readEndpoints 16 block
    some (.ipv6 source destination sourcePort destinationPort)
  else if family = 0x30 ∧ 216 ≤ block.length then
    let source := readWord 108 block
    some (.unix source.1 (readWord 108 source.2).1)
  else none

def parseHeader (bytes : ByteText) : Except Text ParsedHeader :=
  match bytes.drop 12 with
  | versionCommand :: familyProtocol :: _ :: _ :: block =>
      match parseCommand versionCommand, parseProtocol (familyProtocol &&& 0x0F),
          parseAddresses (familyProtocol &&& 0xF0) block with
      | some command, some protocol, some addresses => .ok ⟨command, protocol, addresses⟩
      | _, _, _ => .error (Text.ofString "Invalid")
  | _ => .error (Text.ofString "Incomplete")

theorem parseAddresses_addressBytes (addresses : ProxyAddresses) (extra : ByteText) :
    parseAddresses (ProxyHeader.familyBits addresses)
      (ProxyHeader.addressBytes addresses ++ extra) = some addresses := by
  cases addresses with
  | unspecified => rfl
  | ipv4 source destination sourcePort destinationPort =>
      have read := @readEndpoints_append 4 source destination sourcePort destinationPort extra
      simp only [parseAddresses, ProxyHeader.familyBits, ProxyHeader.addressBytes]
      rw [if_neg (by decide), if_pos ⟨trivial, by simp; omega⟩, read]
  | ipv6 source destination sourcePort destinationPort =>
      have read := @readEndpoints_append 16 source destination sourcePort destinationPort extra
      simp only [parseAddresses, ProxyHeader.familyBits, ProxyHeader.addressBytes]
      rw [if_neg (by decide), if_neg (by simp), if_pos ⟨trivial, by simp; omega⟩, read]
  | unix source destination =>
      have first := @readWord_append 108 source (Bytes.ofNatBE 108 destination.toNat ++ extra)
      have second := @readWord_append 108 destination extra
      simp only [parseAddresses, ProxyHeader.familyBits, ProxyHeader.addressBytes]
      rw [if_neg (by decide), if_neg (by simp), if_neg (by simp), if_pos ⟨trivial, by simp; omega⟩,
        List.append_assoc, first, second]

theorem parseCommand_commandByte (command : ProxyCommand) :
    parseCommand (ProxyHeader.commandByte command) = some command := by
  cases command <;> rfl

theorem split_familyProtocol (addresses : ProxyAddresses) (protocol : TransportProtocol) :
    parseProtocol ((ProxyHeader.familyBits addresses ||| ProxyHeader.protocolBits protocol) &&&
        0x0F) = some protocol ∧
      (ProxyHeader.familyBits addresses ||| ProxyHeader.protocolBits protocol) &&& 0xF0 =
        ProxyHeader.familyBits addresses := by
  have family : ProxyHeader.familyBits addresses ∈ [0x00#8, 0x10, 0x20, 0x30] := by
    cases addresses <;> simp [ProxyHeader.familyBits]
  have split : ∀ family ∈ [0x00#8, 0x10, 0x20, 0x30],
      parseProtocol ((family ||| ProxyHeader.protocolBits protocol) &&& 0x0F) = some protocol ∧
        (family ||| ProxyHeader.protocolBits protocol) &&& 0xF0 = family := by
    cases protocol <;> decide
  exact split _ family

/-- A library that parses as the format says. -/
def ppp : Ppp := ⟨parseHeader, fun _ => Text.ofString "Unix"⟩

theorem ppp_followsSpec : ppp.FollowsSpec := by
  intro header
  obtain ⟨protocol, family⟩ := split_familyProtocol header.addresses header.protocol
  have addresses := parseAddresses_addressBytes header.addresses header.extra
  change parseHeader header.bytes = _
  have behind : header.bytes.drop 12 = ProxyHeader.commandByte header.command ::
      (ProxyHeader.familyBits header.addresses ||| ProxyHeader.protocolBits header.protocol) ::
      BitVec.ofNat 8 (header.block.length / 256) :: BitVec.ofNat 8 header.block.length ::
      (ProxyHeader.addressBytes header.addresses ++ header.extra) := rfl
  simp only [parseHeader, behind, parseCommand_commandByte, protocol, family, addresses]

/-- What a load balancer in front of a miner sends, from 203.0.113.5:49321 to 10.0.0.1:7777. -/
def proxiedHeader : ProxyHeader where
  command := .proxied
  protocol := .stream
  addresses := .ipv4 0xCB007105 0x0A000001 49321 7777
  extra := []
  fits := by decide
  tlvs := .inr ⟨[], rfl⟩

/-- What it sends to check on the bridge, with its own endpoints. -/
def checkHeader : ProxyHeader where
  command := .localConnection
  protocol := .stream
  addresses := .ipv4 0x0A000001 0x0A000002 40000 7777
  extra := []
  fits := by decide
  tlvs := .inr ⟨[], rfl⟩

/-- The stream of a connection, all in one segment. -/
def streamOf (header : ProxyHeader) (miner : ByteText) : ProxyStream :=
  ⟨[header.bytes ++ miner], none⟩

theorem unread_streamOf (header : ProxyHeader) (miner : ByteText) :
    (streamOf header miner).unread = header.bytes ++ miner :=
  List.append_nil _

theorem proxy_framing_iff_sample :
    FramesSoundly proxiedHeader [0x7b, 0x7d, 0x0a] (streamOf proxiedHeader [0x7b, 0x7d, 0x0a])
      (readProxyV2Source ppp (streamOf proxiedHeader [0x7b, 0x7d, 0x0a])) := by
  apply (proxy_framing_iff ppp_followsSpec (unread_streamOf _ _)).mpr
  intro command
  cases command

/-- A check that names its endpoints is taken for a client. -/
theorem local_check_taken_for_client :
    (readProxyV2Source ppp (streamOf checkHeader [])).1 =
        .ok (.client (.v4 0x0A000001 40000)) ∧
      ¬FramesSoundly checkHeader [] (streamOf checkHeader [])
        (readProxyV2Source ppp (streamOf checkHeader [])) := by
  have client : (readProxyV2Source ppp (streamOf checkHeader [])).1 =
      .ok (.client (.v4 0x0A000001 40000)) := by
    obtain ⟨left, outcome, -⟩ :=
      readProxyV2Source_of_header ppp_followsSpec (unread_streamOf checkHeader [])
    rw [outcome]
    rfl
  refine ⟨client, fun sound => ?_⟩
  have health := sound.health rfl
  rw [client] at health
  cases health

end Sample

end StratumBridge
