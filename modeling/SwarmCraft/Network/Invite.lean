import SwarmCraft.Protocol.Source
import Mathlib.Data.Nat.Bitwise

/-!
# Where an invite can point

Invites carry multiaddresses. Each host literal of an address is public, local or refused, and the
answers of a resolver have to be public. The multiaddress library, the texts of addresses and the
resolver are parameters. `Internal` says which hosts are meant to be unreachable through an invite.
-/

namespace SwarmCraft

open Checked

variable {value : String}

/-- Addresses of hosts: four octets, or eight segments. -/
inductive IpAddr where
  | v4 (a b c d : UInt8)
  | v6 (a b c d e f g h : UInt16)
  deriving DecidableEq

variable {ip : IpAddr}

/-- Failures of the validation of connection hints. -/
inductive InviteConnectivityError where
  | tooManyAddresses (actual maximum : Nat)
  | emptyAddress
  | addressTooLong (actual maximum : Nat)
  | invalidAddress (value : String)
  | unusableAddress (value : String)
  | dnsResolutionFailed (host detail : String)
  | dnsResolvedToDisallowedScope (host address : String)
  deriving DecidableEq

/-- The components of a multiaddress that the validation tells apart. -/
inductive AddressPart where
  | ip (address : IpAddr)
  | dns (name : String)
  | dns4 (name : String)
  | dns6 (name : String)
  | tcp (port : Nat)
  | udp (port : Nat)
  | quicV1
  | p2pCircuit
  | p2p
  | other
  deriving DecidableEq

variable {parts : List AddressPart}

/-- What the validation takes from libraries and from the system. -/
structure AddressLibrary where
  /-- `str::parse::<Multiaddr>`. -/
  parse : String → Option (List AddressPart)
  /-- `Multiaddr::to_string`. -/
  render : List AddressPart → String
  /-- `IpAddr::to_string`. -/
  renderIp : IpAddr → String
  /-- `to_socket_addrs` of a host and a port. -/
  resolve : String → Nat → Except String (List IpAddr)

/-- Whether a host is on the internet or in a local network. -/
inductive IpScope where
  | «public»
  | «local»
  deriving DecidableEq

/-- How an accepted address reaches its host. -/
inductive AddressKind where
  | publicDirect
  | localDirect
  | relay
  deriving DecidableEq

variable (L : AddressLibrary)

/-- `ipv4_scope` and `ipv6_scope`. -/
def ipScope : IpAddr → Except InviteConnectivityError IpScope
  | .v4 a b c d => do
    ensure (¬(a = 127 ∨ (a = 169 ∧ b = 254) ∨ (a = 0 ∧ b = 0 ∧ c = 0 ∧ d = 0) ∨
        (224 ≤ a ∧ a ≤ 239) ∨ (a = 255 ∧ b = 255 ∧ c = 255 ∧ d = 255) ∨
        (a = 192 ∧ b = 0 ∧ c = 2) ∨ (a = 198 ∧ b = 51 ∧ c = 100) ∨ (a = 203 ∧ b = 0 ∧ c = 113) ∨
        a = 0 ∨ 240 ≤ a ∨ (a = 198 ∧ (b = 18 ∨ b = 19))))
      (.unusableAddress (L.renderIp (.v4 a b c d)))
    return if (a = 10 ∨ (a = 172 ∧ 16 ≤ b ∧ b ≤ 31) ∨ (a = 192 ∧ b = 168)) ∨
        (a = 100 ∧ 64 ≤ b ∧ b ≤ 127) then .local else .public
  | .v6 a b c d e f g h => do
    ensure (¬((a = 0 ∧ b = 0 ∧ c = 0 ∧ d = 0 ∧ e = 0 ∧ f = 0 ∧ g = 0 ∧ (h = 1 ∨ h = 0)) ∨
        a &&& 0xff00 = 0xff00 ∨ a &&& 0xffc0 = 0xfe80 ∨ (a = 0x2001 ∧ b = 0x0db8)))
      (.unusableAddress (L.renderIp (.v6 a b c d e f g h)))
    return if a &&& 0xfe00 = 0xfc00 then .local else .public

/-- What the loop of `validate_address` has seen. -/
structure AddressScan where
  hasHost : Bool := false
  hasTcp : Bool := false
  hasUdp : Bool := false
  hasQuic : Bool := false
  sawCircuit : Bool := false
  peerBeforeCircuit : Bool := false
  peerAfterCircuit : Bool := false
  localScope : Bool := false
  deriving DecidableEq

/-- A name that the loop of `validate_address` refuses. -/
def localName (name : String) : Bool :=
  toAsciiLowercase name == "localhost" ||
    ".local".toList.isSuffixOf (toAsciiLowercase name).toList

/-- One turn of the loop of `validate_address`. -/
def AddressScan.step (value : String) (scan : AddressScan) :
    AddressPart → Except InviteConnectivityError AddressScan
  | .ip address => do
    let scope ← ipScope L address
    return { scan with hasHost := true, localScope := scan.localScope || scope == .local }
  | .dns name | .dns4 name | .dns6 name => do
    ensure (localName name = false) (.unusableAddress value)
    return { scan with hasHost := true }
  | .tcp _ => pure { scan with hasTcp := true }
  | .udp _ => pure { scan with hasUdp := true }
  | .quicV1 => pure { scan with hasQuic := true }
  | .p2pCircuit => pure { scan with sawCircuit := true }
  | .p2p => pure <|
    if scan.sawCircuit then { scan with peerAfterCircuit := true }
    else { scan with peerBeforeCircuit := true }
  | .other => pure scan

/-- `validate_address`: the canonical text of an address and its kind. -/
def validateAddress (value : String) : Except InviteConnectivityError (String × AddressKind) := do
  let value := trim value
  ensure (value ≠ "") .emptyAddress
  ensure (value.length ≤ 512) (.addressTooLong value.length 512)
  let address ← required (L.parse value) (.invalidAddress value)
  let scan ← address.foldlM (AddressScan.step L value) {}
  ensure (scan.hasHost = true ∧ (scan.hasTcp || (scan.hasUdp && scan.hasQuic)) = true)
    (.unusableAddress value)
  ensure (scan.sawCircuit = true → scan.peerBeforeCircuit = true ∧ scan.peerAfterCircuit = true ∧
      scan.localScope = false) (.unusableAddress value)
  return (L.render address, if scan.sawCircuit then .relay
    else if scan.localScope then .localDirect else .publicDirect)

/-- `validate_invite_addresses`. -/
def validateInviteAddresses (addresses : List String) :
    Except InviteConnectivityError (List String) := do
  ensure (addresses.length ≤ 8) (.tooManyAddresses addresses.length 8)
  addresses.foldlM (fun canonical address => do
    let validated ← validateAddress L address
    return if validated.1 ∈ canonical then canonical else canonical ++ [validated.1]) []

/-- Which answers of a resolver are read: those of a name for any family or for one. -/
def AddressPart.target : AddressPart → Option (String × (IpAddr → Bool))
  | .dns name => some (name, fun _ => true)
  | .dns4 name => some (name, fun | .v4 .. => true | .v6 .. => false)
  | .dns6 name => some (name, fun | .v4 .. => false | .v6 .. => true)
  | _ => none

/-- The port of a transport component. -/
def AddressPart.port : AddressPart → Option Nat
  | .tcp port | .udp port => some port
  | _ => none

/-- `validate_resolved_dns_target`. -/
def validateResolvedDnsTarget (host : String) (addresses : List IpAddr) :
    Except InviteConnectivityError Unit := do
  addresses.forM fun address =>
    ensure (optional (ipScope L address) = some .public)
      (.dnsResolvedToDisallowedScope host (L.renderIp address))
  ensure (addresses ≠ [])
    (.dnsResolutionFailed host "resolver returned no addresses for the requested family")

/-- `validate_invite_dial_address`. -/
def validateInviteDialAddress (address : List AddressPart) :
    Except InviteConnectivityError Unit :=
  match address.filterMap (·.target) with
  | [] => pure ()
  | targets => do
    let port ← required (address.findSome? (·.port)) (.unusableAddress (L.render address))
    targets.forM fun (host, family) => do
      let resolved ← (L.resolve host port).mapError (.dnsResolutionFailed host)
      validateResolvedDnsTarget L host (resolved.filter family)

/-! ### Internal hosts -/

/-- A loopback, unspecified, link-local or private host, by the ranges that are set apart for them.
A segment pair that follows `::ffff` is the IPv4 host it embeds. -/
def IpAddr.Internal : IpAddr → Prop
  | .v4 a b c d => a = 127 ∨ (a = 0 ∧ b = 0 ∧ c = 0 ∧ d = 0) ∨ (a = 169 ∧ b = 254) ∨
      a = 10 ∨ (a = 172 ∧ 16 ≤ b ∧ b ≤ 31) ∨ (a = 192 ∧ b = 168)
  | .v6 a b c d e f g h =>
    (a = 0 ∧ b = 0 ∧ c = 0 ∧ d = 0 ∧ e = 0 ∧ f = 0 ∧ g = 0 ∧ (h = 1 ∨ h = 0)) ∨
      (0xfe80 ≤ a ∧ a ≤ 0xfebf) ∨ (0xfc00 ≤ a ∧ a ≤ 0xfdff)

/-- The IPv4 host that an address embeds. -/
def IpAddr.mapped : IpAddr → Option IpAddr
  | .v6 0 0 0 0 0 0xffff g h =>
    some (.v4 (g >>> 8).toUInt8 g.toUInt8 (h >>> 8).toUInt8 h.toUInt8)
  | _ => none

/-- A host that an invite may not reach, directly or embedded in an IPv6 address. -/
def IpAddr.Forbidden (ip : IpAddr) : Prop := ip.Internal ∨ ∃ host ∈ ip.mapped, host.Internal

/-- The two ranges of segments are the ones that the masks of the code pick out. -/
theorem mask_of_range {a : UInt16} : (0xfe80 ≤ a → a ≤ 0xfebf → a &&& 0xffc0 = 0xfe80) ∧
    (0xfc00 ≤ a → a ≤ 0xfdff → a &&& 0xfe00 = 0xfc00) := by
  have hlink : ∀ k < 64, (0xfe80 + k) &&& 0xffc0 = 0xfe80 := by decide
  have hunique : ∀ k < 512, (0xfc00 + k) &&& 0xfe00 = 0xfc00 := by decide +kernel
  simp only [UInt16.le_iff_toNat_le, ← UInt16.toNat_inj, UInt16.toNat_and]
  constructor
  · intro (hlow : 0xfe80 ≤ a.toNat) (hhigh : a.toNat ≤ 0xfebf)
    have hk := hlink (a.toNat - 0xfe80) (by omega)
    rwa [Nat.add_sub_of_le hlow] at hk
  · intro (hlow : 0xfc00 ≤ a.toNat) (hhigh : a.toNat ≤ 0xfdff)
    have hk := hunique (a.toNat - 0xfc00) (by omega)
    rwa [Nat.add_sub_of_le hlow] at hk

/-- A host whose scope is public is not internal. -/
theorem not_internal_of_public (h : ipScope L ip = .ok .public) : ¬ip.Internal := by
  cases ip with
  | v4 a b c d =>
    simp only [ipScope, bind_eq_ok, ensure_eq_ok, pure_eq_ok] at h
    simp only [IpAddr.Internal]
    grind
  | v6 a b c d e f g h =>
    simp only [ipScope, bind_eq_ok, ensure_eq_ok, pure_eq_ok] at h
    simp only [IpAddr.Internal]
    have hmask := @mask_of_range a
    grind

variable {L}

/-- Every host literal that the loop passes has a scope, and a local one is remembered. -/
theorem scan_public {scan result : AddressScan}
    (h : parts.foldlM (AddressScan.step L value) scan = .ok result)
    (hlocal : result.localScope = false) :
    scan.localScope = false ∧ ∀ ip, .ip ip ∈ parts → ipScope L ip = .ok .public := by
  induction parts generalizing scan with
  | nil =>
    rw [List.foldlM_nil, pure_eq_ok] at h
    simp [h, hlocal]
  | cons part parts ih =>
    rw [List.foldlM_cons, bind_eq_ok] at h
    obtain ⟨next, hnext, hrest⟩ := h
    obtain ⟨hscan, hparts⟩ := ih hrest
    cases part with
    | ip address =>
      simp only [AddressScan.step, bind_eq_ok, pure_eq_ok] at hnext
      obtain ⟨scope, hscope, rfl⟩ := hnext
      cases scope <;> simp_all
    | _ =>
      simp only [AddressScan.step, bind_eq_ok, pure_eq_ok] at hnext
      grind

/-- The host literals of an address that is accepted as public or as a relay are public. -/
theorem validateAddress_public {text : String} {kind : AddressKind}
    (h : validateAddress L value = .ok (text, kind))
    (hkind : kind ≠ .localDirect) (hparts : L.parse (trim value) = some parts)
    (hip : .ip ip ∈ parts) : ipScope L ip = .ok .public := by
  simp only [validateAddress, bind_eq_ok, ensure_eq_ok, required_eq_ok, pure_eq_ok] at h
  obtain ⟨_, -, _, -, _, haddress, scan, hscan, _, -, _, hcircuit, hresult⟩ := h
  rw [hparts, Option.some_inj] at haddress
  subst haddress
  have hlocal : scan.localScope = false := by
    by_contra hlocal
    grind
  exact (scan_public hscan hlocal).2 ip hip

/-- The answers that an accepted address may be dialled at are public. -/
theorem validateInviteDialAddress_public
    (h : validateInviteDialAddress L parts = .ok ()) {part : AddressPart} (hpart : part ∈ parts)
    {host : String} {family : IpAddr → Bool} (htarget : part.target = some (host, family))
    {port : Nat} (hport : parts.findSome? (·.port) = some port) {answers : List IpAddr}
    (hanswers : L.resolve host port = .ok answers) (hip : ip ∈ answers)
    (hfamily : family ip = true) : ipScope L ip = .ok .public := by
  have hmem : (host, family) ∈ parts.filterMap (·.target) :=
    List.mem_filterMap.mpr ⟨part, hpart, htarget⟩
  unfold validateInviteDialAddress at h
  split at h
  · simp_all
  · simp only [bind_eq_ok, required_eq_ok, hport, Option.some_inj, forM_eq_ok, mapError_eq_ok,
      validateResolvedDnsTarget, ensure_eq_ok, optional_eq_some] at h
    obtain ⟨_, rfl, htargets⟩ := h
    obtain ⟨_, hresolved, _, hall, -⟩ := htargets _ hmem
    rw [hanswers, Except.ok.injEq] at hresolved
    subst hresolved
    exact hall ip (List.mem_filter.mpr ⟨hip, hfamily⟩)

/-- The hosts that accepted hints name as public: the literals of the addresses of an accepted
list, and the answers of the resolver for an address that is accepted before it is dialled. -/
inductive AddressLibrary.Reaches (L : AddressLibrary) (addresses : List String)
    (dialed : List AddressPart) : IpAddr → Prop where
  | literal {canonical : List String} {value text : String} {kind : AddressKind}
      {parts : List AddressPart} {ip : IpAddr}
      (accepted : validateInviteAddresses L addresses = .ok canonical) (listed : value ∈ addresses)
      (classified : validateAddress L value = .ok (text, kind)) (remote : kind ≠ .localDirect)
      (parsed : L.parse (trim value) = some parts) (named : .ip ip ∈ parts) :
      Reaches L addresses dialed ip
  | answer {part : AddressPart} {host : String} {family : IpAddr → Bool} {port : Nat}
      {answers : List IpAddr} {ip : IpAddr}
      (accepted : validateInviteDialAddress L dialed = .ok ()) (named : part ∈ dialed)
      (target : part.target = some (host, family)) (dialedAt : dialed.findSome? (·.port) = some port)
      (resolved : L.resolve host port = .ok answers) (answered : ip ∈ answers)
      (wanted : family ip = true) : Reaches L addresses dialed ip

/-- A host that accepted hints reach is not forbidden exactly when its address embeds no internal
IPv4 host. -/
theorem no_forbidden_host_iff_no_mapped {addresses : List String} {dialed : List AddressPart}
    {ip : IpAddr} (h : L.Reaches addresses dialed ip) :
    ¬ip.Forbidden ↔ ∀ host ∈ ip.mapped, ¬host.Internal := by
  have hpublic : ipScope L ip = .ok .public := by
    cases h with
    | literal _ _ classified remote parsed named =>
      exact validateAddress_public classified remote parsed named
    | answer accepted named target dialedAt resolved answered wanted =>
      exact validateInviteDialAddress_public accepted named target dialedAt resolved answered wanted
  simp [IpAddr.Forbidden, not_internal_of_public L hpublic]

/-- A library that knows one address text and one host name, both of `ip`. -/
def AddressLibrary.single (text : String) (ip : IpAddr) : AddressLibrary where
  parse value := if value = text then some [.ip ip, .tcp 25565] else none
  render _ := text
  renderIp _ := "ip"
  resolve host _ := if host = "host" then .ok [ip] else .error "unknown"

/-- A public IPv4 literal is accepted and reaches no internal host. -/
theorem public_literal_not_forbidden :
    let text := "/ip4/8.8.8.8/tcp/25565"
    let ip := IpAddr.v4 8 8 8 8
    (AddressLibrary.single text ip).Reaches [text] [] ip ∧ ¬ip.Forbidden := by
  intro text ip
  have haccepted : validateInviteAddresses (.single text ip) [text] = .ok [text] ∧
      validateAddress (.single text ip) text = .ok (text, .publicDirect) := by
    decide +kernel
  have hparsed : (AddressLibrary.single text ip).parse (trim text) =
      some [.ip ip, .tcp 25565] := by
    decide +kernel
  have hreaches : (AddressLibrary.single text ip).Reaches [text] [] ip :=
    .literal haccepted.1 List.mem_cons_self haccepted.2 (by decide) hparsed List.mem_cons_self
  exact ⟨hreaches, (no_forbidden_host_iff_no_mapped hreaches).mpr nofun⟩

/-- The loopback host is accepted in its IPv6 spelling, as a literal and as an answer. -/
theorem mapped_loopback_accepted :
    let text := "/ip6/::ffff:127.0.0.1/tcp/25565"
    let ip := IpAddr.v6 0 0 0 0 0 0xffff 0x7f00 1
    (AddressLibrary.single text ip).Reaches [text] [] ip ∧
      (AddressLibrary.single text ip).Reaches [] [.dns "host", .tcp 25565] ip ∧ ip.Forbidden := by
  intro text ip
  have haccepted : validateInviteAddresses (.single text ip) [text] = .ok [text] ∧
      validateAddress (.single text ip) text = .ok (text, .publicDirect) ∧
      validateInviteDialAddress (.single text ip) [.dns "host", .tcp 25565] = .ok () := by
    decide +kernel
  obtain ⟨hlist, hkind, hdial⟩ := haccepted
  have hparsed : (AddressLibrary.single text ip).parse (trim text) =
      some [.ip ip, .tcp 25565] := by
    decide +kernel
  refine ⟨?_, ?_, .inr ⟨.v4 127 0 0 1, by decide, .inl rfl⟩⟩
  · exact .literal hlist List.mem_cons_self hkind (by decide) hparsed List.mem_cons_self
  · exact .answer hdial List.mem_cons_self rfl rfl rfl List.mem_cons_self rfl

end SwarmCraft
