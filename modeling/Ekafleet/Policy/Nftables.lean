import Ekafleet.Server.DesiredState

/-! Network policies of an agent | source: policy/nftables.rs, agent/handlers.rs

    The agent turns policy updates into commands for `nft`, which keeps the rules. A submitted text
    is taken as a whole or refused as a whole; whether `nft` can be run and takes it is decided
    outside. What the rules let through is read off the chains, rule by rule, the first match
    deciding. -/

namespace Ekafleet.Policy
open Raft (Ipv4Addr)
open Server (displayIp)

/-! ### Rules and packets -/

/-- Transport protocols, as far as the rules tell them apart. -/
inductive Transport where | tcp | udp | other
  deriving DecidableEq, Repr

/-- What the chains look at. -/
structure Packet where
  /-- Connection tracking state `established` or `related`. -/
  established : Bool := false
  /-- The interface the packet arrives on. -/
  iif : String := "eth0"
  /-- Source and destination of an IPv4 packet. -/
  addresses : Option (Ipv4Addr × Ipv4Addr) := none
  transport : Transport
  dport : UInt16
  deriving DecidableEq, Repr

/-- The condition of a rule. -/
inductive Match where
  | established
  | iif (name : String)
  | dport (iifname : Option String) (transport : Transport) (port : UInt16)
  /-- `ip saddr … ip daddr … tcp dport { … }`. -/
  | flow (source dest : Ipv4Addr) (ports : List UInt16)
  deriving DecidableEq, Repr

/-- A rule of a chain: what it matches, and its verdict. -/
structure Rule where
  cond : Match
  accept : Bool := true
  deriving DecidableEq, Repr

/-- The input and output chains of the table; the forward chain has no rules. -/
structure Table where
  input : List Rule
  output : List Rule
  deriving DecidableEq, Repr

/-- Whether a rule applies. -/
def Match.applies (p : Packet) : Match → Bool
  | .established => p.established
  | .iif name => p.iif == name
  | .dport iifname transport port =>
    iifname.all (· == p.iif) && p.transport == transport && p.dport == port
  | .flow source dest ports => p.addresses.any fun (src, dst) =>
    src == source && dst == dest && p.transport == .tcp && ports.contains p.dport

/-- The first rule that applies decides, and the policy of the chain otherwise. -/
def verdict (policy : Bool) (rules : List Rule) (p : Packet) : Bool :=
  ((rules.find? fun r => r.cond.applies p).map (·.accept)).getD policy

/-- Input is dropped by default. -/
def Table.acceptsInput (t : Table) (p : Packet) : Bool := verdict false t.input p

/-- Output is accepted by default. -/
def Table.acceptsOutput (t : Table) (p : Packet) : Bool := verdict true t.output p

/-! ### The nft tool -/

/-- The `ekafleet` table of the host, if there is one. -/
abbrev Nft := Option Table

/-- The commands the agent submits. -/
inductive NftCommand where
  /-- `table inet … { … }`: creates what is missing, and adds the rules. -/
  | declare (t : Table)
  /-- `add rule inet ekafleet input …`. -/
  | addInput (r : Rule)

/-- A set of ports must not be empty. -/
def Rule.wellFormed (r : Rule) : Bool :=
  match r.cond with
  | .flow _ _ [] => false
  | _ => true

/-- One command; `none` if it is refused. -/
def NftCommand.run : NftCommand → Nft → Option Nft
  | .declare t, none => some (some t)
  | .declare t, some old => some (some ⟨old.input ++ t.input, old.output ++ t.output⟩)
  | .addInput r, some t =>
    if r.wellFormed then some (some { t with input := t.input ++ [r] }) else none
  | .addInput _, none => none

/-- A text for `nft -f -`, and the commands it consists of. -/
structure Ruleset where
  text : String
  commands : List NftCommand

/-- Submit a ruleset. Nothing changes unless `nft` runs through and takes every command. -/
def applyRuleset (takes : String → Bool) (rs : Ruleset) (nft : Nft) : Option Nft :=
  if takes rs.text then rs.commands.foldlM (fun state c => c.run state) nft else none

/-! ### The policy enforcer -/

/-- The text of the base rules. -/
def baseText : String :=
  "\ntable inet ekafleet \x7b\n    chain input \x7b\n" ++
  "        type filter hook input priority 0; policy drop;\n" ++
  "        ct state established,related accept\n        iif lo accept\n" ++
  "        # Allow WireGuard\n        udp dport 51820 accept\n" ++
  "        # Allow gossip\n        udp dport 7401 accept\n" ++
  "        # Allow gRPC\n        tcp dport 7400 accept\n" ++
  "        # Allow HTTP API\n        tcp dport 7402 accept\n" ++
  "        # Allow VXLAN namespace overlay (cross-node, arrives via WireGuard)\n" ++
  "        iifname \"wg-fleet\" udp dport 4789 accept\n    \x7d\n\n    chain output \x7b\n" ++
  "        type filter hook output priority 0; policy accept;\n" ++
  "        ct state established,related accept\n    \x7d\n\n    chain forward \x7b\n" ++
  "        type filter hook forward priority 0; policy drop;\n    \x7d\n\x7d\n"

/-- The rules of `baseText`. -/
def baseTable : Table where
  input := [⟨.established, true⟩, ⟨.iif "lo", true⟩, ⟨.dport none .udp 51820, true⟩,
    ⟨.dport none .udp 7401, true⟩, ⟨.dport none .tcp 7400, true⟩, ⟨.dport none .tcp 7402, true⟩,
    ⟨.dport (some "wg-fleet") .udp 4789, true⟩]
  output := [⟨.established, true⟩]

/-- Initialize the nftables table and default-deny chain. The agent never calls it. -/
def initializeTable (takes : String → Bool) (nft : Nft) : Option Nft :=
  applyRuleset takes ⟨baseText, [.declare baseTable]⟩ nft

theorem initializeTable_none {takes : String → Bool} (h : takes baseText = true) :
    initializeTable takes none = some (some baseTable) := by
  rw [initializeTable, applyRuleset, if_pos h]
  rfl

/-- A network policy rule derived from service identity contracts. -/
structure PolicyRule where
  sourceIp : Ipv4Addr
  destIp : Ipv4Addr
  destPorts : List UInt16
  description : String
  deriving DecidableEq, Repr

section Enforcer
variable (alphanumeric : Char → Bool) (takes : String → Bool)

/-- Keep a comment from ending its quotes. -/
def sanitize (description : String) : String :=
  String.ofList ((description.toList.filter fun c =>
    alphanumeric c || c == ' ' || c == '-' || c == '_').take 128)

/-- The ports of a rule, as text. -/
def portList (ports : List UInt16) : String :=
  ", ".intercalate (ports.map fun p => toString p.toNat)

/-- The command for a rule, as text. -/
def policyText (r : PolicyRule) : String :=
  s!"add rule inet ekafleet input ip saddr {displayIp r.sourceIp} ip daddr {displayIp r.destIp} " ++
    s!"tcp dport \x7b {portList r.destPorts} \x7d accept comment \"" ++
    sanitize alphanumeric r.description ++ "\""

/-- What the text of a rule adds to the input chain. -/
def policyCommand (r : PolicyRule) : Rule :=
  ⟨.flow r.sourceIp r.destIp r.destPorts, true⟩

/-- Apply policy rules derived from service identity contracts. -/
def applyPolicies (rules : List PolicyRule) (nft : Nft) : Option Nft :=
  if rules.isEmpty then some nft
  else applyRuleset takes ⟨"\n".intercalate (rules.map (policyText alphanumeric)),
    rules.map fun r => .addInput (policyCommand r)⟩ nft

end Enforcer

/-! ### Policy updates -/

/-- A network policy, as the server sends it. -/
structure NetworkPolicy where
  sourceService : String
  targetService : String
  allowedPorts : List UInt32
  sourceIp : String := ""
  targetIp : String := ""
  deriving DecidableEq, Repr

/-- The address `0.0.0.0`. -/
def unspecified : Ipv4Addr := ⟨0, 0, 0, 0⟩

/-- The rule made of a policy: neither address is read, and ports are cut to sixteen bits. -/
def policyRule (p : NetworkPolicy) : PolicyRule where
  sourceIp := unspecified
  destIp := unspecified
  destPorts := p.allowedPorts.map (·.toUInt16)
  description := s!"{p.sourceService} -> {p.targetService}"

/-- A policy update; an error is only logged. -/
def handlePolicyUpdate (alphanumeric : Char → Bool) (takes : String → Bool)
    (policies : List NetworkPolicy) (nft : Nft) : Nft :=
  (applyPolicies alphanumeric takes (policies.map policyRule) nft).getD nft

end Ekafleet.Policy
