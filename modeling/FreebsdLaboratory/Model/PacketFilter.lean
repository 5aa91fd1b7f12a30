import FreebsdLaboratory.Model.Network

/-!
# The packet filter of the laboratory bridge

The anchor `pf.anchors/freebsd-lab`, rule by rule, and how PF takes packets through it.  A packet
that belongs to a state passes.  For the others the rules are tried in order; the last one that
matches decides, and one with `quick` decides at once.  A packet that no rule matches is not blocked
here.
-/

namespace FreebsdLaboratory

namespace Pf

/-! ## Packets -/

/-- `in` and `out`, as the host sees the interface. -/
inductive Direction where
  | incoming
  | outgoing
  deriving DecidableEq

/-- The source and the destination of a packet. -/
inductive Addresses where
  | inet (source destination : IPv4Address)
  | inet6 (source destination : BitVec 128)
  deriving DecidableEq

/-- A packet as the rules see it.  It has no port where it carries no header of its protocol, as in
a later fragment; the flags are those of TCP. -/
structure Packet where
  interface : String
  direction : Direction
  addresses : Addresses
  protocol : Fin 256
  sourcePort : Option (Fin 65536)
  destinationPort : Option (Fin 65536)
  syn : Bool
  ack : Bool
  deriving DecidableEq

/-- `proto tcp` -/
def tcp : Fin 256 := 6

/-! ## Rules -/

inductive Action where
  | pass
  | block
  deriving DecidableEq

inductive Family where
  | inet
  | inet6
  deriving DecidableEq

/-- `any`, an address, a network. -/
inductive Host where
  | any
  | address (a : IPv4Address)
  | network (n : IPv4Network)

/-- A filter rule.  `log` has no part in the decision. -/
structure Rule where
  action : Action
  direction : Direction
  log : Bool := false
  quick : Bool := false
  interface : String
  family : Family
  proto : Option (Fin 256) := none
  source : Host := .any
  destination : Host := .any
  port : Option (Fin 65536) := none
  keepState : Bool := false

/-- An IPv4 address is one of these. -/
def Host.covers : Host → IPv4Address → Bool
  | .any, _ => true
  | .address a, b => a = b
  | .network n, b => n.contains b

/-- `any` is the only host here that stands for IPv6 addresses too. -/
def Host.isAny : Host → Bool
  | .any => true
  | .address _ => false
  | .network _ => false

def Rule.matchesAddresses (r : Rule) : Addresses → Bool
  | .inet source destination =>
      r.family = .inet && r.source.covers source && r.destination.covers destination
  | .inet6 _ _ => r.family = .inet6 && r.source.isAny && r.destination.isAny

/-- `flags S/SA`, which a rule has that passes TCP and keeps state. -/
def Rule.matchesFlags (r : Rule) (p : Packet) : Bool :=
  if r.action = .pass ∧ r.keepState ∧ p.protocol = tcp then p.syn && !p.ack else true

def Rule.matches (r : Rule) (p : Packet) : Bool :=
  r.direction = p.direction && r.interface = p.interface && r.matchesAddresses p.addresses
    && r.proto.all (fun proto => proto = p.protocol)
    && r.port.all (fun port => p.destinationPort = some port) && r.matchesFlags p

/-- The rule that decides about a packet, when those before have left it to `deciding`: the last one
that matches, or the first with `quick`. -/
def evaluate : List Rule → (deciding : Option Rule) → Packet → Option Rule
  | [], deciding, _ => deciding
  | r :: rules, deciding, p =>
      if r.matches p then
        if r.quick then some r else evaluate rules (some r) p
      else evaluate rules deciding p

/-! ## The anchor -/

def labIf : String := "labbridge0"

def labNet : IPv4Network := ⟨.ofOctets 172 31 254 0, 24⟩

def labHost : IPv4Address := .ofOctets 172 31 254 1

instance instNeZeroPorts : NeZero (65536 : ℕ) := ⟨by decide⟩

def labSshPort : Fin 65536 := 22

/-- `block … quick on $lab_if inet6 all` -/
def blockInet6 (direction : Direction) : Rule where
  action := .block
  direction := direction
  log := true
  quick := true
  interface := labIf
  family := .inet6

/-- `pass out quick on $lab_if inet proto tcp from $lab_host to $lab_net port $lab_ssh_port keep state` -/
def passSsh : Rule where
  action := .pass
  direction := .outgoing
  quick := true
  interface := labIf
  family := .inet
  proto := some tcp
  source := .address labHost
  destination := .network labNet
  port := some labSshPort
  keepState := true

/-- `block out log quick on $lab_if inet from $lab_host to $lab_net` -/
def blockHost : Rule where
  action := .block
  direction := .outgoing
  log := true
  quick := true
  interface := labIf
  family := .inet
  source := .address labHost
  destination := .network labNet

/-- `block in log quick on $lab_if inet from $lab_net to any` -/
def blockRuntimes : Rule where
  action := .block
  direction := .incoming
  log := true
  quick := true
  interface := labIf
  family := .inet
  source := .network labNet

/-- The rules of `freebsd-lab`, in the order of the file. -/
def freebsdLab : List Rule :=
  [blockInet6 .incoming, blockInet6 .outgoing, passSsh, blockHost, blockRuntimes]

/-- The anchor blocks a packet that belongs to no state. -/
def blocked (p : Packet) : Bool := (evaluate freebsdLab none p).any fun r => r.action = .block

/-! ## States -/

/-- A state, by the packet that opened it. -/
structure State where
  opener : Packet
  deriving DecidableEq

/-- Source and destination the other way round. -/
def Addresses.swap : Addresses → Addresses
  | .inet source destination => .inet destination source
  | .inet6 source destination => .inet6 destination source

def Direction.opposite : Direction → Direction
  | .incoming => .outgoing
  | .outgoing => .incoming

/-- The packet goes the way of the opener. -/
def State.carriesForth (s : State) (p : Packet) : Bool :=
  p.direction = s.opener.direction && p.addresses = s.opener.addresses
    && p.sourcePort = s.opener.sourcePort && p.destinationPort = s.opener.destinationPort

/-- The packet goes the other way. -/
def State.carriesBack (s : State) (p : Packet) : Bool :=
  p.direction = s.opener.direction.opposite && p.addresses = s.opener.addresses.swap
    && p.sourcePort = s.opener.destinationPort && p.destinationPort = s.opener.sourcePort

/-- The packet belongs to the state. -/
def State.carries (s : State) (p : Packet) : Bool :=
  p.protocol = s.opener.protocol && (s.carriesForth p || s.carriesBack p)

/-- A packet comes by, or a state ends. -/
inductive Event where
  | packet (p : Packet)
  | expired (s : State)

/-- What becomes of a packet, and the states after it. -/
def filterPacket (states : List State) (p : Packet) : Bool × List State :=
  if states.any fun s => s.carries p then (true, states)
  else match evaluate freebsdLab none p with
    | some r =>
        if r.action = .pass then (true, if r.keepState then ⟨p⟩ :: states else states)
        else (false, states)
    | none => (true, states)

/-- The packets that pass, and the states in the end. -/
def run : List State → List Event → List Packet × List State
  | states, [] => ([], states)
  | states, .expired s :: events => run (states.filter (· ≠ s)) events
  | states, .packet p :: events =>
      let (passes, states) := filterPacket states p
      let (passed, states) := run states events
      (if passes then p :: passed else passed, states)

end Pf

end FreebsdLaboratory
