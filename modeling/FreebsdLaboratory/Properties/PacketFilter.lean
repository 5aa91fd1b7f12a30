import Mathlib.Tactic.Common
import FreebsdLaboratory.Model.PacketFilter

/-!
# What the anchor lets through

The policy is that the host opens SSH sessions to the runtimes and nothing else passes.  The rules
spell it out for the addresses of the laboratory, so a packet with another address gets past them: a
runtime may forge its source, and the host has more addresses than one.

`evaluate_inet6`, `evaluate_incoming` and `evaluate_outgoing` say once which rule decides about a
packet.
-/

namespace FreebsdLaboratory

namespace Pf

variable {p : Packet} {source destination : IPv4Address}

/-! ## The policy -/

/-- A TCP packet from the host to the SSH port of an address in `lab_net`. -/
def Packet.ToSsh (p : Packet) : Prop :=
  p.direction = .outgoing ∧ p.protocol = tcp ∧ p.destinationPort = some labSshPort
    ∧ ∃ source destination, p.addresses = .inet source destination
      ∧ labNet.contains destination = true

/-- What the policy says about a packet. -/
structure Isolated (p : Packet) : Prop where
  passed : blocked p = false → p.ToSsh
  incoming : p.direction = .incoming → blocked p = true
  outgoing : p.direction = .outgoing → ¬ p.ToSsh → blocked p = true

/-- The addresses are those that the rules name, or the packet may pass anyway. -/
def Packet.Foreseen (p : Packet) : Prop :=
  match p.direction, p.addresses with
  | _, .inet6 _ _ => True
  | .incoming, .inet source _ => labNet.contains source = true
  | .outgoing, .inet source destination =>
      source = labHost ∧ labNet.contains destination = true ∨ p.ToSsh

/-! ## The rules -/

/-- Where every rule is `quick`, the first one that matches decides. -/
lemma evaluate_of_quick {rules : List Rule} (h : ∀ r ∈ rules, r.quick = true)
    (deciding : Option Rule) (p : Packet) :
    evaluate rules deciding p = (rules.find? fun r => r.matches p).or deciding := by
  induction rules with
  | nil => simp [evaluate]
  | cons r rules ih =>
      have hquick : r.quick = true := h r List.mem_cons_self
      have hrest : ∀ r ∈ rules, r.quick = true := fun r hr => h r (List.mem_cons_of_mem _ hr)
      cases hmatches : r.matches p with
      | true => simp [evaluate, hmatches, hquick]
      | false => simp [evaluate, hmatches, ih hrest]

lemma evaluate_freebsdLab (p : Packet) :
    evaluate freebsdLab none p = freebsdLab.find? fun r => r.matches p := by
  have hquick : ∀ r ∈ freebsdLab, r.quick = true := by
    intro r hr
    simp only [freebsdLab, List.mem_cons, List.not_mem_nil, or_false] at hr
    rcases hr with rfl | rfl | rfl | rfl | rfl <;> rfl
  rw [evaluate_of_quick hquick, Option.or_none]

/-- A packet that opens an SSH session. -/
def Packet.opensSsh (p : Packet) : Bool :=
  p.protocol = tcp && p.destinationPort = some labSshPort && p.syn && !p.ack

/-- The passing rule takes the packets that open an SSH session. -/
lemma matches_passSsh (hif : p.interface = labIf) (hdirection : p.direction = .outgoing)
    (h : p.addresses = .inet labHost destination) (hnet : labNet.contains destination = true) :
    passSsh.matches p = p.opensSsh := by
  by_cases htcp : p.protocol = tcp
  · simp [Rule.matches, Rule.matchesAddresses, Rule.matchesFlags, Host.covers, passSsh,
      Packet.opensSsh, hif, h, hdirection, hnet, htcp, Bool.and_assoc]
  · simp [Rule.matches, passSsh, Packet.opensSsh, htcp, Ne.symm htcp]

section OnLabIf

variable (hif : p.interface = labIf)
include hif

lemma evaluate_inet6 {source destination : BitVec 128}
    (h : p.addresses = .inet6 source destination) :
    evaluate freebsdLab none p = some (blockInet6 p.direction) := by
  rw [evaluate_freebsdLab, freebsdLab]
  cases hdirection : p.direction <;>
    simp [Rule.matches, Rule.matchesAddresses, Rule.matchesFlags, Host.isAny, blockInet6, hif, h,
      hdirection]

lemma evaluate_incoming (hdirection : p.direction = .incoming)
    (h : p.addresses = .inet source destination) :
    evaluate freebsdLab none p = if labNet.contains source then some blockRuntimes else none := by
  rw [evaluate_freebsdLab, freebsdLab]
  cases hnet : labNet.contains source <;>
    simp [Rule.matches, Rule.matchesAddresses, Rule.matchesFlags, Host.covers, blockInet6, passSsh,
      blockHost, blockRuntimes, hif, h, hdirection, hnet]

lemma evaluate_outgoing (hdirection : p.direction = .outgoing)
    (h : p.addresses = .inet source destination) :
    evaluate freebsdLab none p = if source = labHost ∧ labNet.contains destination then
      (if p.opensSsh then some passSsh else some blockHost) else none := by
  rw [evaluate_freebsdLab, freebsdLab]
  by_cases hhost : source = labHost
  · subst hhost
    cases hnet : labNet.contains destination with
    | false =>
        simp [Rule.matches, Rule.matchesAddresses, Host.covers, blockInet6, passSsh, blockHost,
          blockRuntimes, hif, h, hdirection, hnet]
    | true =>
        -- the rule that passes SSH stands before the one that blocks
        have hinet6 : ∀ d, (blockInet6 d).matches p = false := by
          intro d
          simp [Rule.matches, Rule.matchesAddresses, blockInet6, h]
        have hhost : blockHost.matches p = true := by
          simp [Rule.matches, Rule.matchesAddresses, Rule.matchesFlags, Host.covers, blockHost,
            hif, h, hdirection, hnet]
        cases hopens : p.opensSsh <;>
          simp [hinet6, matches_passSsh hif hdirection h hnet, hopens, hhost]
  · simp [Rule.matches, Rule.matchesAddresses, Host.covers, blockInet6, passSsh,
      blockHost, blockRuntimes, hif, h, hdirection, hhost, Ne.symm hhost]

end OnLabIf

/-! ## The policy and the rules -/

lemma toSsh_of_opens (hdirection : p.direction = .outgoing)
    (h : p.addresses = .inet source destination) (hnet : labNet.contains destination = true)
    (hopens : p.opensSsh = true) : p.ToSsh := by
  simp only [Packet.opensSsh, Bool.and_eq_true, decide_eq_true_eq] at hopens
  exact ⟨hdirection, hopens.1.1.1, hopens.1.1.2, source, destination, h, hnet⟩

/-- **The anchor keeps the policy for the packets that the rules foresee.**  The others pass. -/
theorem isolated_iff (hif : p.interface = labIf) : Isolated p ↔ p.Foreseen := by
  have hsplit : Isolated p ↔ (blocked p = false → p.ToSsh) := by
    constructor
    · exact fun h => h.passed
    · intro h
      refine ⟨h, ?_, ?_⟩
      · intro hdirection
        by_contra hpass
        have hssh := (h (by simpa using hpass)).1
        rw [hdirection] at hssh
        cases hssh
      · intro _ hssh
        by_contra hpass
        exact hssh (h (by simpa using hpass))
  rw [hsplit, Packet.Foreseen]
  cases haddresses : p.addresses with
  | inet6 source destination =>
      simp [blocked, evaluate_inet6 hif haddresses, blockInet6]
  | inet source destination =>
      cases hdirection : p.direction with
      | incoming =>
          have hssh : ¬ p.ToSsh := fun h => by
            have := h.1
            rw [hdirection] at this
            cases this
          rw [blocked, evaluate_incoming hif hdirection haddresses]
          cases hnet : labNet.contains source <;> simp [blockRuntimes, hssh, hnet]
      | outgoing =>
          rw [blocked, evaluate_outgoing hif hdirection haddresses]
          by_cases hlab : source = labHost ∧ labNet.contains destination = true
          · cases hopens : p.opensSsh with
            | true => simp [hlab, toSsh_of_opens hdirection haddresses hlab.2 hopens]
            | false => simp [hlab, blockHost]
          · simp [hlab]

/-- The host opens a session with the runtime at 172.31.254.10. -/
def sessionPacket : Packet where
  interface := labIf
  direction := .outgoing
  addresses := .inet labHost (.ofOctets 172 31 254 10)
  protocol := tcp
  sourcePort := some 50000
  destinationPort := some labSshPort
  syn := true
  ack := false

theorem isolated_iff_session : Isolated sessionPacket ↔ sessionPacket.Foreseen :=
  isolated_iff rfl

/-- A runtime that has given itself the address 10.0.0.5 asks the host for a name. -/
def forgedPacket : Packet where
  interface := labIf
  direction := .incoming
  addresses := .inet (.ofOctets 10 0 0 5) labHost
  protocol := 17
  sourcePort := some 40000
  destinationPort := some 53
  syn := false
  ack := false

theorem not_isolated_forged : ¬ ∀ p : Packet, p.interface = labIf → Isolated p := by
  intro h
  have hblocked : blocked forgedPacket = true := (h forgedPacket rfl).incoming rfl
  have hpasses : blocked forgedPacket = false := by decide
  rw [hpasses] at hblocked
  cases hblocked

/-! ## Sessions -/

/-- The states are SSH sessions that the host has opened with runtimes. -/
def OnlySessions (states : List State) : Prop := ∀ s ∈ states, s.opener.ToSsh

/-- The packet answers one of a session. -/
def Packet.Answers (p : Packet) : Prop :=
  ∃ opener : Packet, opener.ToSsh ∧ (State.mk opener).carries p = true
    ∧ (State.mk opener).carriesBack p = true

/-- A packet of a session goes to the SSH port of the runtime or answers. -/
lemma toSsh_or_answers {s : State} (hs : s.opener.ToSsh) (h : s.carries p = true) :
    p.ToSsh ∨ p.Answers := by
  have hcarries := h
  simp only [State.carries, Bool.and_eq_true, Bool.or_eq_true, decide_eq_true_eq] at h
  obtain ⟨hprotocol, hforth | hback⟩ := h
  · simp only [State.carriesForth, Bool.and_eq_true, decide_eq_true_eq] at hforth
    obtain ⟨⟨⟨hdirection, haddresses⟩, -⟩, hport⟩ := hforth
    left
    rw [Packet.ToSsh, hdirection, hprotocol, hport, haddresses]
    exact hs
  · exact .inr ⟨s.opener, hs, hcarries, hback⟩

/-- A packet that the passing rule takes opens a session. -/
lemma toSsh_of_passed {r : Rule} (hif : p.interface = labIf)
    (h : evaluate freebsdLab none p = some r) (hpass : r.action = .pass) : p.ToSsh := by
  cases haddresses : p.addresses with
  | inet6 source destination =>
      rw [evaluate_inet6 hif haddresses] at h
      cases h
      cases hpass
  | inet source destination =>
      cases hdirection : p.direction with
      | incoming =>
          rw [evaluate_incoming hif hdirection haddresses] at h
          split_ifs at h
          cases h
          cases hpass
      | outgoing =>
          rw [evaluate_outgoing hif hdirection haddresses] at h
          split_ifs at h with hlab hopens
          · exact toSsh_of_opens hdirection haddresses hlab.2 hopens
          · cases h
            cases hpass

/-- What one packet can do. -/
lemma filterPacket_spec {states : List State} (hif : p.interface = labIf)
    (hstates : OnlySessions states) :
    OnlySessions (filterPacket states p).2
      ∧ ((filterPacket states p).1 = true → p.Foreseen → p.ToSsh ∨ p.Answers) := by
  unfold filterPacket
  split_ifs with hcarried
  · obtain ⟨s, hs, hcarries⟩ := List.any_eq_true.mp hcarried
    exact ⟨hstates, fun _ _ => toSsh_or_answers (hstates s hs) hcarries⟩
  · cases hrule : evaluate freebsdLab none p with
    | none =>
        refine ⟨hstates, fun _ hforeseen => .inl ?_⟩
        refine ((isolated_iff hif).mpr hforeseen).passed ?_
        simp [blocked, hrule]
    | some r =>
        dsimp only
        split_ifs with hpass hkeep
        · have hssh := toSsh_of_passed hif hrule hpass
          refine ⟨?_, fun _ _ => .inl hssh⟩
          intro s hs
          rcases List.mem_cons.mp hs with rfl | hs
          · exact hssh
          · exact hstates s hs
        · exact ⟨hstates, fun _ _ => .inl (toSsh_of_passed hif hrule hpass)⟩
        · exact ⟨hstates, fun hfalse => absurd hfalse (by simp)⟩

/-- **In every run only SSH sessions and their answers pass**, of the packets that the rules
foresee. -/
theorem run_passes_sessions {states : List State} {events : List Event}
    (hif : ∀ p, .packet p ∈ events → p.interface = labIf) (hstates : OnlySessions states) :
    OnlySessions (run states events).2
      ∧ ∀ p ∈ (run states events).1, p.Foreseen → p.ToSsh ∨ p.Answers := by
  induction events generalizing states with
  | nil => exact ⟨hstates, by simp [run]⟩
  | cons event events ih =>
      have hrest : ∀ p, .packet p ∈ events → p.interface = labIf :=
        fun p hp => hif p (List.mem_cons_of_mem _ hp)
      cases event with
      | expired s => exact ih hrest fun s hs => hstates s (List.mem_filter.mp hs).1
      | packet p =>
          have hp : p.interface = labIf := hif p List.mem_cons_self
          obtain ⟨hnext, hpasses⟩ := filterPacket_spec hp hstates
          obtain ⟨hend, hpassed⟩ := ih hrest hnext
          refine ⟨hend, ?_⟩
          intro q hq
          simp only [run] at hq
          split_ifs at hq with hpass
          · rcases List.mem_cons.mp hq with rfl | hq
            · exact hpasses hpass
            · exact hpassed q hq
          · exact hpassed q hq

end Pf

end FreebsdLaboratory
