import Mathlib.Data.Nat.Find
import Mathlib.Tactic.Common
import FreebsdLaboratory.Model.SentryDiagnostics

/-!
# Which address is connected to

`_connect_resolved` goes on to the next address when `connect` fails, and closes the socket.  Where
already the socket cannot be created it does not go on: an address of a family that the host does
not support hides those behind it.

The induction is over the list, from any place in it; no socket is open between two rounds.
-/

namespace FreebsdLaboratory

variable {calls : SocketCalls} {timeout : ℚ} {place i : ℕ} {address : AddrInfo}
variable {addresses : List AddrInfo}

/-! ## Addresses -/

/-- The socket for the `i`th address is created, and connected. -/
def Connectable (calls : SocketCalls) (place : ℕ) (addresses : List AddrInfo) (i : ℕ) : Prop :=
  ∃ address, addresses[i]? = some address ∧ calls.socket (place + i) address = none
    ∧ calls.connect (place + i) address = none

/-- The socket for the `i`th address is not created. -/
def Uncreatable (calls : SocketCalls) (place : ℕ) (addresses : List AddrInfo) (i : ℕ) : Prop :=
  ∃ address, addresses[i]? = some address ∧ calls.socket (place + i) address ≠ none

/-- The `i`th address is the first one that can be connected. -/
structure FirstConnectable (calls : SocketCalls) (place : ℕ) (addresses : List AddrInfo) (i : ℕ) :
    Prop where
  connectable : Connectable calls place addresses i
  first : ∀ j < i, ¬ Connectable calls place addresses j

/-- A socket that is connected to the first address that can be; an `OSError` only if there is none;
and no other socket is open. -/
structure ConnectsFirst (calls : SocketCalls) (place : ℕ) (addresses : List AddrInfo)
    (result : Except SocketError Socket) (opened : List Socket) : Prop where
  returned : ∀ s, result = .ok s → ∃ i address, FirstConnectable calls place addresses i
    ∧ addresses[i]? = some address ∧ s = ⟨place + i, some address.sockaddr⟩
  raised : ∀ e, result = .error e →
    (∃ text, e = .osError text) ∧ ∀ i, ¬ Connectable calls place addresses i
  opened : ∀ s, s ∈ opened ↔ result = .ok s

/-- No address in front of the first that can be connected lacks its socket, and no socket refuses
the timeout. -/
structure Reachable (calls : SocketCalls) (timeout : ℚ) (place : ℕ) (addresses : List AddrInfo) :
    Prop where
  created : ∀ i, FirstConnectable calls place addresses i →
    ∀ j < i, ¬ Uncreatable calls place addresses j
  timed : settimeout timeout = .ok () ∨ addresses = [] ∨ Uncreatable calls place addresses 0

/-! ## One address after the other -/

lemma connectable_zero : Connectable calls place (address :: addresses) 0
    ↔ calls.socket place address = none ∧ calls.connect place address = none := by
  simp [Connectable]

lemma connectable_succ : Connectable calls place (address :: addresses) (i + 1)
    ↔ Connectable calls (place + 1) addresses i := by
  simp only [Connectable, List.getElem?_cons_succ, Nat.add_right_comm place 1 i, Nat.add_assoc]

lemma uncreatable_zero : Uncreatable calls place (address :: addresses) 0
    ↔ calls.socket place address ≠ none := by
  simp [Uncreatable]

lemma uncreatable_succ : Uncreatable calls place (address :: addresses) (i + 1)
    ↔ Uncreatable calls (place + 1) addresses i := by
  simp only [Uncreatable, List.getElem?_cons_succ, Nat.add_right_comm place 1 i, Nat.add_assoc]

/-- An address that cannot be connected is passed over. -/
lemma firstConnectable_succ (h : ¬ Connectable calls place (address :: addresses) 0) :
    FirstConnectable calls place (address :: addresses) (i + 1)
      ↔ FirstConnectable calls (place + 1) addresses i := by
  constructor
  · rintro ⟨hconnectable, hfirst⟩
    refine ⟨connectable_succ.mp hconnectable, ?_⟩
    intro j hj hconn
    exact hfirst (j + 1) (by omega) (connectable_succ.mpr hconn)
  · rintro ⟨hconnectable, hfirst⟩
    refine ⟨connectable_succ.mpr hconnectable, ?_⟩
    intro j hj
    cases j with
    | zero => exact h
    | succ j => exact fun hconn => hfirst j (by omega) (connectable_succ.mp hconn)

lemma firstConnectable_of_zero (h : Connectable calls place (address :: addresses) 0) :
    FirstConnectable calls place (address :: addresses) i ↔ i = 0 := by
  constructor
  · rintro ⟨-, hfirst⟩
    by_contra hi
    exact hfirst 0 (by omega) h
  · rintro rfl
    exact ⟨h, by simp⟩

/-- Where there is an address that can be connected, there is a first one. -/
lemma exists_first (h : Connectable calls place addresses i) :
    ∃ j, FirstConnectable calls place addresses j := by
  classical
  exact ⟨Nat.find ⟨i, h⟩, Nat.find_spec ⟨i, h⟩, fun j hj => Nat.find_min ⟨i, h⟩ hj⟩

/-! ## The loop -/

variable {lastError : Option String}

/-- The list is empty. -/
lemma connectsFirst_nil : ConnectsFirst calls place [] (.error (noConnection lastError)) [] := by
  refine ⟨by simp, ?_, by simp⟩
  intro e he
  cases he
  exact ⟨⟨_, rfl⟩, by simp [Connectable]⟩

/-- A socket that is not created ends the loop. -/
lemma connectsFirst_of_uncreatable {text : String}
    (h : Uncreatable calls place (address :: addresses) 0) :
    ConnectsFirst calls place (address :: addresses) (.error (.osError text)) []
      ↔ Reachable calls timeout place (address :: addresses) := by
  constructor
  · rintro hsound
    have hnone := (hsound.raised _ rfl).2
    exact ⟨fun i hi => absurd hi.connectable (hnone i), .inr (.inr h)⟩
  · rintro ⟨hcreated, -⟩
    refine ⟨by simp, ?_, by simp⟩
    rintro e he
    cases he
    refine ⟨⟨_, rfl⟩, ?_⟩
    intro i hi
    obtain ⟨j, hj⟩ := exists_first hi
    have hpos : 0 < j := by
      rw [Nat.pos_iff_ne_zero]
      rintro rfl
      exact uncreatable_zero.mp h (connectable_zero.mp hj.connectable).1
    exact hcreated j hj 0 hpos h

/-- A socket that is connected ends the loop. -/
lemma connectsFirst_of_connectable (h : Connectable calls place (address :: addresses) 0) :
    ConnectsFirst calls place (address :: addresses) (.ok ⟨place, some address.sockaddr⟩)
      [⟨place, some address.sockaddr⟩] := by
  refine ⟨?_, by simp, ?_⟩
  · intro s hs
    cases hs
    exact ⟨0, address, (firstConnectable_of_zero h).mpr rfl, rfl, rfl⟩
  · intro s
    simp only [List.mem_singleton, Except.ok.injEq]
    exact eq_comm

/-- An address that is passed over has no part in the result. -/
lemma connectsFirst_succ {result : Except SocketError Socket} {opened : List Socket}
    (h : ¬ Connectable calls place (address :: addresses) 0) :
    ConnectsFirst calls place (address :: addresses) result opened
      ↔ ConnectsFirst calls (place + 1) addresses result opened := by
  have hnone : (∀ i, ¬ Connectable calls place (address :: addresses) i)
      ↔ ∀ i, ¬ Connectable calls (place + 1) addresses i := by
    constructor
    · exact fun hall i hi => hall (i + 1) (connectable_succ.mpr hi)
    · intro hall i
      cases i with
      | zero => exact h
      | succ i => exact fun hi => hall i (connectable_succ.mp hi)
  constructor
  · rintro ⟨hreturned, hraised, hopened⟩
    refine ⟨?_, ?_, hopened⟩
    · intro s hs
      obtain ⟨i, found, hfirst, hfound, rfl⟩ := hreturned s hs
      cases i with
      | zero => exact absurd hfirst.connectable h
      | succ i =>
          refine ⟨i, found, (firstConnectable_succ h).mp hfirst, hfound, ?_⟩
          rw [Nat.add_assoc, Nat.add_comm 1 i]
    · intro e he
      exact ⟨(hraised e he).1, hnone.mp (hraised e he).2⟩
  · rintro ⟨hreturned, hraised, hopened⟩
    refine ⟨?_, ?_, hopened⟩
    · intro s hs
      obtain ⟨i, found, hfirst, hfound, rfl⟩ := hreturned s hs
      refine ⟨i + 1, found, (firstConnectable_succ h).mpr hfirst, hfound, ?_⟩
      rw [Nat.add_assoc, Nat.add_comm 1 i]
    · intro e he
      exact ⟨(hraised e he).1, hnone.mpr (hraised e he).2⟩

lemma reachable_succ (htimed : settimeout timeout = .ok ())
    (hcreated : ¬ Uncreatable calls place (address :: addresses) 0)
    (h : ¬ Connectable calls place (address :: addresses) 0) :
    Reachable calls timeout place (address :: addresses)
      ↔ Reachable calls timeout (place + 1) addresses := by
  constructor
  · rintro ⟨hall, -⟩
    refine ⟨?_, .inl htimed⟩
    intro i hi j hj huncreatable
    exact hall (i + 1) ((firstConnectable_succ h).mpr hi) (j + 1) (by omega)
      (uncreatable_succ.mpr huncreatable)
  · rintro ⟨hall, -⟩
    refine ⟨?_, .inl htimed⟩
    intro i hi j hj
    cases i with
    | zero => omega
    | succ i =>
        cases j with
        | zero => exact hcreated
        | succ j =>
            intro huncreatable
            exact hall i ((firstConnectable_succ h).mp hi) j (by omega)
              (uncreatable_succ.mp huncreatable)

lemma settimeout_ne_osError {text : String} : settimeout timeout ≠ .error (.osError text) := by
  unfold settimeout
  split_ifs <;> simp

/-- The loop, from any place in the list. -/
lemma connectLoop_iff : ConnectsFirst calls place addresses
      (connectLoop calls timeout addresses place lastError []).1
      (connectLoop calls timeout addresses place lastError []).2
    ↔ Reachable calls timeout place addresses := by
  induction addresses generalizing place lastError with
  | nil =>
      have hreachable : Reachable calls timeout place [] :=
        ⟨fun i hi => by simpa [Connectable] using hi.connectable, .inr (.inl rfl)⟩
      exact iff_of_true connectsFirst_nil hreachable
  | cons address addresses ih =>
      rw [connectLoop]
      cases hsocket : calls.socket place address with
      | some text => exact connectsFirst_of_uncreatable (uncreatable_zero.mpr (by simp [hsocket]))
      | none =>
          have hcreated : ¬ Uncreatable calls place (address :: addresses) 0 := by
            rw [uncreatable_zero, not_not]
            exact hsocket
          cases htimed : settimeout timeout with
          | error e =>
              -- the socket stays open, and the error is no `OSError`
              refine iff_of_false ?_ ?_
              · intro hsound
                obtain ⟨text, rfl⟩ := (hsound.raised e rfl).1
                exact settimeout_ne_osError htimed
              · rintro ⟨-, hok | hnil | huncreatable⟩
                · rw [htimed] at hok
                  cases hok
                · cases hnil
                · exact hcreated huncreatable
          | ok _ =>
              cases hconnect : calls.connect place address with
              | none =>
                  have hconnectable : Connectable calls place (address :: addresses) 0 :=
                    connectable_zero.mpr ⟨hsocket, hconnect⟩
                  simp only [List.erase_cons_head]
                  refine iff_of_true (connectsFirst_of_connectable hconnectable) ⟨?_, .inl htimed⟩
                  intro i hi j hj
                  obtain rfl := (firstConnectable_of_zero hconnectable).mp hi
                  omega
              | some text =>
                  have hpassed : ¬ Connectable calls place (address :: addresses) 0 := by
                    rw [connectable_zero]
                    simp [hconnect]
                  simp only [List.erase_cons_head]
                  rw [connectsFirst_succ hpassed, reachable_succ htimed hcreated hpassed]
                  exact ih

/-- **The first address that can be connected is found exactly where no socket in front of it is
missing.** -/
theorem connects_first_iff (calls : SocketCalls) (timeout : ℚ) (addresses : List AddrInfo) :
    ConnectsFirst calls 0 addresses (connectResolved calls timeout addresses).1
        (connectResolved calls timeout addresses).2
      ↔ Reachable calls timeout 0 addresses :=
  connectLoop_iff

/-- Then the TCP step tells whether some address can be connected. -/
theorem tcpStep_of_reachable (h : Reachable calls timeout 0 addresses) :
    ∃ status detail, tcpStep calls timeout addresses = .ok ⟨"tcp", status, detail⟩
      ∧ (status = "PASS" ↔ ∃ i, Connectable calls 0 addresses i) := by
  have hsound : ConnectsFirst calls 0 addresses (connectResolved calls timeout addresses).1
      (connectResolved calls timeout addresses).2 := connectLoop_iff.mpr h
  unfold tcpStep
  cases hresult : (connectResolved calls timeout addresses).1 with
  | ok s =>
      obtain ⟨i, -, hfirst, -⟩ := hsound.returned s hresult
      exact ⟨_, _, rfl, by simpa using ⟨i, hfirst.connectable⟩⟩
  | error e =>
      obtain ⟨⟨text, rfl⟩, hnone⟩ := hsound.raised e hresult
      exact ⟨_, _, rfl, by simpa using hnone⟩

/-- A host whose kernel has no IPv6, and a resolver that puts the IPv6 address first. -/
def dualStack : List AddrInfo :=
  [{ family := 28, socktype := 1, proto := 6, sockaddr := ⟨"2001:db8::1", 443, 0, 0⟩ },
   { family := 2, socktype := 1, proto := 6, sockaddr := ⟨"192.0.2.1", 443, 0, 0⟩ }]

def withoutInet6 : SocketCalls where
  socket _ address :=
    if address.family = 28 then some "Address family not supported by protocol family" else none
  connect _ _ := none

theorem not_connects_first_dual_stack : ¬ ∀ calls timeout addresses,
    ConnectsFirst calls 0 addresses (connectResolved calls timeout addresses).1
      (connectResolved calls timeout addresses).2 := by
  intro h
  have hraised := (h withoutInet6 5 dualStack).raised
    (.osError "Address family not supported by protocol family") rfl
  exact hraised.2 1 ⟨_, rfl, rfl, rfl⟩

end FreebsdLaboratory
