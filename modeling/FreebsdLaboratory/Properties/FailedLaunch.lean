import FreebsdLaboratory.Launching.Phases
import FreebsdLaboratory.Properties.PortSelection

/-!
# Launches that fail

The handler of `pre_launch` undoes what `_prepare_connection` has done, as far as that is done when
it runs.  `gather` does not wait for the other task, so a reservation can come back behind the
handler; it is kept then, its leases stay, and the connection is moved to the tunnel for good
(`late_allocation_stays`).  In runs of sound steps everything is as it was
(`failed_launch_restored`).
-/

namespace FreebsdLaboratory

open Library Library.Json Library.Unicode

namespace Launch

variable {py : PythonLibrary} {s s' : Launch} {k : KernelConnection} {w : LeaseWorld}

/-- Nothing is left of the launch: no reservation, no listening socket, no new lease, and the
connection is as it was. -/
structure Restored (s : Launch) (connection : KernelConnection) (w : LeaseWorld) : Prop where
  reservation : s.provisioner.tunnelReservation = none
  sockets : s.leases.sockets = []
  leases : ∀ name ∈ s.leases.world.files, name ∈ w.files
  connection : connection.Same s.connection

/-- **A launch that has failed by sound steps has left nothing behind.** -/
theorem goes_restored {s₀ : Launch} (h₀ : Phase k w s₀) (h : Goes py (Sound py) s₀ s)
    (hfinished : s.Finished) : s.Restored k w := by
  have hphase : Phase k w s := by
    clear hfinished
    induction h with
    | start => exact h₀
    | next step _ hsound hnext ih => exact next_keeps ih hsound hnext
  obtain ⟨hmain, -, hpreparing⟩ := hfinished
  cases hphase with
  | allocating rest hnow =>
      rw [hnow.preparing] at hpreparing
      exact hpreparing.elim
  | holding r now =>
      rcases now.main with heq | ⟨failure, heq⟩
      · rw [heq] at hmain
        exact hmain.elim
      · rw [heq] at hmain
        exact hmain.elim
  | releasing rest e now =>
      rw [now.main] at hmain
      exact hmain.elim
  | cleared now =>
      refine ⟨now.reservation, List.perm_nil.mp now.made.sockets, fun name hname => ?_, now.same⟩
      exact (now.made.files name hname).resolve_right List.not_mem_nil
  | returned ended main =>
      rw [main] at hmain
      exact hmain.elim

/-! ## A launch that is undone -/

/-- Ports for one launch. -/
def fivePorts : LocalPortLeasePool :=
  { fourPorts with stop := 30004, stop_le := by decide, start_le_stop := by decide }

/-- Several operations of a thread in the lease directory. -/
def stepAll {α : Type} (i : ℕ) (p : Process) : List LeaseChoice → LeaseProgram α → Attempt →
    Option (LeaseProgram α × Attempt)
  | [], rest, t => some (rest, t)
  | choice :: choices, rest, t =>
      (t.step i p choice rest).bind fun (rest, t) => stepAll i p choices rest t

/-- An operation that succeeds spoils nothing. -/
lemma not_spoils_succeeds {t : Attempt} (o : LeaseOp) : ¬ t.Spoils o .succeeds := by
  cases o with
  | write name => exact fun h => LeaseChoice.noConfusion h.1
  | unlink name => exact fun h => h.1 rfl
  | _ => exact id

/-- The allocation goes on while its operations succeed. -/
lemma Goes.allocates {s₀ : Launch} {rest' : LeaseProgram LocalPortReservation} {leases : Attempt}
    (n : ℕ) :
    ∀ {s : Launch} {rest : LeaseProgram LocalPortReservation}, Goes py (Sound py) s₀ s →
      s.preparing = .allocating rest →
      stepAll 0 s.process (List.replicate n .succeeds) rest s.leases = some (rest', leases) →
      Goes py (Sound py) s₀ { s with leases, preparing := .allocating rest' } := by
  induction n with
  | zero =>
      intro s rest hgoes hpreparing h
      obtain ⟨rfl, rfl⟩ := Prod.mk.inj (Option.some.inj h)
      rw [← hpreparing]
      exact hgoes
  | succ n ih =>
      intro s rest hgoes hpreparing h
      obtain ⟨⟨rest₁, leases₁⟩, hstep, hrest⟩ := Option.bind_eq_some_iff.mp h
      have hnext : s.next py (.allocate .succeeds)
          = some { s with leases := leases₁, preparing := .allocating rest₁ } := by
        simp only [Launch.next, hpreparing, hstep, Option.map_some]
      exact ih (s := { s with leases := leases₁, preparing := .allocating rest₁ })
        (Goes.next (.allocate .succeeds) hgoes (fun o _ => not_spoils_succeeds o) hnext) rfl hrest

/-- The release goes on while its operations succeed. -/
lemma Goes.releases {s₀ : Launch} {rest' : LeaseProgram Unit} {leases : Attempt} {e : PyError}
    (n : ℕ) :
    ∀ {s : Launch} {rest : LeaseProgram Unit}, Goes py (Sound py) s₀ s →
      s.main = .releasing rest e →
      stepAll 1 s.process (List.replicate n .succeeds) rest s.leases = some (rest', leases) →
      Goes py (Sound py) s₀ { s with leases, main := .releasing rest' e } := by
  induction n with
  | zero =>
      intro s rest hgoes hmain h
      obtain ⟨rfl, rfl⟩ := Prod.mk.inj (Option.some.inj h)
      rw [← hmain]
      exact hgoes
  | succ n ih =>
      intro s rest hgoes hmain h
      obtain ⟨⟨rest₁, leases₁⟩, hstep, hrest⟩ := Option.bind_eq_some_iff.mp h
      have hnext : s.next py (.release .succeeds)
          = some { s with leases := leases₁, main := .releasing rest₁ e } := by
        simp only [Launch.next, hmain, hstep, Option.map_some]
      exact ih (s := { s with leases := leases₁, main := .releasing rest₁ e })
        (Goes.next (.release .succeeds) hgoes (fun _ _ _ => rfl) hnext) rfl hrest

/-- **A launch that has failed by sound steps has left nothing behind**, whatever the order of its
two tasks and of its handler, and wherever one of the tasks has failed. -/
theorem failed_launch_restored (py : PythonLibrary) (process : Process) (runtimeName : Str)
    (pool : Except PyError LocalPortLeasePool) (connection : KernelConnection) (w : LeaseWorld)
    (s : Launch) (h : Goes py (Sound py) (start process runtimeName pool connection w) s)
    (hfinished : s.Finished) : s.Restored connection w :=
  goes_restored (phase_start process runtimeName pool connection w) h hfinished

/-- A Jupyter connection whose kernel manager carries what its file says. -/
def carriedConnection : KernelConnection :=
  { sampleConnection with
    parent := (sampleConnection.parent.setattr (str "ip") (.str (str "10.0.0.1"))).setPorts
      [1, 2, 3, 4, 5] }

lemma carriedConnection_jupyter :
    JupyterConnection carriedConnection sampleItems (str "10.0.0.1") [1, 2, 3, 4, 5] :=
  ⟨⟨⟨_, connectionFile_setPorts _ _, by decide⟩, rfl, by decide, sample_document, .inl rfl⟩, rfl,
    sample_ports⟩

lemma carriedConnection_carries :
    carriedConnection.parent.Carries (str "10.0.0.1") [1, 2, 3, 4, 5] :=
  (value_setAll sampleConnection.parent (str "10.0.0.1") sample_ports.1).1

/-- Where all file operations work, the connection moves so that it can be moved back. -/
lemma carriedConnection_moves (r : LocalPortReservation) :
    Moves py noFault carriedConnection r := by
  intro items originalPorts tunnelPorts haccepted
  have hitems : items = sampleItems := by
    have hread := readConnection_eq_ok.mpr haccepted.opens
    rw [readConnection_eq_ok.mpr carriedConnection_jupyter.opens, Except.ok.injEq] at hread
    exact hread.symm
  subst hitems
  have hports : originalPorts = [1, 2, 3, 4, 5] := by
    have hsame := connectionPorts_eq_ok.mpr haccepted.original
    rw [connectionPorts_eq_ok.mpr sample_ports, Except.ok.injEq] at hsame
    exact hsame.symm
  subst hports
  exact ⟨fun _ => ⟨_, rfl, carriedConnection_carries⟩, fun h => absurd (noFault_writes _) h⟩

lemma Goes.trans {s₀ s₁ s₂ : Launch} {ok : Launch → LaunchStep → Prop} (h : Goes py ok s₀ s₁)
    (h' : Goes py ok s₁ s₂) : Goes py ok s₀ s₂ := by
  induction h' with
  | start => exact h
  | next step _ hok hnext ih => exact .next step ih hok hnext

/-- The allocation of five ports and their release, when all operations succeed. -/
lemma fivePorts_allocate : ∃ r t t', ValidPorts (r.ports.map (fun port : ℕ => (port : ℤ)))
    ∧ t.mine ≠ [] ∧
    stepAll 0 notebookServer (List.replicate 18 .succeeds)
        (fivePorts.allocate 200 1001 (str "jl") 200 5) (.fresh oneProcess) = some (.ret r, t) ∧
      stepAll 1 notebookServer (List.replicate 12 .succeeds) r.release t = some (.ret (), t') := by
  have hruns : ((stepAll 0 notebookServer (List.replicate 18 .succeeds)
      (fivePorts.allocate 200 1001 (str "jl") 200 5) (.fresh oneProcess)).any fun x =>
        match x with
        | (.ret r, t) =>
            decide (r.ports.length = 5 ∧ r.ports.Nodup ∧ ∀ port ∈ r.ports, 1 ≤ port ∧ port ≤ 65535)
            && decide (t.mine ≠ [])
            && ((stepAll 1 notebookServer (List.replicate 12 .succeeds) r.release t).any fun y =>
              match y with
              | (.ret _, _) => true
              | _ => false)
        | _ => false) = true := by decide +kernel
  obtain ⟨⟨rest, t⟩, hallocate, hends⟩ := (Option.any_eq_true _ _).mp hruns
  split at hends
  · rename_i r _ heq
    obtain ⟨rfl, rfl⟩ := Prod.mk.inj heq
    simp only [Bool.and_eq_true, decide_eq_true_eq] at hends
    obtain ⟨⟨⟨hlength, hnodup, hrange⟩, hmine⟩, hends⟩ := hends
    obtain ⟨⟨rest', t'⟩, hrelease, hends'⟩ := (Option.any_eq_true _ _).mp hends
    split at hends'
    · rename_i heq'
      obtain ⟨rfl, rfl⟩ := Prod.mk.inj heq'
      refine ⟨r, t, t', ⟨?_, ?_, ?_⟩, hmine, hallocate, hrelease⟩
      · simpa using hlength
      · exact hnodup.map Nat.cast_injective
      · intro port hport
        obtain ⟨n, hn, rfl⟩ := List.mem_map.mp hport
        have hbounds := hrange n hn
        omega
    · cases hends'
  · cases hends

/-- A launch whose ports are reserved. -/
def reserved (r : LocalPortReservation) (t : Attempt) : Launch :=
  { start notebookServer (str "jl") (.ok fivePorts) carriedConnection oneProcess with
    leases := t
    preparing := .allocating (.ret r) }

lemma not_restoreRaises_noFault : ¬ RestoreRaises noFault k := by
  rintro ⟨-, h | ⟨-, h | h⟩⟩ <;> cases h

/-- The launch whose connection is on the tunnel. -/
def onTunnel (r : LocalPortReservation) (t : Attempt) (bytes : Bytes) : Launch :=
  { reserved r t with
    provisioner :=
      { (reserved r t).provisioner with
        originalConnectionIp := some (str "10.0.0.1")
        originalConnectionPorts := [1, 2, 3, 4, 5]
        tunnelPorts := r.ports.map fun port : ℕ => (port : ℤ)
        tunnelReservation := some r }
    connection :=
      { parent := rewrittenParent "127.0.0.1" carriedConnection.parent
          (r.ports.map fun port : ℕ => (port : ℤ))
        directory := { carriedConnection.directory with remoteTmp := .absent, file := some bytes } }
    preparing := .prepared }

/-- The wait for SSH has failed then. -/
def failedOnTunnel (r : LocalPortReservation) (t : Attempt) (bytes : Bytes) : Launch :=
  { onTunnel r t bytes with
    waiting := .failed
    main := .gathering (some (.runtimeError "SSH")) }

/-- **Ports are reserved, the connection is moved, the wait for SSH fails**: the handler undoes it
all. -/
theorem failed_launch_restored_from_tunnel : ∃ moved s : Launch,
    Goes sampleLibrary (Sound sampleLibrary)
        (start notebookServer (str "jl") (.ok fivePorts) carriedConnection oneProcess) moved ∧
      moved.provisioner.tunnelReservation ≠ none ∧ moved.leases.mine ≠ [] ∧
      ¬ carriedConnection.Same moved.connection ∧
      Goes sampleLibrary (Sound sampleLibrary) moved s ∧ s.Finished ∧
      s.Restored carriedConnection oneProcess := by
  obtain ⟨r, t, t', hvalid, hmine, hallocate, hrelease⟩ := fivePorts_allocate
  obtain ⟨bytes, hbytes, hrewrite⟩ :=
    rewrite_to_tunnel sampleLibrary carriedConnection_jupyter hvalid
  obtain ⟨written, hwritten, hrestore⟩ :=
    restore_from_tunnel carriedConnection_jupyter hvalid hbytes
  have hreserved : Goes sampleLibrary (Sound sampleLibrary)
      (start notebookServer (str "jl") (.ok fivePorts) carriedConnection oneProcess)
      (reserved r t) :=
    Goes.start.allocates 18 rfl hallocate
  have hmap : (r.ports.map fun port : ℕ => Value.int port)
      = (r.ports.map (fun port : ℕ => (port : ℤ))).map Value.int := by simp
  have hprepare : (reserved r t).next sampleLibrary (.prepare noFault (.ok ()))
      = some (onTunnel r t bytes) := by
    simp only [next, reserved, start, prepareConnection, hmap, hrewrite]
    rfl
  have hmoved := hreserved.next (.prepare noFault (.ok ()))
    (fun r' _ => ⟨⟨none, rfl⟩, carriedConnection_moves r'⟩) hprepare
  have hfailed : Goes sampleLibrary (Sound sampleLibrary) (onTunnel r t bytes)
    (failedOnTunnel r t bytes) :=
    Goes.start.next (.waited (.error (.runtimeError "SSH"))) trivial rfl
  -- the handler puts the connection back and starts to release the ports
  obtain ⟨connection, hgathered⟩ : ∃ connection,
      (failedOnTunnel r t bytes).next sampleLibrary (.gathered noFault) = some
        { failedOnTunnel r t bytes with
          connection
          provisioner := { (failedOnTunnel r t bytes).provisioner with
            originalConnectionIp := none
            originalConnectionPorts := []
            tunnelReservation := none }
          main := .releasing r.release (.runtimeError "SSH") } := by
    simp only [next, failedOnTunnel, onTunnel, reserved, start, handle, hrestore]
    exact ⟨_, rfl⟩
  have hhandled := hfailed.next (.gathered noFault)
    (fun _ _ => ⟨fun _ h => not_restoreRaises_noFault h, fun _ _ => .inl ⟨rfl, noFault_writes _⟩⟩)
    hgathered
  have hreleased := (Goes.releases 12 hhandled rfl hrelease).next .released trivial rfl
  have hdestroyed := hreleased.next (.destroyed (.ok ())) trivial rfl
  refine ⟨_, _, hmoved, by simp [onTunnel], hmine, fun hsame => ?_, hdestroyed,
    ⟨trivial, trivial, trivial⟩, failed_launch_restored _ _ _ _ _ _ _ (hmoved.trans hdestroyed)
      ⟨trivial, trivial, trivial⟩⟩
  have hcarries := (rewrittenParent_eq_self_iff hvalid).mp hsame.parent
  have hip := Value.str.inj (Option.some.inj (hcarries.1.symm.trans carriedConnection_carries.1))
  exact absurd hip (by decide)

/-! ## A reservation that comes back late -/

/-- The handler where there is nothing to restore. -/
lemma handle_nothing {e : PyError} (hip : s.provisioner.originalConnectionIp = none)
    (hports : s.provisioner.originalConnectionPorts = [])
    (hreservation : s.provisioner.tunnelReservation = none) :
    ∃ connection, s.handle noFault e = { s with connection, main := .releasing (.ret ()) e } := by
  have hok := restore_nothing_ok (k := s.connection) not_restoreRaises_noFault
  cases hrestore : restoreConnectionFile noFault none [] s.connection with
  | mk result connection =>
      rw [hrestore] at hok
      obtain rfl : result = .ok () := hok
      refine ⟨connection, ?_⟩
      obtain ⟨process, ⟨name, created, ip, ports, tunnelPorts, reservation⟩, k, leases, waiting,
        preparing, main⟩ := s
      subst hip hports hreservation
      simp only [handle, List.map_nil, hrestore]
      rfl

/-- The sample when the wait has failed. -/
def unreachable : Launch :=
  { start notebookServer (str "jl") (.ok fivePorts) sampleConnection oneProcess with
    waiting := .failed
    main := .gathering (some (.runtimeError "SSH")) }

lemma next_unreachable : ∃ connection, unreachable.next sampleLibrary (.gathered noFault)
    = some { unreachable with connection, main := .releasing (.ret ()) (.runtimeError "SSH") } := by
  obtain ⟨connection, hhandle⟩ : ∃ connection, unreachable.handle noFault (.runtimeError "SSH")
      = { unreachable with connection, main := .releasing (.ret ()) (.runtimeError "SSH") } :=
    handle_nothing rfl rfl rfl
  exact ⟨connection, congrArg some hhandle⟩

lemma run_append (steps steps' : List LaunchStep) (s : Launch) :
    run py (steps ++ steps') s = (run py steps s).bind (run py steps') := by
  induction steps generalizing s with
  | nil => rfl
  | cons step steps ih =>
      rw [List.cons_append, run, run, Option.bind_assoc]
      exact congrArg _ (funext ih)

/-- The allocation takes its steps. -/
lemma run_allocate {choices : List LeaseChoice} {rest rest' : LeaseProgram LocalPortReservation}
    {leases : Attempt} (hpreparing : s.preparing = .allocating rest)
    (h : stepAll 0 s.process choices rest s.leases = some (rest', leases)) :
    run py (choices.map .allocate) s = some { s with leases, preparing := .allocating rest' } := by
  induction choices generalizing s rest with
  | nil =>
      obtain ⟨rfl, rfl⟩ := Prod.mk.inj (Option.some.inj h)
      rw [← hpreparing]
      rfl
  | cons choice choices ih =>
      obtain ⟨⟨rest₁, leases₁⟩, hstep, hrest⟩ := Option.bind_eq_some_iff.mp h
      rw [List.map_cons, run, next, hpreparing]
      simp only [hstep, Option.map_some, Option.bind_some]
      exact ih (s := { s with leases := leases₁, preparing := .allocating rest₁ }) rfl hrest

/-- The wait for SSH fails and the handler runs; then the ports are allocated and the connection is
moved.  All operations succeed. -/
def lateAllocation : List LaunchStep :=
  [.waited (.error (.runtimeError "SSH")), .gathered noFault, .released, .destroyed (.ok ())]
    ++ ((List.replicate 18 .succeeds).map .allocate ++ [.prepare noFault (.ok ())])

/-- The reservation stays with a launch that has failed already. -/
lemma prepareConnection_late (py : PythonLibrary) (fault : FileStep → Bool)
    (installed : Except PyError Unit) {e : PyError} {r : LocalPortReservation}
    (hmain : s.main = .raised e) (hwaiting : s.waiting = .failed) :
    (s.prepareConnection py fault installed r).provisioner.tunnelReservation = some r ∧
      (s.prepareConnection py fault installed r).Finished := by
  have hfail : ∀ (s : Launch) (e' : PyError), s.main = .raised e → s.fail e' = s := by
    intro s e' hs
    unfold fail
    rw [hs]
  unfold prepareConnection Finished
  cases hrewrite : rewriteConnectionFile fault py "127.0.0.1"
      (some (.iterable (r.ports.map fun port : ℕ => .int port))) s.connection with
  | mk result connection =>
      cases result with
      | error e' =>
          simp only [hrewrite]
          rw [hfail _ _ (by exact hmain)]
          simp only [hmain, hwaiting, and_self]
      | ok result =>
          cases installed with
          | error e' =>
              simp only [hrewrite]
              rw [hfail _ _ (by exact hmain)]
              simp only [hmain, hwaiting, and_self]
          | ok => simp only [hrewrite, hmain, hwaiting, and_self]

set_option maxRecDepth 10000 in
/-- **A reservation that comes back behind the handler stays**, though all operations succeed. -/
theorem late_allocation_stays : ∃ s,
    run sampleLibrary lateAllocation
        (start notebookServer (str "jl") (.ok fivePorts) sampleConnection oneProcess) = some s ∧
      s.Finished ∧ ¬ s.Restored sampleConnection oneProcess := by
  obtain ⟨connection, hgathered⟩ := next_unreachable
  have hwaited : (start notebookServer (str "jl") (.ok fivePorts) sampleConnection oneProcess).next
      sampleLibrary (.waited (.error (.runtimeError "SSH"))) = some unreachable := rfl
  have hhandler : run sampleLibrary
      [.waited (.error (.runtimeError "SSH")), .gathered noFault, .released, .destroyed (.ok ())]
      (start notebookServer (str "jl") (.ok fivePorts) sampleConnection oneProcess)
        = some (({ unreachable with connection } : Launch).forget (.runtimeError "SSH")) := by
    rw [run, hwaited, Option.bind_some, run, hgathered, Option.bind_some]
    rfl
  have hallocate : ∃ r t, stepAll 0 notebookServer (List.replicate 18 .succeeds)
      (fivePorts.allocate 200 1001 (str "jl") 200 5) (Attempt.fresh oneProcess)
      = some (.ret r, t) :=
    ⟨_, _, rfl⟩
  obtain ⟨r, t, hallocate⟩ := hallocate
  rw [lateAllocation, run_append, hhandler, Option.bind_some, run_append,
    run_allocate rfl hallocate, Option.bind_some]
  refine ⟨_, rfl, ?_⟩
  obtain ⟨hreservation, hfinished⟩ := prepareConnection_late sampleLibrary noFault (.ok ()) (r := r)
    (s := { ({ unreachable with connection } : Launch).forget (.runtimeError "SSH") with
      leases := t, preparing := .allocating (.ret r) }) rfl rfl
  refine ⟨hfinished, fun h => ?_⟩
  rw [h.reservation] at hreservation
  cases hreservation

end Launch

end FreebsdLaboratory
