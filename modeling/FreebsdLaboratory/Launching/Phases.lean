import FreebsdLaboratory.Launching.Restoring
import FreebsdLaboratory.Model.PreLaunch
import FreebsdLaboratory.Tunnels.Holdings

/-!
# Phases of a launch

`Sound` is the condition on a step: what must not happen if a launch that fails is to leave nothing
behind.  A run of sound steps goes through phases (`Phase`): ports are being allocated, there is a
reservation, it is being released, there is none any more.  Each kind of step is checked on its own
(`waited_keeps`, `allocate_keeps`, …, put together in `next_keeps`).
-/

namespace FreebsdLaboratory

open Library Library.Json Library.Unicode
open Library.Json.Value (lookup insertItem)

namespace Launch

/-- Moving to the tunnel either comes through, from a connection whose kernel manager and file
agree, or raises without a trace. -/
def Moves (py : PythonLibrary) (fault : FileStep → Bool) (k : KernelConnection)
    (r : LocalPortReservation) : Prop :=
  ∀ items originalPorts tunnelPorts,
    Accepted fault py "127.0.0.1" (some (.iterable (r.ports.map fun port : ℕ => .int port))) k items
      originalPorts tunnelPorts →
    (Writes fault k.directory.remoteTmp →
      ∃ ip, lookup items (str "ip") = some (.str ip) ∧ k.parent.Carries ip originalPorts) ∧
    (¬ Writes fault k.directory.remoteTmp → k.parent.Carries (str "127.0.0.1") tunnelPorts)

/-- The handler gets as far as the release of a reservation, and the file is restored if it was
moved. -/
def Handles (fault : FileStep → Bool) (s : Launch) : Prop :=
  (s.provisioner.tunnelReservation ≠ none → ¬ RestoreRaises fault s.connection) ∧
    ∀ ip, s.provisioner.originalConnectionIp = some ip →
      fault .readText = false ∧ Writes fault s.connection.directory.restoreTmp ∨
        s.connection.Says ip s.provisioner.originalConnectionPorts

/-- **The condition on a step.**  A reservation comes back while `pre_launch` is in `gather`, and
the connection is moved without a trace or so that it can be moved back; the operations of the
handler succeed; no write of a lease fails behind the creation of its file, and no own lease fails
to be unlinked. -/
def Sound (py : PythonLibrary) (s : Launch) : LaunchStep → Prop
  | .allocate choice => ∀ o, s.preparing.pending = some o → ¬ s.leases.Spoils o choice
  | .prepare fault _ => ∀ r, s.preparing = .allocating (.ret r) →
      (∃ failure, s.main = .gathering failure) ∧ Moves py fault s.connection r
  | .gathered fault => ∀ e, s.main = .gathering (some e) → s.Handles fault
  | .staged result fault => ∀ e, result = .error e → s.Handles fault
  | .release choice => ∀ o, s.main.pending = some o → Succeeds o choice
  | _ => True

/-- The launches that come from `s₀` by steps with `ok`. -/
inductive Goes (py : PythonLibrary) (ok : Launch → LaunchStep → Prop) (s₀ : Launch) :
    Launch → Prop where
  | start : Goes py ok s₀ s₀
  | next {s s' : Launch} (step : LaunchStep) :
      Goes py ok s₀ s → ok s step → s.next py step = some s' → Goes py ok s₀ s'

/-- Ports are being allocated, and the handler has nothing to restore. -/
structure Allocating (k : KernelConnection) (w : LeaseWorld) (s : Launch)
    (rest : LeaseProgram LocalPortReservation) : Prop where
  preparing : s.preparing = .allocating rest
  obeys : rest.Obeys (unspoilt 0 s.process) (fun r t => t.Owns w r) (fun _ t => t.Made w [] [])
    s.leases
  reservation : s.provisioner.tunnelReservation = none
  ip : s.provisioner.originalConnectionIp = none
  ports : s.provisioner.originalConnectionPorts = []
  same : k.Same s.connection
  first : ∀ failure, s.main = .gathering failure → s.connection = k
  not_staging : s.main ≠ .staging
  releasing : ∀ rest e, s.main = .releasing rest e → rest = .ret ()

/-- There is a reservation, and the connection has been moved or not. -/
structure Holding (k : KernelConnection) (w : LeaseWorld) (s : Launch) (r : LocalPortReservation) :
    Prop where
  ended : ∀ rest, s.preparing ≠ .allocating rest
  reservation : s.provisioner.tunnelReservation = some r
  owns : s.leases.Owns w r
  connection : s.provisioner.originalConnectionIp = none ∧
      s.provisioner.originalConnectionPorts = [] ∧ k.Same s.connection ∨
    ∃ ip items tunnelPorts, s.provisioner.originalConnectionIp = some ip ∧
      k.OnTunnel s.connection ip s.provisioner.originalConnectionPorts items tunnelPorts
  main : s.main = .staging ∨ ∃ failure, s.main = .gathering failure

/-- The reservation is being released. -/
structure Releasing (k : KernelConnection) (w : LeaseWorld) (s : Launch) (rest : LeaseProgram Unit)
    (e : PyError) : Prop where
  ended : ∀ rest, s.preparing ≠ .allocating rest
  main : s.main = .releasing rest e
  obeys : rest.Obeys (succeeding 1 s.process) (fun _ t => t.Made w [] [])
    (fun _ _ => False) s.leases
  reservation : s.provisioner.tunnelReservation = none
  ip : s.provisioner.originalConnectionIp = none
  ports : s.provisioner.originalConnectionPorts = []
  same : k.Same s.connection

/-- There is no reservation, and there will be none. -/
structure Cleared (k : KernelConnection) (w : LeaseWorld) (s : Launch) : Prop where
  ended : ∀ rest, s.preparing ≠ .allocating rest
  made : s.leases.Made w [] []
  reservation : s.provisioner.tunnelReservation = none
  ip : s.provisioner.originalConnectionIp = none
  ports : s.provisioner.originalConnectionPorts = []
  same : k.Same s.connection
  failed : ∀ failure, s.main = .gathering failure → s.preparing = .failed
  not_staging : s.main ≠ .staging
  releasing : ∀ rest e, s.main = .releasing rest e → rest = .ret ()

/-- Where a launch is in a run of sound steps. -/
inductive Phase (k : KernelConnection) (w : LeaseWorld) (s : Launch) : Prop where
  | allocating (rest : LeaseProgram LocalPortReservation) (now : s.Allocating k w rest)
  | holding (r : LocalPortReservation) (now : s.Holding k w r)
  | releasing (rest : LeaseProgram Unit) (e : PyError) (now : s.Releasing k w rest e)
  | cleared (now : s.Cleared k w)
  | returned (ended : ∀ rest, s.preparing ≠ .allocating rest) (main : s.main = .returned)

variable {py : PythonLibrary} {fault : FileStep → Bool} {k : KernelConnection} {w : LeaseWorld}
variable {s s' : Launch} {e : PyError}

lemma fail_cases (s : Launch) (e : PyError) :
    s.fail e = s ∨ s.main = .gathering none
      ∧ s.fail e = { s with main := .gathering (some e) } := by
  unfold fail
  split
  · exact .inr ⟨‹_›, rfl⟩
  · exact .inl rfl

/-- The wait for SSH ends. -/
lemma Phase.waits (h : Phase k w s) (waiting : WaitTask) : Phase k w { s with waiting } := by
  cases h with
  | allocating rest now =>
      exact .allocating rest ⟨now.preparing, now.obeys, now.reservation, now.ip,
        now.ports, now.same, now.first, now.not_staging, now.releasing⟩
  | holding r now =>
      exact .holding r ⟨now.ended, now.reservation, now.owns, now.connection, now.main⟩
  | releasing rest e now =>
      exact .releasing rest e ⟨now.ended, now.main, now.obeys, now.reservation, now.ip, now.ports,
        now.same⟩
  | cleared now =>
      exact .cleared ⟨now.ended, now.made, now.reservation, now.ip, now.ports, now.same, now.failed,
        now.not_staging, now.releasing⟩
  | returned ended main => exact .returned ended main

/-- `gather` takes note of an exception. -/
lemma Phase.fails (h : Phase k w s) (e : PyError) : Phase k w (s.fail e) := by
  rcases s.fail_cases e with heq | ⟨hmain, heq⟩
  · rwa [heq]
  · rw [heq]
    cases h with
    | allocating rest now =>
        exact .allocating rest ⟨now.preparing, now.obeys, now.reservation, now.ip,
          now.ports, now.same, fun _ _ => now.first none hmain, by simp, by simp⟩
    | holding r now =>
        exact .holding r ⟨now.ended, now.reservation, now.owns, now.connection, .inr ⟨_, rfl⟩⟩
    | releasing rest e now => exact absurd (hmain.symm.trans now.main) (by simp)
    | cleared now =>
        exact .cleared ⟨now.ended, now.made, now.reservation, now.ip, now.ports, now.same,
          fun _ _ => now.failed none hmain, by simp, by simp⟩
    | returned ended main => exact absurd (hmain.symm.trans main) (by simp)

lemma waited_keeps {result : Except PyError Unit} (h : Phase k w s)
    (hnext : s.next py (.waited result) = some s') : Phase k w s' := by
  simp only [next] at hnext
  split at hnext
  · cases hnext
  · cases result with
    | ok =>
        cases hnext
        exact h.waits .ready
    | error e =>
        cases hnext
        exact (h.waits .failed).fails e
  · cases hnext

/-- One operation of a program that obeys. -/
lemma step_obeys {α : Type} {ok : Attempt → LeaseOp → LeaseChoice → Prop} {t t' : Attempt} {i : ℕ}
    {p : Process} {choice : LeaseChoice} {rest rest' : LeaseProgram α} {Q : α → Attempt → Prop}
    {R : PyError → Attempt → Prop} (h : rest.Obeys (calling ok i p) Q R t)
    (hok : ∀ o k, rest = .perform o k → ok t o choice)
    (hstep : t.step i p choice rest = some (rest', t')) : rest'.Obeys (calling ok i p) Q R t' := by
  cases rest with
  | ret a => cases hstep
  | raise e => cases hstep
  | perform o k =>
      obtain ⟨⟨r, w'⟩, hperform, heq⟩ := Option.map_eq_some_iff.mp hstep
      obtain ⟨rfl, rfl⟩ := Prod.mk.inj heq
      exact h.2 r _ ⟨choice, w', hok o k rfl, hperform, rfl⟩

lemma Phase.of_allocating {rest : LeaseProgram LocalPortReservation} (h : Phase k w s)
    (hpreparing : s.preparing = .allocating rest) :
    s.Allocating k w rest := by
  cases h with
  | allocating rest' now =>
      obtain rfl := PrepareTask.allocating.inj (hpreparing.symm.trans now.preparing)
      exact now
  | holding r now => exact absurd hpreparing (now.ended rest)
  | releasing _ _ now => exact absurd hpreparing (now.ended rest)
  | cleared now => exact absurd hpreparing (now.ended rest)
  | returned ended _ => exact absurd hpreparing (ended rest)

lemma allocate_keeps {choice : LeaseChoice} (h : Phase k w s)
    (hsound : s.Sound py (.allocate choice))
    (hnext : s.next py (.allocate choice) = some s') : Phase k w s' := by
  simp only [next] at hnext
  split at hnext
  · next rest hpreparing =>
      obtain ⟨⟨rest', leases⟩, hstep, rfl⟩ := Option.map_eq_some_iff.mp hnext
      have hnow := h.of_allocating hpreparing
      refine .allocating rest'
        { hnow with preparing := rfl, obeys := step_obeys hnow.obeys ?_ hstep }
      rintro o k rfl
      exact hsound o (by rw [hpreparing]; rfl)
  · cases hnext

/-- `_prepare_connection` goes on behind the allocation. -/
lemma prepareConnection_keeps {installed : Except PyError Unit} {r : LocalPortReservation}
    (howns : s.leases.Owns w r) (hip : s.provisioner.originalConnectionIp = none)
    (hports : s.provisioner.originalConnectionPorts = []) (hconnection : s.connection = k)
    (hmain : ∃ failure, s.main = .gathering failure) (hmoves : Moves py fault s.connection r) :
    Phase k w (s.prepareConnection py fault installed r) := by
  subst hconnection
  have hunmoved : ∀ connection e, s.connection.Same connection → Phase s.connection w
      ({ s with
        connection
        provisioner := { s.provisioner with tunnelReservation := some r }
        preparing := .failed }.fail e) := by
    intro connection e hsame
    have hended : Phase s.connection w { s with
        connection
        provisioner := { s.provisioner with tunnelReservation := some r }
        preparing := .failed } :=
      .holding r ⟨by simp, rfl, howns, .inl ⟨hip, hports, hsame⟩, .inr hmain⟩
    exact hended.fails e
  unfold prepareConnection
  rcases rewrite_cases fault py "127.0.0.1"
    (some (.iterable (r.ports.map fun port : ℕ => .int port)))
    s.connection with ⟨e, hrefused, -⟩ | ⟨items, originalPorts, tunnelPorts, haccepted⟩
  · simp only [hrefused]
    exact hunmoved s.connection e ⟨rfl, rfl⟩
  · have hrewrite := rewrite_of_accepted haccepted
    obtain ⟨hagrees, hfailed⟩ := hmoves items originalPorts tunnelPorts haccepted
    cases hreplace : replaceFile fault s.connection.directory.remoteTmp
        (rewrittenItems "127.0.0.1" items tunnelPorts) with
    | mk result remoteTmp =>
        rw [hreplace] at hrewrite
        cases result with
        | error e =>
            simp only [hrewrite]
            refine hunmoved _ e ⟨?_, rfl⟩
            refine (rewrittenParent_eq_self_iff haccepted.validTunnel).mpr
              (hfailed fun hwrites => ?_)
            obtain ⟨bytes, hbytes, -⟩ := documentBytes_of_readable (readable_rewritten haccepted)
            rw [replaceFile_of_writes hbytes hwrites] at hreplace
            cases hreplace
        | ok bytes =>
            obtain ⟨ip, hlookup, hcarries⟩ := hagrees (writes_of_replaceFile hreplace)
            have horiginal : originalIp py s.connection items = ip := by
              rw [originalIp, hlookup, Option.getD_some, py.text_str]
            obtain ⟨original, horiginalFile, horiginalDocument⟩ := haccepted.opens.document
            obtain ⟨path, hpath, hne⟩ := haccepted.opens.path
            have hon : s.connection.OnTunnel
                { parent := rewrittenParent "127.0.0.1" s.connection.parent tunnelPorts,
                  directory := { s.connection.directory with remoteTmp, file := some bytes } }
                ip originalPorts items tunnelPorts :=
              { tunnel := haccepted.validTunnel
                original := Option.bind_eq_some_iff.mpr ⟨original, horiginalFile, horiginalDocument⟩
                lookup_ip := hlookup
                lookup_ports := haccepted.original
                carried := hcarries
                parent := rfl
                document := documentBytes_of_replaceFile (readable_rewritten haccepted) hreplace
                path := ⟨path, (connectionFile_setPorts _ _).trans hpath, hne⟩
                no_link := haccepted.opens.no_link }
            simp only [hrewrite, horiginal]
            have hmoved : ∀ preparing, (∀ rest, preparing ≠ PrepareTask.allocating rest) →
                Phase s.connection w { s with
                  connection :=
                    { parent := rewrittenParent "127.0.0.1" s.connection.parent tunnelPorts,
                      directory := { s.connection.directory with remoteTmp, file := some bytes } }
                  provisioner := { s.provisioner with
                    tunnelReservation := some r
                    originalConnectionIp := some ip
                    originalConnectionPorts := originalPorts
                    tunnelPorts := tunnelPorts }
                  preparing } := fun preparing hended =>
              .holding r ⟨hended, rfl, howns, .inr ⟨ip, items, tunnelPorts, rfl, hon⟩, .inr hmain⟩
            cases installed with
            | error e => exact (hmoved .failed (by simp)).fails e
            | ok => exact hmoved .prepared (by simp)

lemma prepare_keeps {installed : Except PyError Unit} (h : Phase k w s)
    (hsound : s.Sound py (.prepare fault installed))
    (hnext : s.next py (.prepare fault installed) = some s') : Phase k w s' := by
  simp only [next] at hnext
  split at hnext
  · cases hnext
  · next reservation hpreparing _ =>
      obtain ⟨⟨failure, hmain⟩, hmoves⟩ := hsound reservation hpreparing
      have hnow := h.of_allocating hpreparing
      cases hnext
      exact prepareConnection_keeps hnow.obeys hnow.ip hnow.ports (hnow.first failure hmain)
        ⟨failure, hmain⟩ hmoves
  · next e hpreparing _ =>
      have hnow := h.of_allocating hpreparing
      cases hnext
      have hended : Phase k w { s with preparing := .failed } :=
        .cleared ⟨by simp, hnow.obeys, hnow.reservation, hnow.ip, hnow.ports,
          hnow.same, fun _ _ => rfl, hnow.not_staging, hnow.releasing⟩
      exact hended.fails e
  · cases hnext

/-- The handler of `pre_launch`. -/
lemma handle_keeps (h : Phase k w s)
    (hmain : s.main = .staging ∨ ∃ failure, s.main = .gathering failure)
    (hhandles : s.Handles fault) :
    Phase k w (s.handle fault e) := by
  have hnothing : s.provisioner.originalConnectionIp = none →
      s.provisioner.originalConnectionPorts = [] → k.Same s.connection →
      k.Same (restoreConnectionFile fault s.provisioner.originalConnectionIp
        (s.provisioner.originalConnectionPorts.map .int) s.connection).2 := by
    intro hip hports hsame
    rw [hip, hports]
    exact hsame.trans (restore_nothing fault s.connection)
  have hrelease : s.provisioner.tunnelReservation = none →
      ∀ rest e', PreLaunch.releasing s.provisioner.releaseTunnelPorts e = .releasing rest e' →
        rest = .ret () := by
    rintro hreservation rest e' ⟨⟩
    rw [Provisioner.releaseTunnelPorts, hreservation]
    rfl
  unfold handle
  cases hrestore : restoreConnectionFile fault s.provisioner.originalConnectionIp
      (s.provisioner.originalConnectionPorts.map .int) s.connection with
  | mk result connection =>
      cases h with
      | allocating rest now =>
          have hsame := hnothing now.ip now.ports now.same
          rw [hrestore] at hsame
          cases result with
          | error e' =>
              exact .allocating rest ⟨now.preparing, now.obeys, now.reservation, now.ip,
                now.ports, hsame, by simp, by simp, by simp⟩
          | ok =>
              exact .allocating rest ⟨now.preparing, now.obeys, rfl, rfl, rfl,
                hsame, by simp, by simp, hrelease now.reservation⟩
      | holding r now =>
          obtain ⟨hraises, hwrites⟩ := hhandles
          have hno : ¬ RestoreRaises fault s.connection := hraises (by rw [now.reservation]; simp)
          obtain ⟨rfl, hsame⟩ : result = .ok () ∧ k.Same connection := by
            rcases now.connection with ⟨hip, hports, hsame⟩ | ⟨ip, items, tunnelPorts, hip, hon⟩
            · have hok := restore_nothing_ok hno
              have hrestored := hnothing hip hports hsame
              rw [hip, hports, List.map_nil] at hrestore hrestored
              rw [hrestore] at hok hrestored
              exact ⟨hok, hrestored⟩
            · obtain ⟨k', hrestored, hsame⟩ := restore_onTunnel hon hno (hwrites ip hip)
              rw [hip, hrestored] at hrestore
              obtain ⟨rfl, rfl⟩ := Prod.mk.inj hrestore
              exact ⟨rfl, hsame⟩
          refine .releasing _ e ⟨now.ended, rfl, ?_, rfl, rfl, rfl, hsame⟩
          rw [Provisioner.releaseTunnelPorts, now.reservation]
          exact release_made now.owns
      | releasing rest e' now =>
          rw [now.main] at hmain
          simp at hmain
      | cleared now =>
          have hsame := hnothing now.ip now.ports now.same
          rw [hrestore] at hsame
          cases result with
          | error e' =>
              exact .cleared ⟨now.ended, now.made, now.reservation, now.ip,
                now.ports, hsame, by simp, by simp, by simp⟩
          | ok =>
              exact .cleared ⟨now.ended, now.made, rfl, rfl, rfl, hsame, by simp, by simp,
                hrelease now.reservation⟩
      | returned ended main =>
          rw [main] at hmain
          simp at hmain

lemma gathered_keeps (h : Phase k w s) (hsound : s.Sound py (.gathered fault))
    (hnext : s.next py (.gathered fault) = some s') : Phase k w s' := by
  simp only [next] at hnext
  split at hnext
  · next e hmain =>
      cases hnext
      exact handle_keeps h (.inr ⟨_, hmain⟩) (hsound e hmain)
  · next hmain hwaiting hprepared =>
      cases hnext
      cases h with
      | allocating rest now => exact absurd (hprepared.symm.trans now.preparing) (by simp)
      | holding r now =>
          exact .holding r ⟨now.ended, now.reservation, now.owns, now.connection, .inl rfl⟩
      | releasing rest e now => exact absurd (hmain.symm.trans now.main) (by simp)
      | cleared now => exact absurd (hprepared.symm.trans (now.failed none hmain)) (by simp)
      | returned ended main => exact absurd (hmain.symm.trans main) (by simp)
  · cases hnext

lemma staged_keeps {result : Except PyError Unit} (h : Phase k w s)
    (hsound : s.Sound py (.staged result fault))
    (hnext : s.next py (.staged result fault) = some s') :
    Phase k w s' := by
  simp only [next] at hnext
  split at hnext
  · next hmain =>
      cases hnext
      cases h with
      | allocating rest now => exact absurd hmain now.not_staging
      | holding r now => exact .returned now.ended rfl
      | releasing rest e now => exact absurd (hmain.symm.trans now.main) (by simp)
      | cleared now => exact absurd hmain now.not_staging
      | returned ended main => exact absurd (hmain.symm.trans main) (by simp)
  · next e hmain =>
      cases hnext
      exact handle_keeps h (.inl hmain) (hsound e rfl)
  · cases hnext

/-- What `_release_tunnel_ports` has before it: nothing, or the release of the reservation. -/
lemma Phase.of_releasing {rest : LeaseProgram Unit} (h : Phase k w s)
    (hmain : s.main = .releasing rest e) : rest = .ret () ∨ s.Releasing k w rest e := by
  cases h with
  | allocating rest' now => exact .inl (now.releasing rest e hmain)
  | holding r now =>
      have hnow := now.main
      rw [hmain] at hnow
      simp at hnow
  | releasing rest' e' now =>
      obtain ⟨rfl, rfl⟩ := PreLaunch.releasing.inj (hmain.symm.trans now.main)
      exact .inr now
  | cleared now => exact .inl (now.releasing rest e hmain)
  | returned ended main => exact absurd (hmain.symm.trans main) (by simp)

lemma release_keeps {choice : LeaseChoice} (h : Phase k w s) (hsound : s.Sound py (.release choice))
    (hnext : s.next py (.release choice) = some s') : Phase k w s' := by
  simp only [next] at hnext
  split at hnext
  · next rest e hmain =>
      obtain ⟨⟨rest', leases⟩, hstep, rfl⟩ := Option.map_eq_some_iff.mp hnext
      rcases h.of_releasing hmain with rfl | now
      · cases hstep
      · refine .releasing rest' e ⟨now.ended, rfl, step_obeys now.obeys ?_ hstep,
          now.reservation, now.ip, now.ports, now.same⟩
        rintro o k rfl
        exact hsound o (by rw [hmain]; rfl)
  · cases hnext

/-- Behind `gather` and the release, `pre_launch` only goes on to its end. -/
lemma Phase.ends (h : Phase k w s)
    (hmain : (∃ e, s.main = .releasing (.ret ()) e) ∨ ∃ e, s.main = .destroying e)
    (hprovisioner : ∃ runtimeName runtimeCreated tunnelPorts, s'.provisioner = { s.provisioner with
      runtimeName, runtimeCreated, tunnelPorts })
    (hsame : s'.process = s.process ∧ s'.connection = s.connection ∧ s'.leases = s.leases ∧
      s'.preparing = s.preparing)
    (hmain' : (∃ e, s'.main = .destroying e) ∨ ∃ e, s'.main = .raised e) : Phase k w s' := by
  obtain ⟨process, provisioner, connection, leases, waiting, preparing, main⟩ := s'
  obtain ⟨rfl, rfl, rfl, rfl⟩ := hsame
  obtain ⟨runtimeName, runtimeCreated, tunnelPorts, rfl⟩ := hprovisioner
  have hgathering : ∀ failure, main ≠ .gathering failure := by
    rintro failure rfl
    simp at hmain'
  have hstaging : main ≠ .staging := by
    rintro rfl
    simp at hmain'
  have hreleasing : ∀ rest e, main = .releasing rest e → rest = .ret () := by
    rintro rest e rfl
    simp at hmain'
  cases h with
  | allocating rest now =>
      exact .allocating rest ⟨now.preparing, now.obeys, now.reservation, now.ip,
        now.ports, now.same, fun failure heq => absurd heq (hgathering failure),
        hstaging, hreleasing⟩
  | holding r now =>
      rcases now.main with heq | ⟨failure, heq⟩
      · rw [heq] at hmain
        simp at hmain
      · rw [heq] at hmain
        simp at hmain
  | releasing rest e now =>
      rw [now.main] at hmain
      obtain ⟨e', heq⟩ := hmain.resolve_right (by simp)
      obtain ⟨rfl, rfl⟩ := PreLaunch.releasing.inj heq
      exact .cleared ⟨now.ended, now.obeys, now.reservation, now.ip, now.ports, now.same,
        fun failure heq => absurd heq (hgathering failure), hstaging, hreleasing⟩
  | cleared now =>
      exact .cleared ⟨now.ended, now.made, now.reservation, now.ip, now.ports, now.same,
        fun failure heq => absurd heq (hgathering failure), hstaging, hreleasing⟩
  | returned ended main =>
      rw [main] at hmain
      simp at hmain

lemma released_keeps (h : Phase k w s) (hnext : s.next py .released = some s') : Phase k w s' := by
  simp only [next] at hnext
  split at hnext
  · next e hmain =>
      have hforgets : ∀ tunnelPorts, Phase k w
          (({ s with provisioner := { s.provisioner with tunnelPorts } } : Launch).forget e) :=
        fun tunnelPorts => h.ends (.inl ⟨e, hmain⟩) ⟨none, false, tunnelPorts, rfl⟩
          ⟨rfl, rfl, rfl, rfl⟩ (.inr ⟨e, rfl⟩)
      split at hnext
      · split_ifs at hnext
        · cases hnext
          exact h.ends (.inl ⟨e, hmain⟩) ⟨_, _, [], rfl⟩ ⟨rfl, rfl, rfl, rfl⟩ (.inl ⟨e, rfl⟩)
        · cases hnext
          exact hforgets []
      · cases hnext
        exact hforgets []
  · next e e' hmain =>
      rcases h.of_releasing hmain with hret | now
      · cases hret
      · exact now.obeys.elim
  · cases hnext

lemma destroyed_keeps {result : Except PyError Unit} (h : Phase k w s)
    (hnext : s.next py (.destroyed result) = some s') : Phase k w s' := by
  simp only [next] at hnext
  split at hnext
  · next e hmain =>
      have hforget : ∀ e', Phase k w (s.forget e') := fun e' =>
        h.ends (.inr ⟨e, hmain⟩) ⟨none, false, _, rfl⟩ ⟨rfl, rfl, rfl, rfl⟩ (.inr ⟨e', rfl⟩)
      cases result with
      | ok =>
          cases hnext
          exact hforget e
      | error e' =>
          cases hnext
          exact hforget e'
  · cases hnext

/-- **A sound step goes from phase to phase.** -/
theorem next_keeps {step : LaunchStep} (h : Phase k w s) (hsound : s.Sound py step)
    (hnext : s.next py step = some s') : Phase k w s' := by
  cases step with
  | waited result => exact waited_keeps h hnext
  | allocate choice => exact allocate_keeps h hsound hnext
  | prepare fault installed => exact prepare_keeps h hsound hnext
  | gathered fault => exact gathered_keeps h hsound hnext
  | staged result fault => exact staged_keeps h hsound hnext
  | release choice => exact release_keeps h hsound hnext
  | released => exact released_keeps h hnext
  | destroyed result => exact destroyed_keeps h hnext

lemma phase_start (process : Process) (runtimeName : Str) (pool : Except PyError LocalPortLeasePool)
    (k : KernelConnection) (w : LeaseWorld) : Phase k w (start process runtimeName pool k w) := by
  cases pool with
  | error e =>
      exact .cleared ⟨by simp [start], Attempt.made_fresh w, rfl, rfl, rfl,
        ⟨rfl, rfl⟩, fun _ _ => rfl, by simp [start], by simp [start]⟩
  | ok pool =>
      exact .allocating _ ⟨rfl, allocatePool_makes, rfl, rfl, rfl, ⟨rfl, rfl⟩, fun _ _ => rfl,
        by simp [start], by simp [start]⟩

end Launch

end FreebsdLaboratory
