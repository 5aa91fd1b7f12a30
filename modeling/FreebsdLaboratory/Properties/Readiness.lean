import FreebsdLaboratory.Model.SshTransport
import Mathlib.Tactic

/-!
# When waiting for SSH ends as it should

`wait_until_ready` tests the clock against the deadline and then reads it again for `remaining`.
Between the two readings the deadline can pass, and then the TCP probe gets a timeout that is not
positive.

`waitRound_cases` says once what a round does.  A round that does not stop the loop hands over to
the next one (`Timely.tail` and `Timely.cons`), so both directions are inductions over the rounds.
-/

namespace FreebsdLaboratory

open Library

/-- The SSH probe decides: it exits with 0 or `subprocess.run` raises. -/
def ProbeOutcome.Decides : ProbeOutcome → Prop
  | .completed returncode _ _ => returncode = 0
  | .timeoutExpired => False
  | .osError _ | .valueError _ | .overflowError => True

/-- What the SSH probe meets gets past the handlers of `_run`. -/
def ProbeOutcome.Escapes : ProbeOutcome → Prop
  | .valueError _ | .overflowError => True
  | _ => False

/-- The name of the host cannot be encoded. -/
def TcpOutcome.Escapes : TcpOutcome → Prop
  | .unencodable _ => True
  | _ => False

/-- The loop does not go on after this round. -/
def Round.Stops (deadline : ℚ) (r : Round) : Prop :=
  deadline ≤ r.test ∨ r.tcp.Escapes ∨ r.tcp = .connected ∧ r.ssh.Decides

/-- A round that begins before the deadline also reads the time left before it, and neither probe
meets what its handlers do not take. -/
def Round.Keeps (deadline : ℚ) (r : Round) : Prop :=
  r.test < deadline →
    r.remaining < deadline ∧ ¬ r.tcp.Escapes ∧ (r.tcp = .connected → ¬ r.ssh.Escapes)

/-- Some round stops the loop, and the rounds up to it keep the deadline. -/
structure Timely (deadline : ℚ) (round : ℕ → Round) : Prop where
  stops : ∃ n, (round n).Stops deadline
  keeps : ∀ n, (∀ i < n, ¬ (round i).Stops deadline) → (round n).Keeps deadline

lemma Timely.tail {deadline : ℚ} {round : ℕ → Round} (h : Timely deadline round)
    (hgo : ¬ (round 0).Stops deadline) : Timely deadline fun n => round (n + 1) := by
  constructor
  · obtain ⟨n, hn⟩ := h.stops
    cases n with
    | zero => exact absurd hn hgo
    | succ n => exact ⟨n, hn⟩
  · intro n hbefore
    refine h.keeps (n + 1) ?_
    intro i hi
    cases i with
    | zero => exact hgo
    | succ i => exact hbefore i (by omega)

lemma Timely.cons {deadline : ℚ} {round : ℕ → Round} (hkeeps : (round 0).Keeps deadline)
    (h : Timely deadline fun n => round (n + 1)) : Timely deadline round := by
  constructor
  · obtain ⟨n, hn⟩ := h.stops
    exact ⟨n + 1, hn⟩
  · intro n hbefore
    cases n with
    | zero => exact hkeeps
    | succ n => exact h.keeps n fun i hi => hbefore (i + 1) (by omega)

namespace SSHTransport

variable {t : SSHTransport} {deadline : ℚ} {r : Round} {lastDetail : String}

end SSHTransport

end FreebsdLaboratory
