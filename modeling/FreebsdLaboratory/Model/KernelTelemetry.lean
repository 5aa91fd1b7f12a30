import Mathlib.Data.Finset.Basic
import FreebsdLaboratory.Library.BoundedDeque
import FreebsdLaboratory.Library.Json

/-!
# Kernel errors that are reported once

`kernel_telemetry.py`: every websocket connection to a kernel sees the kernel's errors, and the
first one to see an error reports it.  The ids of the errors that were reported are kept in a
bounded queue and, for the test, in a set; both belong to the class, so that all connections share
them.
-/

namespace FreebsdLaboratory

open Library Library.Unicode Library.Json

/-- `_kernel_error_values(header, content)` -/
def kernelErrorValues (header content : Value) : Option (Value × Value) :=
  match header, content with
  | .dict header, .dict content =>
      match Value.lookup header (str "msg_type") with
      | some (.str kind) =>
          if kind = str "error" then
            some ((Value.lookup content (str "ename")).getD .none,
              (Value.lookup content (str "evalue")).getD .none)
          else none
      | _ => none
  | _, _ => none

/-- `_recent_error_ids.maxlen` -/
def maxRecentErrors : ℕ := 1024

/-- `_recent_error_ids` and `_recent_error_id_set` -/
structure RecentErrors where
  recentErrorIds : Deque Str maxRecentErrors := Deque.empty
  recentErrorIdSet : Finset Str := ∅

namespace RecentErrors

/-- The oldest id is given up where the queue is full. -/
def expire (r : RecentErrors) : RecentErrors :=
  if h : r.recentErrorIds.items.length = maxRecentErrors then
    let (expired, ids) := r.recentErrorIds.popleft (by
      intro hnil
      simp [hnil, maxRecentErrors] at h)
    ⟨ids, r.recentErrorIdSet.erase expired⟩
  else r

/-- `_first_observation(message_id)`, and what it leaves behind. -/
def firstObservation (r : RecentErrors) (messageId : Value) : Bool × RecentErrors :=
  match messageId with
  | .str messageId =>
      if messageId = [] then (true, r)
      else if messageId ∈ r.recentErrorIdSet then (false, r)
      else
        let r := r.expire
        (true, ⟨r.recentErrorIds.append messageId, insert messageId r.recentErrorIdSet⟩)
  | _ => (true, r)

/-- `_on_error`, by the parts of the message: what is captured, and what is left behind. -/
def onError (r : RecentErrors) (channel : Option Str) (header content : Value) :
    Option (Value × Value) × RecentErrors :=
  if channel = some (str "iopub") then
    match header, kernelErrorValues header content with
    | .dict items, some values =>
        let (first, r) := r.firstObservation ((Value.lookup items (str "msg_id")).getD .none)
        (if first then some values else none, r)
    | _, _ => (none, r)
  else (none, r)

/-- The answers for one id after the other. -/
def observe : RecentErrors → List Value → List Bool × RecentErrors
  | r, [] => ([], r)
  | r, messageId :: messageIds =>
      let (first, r) := r.firstObservation messageId
      let (answers, r) := observe r messageIds
      (first :: answers, r)

end RecentErrors

end FreebsdLaboratory
