import FreebsdLaboratory.Properties.Stages

/-!
# Secrets do not show

Two values are alike if they differ only in what stands under sensitive keys.  `redactPayload` takes
alike values to the same value, and everything a record call does with a payload, its errors
included, it does with the redacted one.  So runs on alike payloads cannot be told apart, neither by
their outcomes nor by what they leave behind.

A set is given by its elements in the order of iteration, which is a part of the value; redacted
elements are sorted by what is left of them, so the order that is persisted shows nothing else.
-/

namespace FreebsdLaboratory

open Library Library.Unicode Library.Json

variable {m : LabService} {E : Ed25519} {v w : Value}

mutual

/-- The values are the same, except for what stands under sensitive keys. -/
def Alike : Value → Value → Prop
  | .none, w => w = .none
  | .bool b, w => w = .bool b
  | .int z, w => w = .int z
  | .float literal, w => w = .float literal
  | .str s, w => w = .str s
  | .seq tuple xs, w => ∃ ys, w = .seq tuple ys ∧ AlikeAll xs ys
  | .set frozen xs, w => ∃ ys, w = .set frozen ys ∧ AlikeAll xs ys
  | .dict items, w => ∃ items', w = .dict items' ∧ AlikeItems items items'
  | .object name, w => w = .object name

def AlikeAll : List Value → List Value → Prop
  | [], ys => ys = []
  | x :: xs, ys => ∃ y ys', ys = y :: ys' ∧ Alike x y ∧ AlikeAll xs ys'

/-- The same keys, and alike values under those that are not sensitive. -/
def AlikeItems : Items → Items → Prop
  | [], items' => items' = []
  | (key, v) :: items, items' => ∃ w rest, items' = (key, w) :: rest
      ∧ (isSensitiveKey key = true ∨ Alike v w) ∧ AlikeItems items rest

end

lemma typeName_alike (h : Alike v w) : typeName v = typeName w := by
  cases v with
  | seq tuple xs | set frozen xs | dict items =>
      obtain ⟨_, rfl, -⟩ := h
      rfl
  | _ =>
      obtain rfl := h
      rfl

mutual

/-- **Redaction takes alike values to the same value**, or fails on both for the same reason. -/
theorem redactPayload_alike : ∀ (v : Value) {w : Value}, Alike v w →
    redactPayload v = redactPayload w
  | .none, w, h | .bool _, w, h | .int _, w, h | .float _, w, h | .str _, w, h
  | .object _, w, h => by rw [h]
  | .seq _ xs, w, h => by
      obtain ⟨ys, rfl, hall⟩ := h
      rw [redactPayload, redactPayload, redactAll_alike xs hall]
  | .set _ xs, w, h => by
      obtain ⟨ys, rfl, hall⟩ := h
      rw [redactPayload, redactPayload, redactSet_alike xs hall]
  | .dict items, w, h => by
      obtain ⟨items', rfl, hitems⟩ := h
      rw [redactPayload, redactPayload, redactItems_alike items hitems]

theorem redactAll_alike : ∀ (xs : List Value) {ys : List Value}, AlikeAll xs ys →
    redactAll xs = redactAll ys
  | [], ys, h => by rw [h]
  | x :: xs, ys, h => by
      obtain ⟨y, ys', rfl, hx, hxs⟩ := h
      rw [redactAll, redactAll, redactPayload_alike x hx, redactAll_alike xs hxs]

theorem redactSet_alike : ∀ (xs : List Value) {ys : List Value}, AlikeAll xs ys →
    redactSet xs = redactSet ys
  | [], ys, h => by rw [h]
  | x :: xs, ys, h => by
      obtain ⟨y, ys', rfl, hx, hxs⟩ := h
      rw [redactSet, redactSet, redactPayload_alike x hx, redactSet_alike xs hxs,
        typeName_alike hx]

theorem redactItems_alike : ∀ (items : Items) {items' : Items}, AlikeItems items items' →
    redactItems items = redactItems items'
  | [], items', h => by rw [h]
  | (key, v) :: items, items', h => by
      obtain ⟨w, rest, rfl, hvalue, hrest⟩ := h
      rw [redactItems, redactItems, redactItems_alike items hrest]
      rcases hvalue with hsensitive | halike
      · rw [if_pos hsensitive, if_pos hsensitive]
      · rw [redactPayload_alike v halike]

end

/-! ## Calls -/

/-- A call keeps the same payload of alike values. -/
lemma safePayload_alike {kind : Str} (h : Alike v w) : m.safePayload kind v
    = m.safePayload kind w := by
  cases v with
  | dict items =>
      have hredact := redactPayload_alike _ h
      obtain ⟨items', rfl, -⟩ := h
      unfold LabService.safePayload
      dsimp only
      rw [hredact]
  | seq tuple xs | set frozen xs =>
      obtain ⟨_, rfl, -⟩ := h
      rfl
  | _ =>
      obtain rfl := h
      rfl

lemma nextEvent_alike {kind source : Str} {now : String} (h : Alike v w) (s : Session) :
    m.nextEvent kind v source now s = m.nextEvent kind w source now s := by
  unfold LabService.nextEvent
  rw [safePayload_alike h]

lemma record_alike {kind source : Str} {now : String} {a : AppendAnswer} (h : Alike v w) :
    m.record kind v source now a = m.record kind w source now a := by
  funext s
  rw [record_eq, record_eq, nextEvent_alike h]

/-- The calls are the same, with alike payloads. -/
inductive SessionCall.Alike : SessionCall → SessionCall → Prop where
  | record {v w : Value} (r : Recorder) (kind : Value) (now : String) (a : AppendAnswer) :
      FreebsdLaboratory.Alike v w → Alike (.record r kind v now a) (.record r kind w now a)
  | exportBundle (a : ExportAnswer) : Alike (.exportBundle a) (.exportBundle a)

/-- **The step lemma**: alike calls do the same. -/
theorem call_alike {call call' : SessionCall} (h : call.Alike call') :
    m.call E call = m.call E call' := by
  cases h with
  | record r kind now a halike =>
      unfold LabService.call LabService.recordEvent
      cases kind <;> simp only [record_alike halike]
  | exportBundle a => rfl

/-- The outcomes of calls, one after the other. -/
def LabService.outcomes (m : LabService) (E : Ed25519) :
    List SessionCall → Session → List (Except ServiceError Returned)
  | [], _ => []
  | call :: calls, s => (m.call E call s).1 :: m.outcomes E calls (m.after E call s)

/-- **Alike runs cannot be told apart**: every call ends in the same way, the events and the files
are the same, and so is the state. -/
theorem secrets_do_not_show {calls calls' : List SessionCall}
    (h : List.Forall₂ SessionCall.Alike calls calls') (s : Session) :
    m.outcomes E calls s = m.outcomes E calls' s
      ∧ m.afterAll E calls s = m.afterAll E calls' s
      ∧ m.state (m.afterAll E calls s) = m.state (m.afterAll E calls' s)
      ∧ ∀ a, m.export E a (m.afterAll E calls s) = m.export E a (m.afterAll E calls' s) := by
  have hruns : m.outcomes E calls s = m.outcomes E calls' s
      ∧ m.afterAll E calls s = m.afterAll E calls' s := by
    induction h generalizing s with
    | nil => exact ⟨rfl, rfl⟩
    | @cons call call' calls calls' hcall _ ih =>
        have hsame : m.call E call = m.call E call' := call_alike hcall
        have hafter : m.after E call s = m.after E call' s := by
          rw [LabService.after, LabService.after, hsame]
        obtain ⟨houtcomes, hsessions⟩ := ih (m.after E call' s)
        refine ⟨?_, ?_⟩
        · rw [LabService.outcomes, LabService.outcomes, hsame, hafter, houtcomes]
        · rw [LabService.afterAll, List.foldl_cons, hafter]
          exact hsessions
  refine ⟨hruns.1, hruns.2, by rw [hruns.2], fun a => by rw [hruns.2]⟩

/-- A payload with a token under two keys, one of them inside a list. -/
def tokenPayload (token : String) : Value :=
  .dict [(str "api_token", .str (str token)), (str "markdown_cells", .int 2),
    (str "cells",
      .seq false [.dict [(str "password", .str (str token)), (str "title", .str (str "one"))]])]

/-- An observation, a call of a kind that nobody may record, and an export. -/
def tokenCalls (token : String) : List SessionCall :=
  [.record .client (.str notebookContext) (tokenPayload token) "2026-01-01T00:00:01+00:00"
      (.writes 0 true true),
    .record .client (.str (str "lab-solved")) (tokenPayload token) "2026-01-01T00:00:02+00:00"
      (.writes 0 true true),
    .exportBundle exportAnswer]

theorem secrets_do_not_show_of_token :
    let one := plainService.afterAll .single (tokenCalls "one") Session.fresh
    let another := plainService.afterAll .single (tokenCalls "another") Session.fresh
    plainService.outcomes .single (tokenCalls "one") Session.fresh
        = plainService.outcomes .single (tokenCalls "another") Session.fresh
      ∧ one = another ∧ plainService.state one = plainService.state another
      ∧ ∀ a, plainService.export .single a one = plainService.export .single a another := by
  have hcell : AlikeItems [(str "password", .str (str "one")), (str "title", .str (str "one"))]
      [(str "password", .str (str "another")), (str "title", .str (str "one"))] :=
    ⟨_, _, rfl, .inl (by decide), _, _, rfl, .inr rfl, rfl⟩
  have hpayload : Alike (tokenPayload "one") (tokenPayload "another") :=
    ⟨_, rfl, _, _, rfl, .inl (by decide), _, _, rfl, .inr rfl, _, _, rfl,
      .inr ⟨_, rfl, _, _, rfl, ⟨_, rfl, hcell⟩, rfl⟩, rfl⟩
  have hcalls : List.Forall₂ SessionCall.Alike (tokenCalls "one") (tokenCalls "another") :=
    .cons (.record _ _ _ _ hpayload)
      (.cons (.record _ _ _ _ hpayload) (.cons (.exportBundle _) .nil))
  exact secrets_do_not_show hcalls Session.fresh

end FreebsdLaboratory
