import Mathlib.Logic.Basic

/-!
# Programs as trees of atomic operations

A `Prog Resp ε α` is a program that performs atomic operations `o`, receives a response of type
`Resp o` for each, and ends by returning an `α` or raising an `ε`.  Nothing says what an operation
does: that is left to whoever runs the tree, so the same text of a program can be run alone, run
next to other programs one operation at a time, or cut off between two operations.

`tryCatch` and `finallyDo` are the two control structures of a language with exceptions; together
with `bind` they are all a direct translation of straight-line code, handlers and bounded loops
needs.

`Obeys` reads a program against a `Protocol`: states, which operations a state permits and where
each response leads.  It is a weakest precondition: the lemmas about `bind`, `tryCatch` and
`finallyDo` are equivalences, so a program is checked by running through its text once.  A protocol
state can be a thread's knowledge about itself, the whole world the program runs in, or both.
-/

namespace Library

variable {Op : Type} {Resp : Op → Type} {ε α β σ : Type}

/-- A program: return, raise, or one operation followed by a continuation on its response. -/
inductive Prog {Op : Type} (Resp : Op → Type) (ε α : Type) where
  | ret (a : α)
  | raise (e : ε)
  | perform (o : Op) (k : Resp o → Prog Resp ε α)

namespace Prog

/-- Sequencing; a raised exception skips the continuation. -/
def bind : Prog Resp ε α → (α → Prog Resp ε β) → Prog Resp ε β
  | ret a, f => f a
  | raise e, _ => raise e
  | perform o k, f => perform o fun r => (k r).bind f

instance : Monad (Prog Resp ε) where
  pure := ret
  bind := bind

/-- One operation on its own. -/
def op (Resp : Op → Type) (ε : Type) (o : Op) : Prog Resp ε (Resp o) :=
  perform o ret

/-- `try p except e: h e`. -/
def tryCatch : Prog Resp ε α → (ε → Prog Resp ε α) → Prog Resp ε α
  | ret a, _ => ret a
  | raise e, h => h e
  | perform o k, h => perform o fun r => (k r).tryCatch h

/-- `try p finally q`: the outcome of `p`, unless `q` itself raises. -/
def finallyDo : Prog Resp ε α → Prog Resp ε Unit → Prog Resp ε α
  | ret a, q => q.bind fun _ => ret a
  | raise e, q => q.bind fun _ => raise e
  | perform o k, q => perform o fun r => (k r).finallyDo q

/-- A computed outcome as a program. -/
def ofExcept : Except ε α → Prog Resp ε α
  | .ok a => ret a
  | .error e => raise e

/-- `for x in xs: body x`. -/
def forEach {ι : Type} : List ι → (ι → Prog Resp ε Unit) → Prog Resp ε Unit
  | [], _ => ret ()
  | x :: xs, body => (body x).bind fun _ => forEach xs body

end Prog

/-! ## Protocols -/

/-- States, the operations each state permits, and the states a response can lead to. -/
structure Protocol {Op : Type} (Resp : Op → Type) (σ : Type) where
  permits : σ → Op → Prop
  moves : σ → (o : Op) → Resp o → σ → Prop

/-- A protocol whose state is a function of the responses seen; `admits` says which responses are
still possible. -/
def Protocol.ofNext (permits : σ → Op → Prop) (admits : σ → (o : Op) → Resp o → Prop)
    (next : σ → (o : Op) → Resp o → σ) : Protocol Resp σ where
  permits := permits
  moves s o r s' := admits s o r ∧ s' = next s o r

namespace Prog

/-- From `s`, every operation of the program is permitted when it is reached; it returns only
with `Q` and raises only with `R`. -/
def Obeys (T : Protocol Resp σ) (Q : α → σ → Prop) (R : ε → σ → Prop) :
    Prog Resp ε α → σ → Prop
  | ret a, s => Q a s
  | raise e, s => R e s
  | perform o k, s => T.permits s o ∧ ∀ r s', T.moves s o r s' → (k r).Obeys T Q R s'

section Rules

variable {T : Protocol Resp σ} {Q : α → σ → Prop} {R : ε → σ → Prop} {s : σ}

@[simp] theorem obeys_pure {a : α} :
    (pure a : Prog Resp ε α).Obeys T Q R s ↔ Q a s := Iff.rfl

@[simp] theorem obeys_ret {a : α} : (ret a : Prog Resp ε α).Obeys T Q R s ↔ Q a s := Iff.rfl

@[simp] theorem obeys_raise {e : ε} : (raise e : Prog Resp ε α).Obeys T Q R s ↔ R e s := Iff.rfl

@[simp] theorem obeys_op {o : Op} {Q : Resp o → σ → Prop} :
    (op Resp ε o).Obeys T Q R s
      ↔ T.permits s o ∧ ∀ r s', T.moves s o r s' → Q r s' := Iff.rfl

@[simp] theorem obeys_bind {p : Prog Resp ε α} {f : α → Prog Resp ε β} {Q : β → σ → Prop} :
    (p >>= f).Obeys T Q R s ↔ p.Obeys T (fun a s => (f a).Obeys T Q R s) R s := by
  show (p.bind f).Obeys T Q R s ↔ _
  induction p generalizing s with
  | ret a => exact Iff.rfl
  | raise e => exact Iff.rfl
  | perform o k ih =>
      exact and_congr_right fun _ => forall₂_congr fun r _ => imp_congr_right fun _ => ih r

@[simp] theorem obeys_tryCatch {p : Prog Resp ε α} {h : ε → Prog Resp ε α} :
    (p.tryCatch h).Obeys T Q R s ↔ p.Obeys T Q (fun e s => (h e).Obeys T Q R s) s := by
  induction p generalizing s with
  | ret a => exact Iff.rfl
  | raise e => exact Iff.rfl
  | perform o k ih =>
      exact and_congr_right fun _ => forall₂_congr fun r _ => imp_congr_right fun _ => ih r

@[simp] theorem obeys_finallyDo {p : Prog Resp ε α} {q : Prog Resp ε Unit} :
    (p.finallyDo q).Obeys T Q R s
      ↔ p.Obeys T (fun a s => q.Obeys T (fun _ s => Q a s) R s)
          (fun e s => q.Obeys T (fun _ s => R e s) R s) s := by
  induction p generalizing s with
  | ret a => exact obeys_bind (p := q)
  | raise e => exact obeys_bind (p := q)
  | perform o k ih =>
      exact and_congr_right fun _ => forall₂_congr fun r _ => imp_congr_right fun _ => ih r

@[simp] theorem obeys_ofExcept {x : Except ε α} :
    (ofExcept x : Prog Resp ε α).Obeys T Q R s
      ↔ (∀ a, x = .ok a → Q a s) ∧ ∀ e, x = .error e → R e s := by
  cases x <;> simp [ofExcept]

/-- Weakening both outcomes. -/
theorem Obeys.mono {Q' : α → σ → Prop} {R' : ε → σ → Prop} {p : Prog Resp ε α}
    (h : p.Obeys T Q R s) (hQ : ∀ a s, Q a s → Q' a s) (hR : ∀ e s, R e s → R' e s) :
    p.Obeys T Q' R' s := by
  induction p generalizing s with
  | ret a => exact hQ a s h
  | raise e => exact hR e s h
  | perform o k ih => exact ⟨h.1, fun r s' hs => ih r (h.2 r s' hs)⟩

/-- Two readings of one program. -/
theorem Obeys.and {Q' : α → σ → Prop} {R' : ε → σ → Prop} {p : Prog Resp ε α}
    (h : p.Obeys T Q R s) (h' : p.Obeys T Q' R' s) :
    p.Obeys T (fun a s => Q a s ∧ Q' a s) (fun e s => R e s ∧ R' e s) s := by
  induction p generalizing s with
  | ret a => exact ⟨h, h'⟩
  | raise e => exact ⟨h, h'⟩
  | perform o k ih => exact ⟨h.1, fun r s' hs => ih r (h.2 r s' hs) (h'.2 r s' hs)⟩

/-- A family of facts about the ends of a program. -/
theorem Obeys.all {ι : Type} [Nonempty ι] {Q : ι → α → σ → Prop} {R : ι → ε → σ → Prop}
    {p : Prog Resp ε α} (h : ∀ i, p.Obeys T (Q i) (R i) s) :
    p.Obeys T (fun a s => ∀ i, Q i a s) (fun e s => ∀ i, R i e s) s := by
  induction p generalizing s with
  | ret a => exact h
  | raise e => exact h
  | perform o k ih =>
      obtain ⟨i⟩ := ‹Nonempty ι›
      exact ⟨(h i).1, fun r s' hs' => ih r fun j => (h j).2 r s' hs'⟩

/-- Where what is permitted can happen, a program comes to an end. -/
theorem Obeys.ends {p : Prog Resp ε α} (hT : ∀ s o, T.permits s o → ∃ r s', T.moves s o r s')
    (h : p.Obeys T Q R s) : (∃ a s', Q a s') ∨ ∃ e s', R e s' := by
  induction p generalizing s with
  | ret a => exact .inl ⟨a, s, h⟩
  | raise e => exact .inr ⟨e, s, h⟩
  | perform o k ih =>
      obtain ⟨r, s', hs'⟩ := hT s o h.1
      exact ih r (h.2 r s' hs')

/-- The loop rule: an invariant that every pass keeps holds after the loop. -/
theorem obeys_forEach {ι : Type} {xs : List ι} {body : ι → Prog Resp ε Unit} {I : σ → Prop}
    (hs : I s) (hbody : ∀ x ∈ xs, ∀ s, I s → (body x).Obeys T (fun _ => I) R s) :
    (forEach xs body).Obeys T (fun _ => I) R s := by
  induction xs generalizing s with
  | nil => exact hs
  | cons x xs ih =>
      refine obeys_bind.mpr ((hbody x (by simp) s hs).mono (fun _ s' hs' => ?_) fun _ _ h => h)
      exact ih hs' fun y hy => hbody y (List.mem_cons_of_mem x hy)

end Rules

/-! ## Which operations a program performs -/

/-- Whatever the responses, only operations with `P` are performed. -/
def Performs (P : Op → Prop) : Prog Resp ε α → Prop
  | ret _ | raise _ => True
  | perform o k => P o ∧ ∀ r, (k r).Performs P

section Performs

variable {P P' : Op → Prop}

@[simp] theorem performs_pure {a : α} : (pure a : Prog Resp ε α).Performs P := trivial

@[simp] theorem performs_ret {a : α} : (ret a : Prog Resp ε α).Performs P := trivial

@[simp] theorem performs_raise {e : ε} : (raise e : Prog Resp ε α).Performs P := trivial

@[simp] theorem performs_ofExcept {x : Except ε α} : (ofExcept x : Prog Resp ε α).Performs P := by
  cases x <;> trivial

@[simp] theorem performs_op {o : Op} : (op Resp ε o).Performs P ↔ P o :=
  and_iff_left fun _ => trivial

theorem Performs.bind {p : Prog Resp ε α} {f : α → Prog Resp ε β} (hp : p.Performs P)
    (hf : ∀ a, (f a).Performs P) : (p >>= f).Performs P := by
  change (p.bind f).Performs P
  induction p with
  | ret a => exact hf a
  | raise e => trivial
  | perform o k ih => exact ⟨hp.1, fun r => ih r (hp.2 r)⟩

/-- Whatever the responses, what it returns has `Q`. -/
def Returns (Q : α → Prop) : Prog Resp ε α → Prop
  | ret a => Q a
  | raise _ => True
  | perform _ k => ∀ r, (k r).Returns Q

theorem Returns.bind {Q : β → Prop} {p : Prog Resp ε α} {f : α → Prog Resp ε β}
    (h : ∀ a, (f a).Returns Q) : (p >>= f).Returns Q := by
  change (p.bind f).Returns Q
  induction p with
  | ret a => exact h a
  | raise e => trivial
  | perform o k ih => exact ih

theorem Returns.ite {Q : α → Prop} {c : Prop} [Decidable c] {p q : Prog Resp ε α} (hp : p.Returns Q)
    (hq : q.Returns Q) : (if c then p else q).Returns Q := by
  split
  · exact hp
  · exact hq

theorem Performs.bind_of_returns {Q : α → Prop} {p : Prog Resp ε α} {f : α → Prog Resp ε β}
    (hp : p.Performs P) (hq : p.Returns Q) (hf : ∀ a, Q a → (f a).Performs P) :
    (p >>= f).Performs P := by
  change (p.bind f).Performs P
  induction p with
  | ret a => exact hf a hq
  | raise e => trivial
  | perform o k ih => exact ⟨hp.1, fun r => ih r (hp.2 r) (hq r)⟩

theorem Performs.tryCatch {p : Prog Resp ε α} {h : ε → Prog Resp ε α} (hp : p.Performs P)
    (hh : ∀ e, (h e).Performs P) : (p.tryCatch h).Performs P := by
  induction p with
  | ret a => trivial
  | raise e => exact hh e
  | perform o k ih => exact ⟨hp.1, fun r => ih r (hp.2 r)⟩

theorem Performs.finallyDo {p : Prog Resp ε α} {q : Prog Resp ε Unit} (hp : p.Performs P)
    (hq : q.Performs P) : (p.finallyDo q).Performs P := by
  induction p with
  | ret a => exact hq.bind fun _ => trivial
  | raise e => exact hq.bind fun _ => trivial
  | perform o k ih => exact ⟨hp.1, fun r => ih r (hp.2 r)⟩

theorem Performs.ite {c : Prop} [Decidable c] {p q : Prog Resp ε α} (hp : c → p.Performs P)
    (hq : ¬ c → q.Performs P) : (if c then p else q).Performs P := by
  split
  · exact hp ‹_›
  · exact hq ‹_›

theorem Performs.mono {p : Prog Resp ε α} (h : p.Performs P) (hP : ∀ o, P o → P' o) :
    p.Performs P' := by
  induction p with
  | ret a => trivial
  | raise e => trivial
  | perform o k ih => exact ⟨hP o h.1, fun r => ih r (h.2 r)⟩

theorem performs_true (p : Prog Resp ε α) : p.Performs fun _ => True := by
  induction p with
  | ret a => trivial
  | raise e => trivial
  | perform o k ih => exact ⟨trivial, ih⟩

/-- **The invariant rule**: what each of its operations keeps, a program keeps. -/
theorem Performs.keeps {T : Protocol Resp σ} {I : σ → Prop} {s : σ} {p : Prog Resp ε α}
    (h : p.Performs P) (hT : ∀ s o, P o → T.permits s o)
    (hstep : ∀ s o r s', P o → I s → T.moves s o r s' → I s') (hs : I s) :
    p.Obeys T (fun _ => I) (fun _ => I) s := by
  induction p generalizing s with
  | ret a => exact hs
  | raise e => exact hs
  | perform o k ih => exact ⟨hT s o h.1, fun r s' hs' => ih r (h.2 r) (hstep s o r s' h.1 hs hs')⟩

end Performs

/-! ## Fixed answers -/

/-- The outcome where every operation is answered by a fixed function. -/
def outcome (answer : (o : Op) → Resp o) : Prog Resp ε α → Except ε α
  | ret a => .ok a
  | raise e => .error e
  | perform o k => (k (answer o)).outcome answer

/-- The operations that are then performed. -/
def performed (answer : (o : Op) → Resp o) : Prog Resp ε α → List Op
  | ret _ | raise _ => []
  | perform o k => o :: (k (answer o)).performed answer

section Answers

variable {answer : (o : Op) → Resp o}

@[simp] theorem outcome_pure {a : α} : (pure a : Prog Resp ε α).outcome answer = .ok a := rfl

@[simp] theorem outcome_raise {e : ε} : (raise e : Prog Resp ε α).outcome answer = .error e := rfl

@[simp] theorem outcome_op {o : Op} : (op Resp ε o).outcome answer = .ok (answer o) := rfl

@[simp] theorem outcome_bind {p : Prog Resp ε α} {f : α → Prog Resp ε β} :
    (p >>= f).outcome answer = p.outcome answer >>= fun a => (f a).outcome answer := by
  show (p.bind f).outcome answer = _
  induction p with
  | ret a => rfl
  | raise e => rfl
  | perform o k ih => exact ih (answer o)

/-- The protocol of fixed answers: what is permitted depends on the operation alone. -/
def answering (answer : (o : Op) → Resp o) (permits : Op → Prop) : Protocol Resp Unit :=
  Protocol.ofNext (fun _ => permits) (fun _ o r => r = answer o) fun _ _ _ => ()

/-- A program that obeys the protocol performs permitted operations only. -/
theorem performed_of_obeys {permits : Op → Prop} {Q : α → Unit → Prop} {R : ε → Unit → Prop}
    {p : Prog Resp ε α} (h : p.Obeys (answering answer permits) Q R ()) :
    ∀ o ∈ p.performed answer, permits o := by
  induction p with
  | ret a => simp [performed]
  | raise e => simp [performed]
  | perform o k ih =>
      rw [performed, List.forall_mem_cons]
      exact ⟨h.1, ih _ (h.2 (answer o) () ⟨rfl, rfl⟩)⟩

end Answers

end Prog

end Library
