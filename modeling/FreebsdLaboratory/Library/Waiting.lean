import FreebsdLaboratory.Library.Solo

/-!
# A program that may have to wait

An operation is blocked where no choice of the environment lets it happen.  A program on its own
that reaches such an operation waits for ever, since nobody else is there to let it go on.

`watched` is the protocol of a program whose history says whether it may wait: while the history is
`clear`, no operation is reached that is blocked.  A program checked against it ends as checked, or
it waits and its history is not clear (`stopped_cases`).
-/

namespace Library

namespace Solo

variable {Op : Type} {Resp : Op → Type} {ε α World Choice : Type}
variable {exec : World → (o : Op) → Choice → Option (Resp o × World)} {ok : Op → Choice → Bool}
variable {s s' : Solo Resp World Choice} {p p' : Prog Resp ε α}

/-- No choice lets the operation happen. -/
def Blocked (exec : World → (o : Op) → Choice → Option (Resp o × World)) (ok : Op → Choice → Bool)
    (w : World) (o : Op) : Prop :=
  ∀ choice, ok o choice = true → exec w o choice = none

/-- The operation that comes next. -/
def pending : Prog Resp ε α → Option Op
  | .perform o _ => some o
  | .ret _ | .raise _ => none

/-- The program has ended, or waits. -/
def Stopped (exec : World → (o : Op) → Choice → Option (Resp o × World)) (ok : Op → Choice → Bool) :
    Prog Resp ε α → Solo Resp World Choice → Prop
  | .ret _, _ | .raise _, _ => True
  | .perform o _, s => Blocked exec ok s.world o

theorem stopped_of_blocked {o : Op} (hpending : pending p = some o)
    (hblocked : Blocked exec ok s.world o) : Stopped exec ok p s := by
  cases p with
  | ret a => cases hpending
  | raise e => cases hpending
  | perform o' k =>
      obtain rfl := Option.some.inj hpending
      exact hblocked

/-- **Every program stops.** -/
theorem exists_stopped (p : Prog Resp ε α) (s : Solo Resp World Choice) :
    ∃ choices p' s', follow exec ok choices p s = some (p', s') ∧ Stopped exec ok p' s' := by
  induction p generalizing s with
  | ret a => exact ⟨[], .ret a, s, rfl, trivial⟩
  | raise e => exact ⟨[], .raise e, s, rfl, trivial⟩
  | perform o k ih =>
      by_cases hblocked : Blocked exec ok s.world o
      · exact ⟨[], .perform o k, s, rfl, hblocked⟩
      · obtain ⟨choice, hchoice⟩ := not_forall.mp hblocked
        obtain ⟨hok, hexec⟩ := Classical.not_imp.mp hchoice
        obtain ⟨⟨r, w⟩, hexec⟩ := Option.ne_none_iff_exists'.mp hexec
        obtain ⟨choices, p', s', hfollow, hstopped⟩ := ih r ⟨w, ⟨s.world, o, choice, r⟩ :: s.past⟩
        refine ⟨choice :: choices, p', s', ?_, hstopped⟩
        simp only [follow, hok, hexec, if_true]
        exact hfollow

/-- The protocol of a program on its own that may wait only once its history is not clear. -/
def watched (exec : World → (o : Op) → Choice → Option (Resp o × World)) (ok : Op → Choice → Bool)
    (clear : List (Step Resp World Choice) → Prop) : Protocol Resp (Solo Resp World Choice) where
  permits s o := clear s.past → ¬ Blocked exec ok s.world o
  moves := (solo exec ok).moves

variable {clear : List (Step Resp World Choice) → Prop}

/-- An operation that is not blocked. -/
theorem watched_op {o : Op} {Q : Resp o → Solo Resp World Choice → Prop}
    {R : ε → Solo Resp World Choice → Prop} (hfree : clear s.past → ¬ Blocked exec ok s.world o)
    (h : ∀ choice r w, ok o choice = true → exec s.world o choice = some (r, w) →
      Q r ⟨w, ⟨s.world, o, choice, r⟩ :: s.past⟩) :
    (Prog.op Resp ε o).Obeys (watched exec ok clear) Q R s := by
  refine Prog.obeys_op.mpr ⟨hfree, ?_⟩
  rintro r s' ⟨choice, w, hok, hexec, rfl⟩
  exact h choice r w hok hexec

/-- What is blocked does not happen. -/
theorem watched_blocked {o : Op} {Q : Resp o → Solo Resp World Choice → Prop}
    {R : ε → Solo Resp World Choice → Prop} (hclear : ¬ clear s.past)
    (hblocked : Blocked exec ok s.world o) :
    (Prog.op Resp ε o).Obeys (watched exec ok clear) Q R s := by
  refine watched_op (fun h => absurd h hclear) fun choice r w hok hexec => ?_
  rw [hblocked choice hok] at hexec
  cases hexec

/-- A program none of whose operations can be blocked may be read as one that never waits. -/
theorem watched_of_solo {Q : α → Solo Resp World Choice → Prop}
    {R : ε → Solo Resp World Choice → Prop} (hp : p.Performs fun o => ∀ w, ¬ Blocked exec ok w o)
    (h : p.Obeys (solo exec ok) Q R s) : p.Obeys (watched exec ok clear) Q R s := by
  induction p generalizing s with
  | ret a => exact h
  | raise e => exact h
  | perform o k ih => exact ⟨fun _ => hp.1 _, fun r s' hs' => ih r (hp.2 r) (h.2 r s' hs')⟩

/-- **Where a checked program stops**, it has ended as it was checked, or it waits after a history
that is not clear. -/
theorem stopped_cases {Q : α → Solo Resp World Choice → Prop}
    {R : ε → Solo Resp World Choice → Prop}
    (h : p.Obeys (watched exec ok clear) Q R s) (hstopped : Stopped exec ok p s) :
    (∃ a, p = .ret a ∧ Q a s) ∨ (∃ e, p = .raise e ∧ R e s)
      ∨ (∃ o k, p = .perform o k) ∧ ¬ clear s.past := by
  cases p with
  | ret a => exact .inl ⟨a, rfl, h⟩
  | raise e => exact .inr (.inl ⟨e, rfl, h⟩)
  | perform o k => exact .inr (.inr ⟨⟨o, k, rfl⟩, fun hclear => h.1 hclear hstopped⟩)

end Solo

end Library
