import FreebsdLaboratory.Protocol.Removals

/-!
# Which runtime a unit belongs to

Epair interfaces and memory disks are numbered by the kernel, and the registry keeps the bare
number.  The two kinds differ in names and commands only; `UnitKind` is what they have in common.

`UnitsOwned` says that a number a record names, or that a create request has obtained and not yet
recorded, is a unit handed out for that runtime, if there is one under it.  It is an invariant of
runs in which the kernel hands out no number that another runtime still names (`UnitsFresh`).
-/

namespace FreebsdLaboratory

open Library

variable {m : RuntimeManager} {reentrant : Bool} {i n : ℕ} {name : String} {w w' : World}
variable {o : Op} {a : Answer} {c : Connection} {s : Known} {vs : List (Connection × Known)}

/-! ## Names of units read back -/

theorem isSpace_of_isDigit {d : Char} (h : d.isDigit = true) : Text.isSpace d = false := by
  simp only [Char.isDigit, Bool.and_eq_true, decide_eq_true_eq] at h
  have hlow : 48 ≤ d.toNat := h.1
  have hhigh : d.toNat ≤ 57 := h.2
  simp only [Text.isSpace, List.contains_eq_mem, decide_eq_false_iff_not, List.mem_cons,
    List.not_mem_nil, or_false]
  omega

theorem isLineBreak_of_not_isSpace {d : Char} (h : Text.isSpace d = false) :
    Text.isLineBreak d = false := by
  simp only [Text.isSpace, Text.isLineBreak, List.contains_eq_mem, decide_eq_false_iff_not,
    List.mem_cons, List.not_mem_nil, or_false] at h ⊢
  omega

theorem epairHost_toList : (epairHost n).toList = "epair".toList ++ Nat.toDigits 10 n ++ ['a'] := by
  simp [epairHost]

theorem mdUnit_toList : (mdUnit n).toList = 'm' :: 'd' :: Nat.toDigits 10 n := by
  simp [mdUnit]

theorem not_isSpace_epairHost : ∀ d ∈ (epairHost n).toList, Text.isSpace d = false := by
  have hall : (("epair".toList ++ ['a']).all fun d => !Text.isSpace d) = true := by decide
  have hstem : ∀ d ∈ "epair".toList ++ ['a'], Text.isSpace d = false := fun d hd => by
    simpa using List.all_eq_true.mp hall d hd
  intro d hd
  rw [epairHost_toList] at hd
  simp only [List.mem_append, List.mem_singleton] at hd
  rcases hd with (hd | hd) | hd
  · exact hstem d (List.mem_append_left _ hd)
  · exact isSpace_of_isDigit (Text.isDigit_of_mem_toDigits hd)
  · exact hstem d (by simp [hd])

theorem not_isSpace_mdUnit : ∀ d ∈ (mdUnit n).toList, Text.isSpace d = false := by
  have hall : (['m', 'd'].all fun d => !Text.isSpace d) = true := by decide
  have hstem : ∀ d ∈ ['m', 'd'], Text.isSpace d = false := fun d hd => by
    simpa using List.all_eq_true.mp hall d hd
  intro d hd
  rw [mdUnit_toList] at hd
  simp only [List.mem_cons] at hd
  rcases hd with rfl | rfl | hd
  · exact hstem _ (by simp)
  · exact hstem _ (by simp)
  · exact isSpace_of_isDigit (Text.isDigit_of_mem_toDigits hd)

/-- Stripping a line that is one word. -/
theorem strip_line {word : String} (h : ∀ d ∈ word.toList, Text.isSpace d = false) :
    Text.strip (word ++ "\n") = word := by
  have hbreak : ∀ d ∈ ['\n'], Text.isSpace d = true := List.forall_mem_singleton.mpr (by decide)
  rw [Text.strip, String.toList_append, show "\n".toList = ['\n'] from rfl,
    Text.stripChars_append h hbreak, String.ofList_toList]

theorem strip_word {word : String} (h : ∀ d ∈ word.toList, Text.isSpace d = false) :
    Text.strip word = word := by
  have := Text.stripChars_append h (t := []) (by simp)
  rw [List.append_nil] at this
  rw [Text.strip, this, String.ofList_toList]

/-- The epair the kernel names is the one the daemon reads. -/
theorem newEpairHost_epairHost : newEpairHost (epairHost n ++ "\n") = .ok (epairHost n) := by
  have hspace := not_isSpace_epairHost (n := n)
  have hne : epairHost n ≠ "" := by simp [epairHost]
  have hlast : lastLine (epairHost n ++ "\n") = some (epairHost n) := by
    rw [lastLine, strip_line hspace,
      Text.splitLines_of_no_break hne fun d hd => isLineBreak_of_not_isSpace (hspace d hd)]
    simp [strip_word hspace]
  have hend : Text.endsWith "a" (epairHost n) = true := by
    rw [Text.endsWith, List.isSuffixOf_iff_suffix, epairHost_toList]
    exact ⟨_, rfl⟩
  simp [newEpairHost, hlast, hend]

/-- The memory disk the kernel names is the one the daemon reads. -/
theorem newMdUnit_mdUnit : newMdUnit (mdUnit n ++ "\n") = .ok (mdUnit n) := by
  have hall : ∀ d ∈ Nat.toDigits 10 n, Text.isDigit d = true :=
    fun d hd => Text.isDigit_of_isDigit (Text.isDigit_of_mem_toDigits hd)
  have hstrip := strip_line (not_isSpace_mdUnit (n := n))
  have hlen : (mdUnit n).length = 2 + (Nat.toDigits 10 n).length := by
    rw [← String.length_toList, mdUnit_toList, List.length_cons, List.length_cons]
    omega
  have hdigits : (mdUnit n).toList.rtakeWhile Text.isDigit = Nat.toDigits 10 n := by
    have hd : Text.isDigit 'd' = false := by decide
    rw [mdUnit_toList, List.rtakeWhile, List.reverse_cons, List.reverse_cons, List.append_assoc,
      List.takeWhile_append_of_pos fun d hd => hall d (List.mem_reverse.mp hd)]
    simp [hd]
  have hbefore : (mdUnit n).toList.take ((mdUnit n).length - (Nat.toDigits 10 n).length)
      = ['m', 'd'] := by
    rw [hlen, Nat.add_sub_cancel, mdUnit_toList]
    rfl
  have hname : String.ofList ('m' :: 'd' :: Nat.toDigits 10 n) = mdUnit n := by
    rw [← mdUnit_toList, String.ofList_toList]
  simp [newMdUnit, hstrip, hdigits, hbefore, hname, Nat.toDigits_ne_nil]

theorem epairNumber_epairHost : epairNumber (epairHost n) = some n := by
  have hall : ∀ d ∈ Nat.toDigits 10 n, Text.isDigit d = true :=
    fun d hd => Text.isDigit_of_isDigit (Text.isDigit_of_mem_toDigits hd)
  have hmatch : Text.matchDigits "epair" "a" (epairHost n) = some (Nat.toDigits 10 n) :=
    Text.matchDigits_append Nat.toDigits_ne_nil hall
  simp [epairNumber, hmatch]

theorem mdNumber_mdUnit : mdNumber (unitNumber (mdUnit n)) = some n := by
  have hall : ∀ d ∈ Nat.toDigits 10 n, d.isDigit = true :=
    fun d hd => Text.isDigit_of_mem_toDigits hd
  simp only [unitNumber, mdUnit_toList, mdNumber, List.drop_succ_cons, List.drop_zero,
    String.toList_ofList, List.all_eq_true]
  rw [if_pos ⟨by simp [Nat.toDigits_ne_nil], hall⟩, Nat.ofDigitChars_toDigits]
  all_goals decide

/-! ## The two kinds of unit -/

inductive UnitKind where
  | epair
  | md
  deriving DecidableEq

namespace UnitKind

/-- The units of a kind on a host. -/
def units : UnitKind → Host → Units
  | epair, h => h.epairs
  | md, h => h.mds

/-- The number a recorded name denotes to the command that removes the unit. -/
def number : UnitKind → String → Option ℕ
  | epair, interface => epairNumber interface
  | md, unit => mdNumber (unitNumber unit)

/-- The number a record names. -/
def recorded (k : UnitKind) (r : RuntimeRecord) : Option ℕ :=
  match k with
  | epair => r.epairHost.asStr.bind (number epair)
  | md => r.mdUnit.asStr.bind (number md)

/-- The number of the unit a request has created and not yet recorded. -/
def obtained (k : UnitKind) (s : Known) : Option ℕ :=
  match k with
  | epair => s.epair.bind (number epair)
  | md => s.md.bind (number md)

/-- The name the daemon reads off the output of the command that creates a unit. -/
def named (k : UnitKind) (stdout : String) : Option String :=
  match k with
  | epair => (newEpairHost stdout).toOption
  | md => (newMdUnit stdout).toOption

/-- The name of a unit. -/
def text : UnitKind → ℕ → String
  | epair, n => epairHost n
  | md, n => mdUnit n

/-- The command that makes the kernel hand out a unit. -/
def create : UnitKind → Command
  | epair => .ifconfigEpairCreate
  | md => .mdconfigAttach

end UnitKind

variable {k : UnitKind} {name' tag : String} {h h' : Host} {command : Command} {unit : ℕ}

/-- A free number has no unit. -/
theorem freeUnit_notMem (units : Units) (preferred : ℕ) : freeUnit units preferred ∉ units := by
  unfold freeUnit
  split_ifs with hmem
  · intro hfree
    have hle : ∀ (l : List ℕ) (a x : ℕ), x ≤ a ∨ x ∈ l → x ≤ l.foldl max a := by
      intro l
      induction l with
      | nil => intro a x hx; simpa using hx
      | cons y l ih =>
          intro a x hx
          refine ih (max a y) x ?_
          rcases hx with hx | hx
          · exact .inl (le_max_of_le_left hx)
          · rcases List.mem_cons.mp hx with rfl | hx
            · exact .inl (le_max_right _ _)
            · exact .inr hx
    have := hle units.keys 0 _ (.inr (AList.mem_keys.mp hfree))
    omega
  · exact hmem

/-- **A unit that is not as before was handed out**, for the runtime of the request. -/
theorem perform_units {runtime : String}
    (hnew : (k.units (h.perform m runtime unit command).2.2).lookup n = some tag)
    (hold : (k.units h).lookup n ≠ some tag) :
    command = k.create ∧ n = freeUnit (k.units h) unit ∧ tag = runtime := by
  cases command
  case ifconfigEpairCreate =>
    cases k with
    | md => exact absurd hnew hold
    | epair =>
        by_cases hn : n = freeUnit h.epairs unit
        · subst hn
          simp only [UnitKind.units, Host.perform, AList.lookup_insert, Option.some.injEq] at hnew
          exact ⟨rfl, rfl, hnew.symm⟩
        · simp only [UnitKind.units, Host.perform, AList.lookup_insert_ne hn] at hnew
          exact absurd hnew hold
  case mdconfigAttach =>
    cases k with
    | epair => exact absurd hnew hold
    | md =>
        by_cases hn : n = freeUnit h.mds unit
        · subst hn
          simp only [UnitKind.units, Host.perform, AList.lookup_insert, Option.some.injEq] at hnew
          exact ⟨rfl, rfl, hnew.symm⟩
        · simp only [UnitKind.units, Host.perform, AList.lookup_insert_ne hn] at hnew
          exact absurd hnew hold
  case ifconfigDestroy interface =>
    have hlost : ∀ j, (h.epairs.erase j).lookup n = some tag → h.epairs.lookup n = some tag := by
      intro j hj
      by_cases hn : n = j
      · subst hn; simp at hj
      · rwa [AList.lookup_erase_ne hn] at hj
    simp only [Host.perform, Host.doIf] at hnew
    split at hnew
    · split_ifs at hnew
      · cases k with
        | md => exact absurd hnew hold
        | epair => exact absurd (hlost _ hnew) hold
      · exact absurd hnew hold
    · exact absurd hnew hold
  case mdconfigDetach number =>
    have hlost : ∀ j, (h.mds.erase j).lookup n = some tag → h.mds.lookup n = some tag := by
      intro j hj
      by_cases hn : n = j
      · subst hn; simp at hj
      · rwa [AList.lookup_erase_ne hn] at hj
    simp only [Host.perform, Host.doIf] at hnew
    split at hnew
    · split_ifs at hnew
      · cases k with
        | epair => exact absurd hnew hold
        | md => exact absurd (hlost _ hnew) hold
      · exact absurd hnew hold
    · exact absurd hnew hold
  all_goals
    refine absurd ?_ hold
    cases k <;>
      simp only [UnitKind.units, Host.perform, Host.doIf, Host.withDataset,
        Host.withoutDatasets] at hnew ⊢ <;>
      (repeat' split at hnew) <;> exact hnew

theorem named_text : k.named (k.text n ++ "\n") = some (k.text n) := by
  cases k with
  | epair => simp [UnitKind.named, UnitKind.text, newEpairHost_epairHost, Except.toOption]
  | md => simp [UnitKind.named, UnitKind.text, newMdUnit_mdUnit, Except.toOption]

theorem number_text : k.number (k.text n) = some n := by
  cases k with
  | epair => exact epairNumber_epairHost
  | md => exact mdNumber_mdUnit

/-- What the kernel does when it hands out a unit. -/
theorem perform_create {runtime : String} : ∃ h', h.perform m runtime unit k.create
      = (0, k.text (freeUnit (k.units h) unit) ++ "\n", h')
    ∧ (k.units h').lookup (freeUnit (k.units h) unit) = some runtime := by
  cases k with
  | epair => exact ⟨_, rfl, AList.lookup_insert _⟩
  | md => exact ⟨_, rfl, AList.lookup_insert _⟩

/-- A text of the environment's choice gives no number. -/
theorem number_of_silent {stdout x : String} (hsilent : namesUnit stdout = false)
    (hx : k.named stdout = some x) : k.number x = none := by
  simp only [namesUnit, Bool.or_eq_false_iff] at hsilent
  cases k with
  | epair =>
      have hx : (newEpairHost stdout).toOption = some x := hx
      show epairNumber x = none
      simpa [hx] using hsilent.1
  | md =>
      have hx : (newMdUnit stdout).toOption = some x := hx
      simp [hx] at hsilent

/-- **The number a request learns is that of a unit handed out for its runtime.** -/
theorem number_of_create {stdout x : String} {runtime : String} {exit : Exit}
    (he : h.respond m runtime unit exit k.create = (.completed 0 stdout, h'))
    (hx : k.named stdout = some x) (hn : k.number x = some n) :
    n = freeUnit (k.units h) unit ∧ (k.units h').lookup n = some runtime := by
  obtain ⟨h'', hperform, hlookup⟩ : ∃ h'', h.perform m runtime unit k.create
      = (0, k.text (freeUnit (k.units h) unit) ++ "\n", h'')
    ∧ (k.units h'').lookup (freeUnit (k.units h) unit) = some runtime := perform_create
  rcases h.respond_cases m runtime unit exit k.create with ⟨-, heq⟩ | heq
  · cases (Prod.mk.inj (heq.symm.trans he)).1
  rw [heq] at he
  unfold Host.answer at he
  rw [hperform] at he
  cases exit with
  | truthful =>
      obtain ⟨hout, rfl⟩ := Prod.mk.inj he
      obtain rfl : k.text (freeUnit (k.units h) unit) ++ "\n" = stdout := by simpa using hout
      obtain rfl : k.text (freeUnit (k.units h) unit) = x := by simpa [named_text] using hx
      obtain rfl : freeUnit (k.units h) unit = n := by simpa [number_text] using hn
      exact ⟨rfl, hlookup⟩
  | cannotExecute => simp at he
  | timeoutExpired effect => simp at he
  | undecodable effect => simp at he
  | status code out effect =>
      cases code with
      | succ j => simp at he
      | zero =>
          have hsilent : namesUnit stdout = false := by
            have hprobe : k.create.isProbe = false := by cases k <;> rfl
            have hempty : namesUnit "" = false := by decide
            simp only [hprobe, Bool.false_eq_true, if_false, if_true, Prod.mk.injEq,
              RunOutcome.completed.injEq, true_and] at he
            rw [← he.1]
            split_ifs with htext
            · exact hempty
            · simpa using htext
          simp [number_of_silent hsilent hx] at hn

/-! ## The invariant -/

/-- The step hands out unit `n`. -/
def HandsOut (m : RuntimeManager) (w : World) (c : Connection) (o : Op) (a : Answer) (k : UnitKind)
    (n : ℕ) : Prop :=
  ∃ command, o = .run command ∧ n ∉ k.units w.host
    ∧ n ∈ k.units (w.host.respond m c.runtime a.unit a.exit command).2

/-- The kernel hands out no number that the record of another runtime names, or that a create
request has obtained and not yet recorded. -/
def UnitsFresh (m : RuntimeManager) : StepCondition := fun w vs _ c _ o a =>
  ∀ k n, HandsOut m w c o a k n →
    (∀ name r, w.load name = .ok (some r) → UnitKind.recorded k r = some n → name = c.runtime)
      ∧ ∀ v ∈ vs, UnitKind.obtained k v.2 ≠ some n

structure UnitsOwned (w : World) (vs : List (Connection × Known)) : Prop where
  recorded : ∀ (k : UnitKind) name r n tag, w.load name = .ok (some r) → k.recorded r = some n →
    (k.units w.host).lookup n = some tag → tag = name
  obtained : ∀ v ∈ vs, ∀ (k : UnitKind) n tag, k.obtained v.2 = some n →
    (k.units w.host).lookup n = some tag → v.1.Creates tag

/-- A unit that is new after a step was handed out by it, for the runtime of its request. -/
theorem units_step {r : o.Resp} (he : exec m reentrant i c.runtime w o a = some (r, w'))
    (hnew : (k.units w'.host).lookup n = some tag) (hold : (k.units w.host).lookup n ≠ some tag) :
    HandsOut m w c o a k n ∧ o = .run k.create ∧ tag = c.runtime := by
  obtain ⟨command, rfl, hhost⟩ := run_of_host_ne he fun heq => hold (by rw [← heq, hnew])
  have hperform : w'.host = (w.host.perform m c.runtime a.unit command).2.2 := by
    have hrespond : w.host.respond m c.runtime a.unit a.exit command
        = ((w.host.respond m c.runtime a.unit a.exit command).1, w'.host) :=
      Prod.ext rfl hhost.symm
    rcases respond_host hrespond with h | h
    · rw [h] at hnew
      exact absurd hnew hold
    · exact h
  obtain ⟨rfl, rfl, rfl⟩ := perform_units (hperform ▸ hnew) hold
  refine ⟨⟨_, rfl, freeUnit_notMem _ _, ?_⟩, rfl, rfl⟩
  rw [← hhost]
  exact AList.mem_keys.mpr (AList.lookup_isSome.mp (by rw [hnew]; rfl))

/-- What a request comes to know from a command. -/
theorem obtained_of_run {r : RunOutcome} (h : k.obtained (s.learn (.run command) r) = some n) :
    k.obtained s = some n ∨ command = k.create
      ∧ ∃ stdout, r = .completed 0 stdout ∧ (k.named stdout).bind k.number = some n := by
  by_cases hteach : (Op.run command).teachesUnits = false
  · obtain ⟨hepair, hmd⟩ := Known.learn_units (s := s) (r := r) hteach
    cases k with
    | epair => exact .inl (by rwa [UnitKind.obtained, hepair] at h)
    | md => exact .inl (by rwa [UnitKind.obtained, hmd] at h)
  cases command with
  | ifconfigEpairCreate =>
      rcases r with ⟨_ | code, stdout⟩ | _ | _
      · cases k with
        | epair =>
            refine .inr ⟨rfl, stdout, rfl, ?_⟩
            simpa only [UnitKind.obtained, UnitKind.named, Known.learn] using h
        | md => exact .inl (by simpa only [UnitKind.obtained, Known.learn] using h)
      all_goals exact .inl (by cases k <;> simpa only [UnitKind.obtained, Known.learn] using h)
  | mdconfigAttach =>
      rcases r with ⟨_ | code, stdout⟩ | _ | _
      · cases k with
        | epair => exact .inl (by simpa only [UnitKind.obtained, Known.learn] using h)
        | md =>
            refine .inr ⟨rfl, stdout, rfl, ?_⟩
            simpa only [UnitKind.obtained, UnitKind.named, Known.learn] using h
      all_goals exact .inl (by cases k <;> simpa only [UnitKind.obtained, Known.learn] using h)
  | _ => simp [Op.teachesUnits] at hteach

/-- What a request comes to know about units. -/
theorem obtained_step {r : o.Resp} (he : exec m reentrant i c.runtime w o a = some (r, w'))
    (h : k.obtained (s.learn o r) = some n) :
    k.obtained s = some n
      ∨ o = .run k.create ∧ (k.units w'.host).lookup n = some c.runtime := by
  have hsame : (s.learn o r).epair = s.epair → (s.learn o r).md = s.md → k.obtained s = some n := by
    intro hepair hmd
    cases k with
    | epair => rwa [UnitKind.obtained, hepair] at h
    | md => rwa [UnitKind.obtained, hmd] at h
  by_cases hteach : o.teachesUnits = false
  · obtain ⟨hepair, hmd⟩ := Known.learn_units (s := s) (r := r) hteach
    exact .inl (hsame hepair hmd)
  cases o with
  | writeRegistry x =>
      cases r with
      | ok u => cases k <;> simp [UnitKind.obtained, Known.learn] at h
      | error e => exact .inl (hsame rfl rfl)
  | release l =>
      have hkeeps : (s.releasing l).epair ≠ none ∨ (s.releasing l).md ≠ none := by
        cases k with
        | epair =>
            obtain ⟨x, hx, -⟩ := Option.bind_eq_some_iff.mp h
            exact .inl (by rw [show (s.releasing l).epair = some x from hx]; simp)
        | md =>
            obtain ⟨x, hx, -⟩ := Option.bind_eq_some_iff.mp h
            exact .inr (by rw [show (s.releasing l).md = some x from hx]; simp)
      obtain ⟨hleaving, -⟩ := Known.releasing_kept (.inr (.inr hkeeps))
      refine .inl (hsame ?_ ?_)
      · show (s.releasing l).epair = s.epair
        rw [hleaving]
        rfl
      · show (s.releasing l).md = s.md
        rw [hleaving]
        rfl
  | run command =>
      obtain ⟨hr, rfl⟩ := run_eq he
      rcases obtained_of_run h with hold | ⟨rfl, stdout, rfl, hnamed⟩
      · exact .inl hold
      · obtain ⟨x, hx, hn⟩ := Option.bind_eq_some_iff.mp hnamed
        exact .inr ⟨rfl, (number_of_create (Prod.ext hr.symm rfl) hx hn).2⟩
  | _ => simp [Op.teachesUnits] at hteach

/-- What a request may write about units is what it has obtained. -/
theorem obtained_of_write {r : RuntimeRecord} (hwrite : PermitsWrite m c s name r)
    (h : k.recorded r = some n) : k.obtained s = some n := by
  obtain ⟨-, -, -, -, ⟨-, hepair, hmd, -⟩ | ⟨r₀, -, -, -, hepair, hmd⟩⟩ := hwrite
  · cases k with
    | epair => simp [UnitKind.recorded, hepair, RecordValue.asStr] at h
    | md => simp [UnitKind.recorded, hmd, RecordValue.asStr] at h
  · cases k with
    | epair =>
        rcases hepair with hnull | ⟨e, he, hr⟩
        · simp [UnitKind.recorded, hnull, RecordValue.asStr] at h
        · simpa [UnitKind.recorded, UnitKind.obtained, he, hr, RecordValue.asStr] using h
    | md =>
        rcases hmd with hnull | ⟨u, hu, hr⟩
        · simp [UnitKind.recorded, hnull, RecordValue.asStr] at h
        · simpa [UnitKind.recorded, UnitKind.obtained, hu, hr, RecordValue.asStr] using h

/-- A unit is created by the create request of its runtime. -/
theorem creates_of_create (hp : Permits m c s (.run k.create)) : c.Creates c.runtime := by
  have hcreating : ∃ name, s.Creating c name := by
    cases k with
    | epair => obtain ⟨name, r, hcreating, -⟩ := hp; exact ⟨name, hcreating⟩
    | md => obtain ⟨name, r, hcreating, -⟩ := hp; exact ⟨name, hcreating⟩
  obtain ⟨name, hcreating⟩ := hcreating
  rw [runtime_of_creates hcreating.creates]
  exact hcreating.creates

theorem unitsOwned_preserved (m : RuntimeManager) (reentrant : Bool) :
    Machine.PreservesWith (whenStep (UnitsFresh m) : LabelCondition m reentrant) Coherent
      UnitsOwned := by
  refine preserves_of_steps ?_ ?_ ?_
  · intro w vs c _ h
    refine ⟨h.recorded, fun v hv k n tag hobtained hlookup => ?_⟩
    rcases List.mem_append.mp hv with hv | hv
    · exact h.obtained v hv k n tag hobtained hlookup
    · obtain rfl := List.mem_singleton.mp hv
      cases k <;> simp [UnitKind.obtained] at hobtained
  · intro w vs e w' _ h he
    rw [environment_eq he]
    exact ⟨h.recorded, h.obtained⟩
  · intro w vs i c s o a r w' hcond hcoherent h hi hp he _
    refine ⟨fun k name x n tag hx hrecorded hlookup => ?_, fun v hv k n tag hobtained hlookup => ?_⟩
    · by_cases hold : (k.units w.host).lookup n = some tag
      · by_cases hload : w.load name = .ok (some x)
        · exact h.recorded k name x n tag hload hrecorded hold
        · -- the record is written now, by the request that has obtained the unit
          obtain ⟨rfl, hwrite⟩ := write_of_new_record hp he hx hload
          have hcreates := h.obtained _ (List.mem_of_getElem? hi) k n tag
            (obtained_of_write hwrite hrecorded) hold
          exact creates_unique hcreates hwrite.1.creates
      · obtain ⟨hhands, rfl, rfl⟩ := units_step he hlookup hold
        have hload : w.load name = .ok (some x) := by
          rw [← hx]
          exact (load_congr ((exec_frame he).registry rfl) name).symm
        exact ((hcond k n hhands).1 name x hload hrecorded).symm
    · by_cases hold : (k.units w.host).lookup n = some tag
      · obtain ⟨j, hj⟩ := List.mem_iff_getElem?.mp hv
        rcases getElem?_set_cases hj with ⟨rfl, rfl⟩ | ⟨-, hother⟩
        · rcases obtained_step he hobtained with hsame | ⟨rfl, hnew⟩
          · exact h.obtained _ (List.mem_of_getElem? hi) k n tag hsame hold
          · obtain rfl : c.runtime = tag := by rw [hnew] at hlookup; exact Option.some.inj hlookup
            exact creates_of_create hp
        · exact h.obtained v (List.mem_of_getElem? hother) k n tag hobtained hold
      · obtain ⟨hhands, rfl, rfl⟩ := units_step he hlookup hold
        obtain ⟨j, hj⟩ := List.mem_iff_getElem?.mp hv
        rcases getElem?_set_cases hj with ⟨rfl, rfl⟩ | ⟨-, hother⟩
        · exact creates_of_create hp
        · exact absurd hobtained ((hcond k n hhands).2 v (List.mem_of_getElem? hother))

end FreebsdLaboratory
