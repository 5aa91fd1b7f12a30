import FreebsdLaboratory.Protocol.Leases

/-!
# The lease directory as a partial map

What `IPv4LeasePool` is for: it binds addresses of its range to owners.  `Bindings.Step` says what
each of the three methods does to the bindings and what it returns.  A directory `Represents`
bindings when it holds one file for each bound address, with its owner, and no others; every call on
the directory is then a step of the bindings (`represents_call`), and so every sequence of calls is
a run (`pool_refines`).
-/

namespace FreebsdLaboratory

open Library

variable {pool : IPv4LeasePool} {dir : LeaseDir} {owner : String}

/-! ## What the pool is for -/

/-- The owners of the addresses that are bound. -/
abbrev Bindings (pool : IPv4LeasePool) := {a : IPv4Address // pool.InRange a} → Option String

inductive PoolCall where
  | allocate (owner : String)
  | release (address owner : String)
  | clearOrphans (active : List String)

inductive PoolResult where
  | allocated (address : IPv4Address)
  | released (done : Bool)
  | cleared (addresses : List String)
  | raised (e : PyError)
  deriving DecidableEq

/-- The error for a range without a free address. -/
def noAddresses : PyError := .runtimeError "No free IPv4 addresses remain in the laboratory pool"

/-- What each call does to the bindings. -/
inductive Bindings.Step (b : Bindings pool) : PoolCall → PoolResult → Bindings pool → Prop where
  /-- The smallest free address is bound. -/
  | allocate (owner : String) (a : {a : IPv4Address // pool.InRange a}) : b a = none →
      (∀ a', b a' = none → a.1.value ≤ a'.1.value) →
      Step b (.allocate owner) (.allocated a.1) (Function.update b a (some owner))
  | full (owner : String) : (∀ a, b a ≠ none) → Step b (.allocate owner) (.raised noAddresses) b
  | release (address owner : String) (a : {a : IPv4Address // pool.InRange a}) :
      IPv4Address.parse address = some a.1 → b a = some owner →
      Step b (.release address owner) (.released true) (Function.update b a none)
  | refuse (address owner : String) :
      (∀ a, IPv4Address.parse address = some a.1 → b a ≠ some owner) →
      Step b (.release address owner) (.released false) b
  /-- The addresses of all other owners are unbound, and returned in order. -/
  | clearOrphans (active names : List String) : names.Pairwise (· ≤ ·) → names.Nodup →
      (∀ s, s ∈ names ↔ ∃ a o, b a = some o ∧ o ∉ active ∧ s = a.1.text) →
      Step b (.clearOrphans active) (.cleared names) fun a => (b a).filter (· ∈ active)

/-- A sequence of calls with what they return. -/
inductive Bindings.Run : Bindings pool → List (PoolCall × PoolResult) → Bindings pool → Prop where
  | done (b : Bindings pool) : Run b [] b
  | call {b b' b'' : Bindings pool} {call : PoolCall} {result : PoolResult}
      {rest : List (PoolCall × PoolResult)} :
      b.Step call result b' → Run b' rest b'' → Run b ((call, result) :: rest) b''

/-! ## What the directory does -/

/-- One call in a directory whose file operations succeed. -/
def IPv4LeasePool.perform (pool : IPv4LeasePool) (dir : LeaseDir) : PoolCall → PoolResult × LeaseDir
  | .allocate owner =>
      match pool.allocate [] dir owner with
      | (.ok a, dir') => (.allocated a, dir')
      | (.error e, dir') => (.raised e, dir')
  | .release address owner =>
      match pool.release [] [] dir address owner with
      | (.ok done, dir') => (.released done, dir')
      | (.error e, dir') => (.raised e, dir')
  | .clearOrphans active =>
      match IPv4LeasePool.clearOrphans [] [] dir active with
      | (.ok names, dir') => (.cleared names, dir')
      | (.error e, dir') => (.raised e, dir')

/-- A sequence of calls. -/
def IPv4LeasePool.performAll (pool : IPv4LeasePool) :
    LeaseDir → List PoolCall → List (PoolCall × PoolResult) × LeaseDir
  | dir, [] => ([], dir)
  | dir, call :: calls =>
      let (result, dir') := pool.perform dir call
      let (results, dir'') := pool.performAll dir' calls
      ((call, result) :: results, dir'')

/-- The owner of the call is a runtime name. -/
def PoolCall.Named : PoolCall → Prop
  | .allocate owner | .release _ owner => isRuntimeName owner = true
  | .clearOrphans _ => True

/-- The directory holds one file for each bound address, with its owner, and no others. -/
structure LeaseDir.Represents (dir : LeaseDir) (b : Bindings pool) : Prop where
  bound : ∀ a, dir.lookup (leaseName a.1) = (b a).map fun owner => .owner (owner ++ "\n")
  covered : ∀ name file, dir.lookup name = some file →
    ∃ a : {a : IPv4Address // pool.InRange a}, name = leaseName a.1
  named : ∀ a owner, b a = some owner → isRuntimeName owner = true

variable {b : Bindings pool}

lemma represents_empty : LeaseDir.Represents (∅ : LeaseDir) (fun _ => none : Bindings pool) where
  bound a := AList.lookup_empty _
  covered name file h := by
    rw [AList.lookup_empty] at h
    cases h
  named a owner h := by cases h

lemma ne_empty_of_isRuntimeName (h : isRuntimeName owner = true) : owner ≠ "" := by
  rintro rfl
  exact absurd h (by decide)

/-! ## Allocating -/

/-- The addresses of the range come in order. -/
lemma pairwise_addresses : pool.addresses.Pairwise fun a a' => a.value < a'.value := by
  refine List.Pairwise.filterMap _ ?_ List.pairwise_lt_range'
  intro n n' hlt a ha a' ha'
  split at ha
  · split at ha'
    · obtain rfl := Option.some.inj ha
      obtain rfl := Option.some.inj ha'
      exact hlt
    · cases ha'
  · cases ha

lemma LeaseDir.Represents.lookup_eq_none (h : dir.Represents b) {a : IPv4Address}
    (ha : pool.InRange a) :
    dir.lookup (leaseName a) = none ↔ b ⟨a, ha⟩ = none := by
  rw [h.bound ⟨a, ha⟩, Option.map_eq_none_iff]

lemma LeaseDir.Represents.insert (h : dir.Represents b) (hname : isRuntimeName owner = true)
    (a : {a : IPv4Address // pool.InRange a}) :
    LeaseDir.Represents (dir.insert (leaseName a.1) (.owner (owner ++ "\n")))
      (Function.update b a (some owner)) where
  bound a' := by
    by_cases ha : a' = a
    · subst ha
      rw [AList.lookup_insert, Function.update_self, Option.map_some]
    · have hne : leaseName a'.1 ≠ leaseName a.1 :=
        fun heq => ha (Subtype.ext (leaseName_injective heq))
      rw [AList.lookup_insert_ne hne, Function.update_of_ne ha, h.bound]
  covered name file hlookup := by
    by_cases hsame : name = leaseName a.1
    · exact ⟨a, hsame⟩
    · rw [AList.lookup_insert_ne hsame] at hlookup
      exact h.covered name file hlookup
  named a' owner' howner := by
    by_cases ha : a' = a
    · subst ha
      rw [Function.update_self] at howner
      obtain rfl := Option.some.inj howner
      exact hname
    · rw [Function.update_of_ne ha] at howner
      exact h.named a' owner' howner

/-- **Allocating binds the smallest free address**, or fails when there is none. -/
lemma represents_allocate (h : dir.Represents b) (hname : isRuntimeName owner = true) :
    ∃ b', b.Step (.allocate owner) (pool.perform dir (.allocate owner)).1 b' ∧
      LeaseDir.Represents (pool.perform dir (.allocate owner)).2 b' := by
  have howner := ne_empty_of_isRuntimeName hname
  cases hfind : pool.addresses.find? fun a =>
      decide (dir.lookup (leaseName a) = none ∧ leaseName a ∉ ([] : List String)) with
  | none =>
      have hperform : pool.perform dir (.allocate owner) = (.raised noAddresses, dir) := by
        simp only [IPv4LeasePool.perform, IPv4LeasePool.allocate, if_neg howner, hfind]
        rfl
      rw [hperform]
      refine ⟨b, .full owner fun a hfree => ?_, h⟩
      have hnone := List.find?_eq_none.mp hfind a.1 (IPv4LeasePool.mem_addresses.mpr a.2)
      exact hnone (by simpa using (h.lookup_eq_none a.2).mpr hfree)
  | some a =>
      have hperform : pool.perform dir (.allocate owner)
          = (.allocated a, dir.insert (leaseName a) (.owner (owner ++ "\n"))) := by
        simp only [IPv4LeasePool.perform, IPv4LeasePool.allocate, if_neg howner, hfind]
      obtain ⟨hfree, before, after, hsplit, hbefore⟩ := List.find?_eq_some_iff_append.mp hfind
      have ha : pool.InRange a := by
        rw [← IPv4LeasePool.mem_addresses, hsplit]
        simp
      rw [hperform]
      refine ⟨_, .allocate owner ⟨a, ha⟩ ?_ ?_, h.insert hname ⟨a, ha⟩⟩
      · exact (h.lookup_eq_none ha).mp (by simpa using hfree)
      · intro a' hfree'
        have hmem := IPv4LeasePool.mem_addresses.mpr a'.2
        have hlookup := (h.lookup_eq_none a'.2).mpr hfree'
        have hsorted : pool.addresses.Pairwise _ := pairwise_addresses
        rw [hsplit] at hmem hsorted
        rcases List.mem_append.mp hmem with hmem | hmem
        · have hbusy := hbefore a'.1 hmem
          simp [hlookup] at hbusy
        · rcases List.mem_cons.mp hmem with hsame | hmem
          · exact (congrArg IPv4Address.value hsame).ge
          · exact ((List.pairwise_cons.mp (List.pairwise_append.mp hsorted).2.1).1 _ hmem).le

/-! ## Releasing -/

/-- The range lies in the network. -/
lemma contains_of_inRange {a : IPv4Address} (ha : pool.InRange a) :
    pool.network.contains a = true := by
  have hstart := pool.start_mem
  have hfinish := pool.finish_mem
  simp only [IPv4Network.contains, beq_iff_eq] at hstart hfinish ⊢
  refine le_antisymm ?_ ?_
  · rw [← hfinish]
    exact Nat.div_le_div_right ha.2
  · rw [← hstart]
    exact Nat.div_le_div_right ha.1

lemma LeaseDir.Represents.erase (h : dir.Represents b) (a : {a : IPv4Address // pool.InRange a}) :
    LeaseDir.Represents (dir.erase (leaseName a.1)) (Function.update b a none) where
  bound a' := by
    by_cases ha : a' = a
    · subst ha
      rw [AList.lookup_erase, Function.update_self, Option.map_none]
    · have hne : leaseName a'.1 ≠ leaseName a.1 :=
        fun heq => ha (Subtype.ext (leaseName_injective heq))
      rw [AList.lookup_erase_ne hne, Function.update_of_ne ha, h.bound]
  covered name file hlookup := by
    by_cases hsame : name = leaseName a.1
    · exact ⟨a, hsame⟩
    · rw [AList.lookup_erase_ne hsame] at hlookup
      exact h.covered name file hlookup
  named a' owner' howner := by
    by_cases ha : a' = a
    · subst ha
      rw [Function.update_self] at howner
      cases howner
    · rw [Function.update_of_ne ha] at howner
      exact h.named a' owner' howner

/-- **Releasing unbinds an address that is bound to the owner**, and does nothing else. -/
lemma represents_release (h : dir.Represents b) (hname : isRuntimeName owner = true)
    (address : String) :
    ∃ b', b.Step (.release address owner) (pool.perform dir (.release address owner)).1 b' ∧
      LeaseDir.Represents (pool.perform dir (.release address owner)).2 b' := by
  have howner := ne_empty_of_isRuntimeName hname
  have hrefuse : (∀ a : {a : IPv4Address // pool.InRange a}, IPv4Address.parse address = some a.1 →
      b a ≠ some owner) → pool.release [] [] dir address owner = (.ok false, dir) →
      ∃ b', b.Step (.release address owner) (pool.perform dir (.release address owner)).1 b' ∧
        LeaseDir.Represents (pool.perform dir (.release address owner)).2 b' := by
    intro hnot hrelease
    have hperform : pool.perform dir (.release address owner) = (.released false, dir) := by
      simp only [IPv4LeasePool.perform, hrelease]
    rw [hperform]
    exact ⟨b, .refuse address owner hnot, h⟩
  cases hparse : IPv4Address.parse address with
  | none =>
      refine hrefuse (fun a ha => ?_) ?_
      · rw [hparse] at ha
        cases ha
      · simp only [IPv4LeasePool.release, if_neg howner, hparse]
  | some a =>
      by_cases ha : pool.InRange a
      · have hin : ¬ (pool.network.contains a = false ∨ ¬ pool.InRange a) := by
          simp [contains_of_inRange ha, ha]
        have hlookup := h.bound ⟨a, ha⟩
        have hother : b ⟨a, ha⟩ ≠ some owner → ∀ a' : {a : IPv4Address // pool.InRange a},
            IPv4Address.parse address = some a'.1 → b a' ≠ some owner := by
          intro hne a' ha'
          obtain rfl : a' = ⟨a, ha⟩ := Subtype.ext (Option.some.inj (ha'.symm.trans hparse))
          exact hne
        cases hbound : b ⟨a, ha⟩ with
        | none =>
            rw [hbound, Option.map_none] at hlookup
            refine hrefuse (hother (by simp [hbound])) ?_
            simp only [IPv4LeasePool.release, if_neg howner, hparse, if_neg hin, hlookup]
        | some owner' =>
            rw [hbound, Option.map_some] at hlookup
            have hstrip := strip_owner (h.named _ _ hbound)
            by_cases hsame : owner' = owner
            · subst hsame
              have hkeep :
                ¬ (leaseName a ∈ ([] : List String) ∨ Text.strip (owner' ++ "\n") ≠ owner') := by
                simp [hstrip]
              have hperform : pool.perform dir (.release address owner')
                  = (.released true, dir.erase (leaseName a)) := by
                have hrelease : pool.release [] [] dir address owner'
                    = (.ok true, dir.erase (leaseName a)) := by
                  simp only [IPv4LeasePool.release, if_neg howner, hparse, if_neg hin, hlookup,
                    if_neg hkeep]
                  rfl
                simp only [IPv4LeasePool.perform, hrelease]
              rw [hperform]
              exact ⟨_, .release address owner' ⟨a, ha⟩ hparse hbound, h.erase ⟨a, ha⟩⟩
            · have hskip : leaseName a ∈ ([] : List String)
                ∨ Text.strip (owner' ++ "\n") ≠ owner := by
                right
                rwa [hstrip]
              refine hrefuse (hother ?_) ?_
              · rw [hbound]
                exact fun heq => hsame (Option.some.inj heq)
              · simp only [IPv4LeasePool.release, if_neg howner, hparse, if_neg hin, hlookup,
                  if_pos hskip]
      · refine hrefuse (fun a' ha' => ?_) ?_
        · obtain rfl := Option.some.inj (hparse.symm.trans ha')
          exact absurd a'.2 ha
        · simp only [IPv4LeasePool.release, if_neg howner, hparse]
          rw [if_pos (.inr ha)]

/-! ## Clearing -/

lemma endsWith_leaseName (a : IPv4Address) : Text.endsWith ".lease" (leaseName a) = true := by
  rw [Text.endsWith, List.isSuffixOf_iff_suffix, leaseName, String.toList_append]
  exact List.suffix_append _ _

/-- The address comes back from the name of its file. -/
lemma pathStem_leaseName (a : IPv4Address) : IPv4LeasePool.pathStem (leaseName a) = a.text := by
  have hsome : a.text.toList ≠ [] := by
    intro hnil
    have hempty : a.text = "" := String.toList_inj.mp hnil
    have hparse := IPv4Address.parse_text a
    rw [hempty] at hparse
    exact absurd hparse (by simp [show IPv4Address.parse "" = none from by decide])
  have hchars : (leaseName a).toList = a.text.toList ++ ['.', 'l', 'e', 'a', 's', 'e'] := by
    rw [leaseName, String.toList_append]
    rfl
  have hsuffix : (leaseName a).toList.rtakeWhile (· ≠ '.') = ['l', 'e', 'a', 's', 'e'] := by
    rw [hchars]
    simp [List.rtakeWhile]
  have hlength : (leaseName a).length = a.text.toList.length + 6 := by
    rw [← String.length_toList, hchars]
    simp
  have hfront : (leaseName a).toList.take ((leaseName a).length - 5 - 1) = a.text.toList := by
    rw [hlength, hchars]
    simp
  simp only [IPv4LeasePool.pathStem, hsuffix, List.length_cons, List.length_nil, Nat.zero_add,
    Nat.reduceAdd, hfront]
  rw [if_pos ⟨by simp, by omega, hsome⟩, String.ofList_toList]

/-- The entries whose owner is not active. -/
def isOrphan (active : List String) (entry : Sigma fun _ : String => LeaseFile) : Bool :=
  match entry.2 with
  | .owner text => decide (Text.strip text ∉ active)
  | _ => false

/-- The loop over the files of leases removes those of other owners. -/
lemma clearOrphansLoop_eq {active : List String} :
    ∀ (entries : List (Sigma fun _ : String => LeaseFile)) (dir : LeaseDir),
      (∀ e ∈ entries, ∃ (a : IPv4Address) (text : String), e = ⟨leaseName a, .owner text⟩) →
      IPv4LeasePool.clearOrphansLoop [] [] active entries dir
        = (.ok ((entries.filter (isOrphan active)).map fun e => IPv4LeasePool.pathStem e.1),
          (entries.filter (isOrphan active)).foldl (fun dir e => dir.erase e.1) dir)
  | [], dir, _ => rfl
  | e :: entries, dir, hentries => by
      obtain ⟨⟨a, text, rfl⟩, hrest⟩ := List.forall_mem_cons.mp hentries
      by_cases hactive : Text.strip text ∈ active
      · have hkeep : isOrphan active ⟨leaseName a, .owner text⟩ = false := by
          simp [isOrphan, hactive]
        rw [List.filter_cons_of_neg (by simp [hkeep]), ← clearOrphansLoop_eq entries dir hrest]
        simp [IPv4LeasePool.clearOrphansLoop, endsWith_leaseName, hactive]
      · have hdrop : isOrphan active ⟨leaseName a, .owner text⟩ = true := by
          simp [isOrphan, hactive]
        rw [List.filter_cons_of_pos hdrop, List.map_cons, List.foldl_cons]
        simp only [IPv4LeasePool.clearOrphansLoop, endsWith_leaseName, hactive, List.not_mem_nil,
          or_self, if_false, Bool.true_eq_false]
        rw [clearOrphansLoop_eq entries (dir.erase (leaseName a)) hrest]
        rfl

lemma lookup_foldl_erase (name : String) :
    ∀ (entries : List (Sigma fun _ : String => LeaseFile)) (dir : LeaseDir),
      (entries.foldl (fun dir e => dir.erase e.1) dir).lookup name
        = if ∃ e ∈ entries, e.1 = name then none else dir.lookup name
  | [], dir => by simp
  | e :: entries, dir => by
      rw [List.foldl_cons, lookup_foldl_erase name entries]
      by_cases hhere : e.1 = name
      · subst hhere
        simp
      · have hne : name ≠ e.1 := fun h => hhere h.symm
        simp only [List.mem_cons, exists_eq_or_imp, hhere, false_or, AList.lookup_erase_ne hne]

/-- **Clearing unbinds the addresses of all other owners.** -/
lemma represents_clearOrphans (h : dir.Represents b) (active : List String) :
    ∃ b', b.Step (.clearOrphans active) (pool.perform dir (.clearOrphans active)).1 b' ∧
      LeaseDir.Represents (pool.perform dir (.clearOrphans active)).2 b' := by
  have hentry : ∀ e ∈ dir.entries, ∃ (a : {a : IPv4Address // pool.InRange a}) (o : String),
      b a = some o ∧ e = ⟨leaseName a.1, .owner (o ++ "\n")⟩ := by
    rintro ⟨name, file⟩ he
    have hlookup : dir.lookup name = some file := AList.mem_lookup_iff.mpr he
    obtain ⟨a, rfl⟩ := h.covered name file hlookup
    rw [h.bound, Option.map_eq_some_iff] at hlookup
    obtain ⟨o, ho, rfl⟩ := hlookup
    exact ⟨a, o, ho, rfl⟩
  have horphan : ∀ (a : {a : IPv4Address // pool.InRange a}) (o : String), b a = some o →
      (isOrphan active ⟨leaseName a.1, .owner (o ++ "\n")⟩ = true ↔ o ∉ active) := by
    intro a o ho
    simp [isOrphan, strip_owner (h.named a o ho)]
  have hmem : ∀ e, e ∈ dir.entries.filter (isOrphan active) ↔
      ∃ (a : {a : IPv4Address // pool.InRange a}) (o : String),
        b a = some o ∧ o ∉ active ∧ e = ⟨leaseName a.1, .owner (o ++ "\n")⟩ := by
    intro e
    rw [List.mem_filter]
    constructor
    · rintro ⟨he, hdrop⟩
      obtain ⟨a, o, ho, rfl⟩ := hentry e he
      exact ⟨a, o, ho, (horphan a o ho).mp hdrop, rfl⟩
    · rintro ⟨a, o, ho, hinactive, rfl⟩
      refine ⟨AList.mem_lookup_iff.mp ?_, (horphan a o ho).mpr hinactive⟩
      rw [Option.mem_def, h.bound, ho, Option.map_some]
  have hloop : IPv4LeasePool.clearOrphansLoop [] [] active dir.entries dir = _ :=
    clearOrphansLoop_eq dir.entries dir fun e he => by
    obtain ⟨a, o, -, rfl⟩ := hentry e he
    exact ⟨a.1, o ++ "\n", rfl⟩
  generalize hnames : (dir.entries.filter (isOrphan active)).map
    (fun e => IPv4LeasePool.pathStem e.1) = names at hloop
  have hstem : ∀ s, s ∈ names ↔ ∃ (a : {a : IPv4Address // pool.InRange a}) (o : String),
      b a = some o ∧ o ∉ active ∧ s = a.1.text := by
    intro s
    rw [← hnames, List.mem_map]
    constructor
    · rintro ⟨e, he, rfl⟩
      obtain ⟨a, o, ho, hinactive, rfl⟩ := (hmem e).mp he
      exact ⟨a, o, ho, hinactive, pathStem_leaseName a.1⟩
    · rintro ⟨a, o, ho, hinactive, rfl⟩
      exact ⟨_, (hmem _).mpr ⟨a, o, ho, hinactive, rfl⟩, pathStem_leaseName a.1⟩
  have hnodup : names.Nodup := by
    have hkeys : ((dir.entries.filter (isOrphan active)).map Sigma.fst).Nodup :=
      List.Nodup.sublist (List.filter_sublist.map _) dir.nodupKeys
    rw [← hnames]
    refine List.Nodup.map_on ?_ hkeys.of_map
    intro e he e' he' hsame
    obtain ⟨a, o, ho, -, rfl⟩ := (hmem e).mp he
    obtain ⟨a', o', ho', -, rfl⟩ := (hmem e').mp he'
    rw [pathStem_leaseName, pathStem_leaseName] at hsame
    obtain rfl : a = a' := Subtype.ext (IPv4Address.text_injective hsame)
    obtain rfl := Option.some.inj (ho.symm.trans ho')
    rfl
  have hsort := List.perm_insertionSort (· ≤ ·) names
  have hperform : pool.perform dir (.clearOrphans active)
      = (.cleared (names.insertionSort (· ≤ ·)),
        (dir.entries.filter (isOrphan active)).foldl (fun dir e => dir.erase e.1) dir) := by
    simp only [IPv4LeasePool.perform, IPv4LeasePool.clearOrphans, hloop]
    rfl
  rw [hperform]
  refine ⟨_, .clearOrphans active _ (List.pairwise_insertionSort _ _) (hsort.nodup_iff.mpr hnodup)
    (fun s => hsort.mem_iff.trans (hstem s)), ?_, ?_, ?_⟩
  · intro a
    rw [lookup_foldl_erase]
    cases ho : b a with
    | none =>
        have hlookup := h.bound a
        rw [ho, Option.map_none] at hlookup
        rw [hlookup, ite_self]
        rfl
    | some o =>
        have hlookup := h.bound a
        rw [ho, Option.map_some] at hlookup
        by_cases hactive : o ∈ active
        · have hkept : ¬ ∃ e ∈ dir.entries.filter (isOrphan active), e.1 = leaseName a.1 := by
            rintro ⟨e, he, hname⟩
            obtain ⟨a', o', ho', hinactive, rfl⟩ := (hmem e).mp he
            obtain rfl : a' = a := Subtype.ext (leaseName_injective hname)
            obtain rfl := Option.some.inj (ho.symm.trans ho')
            exact hinactive hactive
          rw [if_neg hkept, hlookup, Option.filter_some, if_pos (by simpa using hactive),
            Option.map_some]
        · have hgone : ∃ e ∈ dir.entries.filter (isOrphan active), e.1 = leaseName a.1 :=
            ⟨_, (hmem _).mpr ⟨a, o, ho, hactive, rfl⟩, rfl⟩
          rw [if_pos hgone, Option.filter_some, if_neg (by simpa using hactive)]
          rfl
  · intro name file hlookup
    rw [lookup_foldl_erase] at hlookup
    split_ifs at hlookup
    exact h.covered name file hlookup
  · intro a o ho
    exact h.named a o (Option.filter_eq_some_iff.mp ho).1

/-! ## Runs -/

/-- **One call is one step of the bindings.** -/
theorem represents_call (h : dir.Represents b) {call : PoolCall} (hcall : call.Named) :
    ∃ b', b.Step call (pool.perform dir call).1 b' ∧
      LeaseDir.Represents (pool.perform dir call).2 b' := by
  cases call with
  | allocate owner => exact represents_allocate h hcall
  | release address owner => exact represents_release h hcall address
  | clearOrphans active => exact represents_clearOrphans h active

/-- **The lease directory is a partial map**: every sequence of calls is a run of the bindings, with
the same results, and the directory represents the bindings at its end. -/
theorem pool_refines (h : dir.Represents b) (calls : List PoolCall)
    (hcalls : ∀ call ∈ calls, call.Named) :
    ∃ b', b.Run (pool.performAll dir calls).1 b' ∧ (pool.performAll dir calls).2.Represents b' := by
  induction calls generalizing dir b with
  | nil => exact ⟨b, .done b, h⟩
  | cons call calls ih =>
      obtain ⟨hcall, hrest⟩ := List.forall_mem_cons.mp hcalls
      obtain ⟨b₁, hstep, h₁⟩ := represents_call h hcall
      obtain ⟨b₂, hrun, h₂⟩ := ih h₁ hrest
      exact ⟨b₂, .call hstep hrun, h₂⟩

/-- Two addresses. -/
def twoAddresses : IPv4LeasePool where
  network := ⟨IPv4Address.ofOctets 10 0 0 0, 24⟩
  start := IPv4Address.ofOctets 10 0 0 2
  finish := IPv4Address.ofOctets 10 0 0 3
  start_mem := by decide
  finish_mem := by decide
  start_le_finish := by decide

/-- Two runtimes get an address, the first one gives it back twice, and the other one is an
orphan. -/
def someCalls : List PoolCall :=
  [.allocate "freebsd-lab-a", .allocate "freebsd-lab-b", .release "10.0.0.2" "freebsd-lab-a",
    .release "10.0.0.2" "freebsd-lab-a", .clearOrphans []]

theorem pool_refines_some : ∃ b' : Bindings twoAddresses,
    Bindings.Run (fun _ => none) (twoAddresses.performAll ∅ someCalls).1 b' ∧
      (twoAddresses.performAll ∅ someCalls).2.Represents b' := by
  refine pool_refines represents_empty someCalls ?_
  intro call hcall
  simp only [someCalls, List.mem_cons, List.not_mem_nil, or_false] at hcall
  rcases hcall with rfl | rfl | rfl | rfl | rfl
  · exact (by decide : isRuntimeName "freebsd-lab-a" = true)
  · exact (by decide : isRuntimeName "freebsd-lab-b" = true)
  · exact (by decide : isRuntimeName "freebsd-lab-a" = true)
  · exact (by decide : isRuntimeName "freebsd-lab-a" = true)
  · trivial

end FreebsdLaboratory
