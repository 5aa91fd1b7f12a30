import FreebsdLaboratory.Library.AtomicFiles

/-!
# What disciplined writers leave

The invariant of a `Scheme`: a name in place stands for a file that is complete and synced, now and
at every time that a power loss can come back to, and nobody but its writer knows a temporary file.
-/

namespace Library.Files

open Prog

variable {Name ε α : Type} [DecidableEq Name]

/-! ## The invariant -/

/-- What the file of a writer holds by its stage. -/
def Temporary.Holds (t : Temporary) (f : File) : Prop :=
  match t.stage with
  | .opened => f.data ++ f.buffer = t.written
  | .flushed => f.data = t.written ∧ f.buffer = []
  | .synced => f.data = t.written ∧ f.buffer = [] ∧ f.synced = true
  | .moved | .broken => True

/-- What has been flushed is on the disk after a sync. -/
lemma Temporary.Holds.fsync {t : Temporary} {f : File} (h : t.Holds f) :
    (t.fsync (some ())).Holds { f with synced := true } := by
  rw [Temporary.Holds] at h
  rw [Temporary.fsync]
  cases hstage : t.stage with
  | opened =>
      rw [hstage] at h
      rwa [if_neg (by simp), Temporary.Holds, hstage]
  | flushed =>
      rw [hstage] at h
      exact ⟨h.1, h.2, rfl⟩
  | synced =>
      rw [hstage] at h
      rw [if_neg (by simp), Temporary.Holds, hstage]
      exact ⟨h.1, h.2.1, rfl⟩
  | moved =>
      rw [if_neg (by simp), Temporary.Holds, hstage]
      trivial
  | broken =>
      rw [if_neg (by simp), Temporary.Holds, hstage]
      trivial

/-- What is in the file once the stream is empty. -/
lemma Temporary.Holds.flush {t : Temporary} {f f' : File} (h : t.Holds f)
    (hdata : f'.data = f.data ++ f.buffer) (hbuffer : f'.buffer = [])
    (hsame : f.buffer = [] → f' = f) :
    (t.flush (some ())).Holds f' := by
  rw [Temporary.Holds] at h
  rw [Temporary.flush]
  cases hstage : t.stage with
  | opened =>
      rw [hstage] at h
      exact ⟨hdata.trans h, hbuffer⟩
  | flushed =>
      rw [hstage] at h
      rw [hsame h.2, if_neg (by simp), Temporary.Holds, hstage]
      exact h
  | synced =>
      rw [hstage] at h
      rw [hsame h.2.1, if_neg (by simp), Temporary.Holds, hstage]
      exact h
  | moved =>
      rw [if_neg (by simp), Temporary.Holds, hstage]
      trivial
  | broken =>
      rw [if_neg (by simp), Temporary.Holds, hstage]
      trivial

namespace Scheme

variable (S : Scheme Name ε α)

/-- The temporary file of a writer that is running: nobody else knows it. -/
structure Owns (w : Disk Name) (c : S.Context) (t : Temporary) : Prop where
  old : t.file < w.next
  path : ∃ suffix, t.path = S.stem (S.name c) ++ suffix
  entry : t.stage ≠ .moved → w.entries t.path = some t.file
  hidden : t.stage ≠ .moved → ∀ e ∈ w.entries :: w.earlier, ∀ n, e (S.target n) ≠ some t.file
  holds : t.Holds (w.files t.file)

/-- A file that is in place. -/
structure Complete (w : Disk Name) (vs : List S.machine.View) (n : Name) (j : ℕ) : Prop where
  synced : (w.files j).synced = true
  buffer : (w.files j).buffer = []
  text : ∃ v ∈ vs, S.name v.1 = n ∧ (w.files j).data ∈ S.texts v.1

/-- A writer of this boot. -/
def Running (w : Disk Name) (vs : List S.machine.View) (i : ℕ) (c : S.Context) (k : Progress) :
    Prop :=
  vs[i]? = some (c, k) ∧ S.boot c = w.boot

/-- What a writer knows is so. -/
structure Knows (w : Disk Name) (i : ℕ) (c : S.Context) (k : Progress) : Prop where
  holder : k.locked = true → w.holder (S.name c) = some i
  locked : ∀ t, k.temporary = some t → k.locked = true
  owns : ∀ t, k.temporary = some t → S.Owns w c t

structure Invariant (w : Disk Name) (vs : List S.machine.View) : Prop where
  old : ∀ e ∈ w.entries :: w.earlier, ∀ path j, e path = some j → j < w.next
  complete : ∀ e ∈ w.entries :: w.earlier, ∀ n j, e (S.target n) = some j → S.Complete w vs n j
  knows : ∀ i c k, S.Running w vs i c k → S.Knows w i c k
  separate : ∀ i i' c c' k k' t t', S.Running w vs i c k → S.Running w vs i' c' k' →
    k.temporary = some t → k'.temporary = some t' → t.file = t'.file → i = i'
  waiting : ∀ v ∈ vs, w.boot < S.boot v.1 → v.2 = {}

variable {S} {w w' : Disk Name} {vs vs' : List S.machine.View} {i i' : ℕ} {c c' : S.Context}
variable {k k' : Progress} {t t' : Temporary} {n : Name} {j : ℕ} {f : File}

/-- Texts are those of the contexts. -/
lemma Complete.mono (h : S.Complete w vs n j) (hfile : w'.files j = w.files j)
    (hvs : ∀ v ∈ vs, ∃ v' ∈ vs', v'.1 = v.1) : S.Complete w' vs' n j := by
  obtain ⟨v, hv, hname, htext⟩ := h.text
  obtain ⟨v', hv', hsame⟩ := hvs v hv
  refine ⟨by rw [hfile]; exact h.synced, by rw [hfile]; exact h.buffer, v', hv', ?_⟩
  rw [hfile, hsame]
  exact ⟨hname, htext⟩

lemma contexts_set (hi : vs[i]? = some (c, k)) (k' : Progress) :
    ∀ v ∈ vs, ∃ v' ∈ vs.set i (c, k'), v'.1 = v.1 := by
  intro v hv
  obtain ⟨i', hi'⟩ := List.getElem?_of_mem hv
  by_cases hsame : i' = i
  · subst hsame
    obtain rfl := Option.some.inj (hi'.symm.trans hi)
    refine ⟨(c, k'), ?_, rfl⟩
    exact List.mem_set (List.getElem?_eq_some_iff.mp hi).1 _
  · refine ⟨v, List.mem_of_getElem? (i := i') ?_, rfl⟩
    rw [List.getElem?_set_ne (Ne.symm hsame), hi']

/-- Two writers do not work on one name at a time. -/
lemma Invariant.eq_of_name (h : S.Invariant w vs) (hi : S.Running w vs i c k) (hk : k.locked = true)
    (hi' : S.Running w vs i' c' k') (hk' : k'.locked = true) (hname : S.name c = S.name c') :
    i = i' := by
  have hholder := (h.knows i c k hi).holder hk
  have hholder' := (h.knows i' c' k' hi').holder hk'
  rw [hname, hholder'] at hholder
  exact (Option.some.inj hholder).symm

/-- **A step of one writer keeps the invariant** if it keeps what is said of the files, of the
writer and of the others. -/
lemma Invariant.step (h : S.Invariant w vs) (hi : S.Running w vs i c k) (hboot : w'.boot = w.boot)
    (hold : ∀ e ∈ w'.entries :: w'.earlier, ∀ path j, e path = some j → j < w'.next)
    (hcomplete : ∀ e ∈ w'.entries :: w'.earlier, ∀ n j, e (S.target n) = some j →
      S.Complete w' (vs.set i (c, k')) n j)
    (hself : S.Knows w' i c k')
    (hothers : ∀ i' c' k', i' ≠ i → S.Running w vs i' c' k' → S.Knows w' i' c' k')
    (hseparate : ∀ t, k'.temporary = some t → ∀ i' c' k' t', i' ≠ i → S.Running w vs i' c' k' →
      k'.temporary = some t' → t.file ≠ t'.file) :
    S.Invariant w' (vs.set i (c, k')) := by
  have hcases : ∀ {i' c' k''}, S.Running w' (vs.set i (c, k')) i' c' k'' →
      i' = i ∧ c' = c ∧ k'' = k' ∨ i' ≠ i ∧ S.Running w vs i' c' k'' := by
    rintro i' c' k'' ⟨hget, hb⟩
    rcases getElem?_set_cases hget with ⟨hsame, heq⟩ | ⟨hne, hget⟩
    · obtain ⟨rfl, rfl⟩ := Prod.mk.inj heq
      exact .inl ⟨hsame, rfl, rfl⟩
    · exact .inr ⟨hne, hget, hb.trans hboot⟩
  refine ⟨hold, hcomplete, ?_, ?_, ?_⟩
  · intro i' c' k'' hrun
    rcases hcases hrun with ⟨rfl, rfl, rfl⟩ | ⟨hne, hrun⟩
    · exact hself
    · exact hothers i' c' k'' hne hrun
  · intro i₁ i₂ c₁ c₂ k₁ k₂ t₁ t₂ h₁ h₂ ht₁ ht₂ hfile
    rcases hcases h₁ with ⟨heq₁, -, hk₁⟩ | ⟨hne₁, hold₁⟩
    · rcases hcases h₂ with ⟨heq₂, -, -⟩ | ⟨hne₂, hold₂⟩
      · exact heq₁.trans heq₂.symm
      · exact absurd hfile (hseparate t₁ (hk₁ ▸ ht₁) i₂ c₂ k₂ t₂ hne₂ hold₂ ht₂)
    · rcases hcases h₂ with ⟨-, -, hk₂⟩ | ⟨hne₂, hold₂⟩
      · exact absurd hfile.symm (hseparate t₂ (hk₂ ▸ ht₂) i₁ c₁ k₁ t₁ hne₁ hold₁ ht₁)
      · exact h.separate i₁ i₂ c₁ c₂ k₁ k₂ t₁ t₂ hold₁ hold₂ ht₁ ht₂ hfile
  · intro v hv hlt
    rcases List.mem_or_eq_of_mem_set hv with hv | rfl
    · exact h.waiting v hv (hboot ▸ hlt)
    · have hlt : w.boot < S.boot c := hboot ▸ hlt
      exact absurd hi.2 (Nat.ne_of_gt hlt)

/-! ## Calls keep it -/

/-- A call that changes nothing but what the writer thinks of its file. -/
lemma Invariant.same (h : S.Invariant w vs) (hi : S.Running w vs i c k)
    (hlocked : k'.locked = k.locked)
    (htemporary : ∀ t', k'.temporary = some t' → ∃ t, k.temporary = some t ∧ t'.file = t.file
      ∧ t'.path = t.path ∧ (t'.stage ≠ .moved → t.stage ≠ .moved) ∧ t'.Holds (w.files t.file)) :
    S.Invariant w (vs.set i (c, k')) := by
  have hknows := h.knows i c k hi
  refine h.step hi rfl h.old ?_ ⟨?_, ?_, ?_⟩ (fun i' c' k' _ hi' => h.knows i' c' k' hi') ?_
  · intro e he n j hj
    exact (h.complete e he n j hj).mono rfl (contexts_set hi.1 k')
  · intro hk
    exact hknows.holder (hlocked ▸ hk)
  · intro t' ht'
    obtain ⟨t, ht, -⟩ := htemporary t' ht'
    exact hlocked.trans (hknows.locked t ht)
  · intro t' ht'
    obtain ⟨t, ht, hfile, hpath, hmoved, hholds⟩ := htemporary t' ht'
    have howns := hknows.owns t ht
    refine ⟨hfile ▸ howns.old, hpath ▸ howns.path, ?_, ?_, hfile ▸ hholds⟩
    · intro hstage
      rw [hfile, hpath]
      exact howns.entry (hmoved hstage)
    · intro hstage
      rw [hfile]
      exact howns.hidden (hmoved hstage)
  · intro t' ht' i' c' k' t'' hne hi' ht'' hfile
    obtain ⟨t, ht, hfile', -⟩ := htemporary t' ht'
    exact hne (h.separate i' i c' c k' k t'' t hi' hi ht'' ht (hfile.symm.trans hfile'))

/-- A call on the writer's own file. -/
lemma Invariant.setFile (h : S.Invariant w vs) (hi : S.Running w vs i c k)
    (ht : k.temporary = some t) (hmoved : t.stage ≠ .moved) (hlocked : k'.locked = k.locked)
    (htemporary : ∀ t', k'.temporary = some t' → t'.file = t.file ∧ t'.path = t.path ∧ t'.Holds f) :
    S.Invariant (w.setFile t.file f) (vs.set i (c, k')) := by
  have hknows := h.knows i c k hi
  have howns := hknows.owns t ht
  have hother : ∀ j, j ≠ t.file → (w.setFile t.file f).files j = w.files j := fun j hj =>
    Disk.setFile_files_of_ne f hj
  refine h.step hi rfl h.old ?_ ⟨?_, ?_, ?_⟩ ?_ ?_
  · intro e he n j hj
    refine (h.complete e he n j hj).mono (hother j ?_) (contexts_set hi.1 k')
    rintro rfl
    exact howns.hidden hmoved e he n hj
  · intro hk
    exact hknows.holder (hlocked ▸ hk)
  · intro t' _
    exact hlocked.trans (hknows.locked t ht)
  · intro t' ht'
    obtain ⟨hfile, hpath, hholds⟩ := htemporary t' ht'
    refine ⟨hfile ▸ howns.old, hpath ▸ howns.path, ?_, ?_, ?_⟩
    · intro _
      rw [hfile, hpath]
      exact howns.entry hmoved
    · intro _
      rw [hfile]
      exact howns.hidden hmoved
    · rw [hfile, Disk.setFile_files]
      exact hholds
  · intro i' c' k' hne hi'
    have hknows' := h.knows i' c' k' hi'
    refine ⟨hknows'.holder, hknows'.locked, ?_⟩
    intro t' ht'
    have howns' := hknows'.owns t' ht'
    refine ⟨howns'.old, howns'.path, howns'.entry, howns'.hidden, ?_⟩
    rw [hother t'.file fun hfile => hne (h.separate i' i c' c k' k t' t hi' hi ht' ht hfile)]
    exact howns'.holds
  · intro t' ht' i' c' k' t'' hne hi' ht'' hfile
    have hfile' := (htemporary t' ht').1
    exact hne (h.separate i' i c' c k' k t'' t hi' hi ht'' ht (hfile.symm.trans hfile'))

/-- Temporary files of two writers have different names. -/
lemma Invariant.path_ne (h : S.Invariant w vs) (hi : S.Running w vs i c k)
    (hi' : S.Running w vs i' c' k') (ht : k.temporary = some t) (ht' : k'.temporary = some t')
    (hne : i' ≠ i) : t'.path ≠ t.path := by
  intro hpath
  have hknows := h.knows i c k hi
  have hknows' := h.knows i' c' k' hi'
  obtain ⟨suffix, hsuffix⟩ := (hknows.owns t ht).path
  obtain ⟨suffix', hsuffix'⟩ := (hknows'.owns t' ht').path
  have hname := S.stem_injective _ _ _ _ (hsuffix'.symm.trans (hpath.trans hsuffix))
  exact hne (h.eq_of_name hi' (hknows'.locked t' ht') hi (hknows.locked t ht) hname)

omit [DecidableEq Name] in
lemma Owns.path_ne_target (h : S.Owns w c t) (n : Name) : t.path ≠ S.target n := by
  obtain ⟨suffix, hsuffix⟩ := h.path
  rw [hsuffix]
  exact S.stem_ne_target _ _ _

omit [DecidableEq Name] in
/-- The file of a writer does not mind what else changes in the directory. -/
lemma Owns.setEntries {entries : List ℕ → Option ℕ} (h : S.Owns w c t)
    (hentry : entries t.path = w.entries t.path)
    (hhidden : t.stage ≠ .moved → ∀ n, entries (S.target n) ≠ some t.file) :
    S.Owns (w.setEntries entries) c t := by
  refine ⟨h.old, h.path, fun hstage => hentry.trans (h.entry hstage),
    fun hstage e he n => ?_, h.holds⟩
  rcases List.mem_cons.mp he with rfl | he
  · exact hhidden hstage n
  · exact h.hidden hstage e he n

/-- `mkstemp` -/
lemma Invariant.mkstemp {suffix : List ℕ} (h : S.Invariant w vs) (hi : S.Running w vs i c k)
    (hlocked : k.locked = true) (hfree : w.entries (S.stem (S.name c) ++ suffix) = none) :
    S.Invariant (w.create (S.stem (S.name c) ++ suffix))
      (vs.set i (c, { k with
        temporary := some { file := w.next, path := S.stem (S.name c) ++ suffix } })) := by
  have hknows := h.knows i c k hi
  have hfile : ∀ j, j < w.next → Function.update w.files w.next {} j = w.files j := fun j hj =>
    Function.update_of_ne (Nat.ne_of_lt hj) _ _
  have htarget : ∀ n, Function.update w.entries (S.stem (S.name c) ++ suffix) (some w.next)
    (S.target n)
      = w.entries (S.target n) := fun n =>
    Function.update_of_ne (S.stem_ne_target _ _ _).symm _ _
  have hentries : ∀ e ∈ Function.update w.entries (S.stem (S.name c) ++ suffix) (some w.next)
      :: w.entries :: w.earlier, ∃ e' ∈ w.entries :: w.earlier, ∀ n, e (S.target n)
        = e' (S.target n) := by
    intro e he
    rcases List.mem_cons.mp he with rfl | he
    · exact ⟨w.entries, List.mem_cons_self, htarget⟩
    · exact ⟨e, he, fun _ => rfl⟩
  refine h.step hi rfl ?_ ?_ ⟨hknows.holder, fun _ _ => hlocked, ?_⟩ ?_ ?_
  · intro e he path j hj
    rcases List.mem_cons.mp he with rfl | he
    · replace hj : Function.update w.entries (S.stem (S.name c) ++ suffix) (some w.next) path
        = some j := hj
      by_cases hpath : path = S.stem (S.name c) ++ suffix
      · rw [hpath, Function.update_self] at hj
        obtain rfl := Option.some.inj hj
        exact Nat.lt_succ_self _
      · rw [Function.update_of_ne hpath] at hj
        exact Nat.lt_succ_of_lt (h.old _ List.mem_cons_self _ _ hj)
    · exact Nat.lt_succ_of_lt (h.old e he path j hj)
  · intro e he n j hj
    obtain ⟨e', he', hsame⟩ := hentries e he
    rw [hsame] at hj
    exact (h.complete e' he' n j hj).mono (hfile j (h.old e' he' _ j hj)) (contexts_set hi.1 _)
  · intro t ht
    obtain rfl := Option.some.inj ht
    refine ⟨Nat.lt_succ_self _, ⟨suffix, rfl⟩, fun _ => Function.update_self _ _ _, ?_, ?_⟩
    · intro _ e he n hj
      obtain ⟨e', he', hsame⟩ := hentries e he
      rw [hsame] at hj
      exact Nat.lt_irrefl _ (h.old e' he' _ _ hj)
    · show ({} : File).data ++ _ = _
      exact congrArg (fun f : File => f.data ++ f.buffer)
        (Function.update_self w.next ({} : File) w.files)
  · intro i' c' k' hne hi'
    have hknows' := h.knows i' c' k' hi'
    refine ⟨hknows'.holder, hknows'.locked, fun t' ht' => ?_⟩
    have howns' := hknows'.owns t' ht'
    refine ⟨Nat.lt_succ_of_lt howns'.old, howns'.path, ?_, ?_, ?_⟩
    · intro hstage
      have hentry := howns'.entry hstage
      refine (Function.update_of_ne ?_ _ _).trans hentry
      intro hpath
      rw [hpath, hfree] at hentry
      cases hentry
    · intro hstage e he n
      obtain ⟨e', he', hsame⟩ := hentries e he
      rw [hsame]
      exact howns'.hidden hstage e' he' n
    · show t'.Holds (Function.update w.files w.next {} t'.file)
      rw [hfile _ howns'.old]
      exact howns'.holds
  · intro t ht i' c' k' t' hne hi' ht'
    obtain rfl := Option.some.inj ht
    exact Nat.ne_of_gt ((h.knows i' c' k' hi').owns t' ht').old

/-- `unlink` of the writer's temporary file, or of the name in place. -/
lemma Invariant.unlink {path : List ℕ} (h : S.Invariant w vs) (hi : S.Running w vs i c k)
    (hpath : path = S.target (S.name c) ∨ ∃ t, k.temporary = some t ∧ t.path = path) :
    S.Invariant (w.setEntries (Function.update w.entries path none))
      (vs.set i (c, { k with temporary := k.temporary.filter fun t => t.path ≠ path })) := by
  have hknows := h.knows i c k hi
  have hless : ∀ p j, Function.update w.entries path none p = some j → w.entries p = some j := by
    intro p j hj
    by_cases hp : p = path
    · rw [hp, Function.update_self] at hj
      cases hj
    · rwa [Function.update_of_ne hp] at hj
  have hkept : ∀ {t c k}, S.Knows w i c k → k.temporary = some t → t.path ≠ path →
      S.Owns (w.setEntries (Function.update w.entries path none)) c t := by
    intro t c k hknows ht hne
    have howns := hknows.owns t ht
    refine howns.setEntries (Function.update_of_ne hne _ _) fun hstage n hj => ?_
    exact howns.hidden hstage _ List.mem_cons_self n (hless _ _ hj)
  have hearlier : ∀ e ∈ Function.update w.entries path none :: w.entries :: w.earlier, ∀ p j,
      e p = some j → ∃ e' ∈ w.entries :: w.earlier, e' p = some j := by
    intro e he p j hj
    rcases List.mem_cons.mp he with rfl | he
    · exact ⟨w.entries, List.mem_cons_self, hless p j hj⟩
    · exact ⟨e, he, hj⟩
  refine h.step hi rfl ?_ ?_ ⟨hknows.holder, ?_, ?_⟩ ?_ ?_
  · intro e he p j hj
    obtain ⟨e', he', hj'⟩ := hearlier e he p j hj
    exact h.old e' he' p j hj'
  · intro e he n j hj
    obtain ⟨e', he', hj'⟩ := hearlier e he _ j hj
    exact (h.complete e' he' n j hj').mono rfl (contexts_set hi.1 _)
  · intro t ht
    exact hknows.locked t (Option.filter_eq_some_iff.mp ht).1
  · intro t ht
    obtain ⟨ht, hne⟩ := Option.filter_eq_some_iff.mp ht
    exact hkept hknows ht (of_decide_eq_true hne)
  · intro i' c' k' hne hi'
    have hknows' := h.knows i' c' k' hi'
    refine ⟨hknows'.holder, hknows'.locked, fun t' ht' => ?_⟩
    have howns' := hknows'.owns t' ht'
    have hother : t'.path ≠ path := by
      rcases hpath with rfl | ⟨t, ht, rfl⟩
      · exact howns'.path_ne_target _
      · exact h.path_ne hi hi' ht ht' hne
    refine howns'.setEntries (Function.update_of_ne hother _ _) fun hstage n hj => ?_
    exact howns'.hidden hstage _ List.mem_cons_self n (hless _ _ hj)
  · intro t ht i' c' k' t' hne hi' ht' hfile
    have ht := (Option.filter_eq_some_iff.mp ht).1
    exact hne (h.separate i' i c' c k' k t' t hi' hi ht' ht hfile.symm)

/-- `replace`: the file that is complete and synced comes into place. -/
lemma Invariant.replace (h : S.Invariant w vs) (hi : S.Running w vs i c k)
    (ht : k.temporary = some t) (hsynced : t.stage = .synced) (htext : t.written ∈ S.texts c) :
    S.Invariant
      (w.setEntries (Function.update (Function.update w.entries t.path none) (S.target (S.name c))
        (some t.file)))
      (vs.set i (c, { k with temporary := some { t with stage := .moved } })) := by
  have hknows := h.knows i c k hi
  have howns := hknows.owns t ht
  have hmoved : t.stage ≠ .moved := by
    rw [hsynced]
    decide
  have hfile : (w.files t.file).data = t.written ∧ (w.files t.file).buffer = []
      ∧ (w.files t.file).synced = true := by
    have hholds := howns.holds
    rwa [Temporary.Holds, hsynced] at hholds
  -- a name other than the one in place stands for what it stood for, or for nothing
  have hrest : ∀ p j, p ≠ S.target (S.name c) →
      Function.update (Function.update w.entries t.path none) (S.target (S.name c)) (some t.file) p
        = some j →
        w.entries p = some j := by
    intro p j hp hj
    rw [Function.update_of_ne hp] at hj
    by_cases hpath : p = t.path
    · rw [hpath, Function.update_self] at hj
      cases hj
    · rwa [Function.update_of_ne hpath] at hj
  have hplace : ∀ j, Function.update (Function.update w.entries t.path none) (S.target (S.name c))
      (some t.file) (S.target (S.name c)) = some j → t.file = j := by
    intro j hj
    rw [Function.update_self] at hj
    exact Option.some.inj hj
  refine h.step hi rfl ?_ ?_ ⟨hknows.holder, ?_, ?_⟩ ?_ ?_
  · intro e he p j hj
    rcases List.mem_cons.mp he with rfl | he
    · by_cases hp : p = S.target (S.name c)
      · rw [hp] at hj
        rw [← hplace j hj]
        exact howns.old
      · exact h.old _ List.mem_cons_self p j (hrest p j hp hj)
    · exact h.old e he p j hj
  · intro e he n j hj
    rcases List.mem_cons.mp he with rfl | he
    · by_cases hn : S.target n = S.target (S.name c)
      · rw [hn] at hj
        obtain rfl := hplace j hj
        obtain rfl := S.target_injective hn
        have hmem := List.mem_set (List.getElem?_eq_some_iff.mp hi.1).1
          (c, { k with temporary := some { t with stage := Stage.moved } })
        refine ⟨hfile.2.2, hfile.2.1, _, hmem, rfl, ?_⟩
        show (w.files t.file).data ∈ S.texts c
        rw [hfile.1]
        exact htext
      · exact (h.complete _ List.mem_cons_self n j (hrest _ j hn hj)).mono rfl (contexts_set hi.1 _)
    · exact (h.complete e he n j hj).mono rfl (contexts_set hi.1 _)
  · intro _ _
    exact hknows.locked t ht
  · intro t' ht'
    obtain rfl := Option.some.inj ht'
    exact ⟨howns.old, howns.path, fun hstage => absurd rfl hstage, fun hstage =>
      absurd rfl hstage, trivial⟩
  · intro i' c' k' hne hi'
    have hknows' := h.knows i' c' k' hi'
    refine ⟨hknows'.holder, hknows'.locked, fun t' ht' => ?_⟩
    have howns' := hknows'.owns t' ht'
    refine howns'.setEntries ?_ fun hstage n hj => ?_
    · rw [Function.update_of_ne (howns'.path_ne_target _),
        Function.update_of_ne (h.path_ne hi hi' ht ht' hne)]
    · by_cases hn : S.target n = S.target (S.name c)
      · rw [hn] at hj
        exact hne (h.separate i' i c' c k' k t' t hi' hi ht' ht (hplace _ hj).symm)
      · exact howns'.hidden hstage _ List.mem_cons_self n (hrest _ _ hn hj)
  · intro t'' ht'' i' c' k' t' hne hi' ht' hsame
    obtain rfl := Option.some.inj ht''
    exact hne (h.separate i' i c' c k' k t' t hi' hi ht' ht hsame.symm)

/-- Taking the lock. -/
lemma Invariant.lock (h : S.Invariant w vs) (hi : S.Running w vs i c k) (hk : k.locked = false)
    (hfree : w.holder (S.name c) = none) :
    S.Invariant { w with holder := Function.update w.holder (S.name c) (some i) }
      (vs.set i (c, { k with locked := true })) := by
  have hknows := h.knows i c k hi
  have hnone : ∀ t, k.temporary ≠ some t := by
    intro t ht
    have hlocked := hknows.locked t ht
    rw [hk] at hlocked
    cases hlocked
  refine h.step hi rfl h.old ?_ ⟨fun _ => Function.update_self _ _ _, fun _ _ => rfl, ?_⟩ ?_ ?_
  · intro e he n j hj
    exact (h.complete e he n j hj).mono rfl (contexts_set hi.1 _)
  · intro t ht
    exact absurd ht (hnone t)
  · intro i' c' k' hne hi'
    have hknows' := h.knows i' c' k' hi'
    refine ⟨fun hk' => ?_, hknows'.locked, fun t' ht' => ?_⟩
    · have hholder := hknows'.holder hk'
      refine (Function.update_of_ne ?_ _ _).trans hholder
      intro hname
      rw [hname, hfree] at hholder
      cases hholder
    · have howns' := hknows'.owns t' ht'
      exact ⟨howns'.old, howns'.path, howns'.entry, howns'.hidden, howns'.holds⟩
  · intro t ht
    exact absurd ht (hnone t)

omit [DecidableEq Name] in
/-- A writer that has not begun. -/
lemma Knows.fresh : S.Knows w i c {} where
  holder hk := by cases hk
  locked t ht := by cases ht
  owns t ht := by cases ht

/-- Giving it back; what is left of a temporary file is forgotten. -/
lemma Invariant.unlock (h : S.Invariant w vs) (hi : S.Running w vs i c k) (hk : k.locked = true) :
    S.Invariant { w with holder := Function.update w.holder (S.name c) none }
      (vs.set i (c, {})) := by
  refine h.step hi rfl h.old ?_ .fresh ?_ ?_
  · intro e he n j hj
    exact (h.complete e he n j hj).mono rfl (contexts_set hi.1 _)
  · intro i' c' k' hne hi'
    have hknows' := h.knows i' c' k' hi'
    refine ⟨fun hk' => ?_, hknows'.locked, fun t' ht' => ?_⟩
    · refine (Function.update_of_ne ?_ _ _).trans (hknows'.holder hk')
      intro hname
      exact hne (h.eq_of_name hi' hk' hi hk hname)
    · have howns' := hknows'.owns t' ht'
      exact ⟨howns'.old, howns'.path, howns'.entry, howns'.hidden, howns'.holds⟩
  · intro t ht
    cases ht

/-- After the writers have been killed, and whatever has become of the files. -/
lemma Invariant.reboot (h : S.Invariant w vs) (hboot : w'.boot = w.boot + 1)
    (hnext : w'.next = w.next)
    (hentries : ∀ e ∈ w'.entries :: w'.earlier, ∀ path j, e path = some j →
      ∃ e' ∈ w.entries :: w.earlier, e' path = some j)
    (hfiles : ∀ j, (w.files j).synced = true → (w.files j).buffer = [] → w'.files j = w.files j) :
    S.Invariant w' vs := by
  have hfresh : ∀ {i c k}, S.Running w' vs i c k → k = {} := by
    rintro i c k ⟨hget, hb⟩
    refine h.waiting (c, k) (List.mem_of_getElem? hget) ?_
    show w.boot < S.boot c
    omega
  refine ⟨?_, ?_, ?_, ?_, ?_⟩
  · intro e he path j hj
    obtain ⟨e', he', hj'⟩ := hentries e he path j hj
    exact hnext ▸ h.old e' he' path j hj'
  · intro e he n j hj
    obtain ⟨e', he', hj'⟩ := hentries e he _ j hj
    have hcomplete := h.complete e' he' n j hj'
    exact hcomplete.mono (hfiles j hcomplete.synced hcomplete.buffer) fun v hv => ⟨v, hv, rfl⟩
  · intro i c k hi
    obtain rfl := hfresh hi
    exact .fresh
  · intro i i' c c' k k' t t' hi _ ht
    obtain rfl := hfresh hi
    cases ht
  · intro v hv hlt
    exact h.waiting v hv (by omega)

lemma Invariant.environment {e : Event} (h : S.Invariant w vs) (he : environment w e = some w') :
    S.Invariant w' vs := by
  cases e with
  | kill =>
      obtain rfl := Option.some.inj he
      exact h.reboot rfl rfl (fun e he _ _ hj => ⟨e, he, hj⟩) fun _ _ _ => rfl
  | powerLoss pick lost =>
      obtain rfl := Option.some.inj he
      refine h.reboot rfl rfl ?_ ?_
      · intro e he path j hj
        obtain rfl := List.mem_singleton.mp he
        refine ⟨(w.entries :: w.earlier).getD (pick path) w.entries, ?_, hj⟩
        rw [List.getD_eq_getElem?_getD]
        cases hpick : (w.entries :: w.earlier)[pick path]? with
        | none => exact List.mem_cons_self
        | some e => exact List.mem_of_getElem? hpick
      · intro j hsynced hbuffer
        show (if (w.files j).synced then { w.files j with buffer := [] } else ⟨lost j, [], true⟩)
          = _
        rw [if_pos hsynced, ← hbuffer]

lemma Invariant.arrive (h : S.Invariant w vs) (c : S.Context) :
    S.Invariant w (vs ++ [(c, ({} : Progress))]) := by
  have hcases : ∀ {i c' k}, S.Running w (vs ++ [(c, ({} : Progress))]) i c' k →
      S.Running w vs i c' k ∨ k = {} := by
    rintro i c' k ⟨hget, hb⟩
    rcases Nat.lt_or_ge i vs.length with hlt | hge
    · rw [List.getElem?_append_left hlt] at hget
      exact .inl ⟨hget, hb⟩
    · rw [List.getElem?_append_right hge] at hget
      have hmem := List.mem_of_getElem? hget
      obtain heq := List.mem_singleton.mp hmem
      exact .inr (Prod.mk.inj heq).2
  refine ⟨h.old, ?_, ?_, ?_, ?_⟩
  · intro e he n j hj
    exact (h.complete e he n j hj).mono rfl fun v hv => ⟨v, List.mem_append_left _ hv, rfl⟩
  · intro i c' k hi
    rcases hcases hi with hi | rfl
    · exact h.knows i c' k hi
    · exact .fresh
  · intro i i' c₁ c₂ k k' t t' hi hi' ht ht' hfile
    rcases hcases hi with hi | rfl
    · rcases hcases hi' with hi' | rfl
      · exact h.separate i i' c₁ c₂ k k' t t' hi hi' ht ht' hfile
      · cases ht'
    · cases ht
  · intro v hv hlt
    rcases List.mem_append.mp hv with hv | hv
    · exact h.waiting v hv hlt
    · obtain rfl := List.mem_singleton.mp hv
      rfl

/-- A call on the writer's own stream. -/
lemma Invariant.pour {bytes : List ℕ} {reached : ℕ} {stage : Temporary → Temporary}
    (h : S.Invariant w vs) (hi : S.Running w vs i c k) (ht : k.temporary = some t)
    (hmoved : t.stage ≠ .moved) (hfile : (stage t).file = t.file) (hpath : (stage t).path = t.path)
    (hholds : (stage t).Holds ((w.pour t.file bytes reached).files t.file)) :
    S.Invariant (w.pour t.file bytes reached) (vs.set i (c, k.stage stage)) := by
  rw [Disk.pour_eq]
  refine h.setFile hi ht hmoved rfl fun t' ht' => ?_
  rw [Progress.stage, ht] at ht'
  obtain rfl := Option.some.inj ht'
  exact ⟨hfile, hpath, hholds⟩

/-- Flushing, or the end of the stream. -/
lemma Invariant.drained {choice : Choice} {r : Option Unit} (h : S.Invariant w vs)
    (hi : S.Running w vs i c k) (hperm : ∃ t, k.temporary = some t ∧ t.file = j ∧ t.stage ≠ .moved)
    (hexec : w.drained j choice = (r, w')) :
    S.Invariant w' (vs.set i (c, k.stage fun t => t.flush r)) := by
  obtain ⟨t, ht, rfl, hmoved⟩ := hperm
  have hholds := ((h.knows i c k hi).owns t ht).holds
  rw [Disk.drained] at hexec
  by_cases hfails : choice.fails = true
  · rw [if_pos hfails] at hexec
    obtain ⟨rfl, rfl⟩ := Prod.mk.inj hexec
    exact h.pour hi ht hmoved rfl rfl trivial
  · rw [if_neg hfails] at hexec
    obtain ⟨rfl, rfl⟩ := Prod.mk.inj hexec
    have hflush := t.flush_file
    refine h.pour hi ht hmoved hflush.1 hflush.2 ?_
    obtain ⟨hdata, hbuffer, hsame⟩ := w.drain_files t.file
    exact hholds.flush hdata hbuffer hsame

/-- **Every call keeps the invariant**, if the writer may make it. -/
theorem Invariant.exec {o : FileOp Name} {choice : Choice} {r : o.Resp} (h : S.Invariant w vs)
    (hi : S.Running w vs i c k) (hperm : S.permits c k o)
    (hexec : exec i w o choice = some (r, w')) :
    S.Invariant w' (vs.set i (c, k.learn o r)) := by
  have hknown : S.Invariant w (vs.set i (c, k)) :=
    h.same hi rfl fun t ht =>
      ⟨t, ht, rfl, rfl, fun hstage => hstage, ((h.knows i c k hi).owns t ht).holds⟩
  cases o with
  | lock name =>
      obtain ⟨rfl, hlocked⟩ := hperm
      rw [Files.exec] at hexec
      split_ifs at hexec with hfree
      obtain ⟨rfl, rfl⟩ := Prod.mk.inj (Option.some.inj hexec)
      exact h.lock hi hlocked hfree
  | unlock name =>
      obtain ⟨rfl, hlocked⟩ := hperm
      obtain ⟨rfl, rfl⟩ := Prod.mk.inj (Option.some.inj hexec)
      exact h.unlock hi hlocked
  | makeDirectory =>
      obtain ⟨-, rfl⟩ := Prod.mk.inj (Option.some.inj hexec)
      exact hknown
  | chmod path =>
      obtain ⟨-, rfl⟩ := Prod.mk.inj (Option.some.inj hexec)
      exact hknown
  | mkstemp stem =>
      obtain ⟨rfl, hlocked, hnone⟩ := hperm
      rw [Files.exec] at hexec
      split_ifs at hexec with hfails hfree
      · obtain ⟨rfl, rfl⟩ := Prod.mk.inj (Option.some.inj hexec)
        exact hknown
      · obtain ⟨rfl, rfl⟩ := Prod.mk.inj (Option.some.inj hexec)
        exact h.mkstemp hi hlocked hfree
  | write j bytes =>
      obtain ⟨t, ht, rfl, hopened⟩ := hperm
      obtain ⟨rfl, rfl⟩ := Prod.mk.inj (Option.some.inj hexec)
      have hholds := ((h.knows i c k hi).owns t ht).holds
      rw [Temporary.Holds, hopened] at hholds
      have hmoved : t.stage ≠ .moved := by
        rw [hopened]
        decide
      by_cases hfails : choice.fails = true
      · rw [if_pos hfails]
        exact h.pour hi ht hmoved rfl rfl trivial
      · rw [if_neg hfails]
        refine h.pour hi ht hmoved rfl rfl ?_
        rw [Temporary.Holds, hopened]
        show _ = t.written ++ bytes
        rw [Disk.pour_files, hholds]
  | flush j =>
      exact h.drained hi hperm (Option.some.inj hexec)
  | close j =>
      exact h.drained hi hperm (Option.some.inj hexec)
  | fsync j =>
      obtain ⟨t, ht, rfl, hmoved⟩ := hperm
      have hholds := ((h.knows i c k hi).owns t ht).holds
      rw [Files.exec] at hexec
      split_ifs at hexec with hfails
      · obtain ⟨rfl, rfl⟩ := Prod.mk.inj (Option.some.inj hexec)
        refine h.same hi rfl fun t' ht' => ?_
        rw [Progress.learn, Progress.stage, ht] at ht'
        obtain rfl := Option.some.inj ht'
        exact ⟨t, ht, rfl, rfl, fun _ => hmoved, trivial⟩
      · obtain ⟨rfl, rfl⟩ := Prod.mk.inj (Option.some.inj hexec)
        refine h.setFile hi ht hmoved rfl fun t' ht' => ?_
        rw [Progress.learn, Progress.stage, ht] at ht'
        obtain rfl := Option.some.inj ht'
        exact ⟨t.fsync_file.1, t.fsync_file.2, hholds.fsync⟩
  | replace source target =>
      obtain ⟨rfl, t, ht, rfl, hsynced, htext⟩ := hperm
      rw [Files.exec] at hexec
      have hmoved : t.stage ≠ .moved := by
        rw [hsynced]
        decide
      have hentry := ((h.knows i c k hi).owns t ht).entry hmoved
      have hstage : ∀ f : Temporary → Temporary, k.stage f
        = { k with temporary := some (f t) } := by
        intro f
        rw [Progress.stage, ht]
        rfl
      split_ifs at hexec with hfails
      · obtain ⟨rfl, rfl⟩ := Prod.mk.inj (Option.some.inj hexec)
        rw [Progress.learn, hstage, ← ht]
        exact hknown
      · rw [hentry] at hexec
        obtain ⟨rfl, rfl⟩ := Prod.mk.inj (Option.some.inj hexec)
        rw [Progress.learn, hstage]
        exact h.replace hi ht hsynced htext
  | unlink path =>
      obtain ⟨hlocked, hpath⟩ := hperm
      rw [Files.exec] at hexec
      split_ifs at hexec with hfails
      · obtain ⟨rfl, rfl⟩ := Prod.mk.inj (Option.some.inj hexec)
        exact hknown
      · obtain ⟨rfl, rfl⟩ := Prod.mk.inj (Option.some.inj hexec)
        exact h.unlink hi hpath

/-! ## Contents -/

omit [DecidableEq Name] in
/-- A file that no name in place stands for may change. -/
lemma content_setFile (h : ∀ n, w.entries (S.target n) ≠ some j) (n : Name) :
    (w.setFile j f).content (S.target n) = w.content (S.target n) := by
  show (w.entries _).map _ = (w.entries _).map _
  cases hentry : w.entries (S.target n) with
  | none => rfl
  | some j' =>
      have hne : j' ≠ j := by
        rintro rfl
        exact h n hentry
      rw [Option.map_some, Option.map_some, Disk.setFile_files_of_ne f hne]

/-- The names in place do not stand for a file that its writer is still working on. -/
lemma Invariant.unnamed (h : S.Invariant w vs) (hi : S.Running w vs i c k)
    (ht : k.temporary = some t)
    (hmoved : t.stage ≠ .moved) (n : Name) : w.entries (S.target n) ≠ some t.file :=
  ((h.knows i c k hi).owns t ht).hidden hmoved _ List.mem_cons_self n

omit [DecidableEq Name] in
lemma content_pour {bytes : List ℕ} {reached : ℕ} (h : ∀ n, w.entries (S.target n) ≠ some j)
    (n : Name) :
    (w.pour j bytes reached).content (S.target n) = w.content (S.target n) := by
  rw [Disk.pour_eq]
  exact content_setFile h n

omit [DecidableEq Name] in
lemma content_drained {choice : Choice} {r : Option Unit} (h : ∀ n, w.entries (S.target n) ≠ some j)
    (hexec : w.drained j choice = (r, w')) (n : Name) :
    w'.content (S.target n) = w.content (S.target n) := by
  rw [Disk.drained] at hexec
  split_ifs at hexec
  · obtain ⟨-, rfl⟩ := Prod.mk.inj hexec
    exact content_pour h n
  · obtain ⟨-, rfl⟩ := Prod.mk.inj hexec
    exact content_pour h n

/-- **A name in place changes all at once**: in one step of a writer that has the lock, from what it
stood for to nothing, or to a text that is to be there. -/
theorem Invariant.content {o : FileOp Name} {choice : Choice} {r : o.Resp} (h : S.Invariant w vs)
    (hi : S.Running w vs i c k) (hperm : S.permits c k o)
    (hexec : Files.exec i w o choice = some (r, w'))
    (n : Name) :
    w'.content (S.target n) = w.content (S.target n)
      ∨ S.name c = n ∧ w.holder n = some i
        ∧ (w'.content (S.target n) = none ∨ ∃ text ∈ S.texts c, w'.content (S.target n)
          = some text) := by
  have hstem : ∀ suffix, S.target n ≠ S.stem (S.name c) ++ suffix := fun suffix =>
    (S.stem_ne_target _ _ _).symm
  cases o with
  | lock name =>
      rw [Files.exec] at hexec
      split_ifs at hexec
      obtain ⟨rfl, rfl⟩ := Prod.mk.inj (Option.some.inj hexec)
      exact .inl rfl
  | unlock name =>
      obtain ⟨rfl, rfl⟩ := Prod.mk.inj (Option.some.inj hexec)
      exact .inl rfl
  | makeDirectory =>
      obtain ⟨-, rfl⟩ := Prod.mk.inj (Option.some.inj hexec)
      exact .inl rfl
  | chmod path =>
      obtain ⟨-, rfl⟩ := Prod.mk.inj (Option.some.inj hexec)
      exact .inl rfl
  | mkstemp stem =>
      obtain ⟨rfl, -, -⟩ := hperm
      rw [Files.exec] at hexec
      split_ifs at hexec
      · obtain ⟨-, rfl⟩ := Prod.mk.inj (Option.some.inj hexec)
        exact .inl rfl
      · obtain ⟨-, rfl⟩ := Prod.mk.inj (Option.some.inj hexec)
        left
        show (Function.update w.entries _ (some w.next) (S.target n)).map _ = (w.entries _).map _
        rw [Function.update_of_ne (hstem _)]
        cases hentry : w.entries (S.target n) with
        | none => rfl
        | some j =>
            have hne : j ≠ w.next := Nat.ne_of_lt (h.old _ List.mem_cons_self _ _ hentry)
            rw [Option.map_some, Option.map_some]
            show some (Function.update w.files w.next {} j).data = _
            rw [Function.update_of_ne hne]
  | write j bytes =>
      obtain ⟨t, ht, rfl, hopened⟩ := hperm
      obtain ⟨-, rfl⟩ := Prod.mk.inj (Option.some.inj hexec)
      exact .inl (content_pour (h.unnamed hi ht (by rw [hopened]; decide)) n)
  | flush j =>
      obtain ⟨t, ht, rfl, hmoved⟩ := hperm
      exact .inl (content_drained (h.unnamed hi ht hmoved) (Option.some.inj hexec) n)
  | close j =>
      obtain ⟨t, ht, rfl, hmoved⟩ := hperm
      exact .inl (content_drained (h.unnamed hi ht hmoved) (Option.some.inj hexec) n)
  | fsync j =>
      obtain ⟨t, ht, rfl, hmoved⟩ := hperm
      rw [Files.exec] at hexec
      split_ifs at hexec
      · obtain ⟨-, rfl⟩ := Prod.mk.inj (Option.some.inj hexec)
        exact .inl rfl
      · obtain ⟨-, rfl⟩ := Prod.mk.inj (Option.some.inj hexec)
        exact .inl (content_setFile (h.unnamed hi ht hmoved) n)
  | replace source target =>
      obtain ⟨rfl, t, ht, rfl, hsynced, htext⟩ := hperm
      have hknows := h.knows i c k hi
      have howns := hknows.owns t ht
      have hentry := howns.entry (by rw [hsynced]; decide)
      have hholds := howns.holds
      rw [Temporary.Holds, hsynced] at hholds
      rw [Files.exec, hentry] at hexec
      split_ifs at hexec
      · obtain ⟨-, rfl⟩ := Prod.mk.inj (Option.some.inj hexec)
        exact .inl rfl
      · obtain ⟨-, rfl⟩ := Prod.mk.inj (Option.some.inj hexec)
        by_cases hn : n = S.name c
        · subst hn
          refine .inr ⟨rfl, hknows.holder (hknows.locked t ht), .inr ⟨t.written, htext, ?_⟩⟩
          rw [Disk.content_setEntries, Function.update_self, ← hholds.1]
          rfl
        · left
          rw [Disk.content_setEntries, Function.update_of_ne fun heq => hn (S.target_injective heq),
            Function.update_of_ne (howns.path_ne_target n).symm]
          rfl
  | unlink path =>
      obtain ⟨hlocked, hpath⟩ := hperm
      have hknows := h.knows i c k hi
      rw [Files.exec] at hexec
      split_ifs at hexec
      · obtain ⟨-, rfl⟩ := Prod.mk.inj (Option.some.inj hexec)
        exact .inl rfl
      · obtain ⟨-, rfl⟩ := Prod.mk.inj (Option.some.inj hexec)
        by_cases hn : S.target n = path
        · rcases hpath with rfl | ⟨t, ht, rfl⟩
          · obtain rfl := S.target_injective hn
            refine .inr ⟨rfl, hknows.holder hlocked, .inl ?_⟩
            rw [Disk.content_setEntries, Function.update_self]
            rfl
          · exact absurd hn.symm ((hknows.owns t ht).path_ne_target n)
        · left
          rw [Disk.content_setEntries, Function.update_of_ne hn]
          rfl

/-! ## Runs -/

/-- Every writer does only what it may. -/
def Disciplined (S : Scheme Name ε α) : Prop :=
  ∀ c, (S.program c).Obeys (S.machine.protocol c) (fun _ _ => True) (fun _ _ => True) {}

/-- A step of a machine is one of a writer of this boot. -/
lemma exec_running {p : S.machine.Pool} {choice : Choice} {th : S.machine.Thread} {o : FileOp Name}
    {r : o.Resp} (hth : p.threads[i]? = some th)
    (hexec : S.machine.exec i th.context p.world o choice = some (r, w')) :
    S.Running p.world p.views i th.context th.known ∧ exec i p.world o choice = some (r, w') := by
  have hexec : (if S.boot th.context = p.world.boot then exec i p.world o choice else none)
      = some (r, w') := hexec
  split_ifs at hexec with hboot
  refine ⟨⟨?_, hboot⟩, hexec⟩
  rw [Machine.Pool.views, List.getElem?_map, hth]
  rfl

/-- **The step lemma.** -/
theorem preserves (S : Scheme Name ε α) :
    Machine.Preserves (M := S.machine) (fun _ _ => True) S.Invariant where
  arrive p c _ hI := hI.arrive c
  event p e w _ hI he := hI.environment he
  step p i choice th o r w _ hI hth _ hperm hexec := by
    obtain ⟨hi, hexec⟩ := exec_running hth hexec
    exact ⟨trivial, hI.exec hi hperm hexec⟩

lemma invariant_empty : S.Invariant Disk.empty [] where
  old e he path j hj := by
    obtain rfl := List.mem_singleton.mp he
    cases hj
  complete e he n j hj := by
    obtain rfl := List.mem_singleton.mp he
    cases hj
  knows i c k hi := by cases hi.1
  separate i i' c c' k k' t t' hi := by cases hi.1
  waiting v hv := absurd hv List.not_mem_nil

/-- **The run lemma**: in every run from an empty directory. -/
theorem sound (hS : S.Disciplined) {p : S.machine.Pool}
    (h : Machine.Reaches (fun _ _ => True) ⟨Disk.empty, []⟩ p) :
    p.Sound (fun _ => True) S.Invariant :=
  h.sound S.preserves hS ⟨invariant_empty, fun _ ht => absurd ht List.not_mem_nil⟩

/-- What stands under a name in place is a text of a writer of that name. -/
theorem complete (hS : S.Disciplined) {p : S.machine.Pool}
    (h : Machine.Reaches (fun _ _ => True) ⟨Disk.empty, []⟩ p) {text : List ℕ}
    (htext : p.world.content (S.target n) = some text) :
    ∃ th ∈ p.threads, S.name th.context = n ∧ text ∈ S.texts th.context := by
  obtain ⟨j, hj, rfl⟩ := Option.map_eq_some_iff.mp htext
  obtain ⟨v, hv, hname, hmem⟩ := ((sound hS h).holds.complete _ List.mem_cons_self n j hj).text
  obtain ⟨th, hth, rfl⟩ := List.mem_map.mp hv
  exact ⟨th, hth, hname, hmem⟩

/-- A step of a writer changes a name in place all at once. -/
theorem content_step (hS : S.Disciplined) {p p' : S.machine.Pool} {choice : Choice}
    (h : Machine.Reaches (fun _ _ => True) ⟨Disk.empty, []⟩ p)
    (hnext : p.next (.step i choice) = some p') (n : Name) :
    p'.world.content (S.target n) = p.world.content (S.target n)
      ∨ ∃ th, p.threads[i]? = some th ∧ S.name th.context = n ∧ p.world.holder n = some i
        ∧ (p'.world.content (S.target n) = none
          ∨ ∃ text ∈ S.texts th.context, p'.world.content (S.target n) = some text) := by
  have hsound := sound hS h
  obtain ⟨th, o, rest, r, w, hth, hrest, hexec, rfl⟩ := Machine.Pool.next_step hnext
  have hpending : th.pending = some o := by
    rw [Machine.Thread.pending, hrest]
  obtain ⟨hi, hexec⟩ := exec_running hth hexec
  rcases hsound.holds.content hi (hsound.permits hth hpending) hexec n with hsame | hchange
  · exact .inl hsame
  · exact .inr ⟨th, hth, hchange⟩

end Scheme

end Library.Files
