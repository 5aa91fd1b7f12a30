import FreebsdLaboratory.Model.JailFiles
import Mathlib.Tactic

/-!
# The authorized key stays inside the jail

`_install_jail_authorized_key` runs as root over a tree that the jail's template has made, with
links wherever it likes.  Both paths that it starts from are real ones, so the home directory has no
link above it and is inside the jail where the function goes on.  Below it two names are used, and
each is freed of a link before anything follows it: the places that are written are the ones that
the paths spell.
-/

namespace FreebsdLaboratory

open Library Program

variable {t t' : JailTree} {root home position rest q q' : Place} {c : List Char} {follow : Bool}

/-! ## Paths and places -/

/-- A name that a directory can have. -/
structure IsName (c : List Char) : Prop where
  ne_nil : c ≠ []
  not_slash : '/' ∉ c
  ne_here : c ≠ ['.']
  ne_parent : c ≠ parentName

/-- The place is made of names. -/
def Named (q : Place) : Prop := ∀ c ∈ q, IsName c

lemma Named.concat (hq : Named q) (hc : IsName c) : Named (q ++ [c]) := by
  intro d hd
  rcases List.mem_append.mp hd with hd | hd
  · exact hq d hd
  · rw [List.mem_singleton.mp hd]
    exact hc

lemma pathComponents_slash (a b : List Char) :
    pathComponents (a ++ '/' :: b) = pathComponents a ++ pathComponents b := by
  rw [pathComponents, List.splitOn_append_cons_self, List.filter_append]
  rfl

lemma pathComponents_nil : pathComponents [] = [] := rfl

lemma pathComponents_name (h : IsName c) : pathComponents c = [c] := by
  rw [pathComponents, List.splitOn_eq_singleton h.not_slash]
  simp [h.ne_nil, h.ne_here]

lemma not_slash_of_mem_splitOn {cs : List Char} (h : c ∈ cs.splitOn '/') : '/' ∉ c := by
  induction cs generalizing c with
  | nil =>
      rw [List.splitOn_nil, List.mem_singleton] at h
      simp [h]
  | cons x cs ih =>
      rw [List.splitOn_cons_eq_if_modifyHead] at h
      split_ifs at h with hx
      · rcases List.mem_cons.mp h with rfl | h
        · simp
        · exact ih h
      · cases hsplit : cs.splitOn '/' with
        | nil => exact absurd hsplit (List.splitOn_ne_nil _ _)
        | cons first others =>
            rw [hsplit] at h ih
            rcases List.mem_cons.mp h with rfl | h
            · have hfirst := ih (List.mem_cons_self (a := first))
              have hne : ('/' : Char) ≠ x := fun heq => hx (by simp [← heq])
              simp [hne, hfirst]
            · exact ih (List.mem_cons_of_mem _ h)

/-- A component goes up, or is a name. -/
lemma name_of_mem_pathComponents {cs : List Char} (h : c ∈ pathComponents cs) :
    c = parentName ∨ IsName c := by
  obtain ⟨hsplit, hfilter⟩ := List.mem_filter.mp h
  simp only [ne_eq, Bool.and_eq_true, decide_eq_true_eq] at hfilter
  by_cases hparent : c = parentName
  · exact .inl hparent
  · exact .inr ⟨hfilter.1, not_slash_of_mem_splitOn hsplit, hfilter.2, hparent⟩

lemma pathComponents_flatMap (hq : Named q) : pathComponents (q.flatMap ('/' :: ·)) = q := by
  induction q with
  | nil => rfl
  | cons c q ih =>
      have hname : IsName c := hq c (by simp)
      have htail := ih fun d hd => hq d (by simp [hd])
      have hfirst : ((c :: q).flatMap ('/' :: ·))
        = [] ++ '/' :: (c ++ q.flatMap ('/' :: ·)) := by simp
      rw [hfirst, pathComponents_slash, pathComponents_nil, List.nil_append]
      cases q with
      | nil => simpa using pathComponents_name hname
      | cons d q =>
          have hrest : (d :: q).flatMap ('/' :: ·) = '/' :: (d ++ q.flatMap ('/' :: ·)) := by simp
          rw [hrest] at htail ⊢
          rw [pathComponents_slash, pathComponents_name hname]
          have hskip := pathComponents_slash [] (d ++ q.flatMap ('/' :: ·))
          rw [List.nil_append, pathComponents_nil, List.nil_append] at hskip
          rw [← hskip, htail]
          rfl

/-- **The text of a place is a path with its names as components.** -/
lemma pathComponents_text (hq : Named q) : pathComponents q.text.toList = q := by
  rw [Place.text, String.toList_ofList]
  split_ifs with hnil
  · rw [hnil]
    rfl
  · exact pathComponents_flatMap hq

/-- One more name. -/
lemma pathComponents_child {path below : String} (hbelow : below.toList = '/' :: c)
    (hc : IsName c) :
    pathComponents (path ++ below).toList = pathComponents path.toList ++ [c] := by
  rw [String.toList_append, hbelow, pathComponents_slash, pathComponents_name hc]

lemma pathComponents_rdropWhile (cs : List Char) :
    pathComponents (cs.rdropWhile (· == '/')) = pathComponents cs := by
  induction cs using List.reverseRecOn with
  | nil => rfl
  | append_singleton cs x ih =>
      rw [List.rdropWhile_concat]
      split_ifs with hx
      · have hslash : x = '/' := by simpa using hx
        rw [ih, hslash, pathComponents_slash, pathComponents_nil, List.append_nil]
      · rfl

/-- **The check of the daemon**: the text of the root begins the text of the home directory. -/
lemma prefix_of_pathWithin (hroot : Named root) (hhome : Named home)
    (h : pathWithin root.text home.text = true) : root <+: home := by
  rw [pathWithin, Bool.or_eq_true] at h
  rcases h with h | h
  · have heq : home.text = root.text := by simpa using h
    rw [← pathComponents_text hroot, ← pathComponents_text hhome, heq]
  · have hwithinRoot : (root.text.toList.rdropWhile (· == '/') ++ ['/']) <+: home.text.toList := by
      simpa [Text.startsWith, Text.rstripChar, String.toList_append] using h
    obtain ⟨below, hbelow⟩ := hwithinRoot
    have hcomponents := congrArg pathComponents hbelow
    rw [List.append_assoc, List.singleton_append, pathComponents_slash, pathComponents_rdropWhile,
      pathComponents_text hroot, pathComponents_text hhome] at hcomponents
    exact ⟨_, hcomponents⟩

/-! ## Places without links above them -/

namespace JailTree

/-- Neither the place nor anything above it is a link. -/
def LinkFree (t : JailTree) (q : Place) : Prop := ∀ above, above <+: q → ¬ t.IsLink above

lemma linkFree_nil : t.LinkFree [] := by
  intro above habove
  rw [List.prefix_nil.mp habove]
  rintro ⟨target, h⟩
  rw [t.root] at h
  cases h

lemma LinkFree.concat (h : t.LinkFree q) (hc : ¬ t.IsLink (q ++ [c])) : t.LinkFree (q ++ [c]) := by
  intro above habove
  rcases List.prefix_concat_iff.mp habove with rfl | habove
  · exact hc
  · exact h above habove

/-- **What a path leads to has no link above it.** -/
lemma Locates.linkFree (h : t.Locates true position rest q) (hposition : t.LinkFree position) :
    t.LinkFree q := by
  induction h with
  | arrive => exact hposition
  | @up position _ _ _ ih =>
      exact ih fun above habove => hposition above (habove.trans (List.dropLast_prefix position))
  | down _ hlink _ ih => exact ih (hposition.concat fun ⟨target, h⟩ => hlink target h)
  | stay _ hfollow => cases hfollow
  | link _ _ _ _ ih =>
      refine ih ?_
      split_ifs
      · exact linkFree_nil
      · exact hposition

/-- What a path leads to is made of names. -/
lemma Locates.named (h : t.Locates follow position rest q) (hposition : Named position)
    (hrest : ∀ c ∈ rest, c = parentName ∨ IsName c) : Named q := by
  induction h with
  | arrive => exact hposition
  | @up position _ _ _ ih =>
      exact ih (fun c hc => hposition c ((List.dropLast_sublist position).subset hc))
        fun c hc => hrest c (by simp [hc])
  | @down position _ _ c hne _ _ ih =>
      refine ih (fun d hd => ?_) fun d hd => hrest d (by simp [hd])
      rcases List.mem_append.mp hd with hd | hd
      · exact hposition d hd
      · rw [List.mem_singleton.mp hd]
        exact (hrest c (by simp)).resolve_left hne
  | @stay position c _ hne =>
      intro d hd
      rcases List.mem_append.mp hd with hd | hd
      · exact hposition d hd
      · rw [List.mem_singleton.mp hd]
        exact (hrest c (by simp)).resolve_left hne
  | link _ _ _ _ ih =>
      refine ih ?_ fun c hc => ?_
      · split_ifs
        · simp [Named]
        · exact hposition
      · rcases List.mem_append.mp hc with hc | hc
        · exact name_of_mem_pathComponents hc
        · exact hrest c (by simp [hc])

/-- **A walk along names without links on the way ends where the names say**; a link at the end does
not count if it is not followed. -/
lemma Locates.eq_of_names (h : t.Locates follow position rest q) (hrest : Named rest)
    (hlinks : ∀ above c, above ++ [c] <+: rest → t.IsLink (position ++ (above ++ [c])) →
      above ++ [c] = rest ∧ follow = false) : q = position ++ rest := by
  induction h with
  | arrive position => simp
  | up => exact absurd rfl (hrest _ (by simp)).ne_parent
  | @down position rest q c _ _ _ ih =>
      rw [ih (fun d hd => hrest d (by simp [hd])) ?_, List.append_assoc, List.singleton_append]
      intro above d habove hlink
      have hend := hlinks (c :: above) d (by simpa using habove) (by simpa using hlink)
      simpa using hend
  | stay => rfl
  | @link position rest q c target _ hfollow hnode _ _ =>
      have hend := hlinks [] c ⟨rest, rfl⟩ ⟨target, by simpa using hnode⟩
      rw [List.nil_append, List.cons.injEq] at hend
      rcases hfollow with hfollow | hne
      · rw [hend.2] at hfollow
        cases hfollow
      · exact absurd hend.1.2.symm hne

/-- A link-free place is where its own names lead. -/
lemma Locates.eq_of_linkFree (h : t.Locates follow [] rest q) (hrest : Named rest)
    (hfree : t.LinkFree rest) : q = rest := by
  have heq := h.eq_of_names hrest fun above c habove hlink => absurd hlink (hfree _ habove)
  simpa using heq

/-- One name below a link-free place. -/
lemma Locates.eq_of_child (h : t.Locates follow [] (home ++ [c]) q) (hnames : Named (home ++ [c]))
    (hfree : t.LinkFree home) (hlast : follow = false ∨ ¬ t.IsLink (home ++ [c])) :
    q = home ++ [c] := by
  have heq := h.eq_of_names hnames fun above d habove hlink => by
    rcases List.prefix_concat_iff.mp habove with hsame | habove
    · refine ⟨hsame, hlast.resolve_right fun hnot => hnot ?_⟩
      rw [← hsame]
      exact hlink
    · exact absurd hlink (hfree _ habove)
  simpa using heq

/-- A path leads to one place. -/
lemma Locates.unique (h : t.Locates true position rest q) (h' : t.Locates true position rest q') :
    q = q' := by
  induction h with
  | arrive =>
      cases h' with
      | arrive => rfl
  | up _ ih =>
      cases h' with
      | up h' => exact ih h'
      | down hne => exact absurd rfl hne
      | stay hne => exact absurd rfl hne
      | link hne => exact absurd rfl hne
  | down hne hlink _ ih =>
      cases h' with
      | up => exact absurd rfl hne
      | down _ _ h' => exact ih h'
      | stay _ hfollow => cases hfollow
      | link _ _ hnode => exact absurd hnode (hlink _)
  | stay _ hfollow => cases hfollow
  | link hne _ hnode _ ih =>
      cases h' with
      | up => exact absurd rfl hne
      | down _ hlink => exact absurd hnode (hlink _)
      | stay _ hfollow => cases hfollow
      | link _ _ hnode' h' =>
          rw [hnode, Option.some.injEq, JailNode.link.injEq] at hnode'
          subst hnode'
          exact ih h'

/-- Names lead down, if no link is among them. -/
lemma locates_append (hq : Named q)
    (hfree : ∀ above c, above ++ [c] <+: q → ¬ t.IsLink (position ++ (above ++ [c])))
    (h : t.Locates follow (position ++ q) rest q') : t.Locates follow position (q ++ rest) q' := by
  induction q generalizing position with
  | nil => simpa using h
  | cons c q ih =>
      have hname : IsName c := hq c (by simp)
      refine .down hname.ne_parent (fun target hnode => ?_) ?_
      · exact hfree [] c ⟨q, rfl⟩ ⟨target, by simpa using hnode⟩
      · refine ih (fun d hd => hq d (by simp [hd])) (fun above d habove hlink => ?_)
          (by simpa using h)
        exact hfree (c :: above) d (by simpa using habove) (by simpa using hlink)

/-- The last name leads to its place, whatever is there, if a link is not followed. -/
lemma locates_child (hnames : Named (home ++ [c])) (hfree : t.LinkFree home) :
    t.Locates false [] (home ++ [c]) (home ++ [c]) := by
  have hc : IsName c := hnames c (by simp)
  refine locates_append (fun d hd => hnames d (by simp [hd])) (fun above d habove => ?_) ?_
  · exact hfree _ habove
  · by_cases hlink : t.IsLink (home ++ [c])
    · obtain ⟨target, htarget⟩ := hlink
      exact .stay hc.ne_parent rfl htarget
    · exact .down hc.ne_parent (fun target h => hlink ⟨target, h⟩) (.arrive _)

/-- What is above something is there. -/
lemma node_above (h : t.node q ≠ none) (hwithinRoot : q' <+: q) : t.node q' ≠ none := by
  obtain ⟨below, rfl⟩ := hwithinRoot
  induction below using List.reverseRecOn with
  | nil => simpa using h
  | append_singleton below c ih =>
      refine ih fun hnone => ?_
      have hparent := t.parent (q' ++ below) c (by simpa using h)
      rw [hnone] at hparent
      cases hparent

/-! ## Operations over a tree -/

section Operations

variable {path : String}

lemma obeys_run {command : Command} {check : Bool} {Q : Completed → JailTree → Prop}
    (hQ : ∀ completed, Q completed t) :
    (run command check).Obeys (protocol root) Q (fun _ _ => True) t := by
  unfold run
  rw [Prog.obeys_bind]
  refine ⟨trivial, fun outcome t' hmoves => ?_⟩
  have hsame : t' = t := hmoves
  subst hsame
  rw [Prog.obeys_ret]
  cases outcome with
  | timeoutExpired => trivial
  | raises error => trivial
  | osError =>
      dsimp only
      split_ifs
      · trivial
      · exact hQ _
  | completed returncode stdout =>
      dsimp only
      by_cases hfailed : check = true ∧ returncode ≠ 0
      · rw [if_pos hfailed]
        trivial
      · rw [if_neg hfailed]
        exact hQ _

/-- What follows a check that raises. -/
lemma obeys_unless {condition : Prop} [Decidable condition] {e : PyError}
    {Q : Unit → JailTree → Prop}
    (hQ : ¬ condition → Q () t) :
    (when condition (raise e)).Obeys (protocol root) Q (fun _ _ => True) t := by
  unfold when
  split_ifs with hcondition
  · trivial
  · exact hQ hcondition

lemma obeys_resolve {Q : String → JailTree → Prop} (hQ : ∀ q, t.At true path q → Q q.text t) :
    (resolve path).Obeys (protocol root) Q (fun _ _ => True) t := by
  unfold resolve
  rw [Prog.obeys_bind]
  refine ⟨trivial, fun answer t' hmoves => ?_⟩
  obtain ⟨hsame, htext⟩ := hmoves
  subst hsame
  cases answer with
  | error e => trivial
  | ok text =>
      obtain ⟨q, hq, rfl⟩ := htext text rfl
      exact hQ q hq

lemma obeys_file {effect : FileEffect} {Q : Unit → JailTree → Prop}
    (hpermits : t.permits root effect)
    (hQ : ∀ t', t.changes effect t' → Q () t') :
    (file effect).Obeys (protocol root) Q (fun _ _ => True) t := by
  unfold file
  rw [Prog.obeys_bind]
  refine ⟨hpermits, fun answer t' hmoves => ?_⟩
  cases answer with
  | error e => trivial
  | ok done => exact hQ t' hmoves

/-- **A link at the end of the path is removed**: then the path has no link in it. -/
lemma obeys_freeOfLink (hpath : pathComponents path.toList = home ++ [c])
    (hnames : Named (home ++ [c])) (hfree : t.LinkFree home) (hinside : root <+: home ++ [c])
    {Q : Unit → JailTree → Prop}
    (hQ : ∀ t', t'.LinkFree (home ++ [c]) → t.SameBut t' (home ++ [c]) → Q () t') :
    (op (.ask (.isSymlink path))).Obeys (protocol root)
      (fun link t => (when (link = true) (file (.unlink path))).Obeys (protocol root) Q
        (fun _ _ => True) t) (fun _ _ => True) t := by
  have hunique : ∀ q, t.At false path q → q = home ++ [c] := by
    intro q hq
    rw [At, hpath] at hq
    exact hq.eq_of_child hnames hfree (.inl rfl)
  refine ⟨trivial, fun answer t' hmoves => ?_⟩
  obtain ⟨hsame, hanswer⟩ := hmoves
  subst hsame
  rw [Prog.obeys_ret]
  unfold when
  split_ifs with hlink
  · refine obeys_file (fun q hq => ?_) fun t' hchanges => ?_
    · rw [hunique q hq]
      exact hinside
    · obtain ⟨q, hq, -, hnone, hbut⟩ := hchanges
      rw [hunique q hq] at hnone hbut
      refine hQ t' (LinkFree.concat (fun above habove hlink => ?_) ?_) hbut
      · have hne : above ≠ home ++ [c] := by
          rintro rfl
          have hlength := habove.length_le
          simp at hlength
        obtain ⟨target, htarget⟩ := hlink
        exact hfree above habove ⟨target, by rw [← hbut above hne]; exact htarget⟩
      · rintro ⟨target, htarget⟩
        rw [hnone] at htarget
        cases htarget
  · refine hQ _ (hfree.concat fun hislink => hlink (hanswer.mpr ?_)) fun r _ => rfl
    refine ⟨home ++ [c], ?_, hislink⟩
    rw [At, hpath]
    exact locates_child hnames hfree

/-- **Directories are made inside**: what is outside is there already. -/
lemma obeys_mkdir (hpath : pathComponents path.toList = q) (hnames : Named q) (hfree : t.LinkFree q)
    (hinside : root <+: q) (hdir : t.node root = some .dir) {Q : Unit → JailTree → Prop}
    (hQ : ∀ t', t'.LinkFree q → Q () t') :
    (file (.mkdir path)).Obeys (protocol root) Q (fun _ _ => True) t := by
  refine obeys_file ?_ fun t' hchanges => hQ t' fun above habove hlink => ?_
  · intro above habove r hr hnone
    rw [hpath] at habove
    have hr' : r = above := hr.eq_of_linkFree (fun c hc => hnames c (habove.subset hc))
      fun higher hhigher => hfree higher (hhigher.trans habove)
    rw [hr'] at hnone ⊢
    rcases List.prefix_or_prefix_of_prefix habove hinside with h | h
    · exact absurd hnone (node_above (by simp [hdir]) h)
    · exact h
  · obtain ⟨hkept, hnew, -⟩ := hchanges
    obtain ⟨target, htarget⟩ := hlink
    by_cases hnone : t.node above = none
    · rcases hnew above hnone with h | h
      · rw [h] at htarget
        cases htarget
      · rw [h] at htarget
        cases htarget
    · rw [hkept above hnone] at htarget
      exact hfree above habove ⟨target, htarget⟩

/-- The path leads to its own place. -/
lemma eq_of_at (hpath : pathComponents path.toList = q) (hnames : Named q) (hfree : t.LinkFree q)
    (h : t.At follow path q') : q' = q := by
  rw [At, hpath] at h
  exact h.eq_of_linkFree hnames hfree

/-- Changing a mode or an owner changes neither the directories nor the links. -/
lemma obeys_attributes {effect : FileEffect}
    (heffect : effect = .chmod path ∨ ∃ uid gid, effect = .chown path uid gid)
    (hpath : pathComponents path.toList = q) (hnames : Named q) (hfree : t.LinkFree q)
    (hinside : root <+: q) {Q : Unit → JailTree → Prop} (hQ : Q () t) :
    (file effect).Obeys (protocol root) Q (fun _ _ => True) t := by
  have hwhere : ∀ r, t.At false path r → root <+: r := by
    intro r hr
    rw [eq_of_at hpath hnames hfree hr]
    exact hinside
  rcases heffect with rfl | ⟨uid, gid, rfl⟩
  · refine obeys_file hwhere fun t' hchanges => ?_
    have hsame : t' = t := hchanges
    rw [hsame]
    exact hQ
  · refine obeys_file hwhere fun t' hchanges => ?_
    have hsame : t' = t := hchanges
    rw [hsame]
    exact hQ

lemma obeys_writeText {content : String} (hpath : pathComponents path.toList = q) (hnames : Named q)
    (hfree : t.LinkFree q) (hinside : root <+: q) {Q : Unit → JailTree → Prop}
    (hQ : ∀ t', t'.LinkFree q → Q () t') :
    (file (.writeText path content)).Obeys (protocol root) Q (fun _ _ => True) t := by
  refine obeys_file (fun r hr => ?_) fun t' hchanges => hQ t' fun above habove hlink => ?_
  · rw [eq_of_at hpath hnames hfree hr]
    exact hinside
  · obtain ⟨r, hr, hfile, hbut⟩ := hchanges
    rw [eq_of_at hpath hnames hfree hr] at hfile hbut
    obtain ⟨target, htarget⟩ := hlink
    by_cases hsame : above = q
    · rw [hsame, hfile] at htarget
      cases htarget
    · rw [hbut above hsame] at htarget
      exact hfree above habove ⟨target, htarget⟩

end Operations

end JailTree

open JailTree

def sshName : List Char := ".ssh".toList

def keysName : List Char := "authorized_keys".toList

lemma isName_ssh : IsName sshName := ⟨by decide, by decide, by decide, by decide⟩

lemma isName_keys : IsName keysName := ⟨by decide, by decide, by decide, by decide⟩

/-- **The key is installed inside the jail**: whatever `pw` prints and whatever links the tree has,
each directory that is made, and each change of a mode, of an owner and of a file, is at a place
inside the jail's root. -/
theorem installJailAuthorizedKey_inside (m : RuntimeManager) {jailRoot publicKey : String}
    {t : JailTree} {root : Place} (hroot : t.At true jailRoot root)
    (hdir : t.node root = some .dir) :
    (installJailAuthorizedKey m jailRoot publicKey).Obeys (protocol root) (fun _ _ => True)
      (fun _ _ => True) t := by
  unfold installJailAuthorizedKey
  simp only [Prog.obeys_bind]
  refine obeys_run fun completed => ?_
  split
  · split
    · split_ifs
      · trivial
      · simp only [Prog.obeys_bind]
        refine obeys_resolve fun home hhome => obeys_resolve fun root' hroot' => ?_
        obtain rfl := hroot.unique hroot'
        refine obeys_unless fun hwithin => ?_
        have hrootNamed : Named root := hroot.named (by simp [Named]) fun c hc =>
          name_of_mem_pathComponents hc
        have hhomeNamed : Named home := hhome.named (by simp [Named]) fun c hc =>
          name_of_mem_pathComponents hc
        have hfree : t.LinkFree home := hhome.linkFree linkFree_nil
        have hwithinRoot : root <+: home :=
          prefix_of_pathWithin hrootNamed hhomeNamed (by simpa using hwithin)
        have hssh : pathComponents (home.text ++ "/.ssh").toList = home ++ [sshName] := by
          rw [pathComponents_child rfl isName_ssh, pathComponents_text hhomeNamed]
        have hkeys : pathComponents (home.text ++ "/.ssh" ++ "/authorized_keys").toList
            = home ++ [sshName] ++ [keysName] := by
          rw [pathComponents_child rfl isName_keys, hssh]
        have hsshNamed : Named (home ++ [sshName]) := hhomeNamed.concat isName_ssh
        have hkeysNamed : Named (home ++ [sshName] ++ [keysName]) := hsshNamed.concat isName_keys
        have hsshInside : root <+: home ++ [sshName] := hwithinRoot.trans (List.prefix_append _ _)
        have hkeysInside : root <+: home ++ [sshName] ++ [keysName] :=
          hsshInside.trans (List.prefix_append _ _)
        refine obeys_freeOfLink hssh hsshNamed hfree hsshInside fun t₁ hfree₁ hbut₁ => ?_
        have hne : root ≠ home ++ [sshName] := by
          intro heq
          have hlength := hwithinRoot.length_le
          rw [heq] at hlength
          simp at hlength
        have hdir₁ : t₁.node root = some .dir := by rw [hbut₁ root hne, hdir]
        refine obeys_mkdir hssh hsshNamed hfree₁ hsshInside hdir₁ fun t₂ hfree₂ => ?_
        refine obeys_attributes (.inl rfl) hssh hsshNamed hfree₂ hsshInside ?_
        refine obeys_attributes (.inr ⟨_, _, rfl⟩) hssh hsshNamed hfree₂ hsshInside ?_
        -- the directory is a real one now, so that only the file itself can be a link
        refine obeys_freeOfLink hkeys hkeysNamed hfree₂ hkeysInside fun t₃ hfree₃ _ => ?_
        refine obeys_writeText hkeys hkeysNamed hfree₃ hkeysInside fun t₄ hfree₄ => ?_
        refine obeys_attributes (.inl rfl) hkeys hkeysNamed hfree₄ hkeysInside ?_
        exact obeys_attributes (.inr ⟨_, _, rfl⟩) hkeys hkeysNamed hfree₄ hkeysInside trivial
    · trivial
  · trivial

/-- A jail at `/j`: the `.ssh` of `/root` is a link to the host's `/etc`, and the `authorized_keys`
of `/home` is one to a file there. -/
def linkedPlaces : List (Place × JailNode) :=
  [([], .dir), ([['j']], .dir), ([['j'], "root".toList], .dir),
    ([['j'], "root".toList, sshName], .link "/etc".toList), ([['j'], "home".toList], .dir),
    ([['j'], "home".toList, sshName], .dir),
    ([['j'], "home".toList, sshName, keysName], .link "/etc/passwd".toList), (["etc".toList], .dir),
    (["etc".toList, "passwd".toList], .file)]

lemma linkedPlaces_parents : ∀ place ∈ linkedPlaces, place.1 ≠ [] →
    linkedPlaces.lookup place.1.dropLast = some .dir := by
  decide

def linkedJail : JailTree where
  node q := linkedPlaces.lookup q
  root := rfl
  parent q c h := by
    obtain ⟨node, hnode⟩ := Option.ne_none_iff_exists'.mp h
    obtain ⟨before, after, hplaces, -⟩ := List.lookup_eq_some_iff.mp hnode
    have hmem : (q ++ [c], node) ∈ linkedPlaces := by simp [hplaces]
    simpa using linkedPlaces_parents _ hmem (by simp)

theorem installJailAuthorizedKey_inside_linkedJail :
    (installJailAuthorizedKey .standard "/j" "ssh-ed25519 AAAA").Obeys (protocol [['j']])
      (fun _ _ => True) (fun _ _ => True) linkedJail := by
  have hdir : linkedJail.node [['j']] = some .dir := rfl
  have hroot : linkedJail.At true "/j" [['j']] := by
    refine .down (by decide) (fun target h => ?_) (.arrive _)
    cases hdir.symm.trans h
  exact installJailAuthorizedKey_inside _ hroot hdir

end FreebsdLaboratory
