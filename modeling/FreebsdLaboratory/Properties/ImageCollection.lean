import FreebsdLaboratory.Model.ImageCollection
import Mathlib.Tactic

/-!
# What the collection of images removes

The collection should leave every link that resolves as it is, and take no checksum and no manifest
from an image or a kernel that stays.  It goes by the texts of links: a file stays if the text of a
link that resolves is its name, letter by letter, or the name of one of the two sidecars that are
made from the text.  A link with another text for the same file, such as a path from the root, does
not keep it, and a kernel without a link is not swept while its checksum is.
-/

namespace FreebsdLaboratory

open Library.Unicode

namespace ImagesDirectory

variable {d : ImagesDirectory} {p : Pathnames} {name : Str} {n : ℕ}

/-! ## What is swept -/

/-- No text that the script collects stands for the name: neither a link that resolves, nor its
text, nor a sidecar made from it. -/
def Unnamed (d : ImagesDirectory) (p : Pathnames) (name : Str) : Prop :=
  ∀ link ∈ d.linkNames, ∀ target, d.liveTarget link = some target →
    d.standsFor p link name = false ∧ d.standsFor p target name = false
      ∧ ∀ ext ∈ [str ".sha256", str ".manifest"], ∀ word, d.sidecarWord target ext = some word →
        d.standsFor p word name = false

/-- The name is a file that is swept, and no text stands for it. -/
def Obsolete (d : ImagesDirectory) (p : Pathnames) (name : Str) : Prop :=
  d.entry name = some .file ∧ d.Unnamed p name

/-- The script gets to the name: neither a link that resolves nor an obsolete file in front of it
looks like an option. -/
def Reached (d : ImagesDirectory) (p : Pathnames) (name : Str) : Prop :=
  (∀ link ∈ d.linkNames, (d.liveTarget link).isSome = true → isOption link = false)
    ∧ ∃ before behind, d.sweptNames = before ++ name :: behind
      ∧ ∀ other ∈ before, d.Obsolete p other → isOption other = false

/-- The script removes the name. -/
def Swept (d : ImagesDirectory) (p : Pathnames) (name : Str) : Prop :=
  d.Obsolete p name ∧ isOption name = false ∧ d.Reached p name

lemma isActive_eq_false_iff : d.isActive p name = false ↔ d.Unnamed p name := by
  unfold isActive Unnamed activeFiles
  rw [List.any_eq_false]
  constructor
  · intro h link hlink target htarget
    have hwords : ∀ word ∈ d.linkWords link, d.standsFor p word name = false := fun word hword => by
      simpa using h word (List.mem_flatMap.mpr ⟨link, hlink, hword⟩)
    simp only [linkWords, htarget] at hwords
    refine ⟨hwords _ (by simp), hwords _ (by simp), fun ext hext word hword => hwords _ ?_⟩
    exact List.mem_cons_of_mem _
      (List.mem_cons_of_mem _ (List.mem_filterMap.mpr ⟨ext, hext, hword⟩))
  · intro h word hword
    obtain ⟨link, hlink, hword⟩ := List.mem_flatMap.mp hword
    cases htarget : d.liveTarget link with
    | none => simp [linkWords, htarget] at hword
    | some target =>
        obtain ⟨hname, htext, hsidecars⟩ := h link hlink target htarget
        simp only [linkWords, htarget, List.mem_cons] at hword
        rcases hword with rfl | rfl | hword
        · simpa using hname
        · simpa using htext
        · obtain ⟨ext, hext, hword⟩ := List.mem_filterMap.mp hword
          simpa using hsidecars ext hext word hword

lemma isObsolete_iff : d.isObsolete p name = true ↔ d.Obsolete p name := by
  rw [isObsolete, Obsolete, Bool.and_eq_true, decide_eq_true_eq, Bool.not_eq_true',
    isActive_eq_false_iff]

/-- **What the second loop removes**: the obsolete names up to the first that looks like an
option. -/
lemma mem_sweep {names : List Str} : name ∈ d.sweep p names ↔ d.Obsolete p name
    ∧ isOption name = false ∧ ∃ before behind, names = before ++ name :: behind
      ∧ ∀ other ∈ before, d.Obsolete p other → isOption other = false := by
  induction names with
  | nil => simp [sweep]
  | cons first rest ih =>
      have hstep : (∃ before behind, first :: rest = before ++ name :: behind
            ∧ ∀ other ∈ before, d.Obsolete p other → isOption other = false)
          ↔ first = name ∨ (d.Obsolete p first → isOption first = false)
            ∧ ∃ before behind, rest = before ++ name :: behind
              ∧ ∀ other ∈ before, d.Obsolete p other → isOption other = false := by
        constructor
        · rintro ⟨before, behind, h, hbefore⟩
          cases before with
          | nil => exact .inl (List.cons.inj h).1
          | cons other before =>
              obtain ⟨rfl, hrest⟩ := List.cons.inj h
              rw [List.forall_mem_cons] at hbefore
              exact .inr ⟨hbefore.1, before, behind, hrest, hbefore.2⟩
        · rintro (rfl | ⟨hfirst, before, behind, rfl, hbefore⟩)
          · exact ⟨[], rest, rfl, by simp⟩
          · exact ⟨first :: before, behind, rfl, List.forall_mem_cons.mpr ⟨hfirst, hbefore⟩⟩
      rw [hstep, sweep]
      by_cases hobsolete : d.Obsolete p first
      · rw [if_pos (isObsolete_iff.mpr hobsolete)]
        cases hoption : isOption first with
        | true =>
            simp only [if_true, List.not_mem_nil, false_iff]
            rintro ⟨-, hname, rfl | ⟨hfirst, -⟩⟩
            · rw [hoption] at hname
              cases hname
            · cases hfirst hobsolete
        | false =>
            simp only [Bool.false_eq_true, if_false, List.mem_cons, ih]
            constructor
            · rintro (rfl | ⟨h, hname, hrest⟩)
              · exact ⟨hobsolete, hoption, .inl rfl⟩
              · exact ⟨h, hname, .inr ⟨fun _ => trivial, hrest⟩⟩
            · rintro ⟨h, hname, rfl | ⟨-, hrest⟩⟩
              · exact .inl rfl
              · exact .inr ⟨h, hname, hrest⟩
      · rw [if_neg (mt isObsolete_iff.mp hobsolete), ih]
        constructor
        · rintro ⟨h, hname, hrest⟩
          exact ⟨h, hname, .inr ⟨fun hfirst => absurd hfirst hobsolete, hrest⟩⟩
        · rintro ⟨h, hname, rfl | ⟨-, hrest⟩⟩
          · exact absurd h hobsolete
          · exact ⟨h, hname, hrest⟩

/-- **What the script removes.** -/
theorem mem_removed : name ∈ d.removed p ↔ d.Swept p name := by
  have hstops : d.stopsAtLink = false
      ↔ ∀ link ∈ d.linkNames, (d.liveTarget link).isSome = true → isOption link = false := by
    rw [stopsAtLink, List.any_eq_false]
    refine forall₂_congr fun link _ => ?_
    cases (d.liveTarget link).isSome <;> simp
  rw [removed, Swept, Reached, ← hstops]
  cases d.stopsAtLink with
  | true => simp
  | false => simp [mem_sweep]

/-! ## What is left -/

/-- A path names the same entry after the collection. -/
lemma denotes_collect : (d.collect p).denotes = d.denotes := rfl

lemma entry_collect :
    (d.collect p).entry name = if name ∈ d.removed p then none else d.entry name := by
  have hlookup : ∀ entries : List (Str × ImageEntry),
      (entries.filter fun entry => entry.1 ∉ d.removed p).lookup name
        = if name ∈ d.removed p then none else entries.lookup name := by
    intro entries
    induction entries with
    | nil => simp
    | cons entry entries ih =>
        obtain ⟨other, e⟩ := entry
        by_cases hother : other ∈ d.removed p
        · rw [List.filter_cons_of_neg (by simpa using hother), ih]
          split_ifs with hname
          · rfl
          · have hne : (name == other) = false := by
              rw [beq_eq_false_iff_ne]
              rintro rfl
              exact hname hother
            rw [List.lookup_cons, hne]
        · rw [List.filter_cons_of_pos (by simpa using hother), List.lookup_cons,
            List.lookup_cons, ih]
          by_cases hname : name = other
          · subst hname
            simp [hother]
          · have hne : (name == other) = false := by simpa using hname
            rw [hne]
  exact hlookup d.entries

lemma entry_of_mem_removed (h : name ∈ d.removed p) : d.entry name = some .file :=
  (mem_removed.mp h).1.1

/-- The file, if it is still there. -/
def remaining (d : ImagesDirectory) (p : Pathnames) (file : Str) : Option Str :=
  if file ∈ d.removed p then none else some file

/-- **A link leads to the same file after the collection**, or to none if the file was removed. -/
lemma follow_collect : (d.collect p).follow n name = (d.follow n name).bind (d.remaining p) := by
  induction n generalizing name with
  | zero =>
      rw [follow, follow, entry_collect]
      by_cases hremoved : name ∈ d.removed p
      · simp [remaining, hremoved, entry_of_mem_removed hremoved]
      · rw [if_neg hremoved]
        split_ifs
        · simp [remaining, hremoved]
        · rfl
  | succ n ih =>
      rw [follow, follow, entry_collect, denotes_collect]
      by_cases hremoved : name ∈ d.removed p
      · simp [remaining, hremoved, entry_of_mem_removed hremoved]
      · rw [if_neg hremoved]
        cases d.entry name with
        | none => rfl
        | some e =>
            cases e with
            | file => simp [remaining, hremoved]
            | link target =>
                cases htarget : d.denotes target with
                | none => simp [htarget]
                | some next => simp [htarget, ih]

/-! ## What should stay -/

/-- Every link to an image or a kernel that resolved still resolves. -/
def LinksKept (d : ImagesDirectory) (p : Pathnames) : Prop :=
  ∀ link ∈ d.linkNames, ∀ target, d.entry link = some (.link target) →
    (d.resolve link).isSome = true → ((d.collect p).resolve link).isSome = true

/-- The images and kernels that a sidecar with this stem describes: `X.raw` for `X.raw.sha256`, and
for `X.manifest` the image or the kernel `X`. -/
def describedByStem (stem : Str) : List Str :=
  if (str ".raw").isSuffixOf stem = true ∨ (str ".efi").isSuffixOf stem = true then [stem]
  else [stem ++ str ".raw", stem ++ str ".efi"]

/-- No sidecar is removed, unless the image or the kernel that it describes is removed or absent. -/
def SidecarsKept (d : ImagesDirectory) (p : Pathnames) : Prop :=
  ∀ stem, ∀ ext ∈ [str ".sha256", str ".manifest"], stem ++ ext ∈ d.removed p →
    ∀ image ∈ describedByStem stem, d.entry image = some .file → image ∈ d.removed p

/-- **The collection leaves what should stay exactly if** no link leads to a file that is swept, and
each sidecar that is swept is the one of an image that is swept. -/
theorem collect_keeps_iff : (d.LinksKept p ∧ d.SidecarsKept p) ↔
    (∀ link ∈ d.linkNames, ∀ target file, d.entry link = some (.link target) →
      d.resolve link = some file → ¬ d.Swept p file)
    ∧ ∀ stem, ∀ ext ∈ [str ".sha256", str ".manifest"], d.Swept p (stem ++ ext) →
      ∀ image ∈ describedByStem stem, d.entry image = some .file → d.Swept p image := by
  have hsidecars : d.SidecarsKept p ↔ ∀ stem, ∀ ext ∈ [str ".sha256", str ".manifest"],
      d.Swept p (stem ++ ext) → ∀ image ∈ describedByStem stem, d.entry image = some .file →
        d.Swept p image := by
    unfold SidecarsKept
    simp only [mem_removed]
  rw [hsidecars]
  refine and_congr_left fun _ => ?_
  unfold LinksKept
  constructor
  · intro h link hlink target file htarget hfile hswept
    have hstill := h link hlink target htarget (by rw [hfile]; rfl)
    unfold resolve at hstill hfile
    rw [follow_collect, hfile, Option.bind_some, remaining,
      if_pos (mem_removed.mpr hswept)] at hstill
    cases hstill
  · intro h link hlink target htarget hresolves
    obtain ⟨file, hfile⟩ := Option.isSome_iff_exists.mp hresolves
    have hkept : file ∉ d.removed p := fun hremoved =>
      h link hlink target file htarget hfile (mem_removed.mp hremoved)
    unfold resolve at hfile ⊢
    rw [follow_collect, hfile, Option.bind_some, remaining, if_neg hkept]
    rfl

/-! ## Two directories -/

/-- Words that are names. -/
def literalPathnames : Pathnames where
  matches_ word name := word == name
  literal word name _ := beq_iff_eq
  separator word name hword hname := by
    rw [beq_eq_false_iff_ne]
    rintro rfl
    exact hname hword

/-- An image, and a link to it by its path from the root. -/
def absoluteLink : ImagesDirectory where
  path := [str "images"]
  entries := [(str "freebsd-python-1.raw", .file),
    (str "freebsd-python.raw", .link (str "/images/freebsd-python-1.raw"))]
  nodup := by decide
  named := by decide

/-- What `build-linux-kernel.sh` leaves. -/
def builtKernel : ImagesDirectory where
  path := [str "images"]
  entries := [(str "vmlinuz-6.6.78-bhyve.efi", .file),
    (str "vmlinuz-6.6.78-bhyve.efi.sha256", .file)]
  nodup := by decide
  named := by decide

set_option maxRecDepth 10000 in
/-- The image behind the link is removed, and so is the checksum of the kernel. -/
theorem not_collect_keeps : ¬ absoluteLink.LinksKept literalPathnames
    ∧ ¬ builtKernel.SidecarsKept literalPathnames := by
  constructor
  · intro h
    have hresolves : absoluteLink.resolve (str "freebsd-python.raw")
        = some (str "freebsd-python-1.raw") := rfl
    have hstill := h (str "freebsd-python.raw") (by decide) _ rfl (by rw [hresolves]; rfl)
    have hlost : (absoluteLink.collect literalPathnames).resolve (str "freebsd-python.raw")
      = none := rfl
    rw [hlost] at hstill
    cases hstill
  · intro h
    have hremoved : builtKernel.removed literalPathnames
        = [str "vmlinuz-6.6.78-bhyve.efi.sha256"] := rfl
    have hkernel := h (str "vmlinuz-6.6.78-bhyve.efi") (str ".sha256") (by decide)
      (by rw [hremoved]; decide) (str "vmlinuz-6.6.78-bhyve.efi") (by decide) rfl
    rw [hremoved] at hkernel
    exact absurd hkernel (by decide)

end ImagesDirectory

end FreebsdLaboratory
