import FreebsdLaboratory.Library.AtomicWriters
import FreebsdLaboratory.Model.RegistryFiles
import FreebsdLaboratory.Properties.Socket
import FreebsdLaboratory.Properties.Tampering
import FreebsdLaboratory.Tunnels.Names

/-!
# The registry survives

The daemon can be killed, and the machine can lose its power, between any two system calls of any
number of requests.  A record that is in the registry is nevertheless one that a request has written
there, in full, so that `_load_registry` raises only where a system call of its own fails.
-/

namespace FreebsdLaboratory

open Library Library.Unicode Library.Json Library.Files

/-! ## Names -/

lemma runtimeName_tail (name : RuntimeName) : ∃ tail : List Char,
    str name.1 = str RUNTIME_PREFIX ++ tail.map Char.toNat ∧ ∀ c ∈ tail, isNameChar c = true := by
  obtain ⟨tail, htail, -, -, hchars⟩ := isRuntimeName_iff.mp name.2
  refine ⟨tail, ?_, hchars⟩
  rw [str, htail, List.map_append]
  rfl

/-- There is no dot in a name. -/
lemma dot_not_mem_runtimeName (name : RuntimeName) : 46 ∉ str name.1 := by
  obtain ⟨tail, htail, hchars⟩ := runtimeName_tail name
  rw [htail, List.mem_append, not_or]
  refine ⟨by decide, ?_⟩
  intro hmem
  obtain ⟨c, hc, hdot⟩ := List.mem_map.mp hmem
  have hchar := hchars c hc
  obtain rfl : c = '.' := Char.toNat_inj.mp hdot
  exact absurd hchar (by decide)

lemma registryPath_injective : Function.Injective registryPath := by
  intro name name' h
  exact Subtype.ext (str_injective (List.append_cancel_right h))

lemma temporaryStem_ne (name name' : RuntimeName) (suffix : List ℕ) :
    temporaryStem name ++ suffix ≠ registryPath name' := by
  intro h
  have hdot : 46 ∈ str name'.1 := by
    obtain ⟨tail, htail, -⟩ := runtimeName_tail name'
    have hfirst := congrArg List.head? h
    rw [registryPath, htail] at hfirst
    exact absurd (Option.some.inj hfirst) (by decide)
  exact dot_not_mem_runtimeName name' hdot

lemma temporaryStem_injective (name name' : RuntimeName) (suffix suffix' : List ℕ)
    (h : temporaryStem name ++ suffix = temporaryStem name' ++ suffix') : name = name' := by
  have hname : ∀ (name : RuntimeName) (suffix : List ℕ),
      ((temporaryStem name ++ suffix).tail).takeWhile (· ≠ 46) = str name.1 := by
    intro name suffix
    have hplain : ∀ c ∈ str name.1, decide (c ≠ 46) = true := by
      intro c hc
      refine decide_eq_true ?_
      rintro rfl
      exact dot_not_mem_runtimeName name hc
    have htail : (temporaryStem name ++ suffix).tail = str name.1 ++ 46 :: suffix := by
      rw [temporaryStem, List.append_assoc, List.append_assoc]
      rfl
    rw [htail, List.takeWhile_append_of_pos hplain, List.takeWhile_cons_of_neg (by simp),
      List.append_nil]
  exact Subtype.ext (str_injective ((hname name suffix).symm.trans (h ▸ hname name' suffix')))

/-- The requests as writers. -/
def registryFiles : Scheme RuntimeName RegistryError Unit where
  Context := RegistryJob
  boot := RegistryJob.boot
  name := RegistryJob.name
  texts job := job.calls.filterMap RegistryCall.text
  program := RegistryJob.program
  target := registryPath
  stem := temporaryStem
  target_injective := registryPath_injective
  stem_ne_target := temporaryStem_ne
  stem_injective := temporaryStem_injective

/-! ## Requests are disciplined -/

variable {job : RegistryJob} {k : Progress} {document : RegistryDocument} {temporary : ℕ × Str}

/-- A system call that can fail. -/
lemma attempted_obeys {α : Type} {p : RegistryProgram (Option α)} {Q : α → Progress → Prop}
    {R : RegistryError → Progress → Prop} :
    (attempted p).Obeys (registryFiles.machine.protocol job) Q R k
      ↔ p.Obeys (registryFiles.machine.protocol job)
        (fun r k => match r with
          | some a => Q a k
          | none => R .osError k) R k := by
  rw [attempted, Prog.obeys_bind]
  constructor
  · intro h
    refine h.mono (fun r k h => ?_) fun _ _ h => h
    cases r <;> exact h
  · intro h
    refine h.mono (fun r k h => ?_) fun _ _ h => h
    cases r <;> exact h

/-- A writer with a temporary file. -/
def holding (temporary : ℕ × Str) (written : List ℕ) (stage : Stage) : Progress where
  locked := true
  temporary := some { file := temporary.1, path := temporary.2, written, stage }

variable {bytes : List ℕ} {stage : Stage} {written : List ℕ}

lemma write_obeys {Q : Unit → Progress → Prop} {R : RegistryError → Progress → Prop}
    (hok : Q () (holding temporary (written ++ bytes) .opened))
    (hfail : R .osError (holding temporary written .broken)) :
    (attempted (fileOp (.write temporary.1 bytes))).Obeys (registryFiles.machine.protocol job) Q R
      (holding temporary written .opened) := by
  refine attempted_obeys.mpr ⟨⟨_, rfl, rfl, rfl⟩, ?_⟩
  rintro (_ | _) k' ⟨-, rfl⟩
  · exact hfail
  · exact hok

lemma writeStream_obeys (hbytes : document.bytes = .ok bytes) :
    (writeStream temporary.1 document).Obeys (registryFiles.machine.protocol job)
      (fun _ k => k = holding temporary (bytes ++ [10]) .synced)
      (fun _ k => ∃ written, k = holding temporary written .broken)
      (holding temporary [] .opened) := by
  rw [writeStream, hbytes]
  refine Prog.obeys_bind.mpr (Prog.obeys_ofExcept.mpr ⟨?_, fun e he => by cases he⟩)
  intro bytes' hbytes'
  obtain rfl := Except.ok.inj hbytes'
  refine Prog.obeys_bind.mpr (write_obeys ?_ ⟨_, rfl⟩)
  refine Prog.obeys_bind.mpr (write_obeys ?_ ⟨_, rfl⟩)
  refine Prog.obeys_bind.mpr ?_
  have hopened : Stage.opened ≠ .moved := by decide
  have hflushed : Stage.flushed ≠ .moved := by decide
  refine attempted_obeys.mpr ⟨⟨_, rfl, rfl, hopened⟩, ?_⟩
  rintro (_ | _) k' ⟨-, rfl⟩
  · exact ⟨_, rfl⟩
  · refine attempted_obeys.mpr ⟨⟨_, rfl, rfl, hflushed⟩, ?_⟩
    rintro (_ | _) k' ⟨-, rfl⟩
    · exact ⟨_, rfl⟩
    · rfl

/-- The lock is held, and there is no temporary file. -/
def lockedOnly : Progress := { locked := true }

lemma close_obeys {Q : Unit → Progress → Prop} {R : RegistryError → Progress → Prop}
    (hmoved : stage ≠ .moved) (hopened : stage ≠ .opened)
    (hok : Q () (holding temporary written stage))
    (hfail : R .osError (holding temporary written .broken)) :
    (attempted (fileOp (.close temporary.1))).Obeys (registryFiles.machine.protocol job) Q R
      (holding temporary written stage) := by
  refine attempted_obeys.mpr ⟨⟨_, rfl, rfl, hmoved⟩, ?_⟩
  rintro (_ | _) k' ⟨-, rfl⟩
  · exact hfail
  · have hsame : holding temporary written stage = Progress.learn (holding temporary written stage)
        (FileOp.close temporary.1 : FileOp RuntimeName) (some ()) := by
      rw [Progress.learn, Progress.stage, holding, Option.map_some, Temporary.flush, if_neg hopened]
    rw [hsame] at hok
    exact hok

/-- The body of the `try`: a file is moved only when it is complete. -/
lemma placeRegistry_obeys (hbytes : document.bytes = .ok bytes)
    (htext : bytes ++ [10] ∈ registryFiles.texts job) :
    (placeRegistry job.name document temporary).Obeys (registryFiles.machine.protocol job)
      (fun _ k => ∃ written stage, k = holding temporary written stage)
      (fun _ k => ∃ written stage, k = holding temporary written stage)
      (holding temporary [] .opened) := by
  rw [placeRegistry, Prog.obeys_bind, Prog.obeys_finallyDo]
  refine (writeStream_obeys hbytes).mono ?_ ?_
  · rintro _ k rfl
    refine close_obeys (by decide) (by decide) ?_ ⟨_, _, rfl⟩
    refine Prog.obeys_bind.mpr ?_
    refine attempted_obeys.mpr ⟨trivial, ?_⟩
    rintro (_ | _) k' ⟨-, rfl⟩
    · exact ⟨_, _, rfl⟩
    · refine attempted_obeys.mpr ⟨⟨rfl, _, rfl, rfl, rfl, htext⟩, ?_⟩
      rintro (_ | _) k' ⟨-, rfl⟩
      · exact ⟨_, _, rfl⟩
      · exact ⟨_, _, rfl⟩
  · rintro _ k ⟨written, rfl⟩
    exact close_obeys (by decide) (by decide) ⟨_, _, rfl⟩ ⟨_, _, rfl⟩

lemma writeRegistryFile_obeys (hbytes : document.bytes = .ok bytes)
    (htext : bytes ++ [10] ∈ registryFiles.texts job) :
    (writeRegistryFile job.name document).Obeys (registryFiles.machine.protocol job)
      (fun _ k => k = lockedOnly) (fun _ k => k.locked = true) lockedOnly := by
  have hunlink : ∀ {Q : Unit → Progress → Prop} {temporary written stage}, Q () lockedOnly →
      (attempted (fileOp (.unlink temporary.2))).Obeys (registryFiles.machine.protocol job) Q
        (fun _ k => k.locked = true) (holding temporary written stage) := by
    intro Q temporary written stage hQ
    refine attempted_obeys.mpr ⟨⟨rfl, .inr ⟨_, rfl, rfl⟩⟩, ?_⟩
    rintro (_ | _) k' ⟨-, rfl⟩
    · rfl
    · have hnone : lockedOnly = Progress.learn (holding temporary written stage)
          (FileOp.unlink temporary.2 : FileOp RuntimeName) (some ()) := by
        simp [Progress.learn, holding, lockedOnly, Option.filter]
      rw [hnone] at hQ
      exact hQ
  rw [writeRegistryFile]
  refine Prog.obeys_bind.mpr ?_
  refine attempted_obeys.mpr ⟨trivial, ?_⟩
  rintro (_ | _) k' ⟨-, rfl⟩
  · rfl
  · refine Prog.obeys_bind.mpr ?_
    refine attempted_obeys.mpr ⟨⟨rfl, rfl, rfl⟩, ?_⟩
    rintro (_ | temporary) k' ⟨-, rfl⟩
    · rfl
    · refine Prog.obeys_finallyDo.mpr ((placeRegistry_obeys hbytes htext).mono ?_ ?_)
      · rintro _ k ⟨written, stage, rfl⟩
        exact hunlink rfl
      · rintro _ k ⟨written, stage, rfl⟩
        exact hunlink rfl

lemma deleteRegistryFile_obeys :
    (deleteRegistryFile job.name).Obeys (registryFiles.machine.protocol job)
      (fun _ k => k = lockedOnly) (fun _ k => k.locked = true) lockedOnly := by
  refine attempted_obeys.mpr ⟨⟨rfl, .inl rfl⟩, ?_⟩
  rintro (_ | _) k' ⟨-, rfl⟩
  · rfl
  · rfl

/-! ## Texts -/

/-- A record as it reads back: the same items, by their keys. -/
def RegistryDocument.loaded (document : RegistryDocument) : Items :=
  sortItems (Value.normalItems document.items)

/-- A record is written as a line of ASCII, and reads back. -/
lemma exists_bytes (document : RegistryDocument) : ∃ bytes, document.bytes = .ok bytes
    ∧ parseRegistry (bytes ++ [10]) = .ok document.loaded := by
  obtain ⟨text, htext, hprinting, hloads⟩ := loads_dumpsLine document.readable
  have hascii : ∀ c ∈ text ++ [10], c < 128 := by
    intro c hc
    rcases List.mem_append.mp hc with hc | hc
    · exact hprinting.lt c hc
    · obtain rfl := List.mem_singleton.mp hc
      decide
  have hencode := encode_ascii hprinting.lt
  have hdecode : decode (text ++ [10]) = some (text ++ [10]) := decode_encode (encode_ascii hascii)
  have hlines : universalNewlines (text ++ [10]) = text ++ [10] := by
    refine universalNewlines_of_not_mem ?_
    rw [List.mem_append, not_or]
    refine ⟨fun hmem => ?_, by decide⟩
    have := (hprinting 13 hmem).1
    omega
  refine ⟨text, ?_, ?_⟩
  · rw [RegistryDocument.bytes, htext]
    simp only [hencode]
  · have hnormal : (Value.dict document.items).normal = .dict document.loaded := by
      rw [Value.normal, RegistryDocument.loaded]
    rw [parseRegistry]
    simp only [hdecode, hlines, hloads [10] (by decide), hnormal]

lemma text_of_write (document : RegistryDocument) : ∃ bytes, document.bytes = .ok bytes
    ∧ (RegistryCall.write document).text = some (bytes ++ [10]) := by
  obtain ⟨bytes, hbytes, -⟩ := exists_bytes document
  refine ⟨bytes, hbytes, ?_⟩
  rw [RegistryCall.text, hbytes]
  rfl

/-- Every request does what a writer may do. -/
lemma registryFiles_disciplined : registryFiles.Disciplined := by
  intro job
  have hcalls : ∀ call ∈ job.calls, ∀ k, k = lockedOnly →
      (call.program job.name).Obeys (registryFiles.machine.protocol job) (fun _ k => k = lockedOnly)
        (fun _ k => k.locked = true) k := by
    rintro call hcall k rfl
    cases call with
    | write document =>
        obtain ⟨bytes, hbytes, htext⟩ := text_of_write document
        exact writeRegistryFile_obeys hbytes (List.mem_filterMap.mpr ⟨_, hcall, htext⟩)
    | delete => exact deleteRegistryFile_obeys
  have hunlock : ∀ k : Progress, k.locked = true →
      (fileOp (.unlock job.name)).Obeys (registryFiles.machine.protocol job) (fun _ _ => True)
        (fun _ _ => True) k := fun k hk => ⟨⟨rfl, hk⟩, fun _ _ _ => trivial⟩
  refine Prog.obeys_bind.mpr ⟨⟨rfl, rfl⟩, ?_⟩
  rintro _ k ⟨-, rfl⟩
  refine Prog.obeys_finallyDo.mpr
    ((Prog.obeys_forEach (I := (· = lockedOnly)) rfl hcalls).mono ?_ ?_)
  · rintro _ k rfl
    exact hunlock _ rfl
  · intro _ k hk
    exact hunlock k hk

/-! ## Runs -/

/-- There is nothing under the name, or a record that the request was to write. -/
def HoldsRecordOf (job : RegistryJob) (content : Option Bytes) : Prop :=
  ∀ bytes ∈ content, ∃ document, .write document ∈ job.calls
    ∧ parseRegistry bytes = .ok document.loaded

/-- A text of a request is one of its records. -/
lemma holdsRecordOf_text {text : Bytes} (h : text ∈ registryFiles.texts job) :
    HoldsRecordOf job (some text) := by
  rintro bytes hread
  obtain rfl := Option.some.inj hread
  obtain ⟨call, hcall, htext⟩ := List.mem_filterMap.mp h
  cases call with
  | delete => cases htext
  | write document =>
      obtain ⟨bytes, hbytes, hload⟩ := exists_bytes document
      rw [RegistryCall.text, hbytes] at htext
      obtain rfl := Option.some.inj htext
      exact ⟨document, hcall, hload⟩

/-- A call that `_load_registry` makes fails. -/
def RegistryLooks.Fail (looks : RegistryLooks) : Prop :=
  looks.isSymlink = none
    ∨ looks.isSymlink = some false
      ∧ (looks.isFile = none ∨ looks.isFile = some true ∧ looks.readText = none)

/-- Where what is read is a record, `_load_registry` raises exactly if a call fails. -/
lemma load_raises_iff {looks : RegistryLooks}
    (hread : ∀ bytes ∈ looks.readText, ∃ items, parseRegistry bytes = .ok items) :
    (∃ e, loadRegistryFile looks = .error e) ↔ looks.Fail := by
  obtain ⟨isSymlink, isFile, readText⟩ := looks
  rcases isSymlink with _ | _ | _
  · exact iff_of_true ⟨_, rfl⟩ (.inl rfl)
  · rcases isFile with _ | _ | _
    · exact iff_of_true ⟨_, rfl⟩ (.inr ⟨rfl, .inl rfl⟩)
    · exact iff_of_false nofun (by rintro (h | ⟨-, h | ⟨h, -⟩⟩) <;> cases h)
    · cases readText with
      | none => exact iff_of_true ⟨_, rfl⟩ (.inr ⟨rfl, .inr ⟨rfl, rfl⟩⟩)
      | some bytes =>
          obtain ⟨items, hitems⟩ := hread bytes rfl
          refine iff_of_false ?_ (by rintro (h | ⟨-, h | ⟨-, h⟩⟩) <;> cases h)
          rintro ⟨e, h⟩
          simp [loadRegistryFile, hitems, Except.map] at h
  · exact iff_of_false nofun (by rintro (h | ⟨h, -⟩) <;> cases h)

/-- What is loaded has been read. -/
lemma read_of_load {looks : RegistryLooks} {items : Items}
    (h : loadRegistryFile looks = .ok (some items)) :
    ∃ bytes, looks.readText = some bytes ∧ parseRegistry bytes = .ok items := by
  obtain ⟨isSymlink, isFile, readText⟩ := looks
  rcases isSymlink with _ | _ | _
  · cases h
  · rcases isFile with _ | _ | _
    · cases h
    · cases h
    · cases readText with
      | none => cases h
      | some bytes =>
          refine ⟨bytes, rfl, ?_⟩
          cases hparse : parseRegistry bytes with
          | error e => simp [loadRegistryFile, hparse, Except.map] at h
          | ok found =>
              obtain rfl : found = items := by simpa [loadRegistryFile, hparse, Except.map] using h
              rfl
  · cases h

/-- **The registry survives.**  In every run of any requests, with kills and power losses anywhere:
a `_load_registry` that reads the file now raises exactly where one of its system calls fails,
whatever the calls before have seen, and what it loads is in full a record that some request was to
write under this name; and a step of a request leaves the file alone, or is one of the request that
holds the lock of the name, and takes it at once to nothing or to a record of its own. -/
theorem registry_survives {p : registryFiles.machine.Pool}
    (h : Machine.Reaches (fun _ _ => True) ⟨Disk.empty, []⟩ p) (name : RuntimeName) :
    (∀ looks : RegistryLooks,
      (∀ bytes ∈ looks.readText, p.world.content (registryPath name) = some bytes) →
        ((∃ e, loadRegistryFile looks = .error e) ↔ looks.Fail)
        ∧ ∀ items, loadRegistryFile looks = .ok (some items) →
          ∃ th ∈ p.threads, th.context.name = name
            ∧ ∃ document, .write document ∈ th.context.calls ∧ items = document.loaded)
    ∧ ∀ i choice p', p.next (.step i choice) = some p' →
      p'.world.content (registryPath name) = p.world.content (registryPath name)
      ∨ ∃ th, p.threads[i]? = some th ∧ th.context.name = name ∧ p.world.holder name = some i
        ∧ HoldsRecordOf th.context (p'.world.content (registryPath name)) := by
  have hrecord : ∀ bytes, p.world.content (registryPath name) = some bytes →
      ∃ th ∈ p.threads, th.context.name = name
        ∧ ∃ document, .write document ∈ th.context.calls
          ∧ parseRegistry bytes = .ok document.loaded := by
    intro bytes hcontent
    obtain ⟨th, hth, hname, htext⟩ := Scheme.complete registryFiles_disciplined h hcontent
    exact ⟨th, hth, hname, holdsRecordOf_text htext bytes rfl⟩
  constructor
  · intro looks hlooks
    constructor
    · refine load_raises_iff fun bytes hbytes => ?_
      obtain ⟨_, -, -, document, -, hparse⟩ := hrecord bytes (hlooks bytes hbytes)
      exact ⟨_, hparse⟩
    · intro items hitems
      obtain ⟨bytes, hbytes, hparse⟩ := read_of_load hitems
      obtain ⟨th, hth, hname, document, hcall, hloaded⟩ := hrecord bytes (hlooks bytes hbytes)
      rw [hparse] at hloaded
      exact ⟨th, hth, hname, document, hcall, Except.ok.inj hloaded⟩
  · intro i choice p' hnext
    rcases Scheme.content_step registryFiles_disciplined h hnext name with hsame | hchange
    · exact .inl hsame
    · obtain ⟨th, hth, hname, hholder, hcontent⟩ := hchange
      refine .inr ⟨th, hth, hname, hholder, fun bytes hbytes => ?_⟩
      rcases hcontent with hnone | ⟨text, htext, hcontent⟩
      · cases hnone.symm.trans hbytes
      · exact holdsRecordOf_text htext bytes (hcontent.symm.trans hbytes)

/-! ## A record that a power loss leaves -/

def sampleName : RuntimeName := ⟨"freebsd-lab-a", by decide⟩

def sampleDocument : RegistryDocument where
  items := [(str "name", .str (str "freebsd-lab-a"))]
  readable := ⟨by decide, unpaired_str _, unpaired_str _, trivial⟩

def sampleJob : RegistryJob where
  boot := 0
  name := sampleName
  calls := [.write sampleDocument]

/-- The record is written, and then the power is lost. -/
def losingSchedule : List registryFiles.machine.Label :=
  .arrive sampleJob :: List.replicate 12 (.step 0 { suffix := str "x" })
    ++ [.event (.powerLoss (fun _ => 0) fun _ => [])]

/-- The record is loaded after the power loss, and a file that is gone when it is to be read is the
only thing that raises. -/
theorem registry_survives_powerLoss : ∃ p : registryFiles.machine.Pool,
    Machine.Reaches (fun _ _ => True) ⟨Disk.empty, []⟩ p
      ∧ (∃ items, loadRegistryFile
          ⟨some false, some true, p.world.content (registryPath sampleName)⟩ = .ok (some items))
      ∧ ∃ e, loadRegistryFile ⟨some false, some true, none⟩ = .error e := by
  have hrun : ((⟨Disk.empty, []⟩ : registryFiles.machine.Pool).run losingSchedule).map
      (fun p => (p.world.content (registryPath sampleName)).isSome) = some true := by
    decide +kernel
  obtain ⟨p, hp, hsome⟩ := Option.map_eq_some_iff.mp hrun
  have hreaches := Machine.reaches_of_free_run _ hp
  have hsurvives := (registry_survives hreaches sampleName).1
  refine ⟨p, hreaches, ?_, ?_⟩
  · obtain ⟨bytes, hbytes⟩ := Option.isSome_iff_exists.mp hsome
    have hnot := (hsurvives ⟨some false, some true, p.world.content (registryPath sampleName)⟩
      fun _ h => h).1.not.mpr (by rintro (h | ⟨-, h | ⟨-, h⟩⟩) <;> simp [hbytes] at h)
    rw [hbytes] at hnot ⊢
    cases hparse : parseRegistry bytes with
    | error e => exact absurd ⟨e, by simp [loadRegistryFile, hparse, Except.map]⟩ hnot
    | ok items => exact ⟨items, by simp [loadRegistryFile, hparse, Except.map]⟩
  · exact (hsurvives ⟨some false, some true, none⟩ nofun).1.mpr (.inr ⟨rfl, .inr ⟨rfl, rfl⟩⟩)

end FreebsdLaboratory
