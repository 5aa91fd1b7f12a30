import FreebsdLaboratory.Library.Interleaving
import Mathlib.Logic.Function.Basic
import Mathlib.Tactic.Common

/-!
# Files that are replaced as a whole

A directory whose files are written under temporary names, synced and moved into place, while the
writers can be killed between any two system calls and the machine can lose its power.  A power loss
takes every name back to what it stood for at some time before, and leaves nothing but what was
synced of the contents of a file: a file that was not synced can hold anything.

A `Scheme` is a family of writers, one lock for each name they write.  What every run of one comes
to is in `Scheme.complete` and `Scheme.content_step`.
-/

namespace Library.Files

open Prog

/-- A file: what has been written to it, what its writer's stream still has, and whether everything
in it has reached the disk. -/
structure File where
  data : List ℕ := []
  buffer : List ℕ := []
  synced : Bool := false

variable {Name ε α : Type} [DecidableEq Name]

/-- The system calls of a writer. -/
inductive FileOp (Name : Type) where
  | lock (name : Name)
  | unlock (name : Name)
  | makeDirectory
  | mkstemp (stem : List ℕ)
  | write (file : ℕ) (bytes : List ℕ)
  | flush (file : ℕ)
  | fsync (file : ℕ)
  | close (file : ℕ)
  | chmod (path : List ℕ)
  | replace (source target : List ℕ)
  | unlink (path : List ℕ)

/-- `none` is an `OSError`. -/
@[reducible] def FileOp.Resp : FileOp Name → Type
  | .lock _ | .unlock _ => Unit
  | .mkstemp _ => Option (ℕ × List ℕ)
  | .makeDirectory | .write _ _ | .flush _ | .fsync _ | .close _ | .chmod _
  | .replace _ _ | .unlink _ =>
      Option Unit

structure Disk (Name : Type) where
  files : ℕ → File
  /-- Files from here on are new. -/
  next : ℕ
  /-- What the names in the directory stand for. -/
  entries : List ℕ → Option ℕ
  /-- What they stood for since the machine was started. -/
  earlier : List (List ℕ → Option ℕ)
  holder : Name → Option ℕ
  /-- How often the writers have been killed. -/
  boot : ℕ

/-- The choices of the environment in a step: whether the call fails, how many bytes get through,
and what makes a temporary name unique. -/
structure Choice where
  fails : Bool := false
  reached : ℕ := 0
  suffix : List ℕ := []

inductive Event where
  /-- The writers are killed. -/
  | kill
  /-- The power is lost: `pick` says at which time a name is found, `lost` what is in a file that
  was not synced. -/
  | powerLoss (pick : List ℕ → ℕ) (lost : ℕ → List ℕ)

/-! ## Calls -/

namespace Disk

variable (w : Disk Name)

def empty : Disk Name where
  files := fun _ => {}
  next := 0
  entries := fun _ => none
  earlier := []
  holder := fun _ => none
  boot := 0

def setFile (j : ℕ) (f : File) : Disk Name := { w with files := Function.update w.files j f }

/-- Another state of the directory; the one before may come back. -/
def setEntries (entries : List ℕ → Option ℕ) : Disk Name :=
  { w with entries, earlier := w.entries :: w.earlier }

/-- A new file under a name. -/
def create (path : List ℕ) : Disk Name where
  files := Function.update w.files w.next {}
  next := w.next + 1
  entries := Function.update w.entries path (some w.next)
  earlier := w.entries :: w.earlier
  holder := w.holder
  boot := w.boot

/-- The stream takes the bytes and hands on some of what it has. -/
def pour (j : ℕ) (bytes : List ℕ) (reached : ℕ) : Disk Name :=
  let f := w.files j
  let stream := f.buffer ++ bytes
  if stream = [] then w
  else w.setFile j ⟨f.data ++ stream.take reached, stream.drop reached, false⟩

/-- The stream hands on all that it has. -/
def drain (j : ℕ) : Disk Name := w.pour j [] (w.files j).buffer.length

/-- What a reader finds under a name. -/
def content (path : List ℕ) : Option (List ℕ) := (w.entries path).map fun j => (w.files j).data

/-- A call that does nothing to the files. -/
def plain (choice : Choice) : Option Unit × Disk Name :=
  (if choice.fails then none else some (), w)

/-- `stream.flush()`, and the end of `with`. -/
def drained (j : ℕ) (choice : Choice) : Option Unit × Disk Name :=
  if choice.fails then (none, w.pour j [] choice.reached) else (some (), w.drain j)

variable {w}

omit [DecidableEq Name] in
@[simp] lemma setFile_files (j : ℕ) (f : File) : (w.setFile j f).files j = f :=
  Function.update_self _ _ _

omit [DecidableEq Name] in
lemma setFile_files_of_ne {j j' : ℕ} (f : File) (h : j' ≠ j) :
    (w.setFile j f).files j' = w.files j' :=
  Function.update_of_ne h _ _

omit [DecidableEq Name] in
lemma content_setEntries (entries : List ℕ → Option ℕ) (path : List ℕ) :
    (w.setEntries entries).content path = (entries path).map fun j => (w.files j).data := rfl

omit [DecidableEq Name] in
lemma setFile_self (j : ℕ) : w.setFile j (w.files j) = w := by
  rw [setFile, Function.update_eq_self]

omit [DecidableEq Name] in
/-- What goes into a stream is in the file or in the stream. -/
lemma pour_files (j : ℕ) (bytes : List ℕ) (reached : ℕ) :
    ((w.pour j bytes reached).files j).data ++ ((w.pour j bytes reached).files j).buffer
      = (w.files j).data ++ (w.files j).buffer ++ bytes := by
  rw [pour]
  by_cases hempty : (w.files j).buffer ++ bytes = []
  · rw [if_pos hempty, List.append_assoc, hempty, (List.append_eq_nil_iff.mp hempty).1]
  · rw [if_neg hempty, setFile_files, List.append_assoc, List.append_assoc, List.take_append_drop]

omit [DecidableEq Name] in
lemma pour_eq {j : ℕ} {bytes : List ℕ} {reached : ℕ} :
    w.pour j bytes reached = w.setFile j ((w.pour j bytes reached).files j) := by
  rw [pour]
  by_cases hempty : (w.files j).buffer ++ bytes = []
  · rw [if_pos hempty, setFile_self]
  · rw [if_neg hempty, setFile_files]

omit [DecidableEq Name] in
/-- A stream that has been drained is empty. -/
lemma drain_files (w : Disk Name) (j : ℕ) :
    ((w.drain j).files j).data = (w.files j).data ++ (w.files j).buffer
      ∧ ((w.drain j).files j).buffer = []
      ∧ ((w.files j).buffer = [] → (w.drain j).files j = w.files j) := by
  rw [drain, pour, List.append_nil]
  by_cases hempty : (w.files j).buffer = []
  · rw [if_pos hempty, hempty, List.append_nil]
    exact ⟨rfl, rfl, fun _ => rfl⟩
  · rw [if_neg hempty, setFile_files, List.take_length, List.drop_length]
    exact ⟨rfl, rfl, fun h => absurd h hempty⟩

end Disk

def exec (i : ℕ) (w : Disk Name) : (o : FileOp Name) → Choice → Option (o.Resp × Disk Name)
  | .lock name, _ =>
      if w.holder name = none then
        some ((), { w with holder := Function.update w.holder name (some i) })
      else none
  | .unlock name, _ => some ((), { w with holder := Function.update w.holder name none })
  | .makeDirectory, choice => some (w.plain choice)
  | .mkstemp stem, choice =>
      let path := stem ++ choice.suffix
      if choice.fails then some (none, w)
      else if w.entries path = none then
        some (some (w.next, path), w.create path)
      else none
  | .write j bytes, choice =>
      some (if choice.fails then none else some (), w.pour j bytes choice.reached)
  | .flush j, choice => some (w.drained j choice)
  | .fsync j, choice =>
      if choice.fails then some (none, w)
      else some (some (), w.setFile j { w.files j with synced := true })
  | .close j, choice => some (w.drained j choice)
  | .chmod _, choice => some (w.plain choice)
  | .replace source target, choice =>
      if choice.fails then some (none, w)
      else match w.entries source with
        | none => some (none, w)
        | some j => some (some (), w.setEntries
            (Function.update (Function.update w.entries source none) target (some j)))
  | .unlink path, choice =>
      if choice.fails then some (none, w)
      else some (some (), w.setEntries (Function.update w.entries path none))

def environment (w : Disk Name) : Event → Option (Disk Name)
  | .kill => some { w with holder := fun _ => none, boot := w.boot + 1 }
  | .powerLoss pick lost => some
      { files := fun j =>
          if (w.files j).synced then { w.files j with buffer := [] } else ⟨lost j, [], true⟩
        next := w.next
        entries := fun path => (w.entries :: w.earlier).getD (pick path) w.entries path
        earlier := []
        holder := fun _ => none
        boot := w.boot + 1 }

/-! ## What a writer knows -/

/-- How far a temporary file has come. -/
inductive Stage where
  | opened
  | flushed
  | synced
  | moved
  | broken
  deriving DecidableEq

structure Temporary where
  file : ℕ
  path : List ℕ
  /-- What has been given to the stream. -/
  written : List ℕ := []
  stage : Stage := .opened

structure Progress where
  locked : Bool := false
  temporary : Option Temporary := none

/-- The file has come to another stage. -/
def Progress.stage (k : Progress) (f : Temporary → Temporary) : Progress :=
  { k with temporary := k.temporary.map f }

/-- What a flush comes to. -/
def Temporary.flush (t : Temporary) : Option Unit → Temporary
  | none => { t with stage := .broken }
  | some () => if t.stage = .opened then { t with stage := .flushed } else t

/-- What a sync comes to. -/
def Temporary.fsync (t : Temporary) : Option Unit → Temporary
  | none => { t with stage := .broken }
  | some () => if t.stage = .flushed then { t with stage := .synced } else t

lemma Temporary.flush_file (t : Temporary) :
    (t.flush (some ())).file = t.file ∧ (t.flush (some ())).path = t.path := by
  rw [Temporary.flush]
  split_ifs <;> exact ⟨rfl, rfl⟩

lemma Temporary.fsync_file (t : Temporary) :
    (t.fsync (some ())).file = t.file ∧ (t.fsync (some ())).path = t.path := by
  rw [Temporary.fsync]
  split_ifs <;> exact ⟨rfl, rfl⟩

def Progress.learn (k : Progress) : (o : FileOp Name) → o.Resp → Progress
  | .lock _, _ => { k with locked := true }
  | .unlock _, _ => {}
  | .mkstemp _, r => match r with
      | some (file, path) => { k with temporary := some { file, path } }
      | none => k
  | .write _ bytes, r => k.stage fun t => match r with
      | some () => { t with written := t.written ++ bytes }
      | none => { t with stage := .broken }
  | .flush _, r => k.stage fun t => t.flush r
  | .close _, r => k.stage fun t => t.flush r
  | .fsync _, r => k.stage fun t => t.fsync r
  | .replace _ _, r => k.stage fun t => match r with
      | some () => { t with stage := .moved }
      | none => t
  | .unlink path, r => match r with
      | some () => { k with temporary := k.temporary.filter fun t => t.path ≠ path }
      | none => k
  | .makeDirectory, _ | .chmod _, _ => k

/-- Writers: the name that each works on, the texts that it may put there, where they go, and how
temporary names begin. -/
structure Scheme (Name ε α : Type) where
  Context : Type
  boot : Context → ℕ
  name : Context → Name
  texts : Context → List (List ℕ)
  program : Context → Prog (@FileOp.Resp Name) ε α
  target : Name → List ℕ
  stem : Name → List ℕ
  target_injective : Function.Injective target
  stem_ne_target : ∀ n n' suffix, stem n ++ suffix ≠ target n'
  stem_injective : ∀ n n' suffix suffix', stem n ++ suffix = stem n' ++ suffix' → n = n'

namespace Scheme

variable (S : Scheme Name ε α)

/-- What a writer may do: everything under its lock, writing to its temporary file, and moving it
only when it is complete and synced. -/
def permits (c : S.Context) (k : Progress) : FileOp Name → Prop
  | .lock name => name = S.name c ∧ k.locked = false
  | .unlock name => name = S.name c ∧ k.locked = true
  | .makeDirectory | .chmod _ => True
  | .mkstemp stem => stem = S.stem (S.name c) ∧ k.locked = true ∧ k.temporary = none
  | .write file _ => ∃ t, k.temporary = some t ∧ t.file = file ∧ t.stage = .opened
  | .flush file | .fsync file | .close file =>
      ∃ t, k.temporary = some t ∧ t.file = file ∧ t.stage ≠ .moved
  | .replace source target =>
      target = S.target (S.name c) ∧ ∃ t, k.temporary = some t ∧ t.path = source
      ∧ t.stage = .synced ∧ t.written ∈ S.texts c
  | .unlink path => k.locked = true ∧ (path = S.target (S.name c)
      ∨ ∃ t, k.temporary = some t ∧ t.path = path)

@[reducible] def machine : Machine (@FileOp.Resp Name) ε α where
  World := Disk Name
  Context := S.Context
  Known := Progress
  Choice := Choice
  Event := Event
  start := S.program
  initial := {}
  permits := S.permits
  admits _ _ _ _ := True
  learn _ := Progress.learn
  exec i c w o choice := if S.boot c = w.boot then exec i w o choice else none
  environment := environment

end Scheme

end Library.Files
