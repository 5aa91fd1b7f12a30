import FreebsdLaboratory.Model.RuntimeManager

/-!
# File trees

The directories, files and links below the root of a file system, and where the kernel gets when it
walks along a path: `..` goes up, a link in the middle of the path is followed, and one at its end
is followed or not.  `JailTree.protocol` runs the daemon's file operations over such a tree; an
operation that changes the tree is permitted only where its path leads to a place inside a given
directory.
-/

namespace FreebsdLaboratory

open Library

/-- Where something is: the names from the root. -/
abbrev Place := List (List Char)

/-- The components of a path, without the empty ones and `.`. -/
def pathComponents (cs : List Char) : Place :=
  (cs.splitOn '/').filter fun c => c ≠ [] && c ≠ ['.']

/-- The text of a place. -/
def Place.text (q : Place) : String :=
  String.ofList (if q = [] then ['/'] else q.flatMap ('/' :: ·))

inductive JailNode where
  | dir
  | file
  | link (target : List Char)
  deriving DecidableEq

/-- What is at each place.  Only directories have something below them. -/
structure JailTree where
  node : Place → Option JailNode
  root : node [] = some .dir
  parent : ∀ q c, node (q ++ [c]) ≠ none → node q = some .dir

def parentName : List Char := ['.', '.']

namespace JailTree

/-- From a place the walk along the components gets to a place; with `follow`, a link at the end is
followed too.  Components that are missing do not stop it: they are what an operation may create. -/
inductive Locates (t : JailTree) (follow : Bool) : Place → Place → Place → Prop where
  | arrive (position : Place) : Locates t follow position [] position
  | up {position rest q : Place} : Locates t follow position.dropLast rest q →
      Locates t follow position (parentName :: rest) q
  | down {position rest q : Place} {c : List Char} : c ≠ parentName →
      (∀ target, t.node (position ++ [c]) ≠ some (.link target)) →
      Locates t follow (position ++ [c]) rest q → Locates t follow position (c :: rest) q
  | stay {position : Place} {c target : List Char} : c ≠ parentName → follow = false →
      t.node (position ++ [c]) = some (.link target) →
      Locates t follow position [c] (position ++ [c])
  | link {position rest q : Place} {c target : List Char} : c ≠ parentName →
      follow = true ∨ rest ≠ [] → t.node (position ++ [c]) = some (.link target) →
      Locates t follow (if target.head? = some '/' then [] else position)
        (pathComponents target ++ rest) q →
      Locates t follow position (c :: rest) q

/-- Where a path from the root leads. -/
def At (t : JailTree) (follow : Bool) (path : String) (q : Place) : Prop :=
  t.Locates follow [] (pathComponents path.toList) q

/-- A symbolic link. -/
def IsLink (t : JailTree) (q : Place) : Prop := ∃ target, t.node q = some (.link target)

/-- The tree differs at no other place. -/
def SameBut (t t' : JailTree) (q : Place) : Prop := ∀ r, r ≠ q → t'.node r = t.node r

/-- A change of a file acts inside `root`: each directory that `mkdir(parents=True)` creates is a
prefix of its path with nothing there; `unlink`, `chmod` and `chown` with `follow_symlinks=False` do
not follow a link at the end of the path, and writing does. -/
def permits (root : Place) (t : JailTree) : FileEffect → Prop
  | .mkdir path => ∀ prefixed, prefixed <+: pathComponents path.toList → ∀ q,
      t.Locates false [] prefixed q → t.node q = none → root <+: q
  | .unlink path | .chmod path | .chown path _ _ => ∀ q, t.At false path q → root <+: q
  | .writeText path _ => ∀ q, t.At true path q → root <+: q
  | .writeRuntimePublicKey _ => True

/-- What a change that does not raise leaves. -/
def changes (t : JailTree) : FileEffect → JailTree → Prop
  | .mkdir path, t' => (∀ r, t.node r ≠ none → t'.node r = t.node r)
      ∧ (∀ r, t.node r = none → t'.node r = none ∨ t'.node r = some .dir)
      ∧ ∃ q, t'.At true path q ∧ t'.node q = some .dir
  | .unlink path, t' => ∃ q, t.At false path q ∧ t.node q ≠ some .dir ∧ t'.node q = none
      ∧ t.SameBut t' q
  | .writeText path _, t' => ∃ q, t.At true path q ∧ t'.node q = some .file ∧ t.SameBut t' q
  | .chmod _, t' | .chown _ _ _, t' | .writeRuntimePublicKey _, t' => t' = t

/-- The file operations over a tree.  `Path.resolve` returns the place to which the path leads. -/
def protocol (root : Place) : Protocol Op.Resp JailTree where
  permits t o :=
    match o with
    | .file effect => t.permits root effect
    | _ => True
  moves t o r t' :=
    match o, r with
    | .file effect, .ok () => t.changes effect t'
    | .file _, .error _ => True
    | .resolve path, r => t' = t ∧ ∀ text, r = .ok text → ∃ q, t.At true path q ∧ text = q.text
    | .ask (.isSymlink path), r => t' = t ∧ (r = true ↔ ∃ q, t.At false path q ∧ t.IsLink q)
    | _, _ => t' = t

end JailTree

end FreebsdLaboratory
