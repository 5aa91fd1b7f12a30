import FreebsdLaboratory.Library.Unicode
import Mathlib.Data.List.Nodup

/-!
# Collecting old images

`gc-old-images.sh`: the files of the images directory that no link names are removed.  What a link
names is a text: the script compares the texts of links with the names of files.

The directory has regular files and symbolic links; a link can be followed to an entry of the
directory, from the directory itself or from the root.  The directories above are real ones.
-/

namespace FreebsdLaboratory

open Library.Unicode

inductive ImageEntry where
  | file
  | link (target : Str)
  deriving DecidableEq

/-- A name of the directory: no separator and no white space, and not the directory or its
parent. -/
def isImageName (name : Str) : Bool :=
  name ≠ [] && name ≠ str "." && name ≠ str ".." && name.all fun c => !([47, 32, 9, 10].contains c)

/-- Walks from a directory, given from the root, to an entry of the directory `dir`. -/
def walkTo (dir : List Str) : List Str → List Str → Option Str
  | _, [] => none
  | position, c :: rest =>
      if c = [] ∨ c = str "." then walkTo dir position rest
      else if c = str ".." then walkTo dir position.dropLast rest
      else if position = dir then (if rest = [] then some c else none)
      else walkTo dir (position ++ [c]) rest

/-- The images directory; its entries in the order in which the shell lists them. -/
structure ImagesDirectory where
  /-- The real path, from the root. -/
  path : List Str
  entries : List (Str × ImageEntry)
  nodup : (entries.map Prod.fst).Nodup
  named : ∀ entry ∈ entries, isImageName entry.1 = true

namespace ImagesDirectory

variable (d : ImagesDirectory)

def names : List Str := d.entries.map Prod.fst

def entry (name : Str) : Option ImageEntry := d.entries.lookup name

/-- The entry that a path names: relative to the directory, or from the root. -/
def denotes (text : Str) : Option Str :=
  walkTo d.path (if text.head? = some 47 then [] else d.path) (text.splitOn 47)

/-- The file at the end of at most `n` links. -/
def follow : ℕ → Str → Option Str
  | 0, name => if d.entry name = some .file then some name else none
  | n + 1, name =>
      match d.entry name with
      | some .file => some name
      | some (.link target) => (d.denotes target).bind (follow n)
      | none => none

/-- `MAXSYMLINKS` -/
def maxLinks : ℕ := 32

/-- The file that the name stands for, if `[ -e name ]`. -/
def resolve (name : Str) : Option Str := d.follow maxLinks name

/-- `[ -f text ]` -/
def isFile (text : Str) : Bool := ((d.denotes text).bind d.resolve).isSome

/-- The names that `*ext` stands for. -/
def glob (ext : Str) : List Str :=
  d.names.filter fun name => ext.isSuffixOf name && name.head? ≠ some 46

end ImagesDirectory

/-- `${text%ext}` -/
def stripSuffix (ext text : Str) : Str :=
  if ext.isSuffixOf text = true then text.take (text.length - ext.length) else text

/-- `base`, as the script makes it of the text of a link. -/
def baseOfTarget (target : Str) : Str := stripSuffix (str ".efi") (stripSuffix (str ".raw") target)

/-- Utilities take a name with a dash in front for options. -/
def isOption (name : Str) : Bool := name.head? = some 45

/-- Pathname expansion: whether a word of the shell, as a pattern, matches a name. -/
structure Pathnames where
  matches_ : Str → Str → Bool
  /-- A word without special characters is a name. -/
  literal : ∀ word name, (∀ c ∈ word, [42, 63, 91, 92].contains c = false) →
    (matches_ word name = true ↔ word = name)
  /-- A name has no separator. -/
  separator : ∀ word name, 47 ∈ word → 47 ∉ name → matches_ word name = false

namespace ImagesDirectory

variable (d : ImagesDirectory)

/-- The sidecar of a link's target that is kept. -/
def sidecarWord (target ext : Str) : Option Str :=
  if d.isFile (target ++ ext) = true then some (target ++ ext)
  else if d.isFile (baseOfTarget target ++ ext) = true then some (baseOfTarget target ++ ext)
  else none

/-- The link is looked at: it has the right name, and resolves. -/
def liveTarget (name : Str) : Option Str :=
  match d.entry name with
  | some (.link target) => if (d.resolve name).isSome = true then some target else none
  | _ => none

/-- The names that the first loop goes through. -/
def linkNames : List Str := d.glob (str ".raw") ++ d.glob (str ".efi")

/-- What a link adds to `ACTIVE_FILES`. -/
def linkWords (name : Str) : List Str :=
  match d.liveTarget name with
  | some target =>
      name :: target :: [str ".sha256", str ".manifest"].filterMap (d.sidecarWord target)
  | none => []

/-- `ACTIVE_FILES` -/
def activeFiles : List Str := d.linkNames.flatMap d.linkWords

/-- The names that the second loop goes through. -/
def sweptNames : List Str :=
  d.glob (str ".raw") ++ d.glob (str ".sha256") ++ d.glob (str ".manifest")

variable (p : Pathnames)

/-- The name is among those that the word of `ACTIVE_FILES` expands to. -/
def standsFor (word name : Str) : Bool :=
  if d.names.any (p.matches_ word) = true then p.matches_ word name else word = name

/-- The loop over `ACTIVE_FILES` finds the name. -/
def isActive (name : Str) : Bool := d.activeFiles.any fun word => d.standsFor p word name

/-- A regular file that is not active. -/
def isObsolete (name : Str) : Bool := d.entry name = some .file && !d.isActive p name

/-- The second loop; the script ends where `rm` fails. -/
def sweep : List Str → List Str
  | [] => []
  | name :: rest =>
      if d.isObsolete p name = true then (if isOption name = true then [] else name :: sweep rest)
      else sweep rest

/-- The script ends in its first loop, where `readlink` fails. -/
def stopsAtLink : Bool := d.linkNames.any fun name => (d.liveTarget name).isSome && isOption name

/-- The files that the script removes. -/
def removed : List Str := if d.stopsAtLink = true then [] else d.sweep p d.sweptNames

/-- The directory after the script. -/
def collect : ImagesDirectory where
  path := d.path
  entries := d.entries.filter fun entry => entry.1 ∉ d.removed p
  nodup := d.nodup.sublist (List.filter_sublist.map Prod.fst)
  named entry h := d.named entry (List.mem_filter.mp h).1

end ImagesDirectory

end FreebsdLaboratory
