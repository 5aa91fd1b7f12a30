import FreebsdLaboratory.Library.Json
import Mathlib.Data.List.Dedup
import Mathlib.Data.List.Infix
import Mathlib.Data.List.Sort

/-!
# The package audit gate

`pkg_audit_root` of `build-jail-template.sh` and `vm_pkg_audit` of `vmimage.conf`: what the two
image builders make of a failed `pkg audit`.  The output of `pkg audit` is a list of lines; the
expressions of `sed` and `grep` are functions of one line.

What `[[:space:]]` stands for depends on the locale.  All that is used of it is that the blank is
white space and that no printing character of ASCII is.
-/

namespace FreebsdLaboratory

open Library.Unicode Library.Json

/-- The class `[[:space:]]` of a locale. -/
structure Locale where
  isSpace : ℕ → Bool
  blank : isSpace 32 = true
  graph : ∀ c, 33 ≤ c → c ≤ 126 → isSpace c = false

/-- The class of the C locale. -/
def Locale.posix : Locale where
  isSpace c := (9 ≤ c && c ≤ 13) || c == 32
  blank := by decide
  graph c h _ := by
    have hle : (c ≤ 13) = False := eq_false (by omega)
    have hne : (c == 32) = false := by simpa using (show c ≠ 32 by omega)
    simp [hle, hne]

/-- The output of `pkg audit`.  A file has fewer than `2 ^ 63` bytes, and so fewer lines. -/
structure AuditOutput where
  lines : List Str
  length_lt : lines.length < 2 ^ 63

/-- `PROBLEM_COUNT`, `WWW_COUNT` and the like are compared as numbers of this many bits. -/
def testLimit : ℕ := 2 ^ 63

section Lines

variable (l : Locale)

/-- `[[:space:]]*` -/
def Locale.skip (s : Str) : Str := s.dropWhile l.isSpace

/-- `^[[:space:]]*\([0-9][0-9]*\) problem(s).*$`: the digits. -/
def problemNumber (line : Str) : Option Str :=
  let rest := l.skip line
  let digits := rest.takeWhile isDigit
  if digits ≠ [] ∧ (str " problem(s)").isPrefixOf (rest.drop digits.length) = true then some digits
  else none

/-- What stands behind `^[[:space:]]*WWW:`. -/
def afterWww (line : Str) : Option Str :=
  let rest := l.skip line
  if (str "WWW:").isPrefixOf rest = true then some (rest.drop 4) else none

/-- `^[[:space:]]*WWW:` -/
def isWwwLine (line : Str) : Bool := (afterWww l line).isSome

/-- The text begins with white space. -/
def Locale.startsWithSpace (s : Str) : Bool :=
  match s with
  | c :: _ => l.isSpace c
  | [] => false

/-- `^[[:space:]]*WWW:[[:space:]]` -/
def isCountedLine (line : Str) : Bool :=
  match afterWww l line with
  | some rest => l.startsWithSpace rest
  | none => false

/-- `[Vv][Uu][Xx][Mm][Ll]` and so on: a letter of either case. -/
def asciiLower (c : ℕ) : ℕ := if 65 ≤ c ∧ c ≤ 90 then c + 32 else c

/-- `[0-9A-Fa-f-]` -/
def isIdChar (c : ℕ) : Bool :=
  (48 ≤ c && c ≤ 57) || (65 ≤ c && c ≤ 70) || (97 ≤ c && c ≤ 102) || c == 45

/-- The text behind `marker`, if it begins with it. -/
def stripMarker (marker s : Str) : Option Str :=
  if marker.isPrefixOf s = true then some (s.drop marker.length) else none

/-- The host of a VuXML page, in letters of either case, and the text behind it. -/
def stripHost (s : Str) : Option Str :=
  if (s.take 13).map asciiLower = str "vuxml.freebsd" then some (s.drop 13) else none

/-- The id of the VuXML page whose address the line gives:
`^[[:space:]]*WWW:[[:space:]]*https://vuxml.freebsd.org/freebsd/\([0-9A-Fa-f-][0-9A-Fa-f-]*\)\.html[[:space:]]*$` -/
def vuxmlId (line : Str) : Option Str := do
  let rest ← afterWww l line
  let rest ← stripMarker (str "https://") (l.skip rest)
  let rest ← stripHost rest
  let rest ← stripMarker (str ".org/freebsd/") rest
  let id := rest.takeWhile isIdChar
  let rest ← stripMarker (str ".html") (rest.drop id.length)
  if id ≠ [] ∧ rest.all l.isSpace = true then some id else none

end Lines

section Counts

variable (l : Locale) (o : AuditOutput)

/-- `PROBLEM_COUNT`: the digits of the last summary. -/
def problemCount : Option Str := (o.lines.filterMap (problemNumber l)).getLast?

/-- `WWW_COUNT` -/
def wwwCount : ℕ := o.lines.countP (isCountedLine l)

/-- `VUXML_IDS`: each id once, sorted. -/
def vuxmlIds : List Str := (o.lines.filterMap (vuxmlId l)).dedup.insertionSort (· ≤ ·)

/-- `VUXML_COUNT`: the ids that are not empty. -/
def vuxmlCount : ℕ := (vuxmlIds l o).countP (· ≠ [])

end Counts

/-- `[ "$count" -ne "$digits" ]`; a number out of range is an error, which is not true either. -/
def testNe (count : ℕ) (digits : Str) : Bool :=
  if ofDecimal digits < testLimit then count ≠ ofDecimal digits else false

/-- `case " $allowed " in *" $id "*)` -/
def isAllowed (allowed id : Str) : Bool := decide ((32 :: id ++ [32]) <:+: (32 :: allowed ++ [32]))

/-- What the functions say on the error stream. -/
inductive AuditNotice where
  /-- `WARNING: pkg audit findings were not enforced because LAB_FAIL_ON_PKG_AUDIT={value}` -/
  | notEnforced (value : Str)
  /-- `pkg audit output could not be reduced to exact FreeBSD VuXML findings; refusing the exception` -/
  | notExact
  /-- `Unapproved pkg audit finding: {id}` -/
  | unapproved (id : Str)
  /-- `WARNING: accepting only explicitly allowlisted FreeBSD VuXML findings: {ids}` -/
  | accepting (ids : Str)
  deriving DecidableEq

/-- What the functions leave: their status, and what goes into the image manifest. -/
structure AuditVerdict where
  status : ℕ
  enforced : Bool := true
  acceptedIds : Str := []
  notice : Option AuditNotice := none
  deriving DecidableEq

/-- The ids, with a blank between two of them. -/
def joinIds (ids : List Str) : Str := [32].intercalate ids

/-- The part that both functions have in common: an exception for the findings, if there can be
one. -/
def reduceFindings (l : Locale) (auditStatus : ℕ) (o : AuditOutput) (allowed : Str) :
    AuditVerdict :=
  match problemCount l o with
  | none => { status := auditStatus, notice := some .notExact }
  | some digits =>
      if testNe (wwwCount l o) digits || testNe (vuxmlCount l o) digits then
        { status := auditStatus, notice := some .notExact }
      else
        match (vuxmlIds l o).find? fun id => !isAllowed allowed id with
        | some id => { status := auditStatus, notice := some (.unapproved id) }
        | none =>
            { status := 0
              acceptedIds := joinIds (vuxmlIds l o)
              notice := some (.accepting (joinIds (vuxmlIds l o))) }

/-- `pkg_audit_root`, where `pkg audit` ends with `auditStatus`, `LAB_FAIL_ON_PKG_AUDIT` is `fail`
and `LAB_PKG_AUDIT_ALLOWED_VULN_IDS` is `allowed`. -/
def pkgAuditRoot (l : Locale) (auditStatus : ℕ) (o : AuditOutput) (fail allowed : Str) :
    AuditVerdict :=
  if auditStatus = 0 then { status := 0 }
  else if fail ≠ str "YES" then
    { status := 0, enforced := false, notice := some (.notEnforced fail) }
  else if allowed = [] then { status := auditStatus }
  else reduceFindings l auditStatus o allowed

/-- `vm_pkg_audit` -/
def vmPkgAudit (l : Locale) (auditStatus : ℕ) (o : AuditOutput) (fail allowed : Str) :
    AuditVerdict :=
  if auditStatus = 0 then { status := 0 }
  else if fail ≠ str "YES" then
    { status := 0, enforced := false, notice := some (.notEnforced fail) }
  else if allowed = [] then { status := auditStatus }
  else reduceFindings l auditStatus o allowed

end FreebsdLaboratory
