import FreebsdLaboratory.Model.CommandText

/-!
# The host the daemon runs commands on

What the external commands read and change: jails, VMs, ZFS datasets, epair interfaces, members of
the bridge and memory disks.  `Host.perform` is what a command does when it works; `Host.respond`
lets the environment decide otherwise: a command may exit with another status, time out, print what
is no text, or not be executable, and a command that failed or was killed may or may not have done
its work before.

An epair interface or memory disk is kept together with the runtime for whose request the kernel
handed it out.  The daemon cannot see that; statements about whose device a number denotes are about
it.  The kernel's only promise is that the number it hands out is free.
-/

namespace FreebsdLaboratory

open Library

/-- How a command ends, apart from what it does when it works. -/
inductive Exit where
  | truthful
  /-- It exits with a status and an output of the environment's choice. -/
  | status (code : ℕ) (stdout : String) (effect : Bool)
  | timeoutExpired (effect : Bool)
  /-- Its output is no text. -/
  | undecodable (effect : Bool)
  | cannotExecute
  deriving DecidableEq

/-- What `subprocess.run` makes of a command. -/
inductive RunOutcome where
  | completed (returncode : ℕ) (stdout : String)
  | timeoutExpired
  | osError
  /-- An exception that is neither `TimeoutExpired` nor an `OSError`: of `text=True` on output that
  is no text, or for an argument that no program can be started with. -/
  | raises (error : PyError)
  deriving DecidableEq

/-- Units the kernel numbers, each with the runtime it was handed out for. -/
abbrev Units := AList fun _ : ℕ => String

structure Host where
  jails : List String := []
  vms : List String := []
  datasets : List String := []
  snapshots : List String := []
  epairs : Units := ∅
  members : List ℕ := []
  mds : Units := ∅
  bridge : Bool := false
  bridgeInet : Bool := false
  vmSwitch : Bool := false
  vmInstalled : Bool := false

/-- The host side of epair number `n`. -/
def epairHost (n : ℕ) : String := "epair" ++ toString n ++ "a"

/-- Memory disk number `n`. -/
def mdUnit (n : ℕ) : String := "md" ++ toString n

/-- The epair an interface name denotes. -/
def epairNumber (interface : String) : Option ℕ :=
  match Text.matchDigits "epair" "a" interface with
  | some digits =>
      let n := Nat.ofDigitChars 10 digits 0
      if interface = epairHost n then some n else none
  | none => none

/-- The number `mdconfig -u` reads: ASCII digits. -/
def mdNumber (unit : String) : Option ℕ :=
  if unit ≠ "" ∧ unit.toList.all Char.isDigit then
    some (Nat.ofDigitChars 10 unit.toList 0)
  else none

/-- A number that no unit has: the preferred one if it is free. -/
def freeUnit (units : Units) (preferred : ℕ) : ℕ :=
  if preferred ∈ units then (units.keys.foldl max 0) + 1 else preferred

/-- The read-only commands.  Their exit status and output may be anything. -/
def Command.isProbe : Command → Bool
  | ifconfigBridge | ifconfigShow _ | zfsListSnapshot _ | zfsListDataset _ | zfsListChildren
  | pwUsershow _ | jlsName _ | jlsAll | vmSwitchInfo | vmInfo _ | vmList | mdconfigQuery _ => true
  | _ => false

/-- The daemon reads a device unit off the text. -/
def namesUnit (stdout : String) : Bool :=
  (newEpairHost stdout).toOption.any (fun epair => (epairNumber epair).isSome)
    || (newMdUnit stdout).toOption.isSome

namespace Host

/-- Lines of output. -/
def lines (ls : List String) : String := String.join (ls.map (· ++ "\n"))

/-- What `ifconfig <bridge>` prints. -/
def bridgeText (m : RuntimeManager) (h : Host) : String :=
  lines ([m.config.bridgeName ++ ": flags=8843<UP>"]
    ++ (if h.bridgeInet then ["\tinet " ++ m.hostAddress.text ++ " netmask 0xffffff00"] else [])
    ++ h.members.map fun n => "\tmember: " ++ epairHost n ++ " flags=943<PRIVATE>")

def withoutDatasets (h : Host) (parent : String) : Host :=
  { h with datasets := h.datasets.filter fun d => !Text.isBelow parent d }

def withDataset (h : Host) (dataset : String) : Host :=
  { h with datasets := h.datasets.insert dataset }

/-- Exit status of a yes-or-no command. -/
def exitCode (b : Bool) : ℕ := if b then 0 else 1

/-- Acts only if possible, and says so. -/
def doIf (h : Host) (possible : Bool) (h' : Host) : ℕ × String × Host :=
  if possible then (0, "", h') else (1, "", h)

/-- **What a command does when it works**: exit status, output, and the host afterwards.  `runtime`
is the runtime the calling request is about, `unit` the kernel's preferred number. -/
def perform (m : RuntimeManager) (h : Host) (runtime : String) (unit : ℕ) :
    Command → ℕ × String × Host
  | .ifconfigBridge => if h.bridge then (0, bridgeText m h, h) else (1, "", h)
  | .ifconfigBridgeCreate => h.doIf (!h.bridge) { h with bridge := true }
  | .ifconfigBridgeInet => h.doIf h.bridge { h with bridgeInet := true }
  | .ifconfigBridgeUp => (exitCode h.bridge, "", h)
  | .ifconfigBridgeAddm interface =>
      match epairNumber interface with
      | some n => h.doIf (h.bridge && n ∈ h.epairs) { h with members := h.members.insert n }
      | none => (1, "", h)
  | .ifconfigBridgePrivate interface | .ifconfigUp interface | .ifconfigShow interface =>
      (exitCode ((epairNumber interface).any (· ∈ h.epairs)), "", h)
  | .ifconfigEpairCreate =>
      let n := freeUnit h.epairs unit
      (0, epairHost n ++ "\n", { h with epairs := h.epairs.insert n runtime })
  | .ifconfigDestroy interface =>
      match epairNumber interface with
      | some n =>
          h.doIf (n ∈ h.epairs)
            { h with epairs := h.epairs.erase n, members := h.members.filter (· ≠ n) }
      | none => (1, "", h)
  | .arpDelete _ => (0, "", h)
  | .zfsCloneTemplate _ dataset => h.doIf (dataset ∉ h.datasets) (h.withDataset dataset)
  | .zfsClone snapshot dataset =>
      h.doIf (snapshot ∈ h.snapshots && dataset ∉ h.datasets) (h.withDataset dataset)
  | .zfsDestroy dataset | .zfsDestroyRecursive dataset =>
      h.doIf (dataset ∈ h.datasets) (h.withoutDatasets dataset)
  | .zfsListSnapshot snapshot => (exitCode (snapshot ∈ h.snapshots), "", h)
  | .zfsListDataset dataset => (exitCode (dataset ∈ h.datasets), "", h)
  | .zfsListChildren =>
      (0, lines (h.datasets.filter (Text.isBelow (Text.rstripChar '/' m.config.jailDatasetParent))),
        h)
  | .pwUsershow _ => (0, m.config.jailSshUser ++ ":*:1001:1001:User &:/home/freebsd:/bin/sh\n", h)
  | .jailCreate name _ _ => h.doIf (name ∉ h.jails) { h with jails := h.jails.insert name }
  | .jailRemove name => h.doIf (name ∈ h.jails) { h with jails := h.jails.filter (· ≠ name) }
  | .jexecStart name _ _ | .jlsName name => (exitCode (name ∈ h.jails), "", h)
  | .jlsAll => (0, lines (h.jails.map ("name=" ++ ·)), h)
  | .vmSwitchInfo => (exitCode h.vmSwitch, "", h)
  | .vmSwitchCreate => h.doIf (!h.vmSwitch) { h with vmSwitch := true }
  | .vmSwitchPrivate => (exitCode h.vmSwitch, "", h)
  | .vmInfo name | .vmStart name | .vmPoweroff name | .vmSet name _ =>
      (exitCode (name ∈ h.vms), "", h)
  | .vmList => (0, lines ("NAME" :: h.vms), h)
  | .vmCreate _ _ _ _ name =>
      h.doIf (name ∉ h.vms)
        { (h.withDataset (m.vmDataset name)).withDataset (m.vmDataset name ++ "/disk0") with
          vms := h.vms.insert name }
  | .vmDestroy name =>
      h.doIf (name ∈ h.vms)
        { h.withoutDatasets (m.vmDataset name) with vms := h.vms.filter (· ≠ name) }
  | .mdconfigAttach =>
      let n := freeUnit h.mds unit
      (0, mdUnit n ++ "\n", { h with mds := h.mds.insert n runtime })
  | .mdconfigDetach number =>
      match mdNumber number with
      | some n => h.doIf (n ∈ h.mds) { h with mds := h.mds.erase n }
      | none => (1, "", h)
  | .mdconfigQuery number => (exitCode ((mdNumber number).any (· ∈ h.mds)), "", h)
  | .dd _ _ => (0, "", h)

/-- What the daemon sees of a command that it can try to start, and what has become of the host.  A
command that changes the host exits with status 0 only if it did its work, and its output then names
no unit the kernel did not hand out. -/
def answer (m : RuntimeManager) (h : Host) (runtime : String) (unit : ℕ) (exit : Exit)
    (c : Command) : RunOutcome × Host :=
  let (code, out, h') := h.perform m runtime unit c
  match exit with
  | .truthful => (.completed code out, h')
  | .status 0 stdout _ =>
      if c.isProbe then (.completed 0 stdout, h)
      else if code = 0 then (.completed 0 (if namesUnit stdout then "" else stdout), h')
      else (.completed code out, h)
  | .status (n + 1) stdout effect => (.completed (n + 1) stdout, if effect then h' else h)
  | .timeoutExpired effect => (.timeoutExpired, if effect then h' else h)
  | .undecodable effect => (.raises .unicodeDecodeError, if effect then h' else h)
  | .cannotExecute => (.osError, h)

/-- **What the daemon sees of a command, and what has become of the host.**  `subprocess.run` starts
nothing with a NUL in an argument. -/
def respond (m : RuntimeManager) (h : Host) (runtime : String) (unit : ℕ) (exit : Exit)
    (c : Command) : RunOutcome × Host :=
  if c.embedsNull m then (.raises (.valueError "embedded null byte"), h)
  else h.answer m runtime unit exit c

theorem respond_cases (m : RuntimeManager) (h : Host) (runtime : String) (unit : ℕ) (exit : Exit)
    (c : Command) :
    (c.embedsNull m = true
      ∧ h.respond m runtime unit exit c = (.raises (.valueError "embedded null byte"), h))
      ∨ h.respond m runtime unit exit c = h.answer m runtime unit exit c := by
  unfold respond
  split_ifs with hnull
  · exact .inl ⟨hnull, rfl⟩
  · exact .inr rfl

end Host

end FreebsdLaboratory
