import FreebsdLaboratory.Model.Runtime

/-!
# Argument lists and error texts

The argument list behind each constructor of `Command`, as `runtime_daemon.py` writes it, and
`str(error)` for the exceptions that reach a reply or a report.  The text of an error of the
standard library is not modelled beyond its class.
-/

namespace FreebsdLaboratory

open Library

/-- The characters `shlex.quote` leaves unquoted. -/
def isShellSafe (c : Char) : Bool :=
  c.isAlphanum || "_@%+=:,./-".toList.contains c

/-- `shlex.quote`. -/
def shlexQuote (s : String) : String :=
  if s ≠ "" ∧ s.toList.all isShellSafe then s
  else "'" ++ "'\"'\"'".intercalate (Text.splitAt '\'' s) ++ "'"

/-- `shlex.join`. -/
def shlexJoin (argv : List String) : String := " ".intercalate (argv.map shlexQuote)

/-- The argument list of a command. -/
def Command.argv (m : RuntimeManager) : Command → List String
  | ifconfigBridge => ["ifconfig", m.config.bridgeName]
  | ifconfigBridgeCreate => ["ifconfig", "bridge", "create", "name", m.config.bridgeName]
  | ifconfigBridgeInet =>
      ["ifconfig", m.config.bridgeName, "inet", s!"{m.hostAddress.text}/{m.prefixLen}", "up"]
  | ifconfigBridgeUp => ["ifconfig", m.config.bridgeName, "up"]
  | ifconfigBridgeAddm epair => ["ifconfig", m.config.bridgeName, "addm", epair]
  | ifconfigBridgePrivate epair => ["ifconfig", m.config.bridgeName, "private", epair]
  | ifconfigUp interface => ["ifconfig", interface, "up"]
  | ifconfigShow interface => ["ifconfig", interface]
  | ifconfigEpairCreate => ["ifconfig", "epair", "create"]
  | ifconfigDestroy interface => ["ifconfig", interface, "destroy"]
  | arpDelete address => ["arp", "-d", address]
  | zfsCloneTemplate jailRoot dataset =>
      ["zfs", "clone", "-o", s!"mountpoint={jailRoot}", m.config.jailTemplateSnapshot, dataset]
  | zfsClone snapshot dataset => ["zfs", "clone", snapshot, dataset]
  | zfsDestroy dataset => ["zfs", "destroy", "-f", dataset]
  | zfsDestroyRecursive dataset => ["zfs", "destroy", "-r", "-f", dataset]
  | zfsListSnapshot snapshot => ["zfs", "list", "-H", "-o", "name", "-t", "snapshot", snapshot]
  | zfsListDataset dataset => ["zfs", "list", "-H", "-o", "name", dataset]
  | zfsListChildren => ["zfs", "list", "-H", "-o", "name", "-r", m.config.jailDatasetParent]
  | pwUsershow jailRoot => ["pw", "-R", jailRoot, "usershow", "-n", m.config.jailSshUser, "-7"]
  | jailCreate name jailRoot epairGuest =>
      ["jail", "-c", s!"name={name}", s!"path={jailRoot}", s!"host.hostname={name}", "persist",
        "exec.clean", "mount.devfs", "vnet", s!"vnet.interface={epairGuest}"]
  | jailRemove name => ["jail", "-r", name]
  | jexecStart name epairGuest address =>
      let interface := shlexQuote m.config.jailInterfaceName
      ["jexec", name, "sh", "-c",
        s!"ifconfig {shlexQuote epairGuest} name {interface} && "
          ++ s!"ifconfig {interface} inet {shlexQuote address}/{m.prefixLen} up && "
          ++ "ifconfig lo0 inet 127.0.0.1/8 up && "
          ++ s!"{shlexQuote m.config.jailSshdService} sshd onestart"]
  | jlsName name => ["jls", "-j", name, "name"]
  | jlsAll => ["jls", "-n", "name"]
  | vmSwitchInfo => [m.config.vmCommand, "switch", "info", m.config.vmSwitch]
  | vmSwitchCreate =>
      [m.config.vmCommand, "switch", "create", "-t", "manual", "-b", m.config.bridgeName,
        m.config.vmSwitch]
  | vmSwitchPrivate => [m.config.vmCommand, "switch", "private", m.config.vmSwitch, "on"]
  | vmInfo name => [m.config.vmCommand, "info", name]
  | vmList => [m.config.vmCommand, "list"]
  | vmCreate template image key netconfig name =>
      [m.config.vmCommand, "create", "-t", template]
        ++ (match image with
            | some image => ["-i", image]
            | none => [])
        ++ ["-C", "-k", key, "-n", netconfig, name]
  | vmStart name => [m.config.vmCommand, "start", name]
  | vmPoweroff name => [m.config.vmCommand, "poweroff", "-f", name]
  | vmDestroy name => [m.config.vmCommand, "destroy", "-f", name]
  | vmSet name assignment => [m.config.vmCommand, "set", name, assignment]
  | mdconfigAttach => ["mdconfig", "-a", "-t", m.config.vmMemdiskType, "-s", m.config.vmDiskSize]
  | mdconfigDetach unit => ["mdconfig", "-d", "-u", unit]
  | mdconfigQuery unit => ["mdconfig", "-l", "-u", unit]
  | dd source md => ["dd", s!"if={source}", s!"of=/dev/{md}", "bs=1M", "status=none"]

/-- An argument with a NUL, which no program can be started with. -/
def Command.embedsNull (m : RuntimeManager) (c : Command) : Bool :=
  (c.argv m).any fun argument => argument.toList.contains (Char.ofNat 0)

/-- `str(error)`. -/
def PyError.text (m : RuntimeManager) : PyError → String
  | valueError message | permissionError message | runtimeError message => message
  | commandTimedOut command => "Command timed out: " ++ shlexJoin (command.argv m)
  | unableToExecute command => "Unable to execute " ++ shlexJoin (command.argv m) ++ ": OSError"
  | commandFailed command detail => shlexJoin (command.argv m) ++ ": " ++ detail
  | osError => "OSError"
  | overflowError => "OverflowError"
  | indexError => "IndexError"
  | unicodeDecodeError => "UnicodeDecodeError"
  | unicodeEncodeError => "UnicodeEncodeError"

end FreebsdLaboratory
