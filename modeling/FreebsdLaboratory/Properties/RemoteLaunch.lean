import FreebsdLaboratory.Library.JsonAscii
import FreebsdLaboratory.Library.Options
import FreebsdLaboratory.Library.Shell
import FreebsdLaboratory.Model.RemoteLaunch
import FreebsdLaboratory.Properties.RemoteConnection

/-!
# What runs in the guest

The command lines that `stage` and `pre_launch` put together, as `ssh` reads them and as the shell
of the guest reads the text that `ssh` hands it.  Whatever is in the path of the connection file, in
the directory of the guest and in the command of the kernel, the guest creates one directory, writes
one file and runs one command (`remote_run`).

The five ports of the connection document come out at both ends: the document that the guest gets is
the one the host reads, and `ssh` connects each of its ports with the same port of the guest's
loopback (`tunnel_ends_meet`).
-/

namespace FreebsdLaboratory

open Library Library.Unicode Library.Json Library.Json.Value

/-! ## Quoting -/

lemma intercalate_modifyHead {α : Type} (sep : List α) (x : α) {ls : List (List α)} (h : ls ≠ []) :
    sep.intercalate (ls.modifyHead (x :: ·)) = x :: sep.intercalate ls := by
  cases ls with
  | nil => exact absurd rfl h
  | cons l ls => cases ls <;> simp [List.intercalate]

lemma flatMap_quoteChar (cs : List Char) :
    (['\'', '"', '\'', '"', '\''] : List Char).intercalate (cs.splitOn '\'')
      = cs.flatMap Shell.quoteChar := by
  induction cs with
  | nil => rfl
  | cons c cs ih =>
      have hne : cs.splitOn '\'' ≠ [] := List.splitOn_ne_nil _ _
      by_cases hc : c = '\''
      · subst hc
        have hsplit : ('\'' :: cs).splitOn '\'' = [] :: cs.splitOn '\'' := by
          simp [List.splitOn, List.splitOnP_cons_eq_if_modifyHead]
        cases hcs : cs.splitOn '\'' with
        | nil => exact absurd hcs hne
        | cons l ls =>
            rw [hsplit, hcs, List.flatMap_cons, ← ih, hcs]
            simp [List.intercalate, Shell.quoteChar]
      · have hsplit : (c :: cs).splitOn '\'' = (cs.splitOn '\'').modifyHead (c :: ·) := by
          simp [List.splitOn, List.splitOnP_cons_eq_if_modifyHead, hc]
        rw [hsplit, intercalate_modifyHead _ _ hne, ih, List.flatMap_cons]
        simp [Shell.quoteChar, hc]

/-- `shlex.quote` is the quoting of the shell language. -/
theorem toList_shlexQuote (s : String) : (shlexQuote s).toList = Shell.quote s.toList := by
  have hall : s.toList.all isShellSafe = s.toList.all Shell.isPlain := rfl
  have hmap : (Text.splitAt '\'' s).map String.toList = s.toList.splitOn '\'' := by
    simp [Text.splitAt, Function.comp_def]
  unfold shlexQuote Shell.quote
  by_cases h : s ≠ "" ∧ s.toList.all isShellSafe = true
  · have h' : s.toList ≠ [] ∧ s.toList.all Shell.isPlain = true :=
      ⟨by simpa using h.1, by rw [← hall]; exact h.2⟩
    rw [if_pos h, if_pos h']
  · have h' : ¬ (s.toList ≠ [] ∧ s.toList.all Shell.isPlain = true) := by
      rintro ⟨hne, hplain⟩
      exact h ⟨by simpa using hne, by rw [hall]; exact hplain⟩
    rw [if_neg h, if_neg h', String.toList_append, String.toList_append, String.toList_intercalate,
      hmap, ← flatMap_quoteChar]
    rfl

lemma reads_shlexQuote (s : String) : Shell.Reads (shlexQuote s).toList [.word s.toList] := by
  rw [toList_shlexQuote]
  exact (Shell.piece_quote _).reads

/-- A word as it stands in the source. -/
lemma reads_plain (s : String) (hne : s.toList ≠ []) (h : s.toList.all Shell.isPlain = true) :
    Shell.Reads s.toList [.word s.toList] :=
  (Shell.piece_plain hne h).reads

lemma toList_shlexJoin (argv : List String) :
    (shlexJoin argv).toList = [' '].intercalate ((argv.map String.toList).map Shell.quote) := by
  rw [shlexJoin, String.toList_intercalate, List.map_map, List.map_map]
  simp [Function.comp_def, toList_shlexQuote]

/-! ## The texts for the guest -/

/-- A command of the guest, and the file its output goes to. -/
def guestCommand (words : List String) (output : Option String := none) : Shell.Simple :=
  ⟨words.map String.toList, output.map String.toList⟩

lemma toList_stageCommand (remoteDir remotePath : String) :
    (stageCommand remoteDir remotePath).toList
      = "install -d -m 700".toList ++ ' ' :: ((shlexQuote remoteDir).toList
        ++ ' ' :: ("&& cat >".toList ++ ' ' :: ((shlexQuote remotePath).toList
        ++ ' ' :: ("&& chmod 600".toList ++ ' ' :: (shlexQuote remotePath).toList)))) := by
  have htext : stageCommand remoteDir remotePath
      = "install -d -m 700 " ++ shlexQuote remoteDir ++ " && cat > " ++ shlexQuote remotePath
        ++ " && chmod 600 " ++ shlexQuote remotePath := rfl
  have hinstall : "install -d -m 700 ".toList = "install -d -m 700".toList ++ [' '] := rfl
  have hcat : " && cat > ".toList = ' ' :: ("&& cat >".toList ++ [' ']) := rfl
  have hchmod : " && chmod 600 ".toList = ' ' :: ("&& chmod 600".toList ++ [' ']) := rfl
  simp only [htext, String.toList_append, hinstall, hcat, hchmod, List.append_assoc,
    List.cons_append, List.nil_append]

/-- **`stage` creates the directory, writes the file and protects it**, whatever their names are. -/
theorem script_stageCommand (remoteDir remotePath : String) :
    Shell.script (stageCommand remoteDir remotePath).toList
      = some [guestCommand ["install", "-d", "-m", "700", remoteDir],
          guestCommand ["cat"] (some remotePath), guestCommand ["chmod", "600", remotePath]] := by
  have hinstall : Shell.Reads "install -d -m 700".toList
      [.word "install".toList, .word "-d".toList, .word "-m".toList, .word "700".toList] :=
    (((reads_plain "install" (by decide) (by decide)).append
      (reads_plain "-d" (by decide) (by decide))).append
      (reads_plain "-m" (by decide) (by decide))).append (reads_plain "700" (by decide) (by decide))
  have hcat : Shell.Reads "&& cat >".toList [.andIf, .word "cat".toList, .great] :=
    (Shell.reads_andIf.append (reads_plain "cat" (by decide) (by decide))).append Shell.reads_great
  have hchmod :
    Shell.Reads "&& chmod 600".toList [.andIf, .word "chmod".toList, .word "600".toList] :=
    (Shell.reads_andIf.append (reads_plain "chmod" (by decide) (by decide))).append
      (reads_plain "600" (by decide) (by decide))
  have hpath := reads_shlexQuote remotePath
  have hreads := hinstall.append ((reads_shlexQuote remoteDir).append
    (hcat.append (hpath.append (hchmod.append hpath))))
  rw [Shell.script, toList_stageCommand, hreads.tokens]
  rfl

/-- **The kernel's words reach its `exec` as they are.** -/
theorem script_execCommand {kernelCommand : List String} (hne : kernelCommand ≠ []) :
    Shell.script (execCommand kernelCommand).toList
      = some [guestCommand ("exec" :: kernelCommand)] := by
  have hwords := Shell.reads_quoted_words (kernelCommand.map String.toList) (by simpa using hne)
  have hreads := (reads_plain "exec" (by decide) (by decide)).append hwords
  have htext : (execCommand kernelCommand).toList
      = "exec".toList ++ ' ' :: [' '].intercalate
        ((kernelCommand.map String.toList).map Shell.quote) := by
    rw [execCommand, String.toList_append, toList_shlexJoin]
    rfl
  have hparse :
    Shell.parse [] none (((("exec" :: kernelCommand).map String.toList).map .word) ++ [])
      = some [guestCommand ("exec" :: kernelCommand)] := by
    rw [Shell.parse_words]
    rfl
  rw [List.append_nil] at hparse
  rw [Shell.script, htext, hreads.tokens]
  exact hparse

/-! ## Inside a jail -/

/-- The script that `create_jail` gives to the shell of the jail. -/
lemma toList_jexecScript (epair interface address service : String) (prefixLen : ℕ) :
    (s!"ifconfig {shlexQuote epair} name {shlexQuote interface} && "
        ++ s!"ifconfig {shlexQuote interface} inet {shlexQuote address}/{prefixLen} up && "
        ++ "ifconfig lo0 inet 127.0.0.1/8 up && "
        ++ s!"{shlexQuote service} sshd onestart").toList
      = "ifconfig".toList ++ ' ' :: ((shlexQuote epair).toList ++ ' ' :: ("name".toList
        ++ ' ' :: ((shlexQuote interface).toList ++ ' ' :: ("&& ifconfig".toList
        ++ ' ' :: ((shlexQuote interface).toList ++ ' ' :: ("inet".toList
        ++ ' ' :: (((shlexQuote address).toList ++ '/' :: (toString prefixLen).toList)
        ++ ' ' :: ("up && ifconfig lo0 inet 127.0.0.1/8 up &&".toList
        ++ ' ' :: ((shlexQuote service).toList ++ ' ' :: "sshd onestart".toList))))))))) := by
  have htext : s!"ifconfig {shlexQuote epair} name {shlexQuote interface} && "
        ++ s!"ifconfig {shlexQuote interface} inet {shlexQuote address}/{prefixLen} up && "
        ++ "ifconfig lo0 inet 127.0.0.1/8 up && " ++ s!"{shlexQuote service} sshd onestart"
      = "ifconfig " ++ shlexQuote epair ++ " name " ++ shlexQuote interface ++ " && "
        ++ ("ifconfig " ++ shlexQuote interface ++ " inet " ++ shlexQuote address ++ "/"
        ++ toString prefixLen ++ " up && ") ++ "ifconfig lo0 inet 127.0.0.1/8 up && "
        ++ (shlexQuote service ++ " sshd onestart") := rfl
  have hifconfig : "ifconfig ".toList = "ifconfig".toList ++ [' '] := rfl
  have hname : " name ".toList = ' ' :: ("name".toList ++ [' ']) := rfl
  have hand : " && ".toList ++ "ifconfig".toList = ' ' :: "&& ifconfig".toList := rfl
  have hinet : " inet ".toList = ' ' :: ("inet".toList ++ [' ']) := rfl
  have hslash : "/".toList = ['/'] := rfl
  have hloopback : " up && ".toList ++ "ifconfig lo0 inet 127.0.0.1/8 up && ".toList
      = ' ' :: ("up && ifconfig lo0 inet 127.0.0.1/8 up &&".toList ++ [' ']) := rfl
  have hsshd : " sshd onestart".toList = ' ' :: "sshd onestart".toList := rfl
  rw [htext]
  simp only [String.toList_append, hifconfig, hname, hinet, hslash, hsshd, List.append_assoc,
    List.cons_append, List.nil_append]
  rw [← List.append_assoc " && ".toList, hand, ← List.append_assoc " up && ".toList, hloopback]
  simp only [List.append_assoc, List.cons_append, List.nil_append]

/-- **The jail runs its four commands**, whatever the interface, the address and the service are
called. -/
theorem jail_start_script (m : RuntimeManager) (name epair address : String)
    (hservice : Text.startsWith "/" m.config.jailSshdService = true) :
    ∃ script, (Command.jexecStart name epair address).argv m = ["jexec", name, "sh", "-c", script] ∧
      Shell.script script.toList = some
        [guestCommand ["ifconfig", epair, "name", m.config.jailInterfaceName],
          guestCommand ["ifconfig", m.config.jailInterfaceName, "inet",
            address ++ "/" ++ toString m.prefixLen, "up"],
          guestCommand ["ifconfig", "lo0", "inet", "127.0.0.1/8", "up"],
          guestCommand [m.config.jailSshdService, "sshd", "onestart"]] := by
  refine ⟨_, rfl, ?_⟩
  have hprefix : Shell.Piece ('/' :: (toString m.prefixLen).toList)
      ('/' :: (toString m.prefixLen).toList) := by
    refine Shell.piece_plain (by simp) ?_
    have hdigits : ∀ c ∈ (toString m.prefixLen).toList, c.isDigit = true := by
      have hrepr : toString m.prefixLen = Nat.repr m.prefixLen := rfl
      rw [hrepr, Nat.repr, String.toList_ofList]
      exact fun c hc => Text.isDigit_of_mem_toDigits hc
    rw [List.all_cons, List.all_eq_true.mpr fun c hc => ?_]
    · rfl
    · simp [Shell.isPlain, Char.isAlphanum, hdigits c hc]
  have haddress : Shell.Piece ((shlexQuote address).toList ++ '/' :: (toString m.prefixLen).toList)
      (address.toList ++ '/' :: (toString m.prefixLen).toList) := by
    rw [toList_shlexQuote]
    exact (Shell.piece_quote _).append hprefix
  have hifconfig := reads_plain "ifconfig" (by decide) (by decide)
  have hup := reads_plain "up" (by decide) (by decide)
  have hinet := reads_plain "inet" (by decide) (by decide)
  have hnext : Shell.Reads "&& ifconfig".toList [.andIf, .word "ifconfig".toList] :=
    Shell.reads_andIf.append hifconfig
  have hloopback : Shell.Reads "up && ifconfig lo0 inet 127.0.0.1/8 up &&".toList
      [.word "up".toList, .andIf, .word "ifconfig".toList, .word "lo0".toList, .word "inet".toList,
        .word "127.0.0.1/8".toList, .word "up".toList, .andIf] :=
    ((((((hup.append Shell.reads_andIf).append hifconfig).append
      (reads_plain "lo0" (by decide) (by decide))).append hinet).append
      (reads_plain "127.0.0.1/8" (by decide) (by decide))).append hup).append Shell.reads_andIf
  have hsshd : Shell.Reads "sshd onestart".toList [.word "sshd".toList, .word "onestart".toList] :=
    (reads_plain "sshd" (by decide) (by decide)).append
    (reads_plain "onestart" (by decide) (by decide))
  have hinterface := reads_shlexQuote m.config.jailInterfaceName
  have hreads := hifconfig.append ((reads_shlexQuote epair).append
    ((reads_plain "name" (by decide) (by decide)).append (hinterface.append (hnext.append
    (hinterface.append (hinet.append (haddress.reads.append (hloopback.append
    ((reads_shlexQuote m.config.jailSshdService).append hsshd)))))))))
  rw [Shell.script]
  have htext := toList_jexecScript epair m.config.jailInterfaceName address m.config.jailSshdService
    m.prefixLen
  have hpath : m.config.jailSshdService.toList.head? = some '/' := by
    obtain ⟨rest, hrest⟩ := List.isPrefixOf_iff_prefix.mp hservice
    rw [← hrest]
    rfl
  have hlast := Shell.parse_last
    (Shell.close_of_path hpath ["sshd".toList, "onestart".toList] none)
  have hloopbackUp := Shell.parse_command (show Shell.close
    (["ifconfig", "lo0", "inet", "127.0.0.1/8", "up"].map String.toList) none
      = some (guestCommand ["ifconfig", "lo0", "inet", "127.0.0.1/8", "up"]) from rfl)
    ([m.config.jailSshdService.toList, "sshd".toList, "onestart".toList].map .word)
  rw [hlast] at hloopbackUp
  have hinterfaceUp := Shell.parse_command (show Shell.close
    ["ifconfig".toList, m.config.jailInterfaceName.toList, "inet".toList,
      address.toList ++ '/' :: (toString m.prefixLen).toList, "up".toList] none
        = some ⟨_, none⟩ from rfl)
    ((["ifconfig", "lo0", "inet", "127.0.0.1/8", "up"].map String.toList).map .word
      ++ .andIf :: [m.config.jailSshdService.toList, "sshd".toList, "onestart".toList].map .word)
  rw [hloopbackUp] at hinterfaceUp
  have hrename := Shell.parse_command (show Shell.close
    ["ifconfig".toList, epair.toList, "name".toList, m.config.jailInterfaceName.toList] none
      = some ⟨_, none⟩ from rfl)
    (["ifconfig".toList, m.config.jailInterfaceName.toList, "inet".toList,
      address.toList ++ '/' :: (toString m.prefixLen).toList, "up".toList].map .word ++ .andIf ::
      ((["ifconfig", "lo0", "inet", "127.0.0.1/8", "up"].map String.toList).map .word
        ++ .andIf :: [m.config.jailSshdService.toList, "sshd".toList, "onestart".toList].map .word))
  rw [hinterfaceUp] at hrename
  have hwords : (address ++ "/" ++ toString m.prefixLen).toList
      = address.toList ++ '/' :: (toString m.prefixLen).toList := by
    simp [String.toList_append]
  rw [htext, hreads.tokens]
  refine hrename.trans ?_
  simp only [guestCommand, List.map_cons, List.map_nil, hwords]
  rfl

/-- An interface name that a shell would take for more. -/
theorem jail_start_script_quoted :
    ∃ script, (Command.jexecStart "freebsd-lab-a" "epair0b; reboot" "172.31.254.10").argv .standard
        = ["jexec", "freebsd-lab-a", "sh", "-c", script] ∧
      Shell.script script.toList = some
        [guestCommand ["ifconfig", "epair0b; reboot", "name", "vnet0"],
          guestCommand ["ifconfig", "vnet0", "inet", "172.31.254.10/24", "up"],
          guestCommand ["ifconfig", "lo0", "inet", "127.0.0.1/8", "up"],
          guestCommand ["/usr/sbin/service", "sshd", "onestart"]] :=
  jail_start_script .standard "freebsd-lab-a" "epair0b; reboot" "172.31.254.10" rfl

/-! ## Checked loops -/

lemma exists_of_bind_eq_ok {ε α β : Type} {x : Except ε α} {f : α → Except ε β} {y : β}
    (h : x >>= f = .ok y) : ∃ a, x = .ok a ∧ f a = .ok y := by
  cases x with
  | error e => simp [bind, Except.bind] at h
  | ok a => exact ⟨a, rfl, h⟩

/-- A loop that checks each element has checked all of them. -/
lemma mapM_guard_eq_ok {ε α β : Type} {p : α → Prop} [DecidablePred p] {f : α → β} {e : ε}
    {as : List α} {bs : List β}
    (h : as.mapM (fun a => if p a then Except.ok (f a) else .error e) = .ok bs) :
    (∀ a ∈ as, p a) ∧ bs = as.map f := by
  induction as generalizing bs with
  | nil =>
      cases h
      simp
  | cons a as ih =>
      rw [List.mapM_cons] at h
      obtain ⟨b, hb, h⟩ := exists_of_bind_eq_ok h
      obtain ⟨bs', hbs, h⟩ := exists_of_bind_eq_ok h
      obtain ⟨hall, rfl⟩ := ih hbs
      split_ifs at hb with ha
      cases hb
      cases h
      exact ⟨List.forall_mem_cons.mpr ⟨ha, hall⟩, rfl⟩

/-! ## The command line of `ssh` -/

/-- A forwarding of `-L`. -/
structure Forward where
  bindAddress : List Char
  port : List Char
  host : List Char
  hostPort : List Char
  deriving DecidableEq

/-- `bind_address:port:host:hostport`. -/
def readForward (spec : List Char) : Option Forward :=
  match spec.splitOn ':' with
  | [bindAddress, port, host, hostPort] => some ⟨bindAddress, port, host, hostPort⟩
  | _ => none

/-- What `ssh` is asked to do: the ports it forwards, where it connects to and the text it hands the
shell there. -/
structure SshInvocation where
  forwards : List Forward
  destination : List Char
  command : List Char
  deriving DecidableEq

/-- The arguments of its `-L`. -/
def forwardSpecs (flags : List Options.Flag) : List (List Char) :=
  flags.filterMap fun flag => if flag.1 = 'L' then flag.2 else none

/-- `ssh [options] destination [options] command`, with the letters of `ssh`: it goes on reading
options behind the destination, so a command that begins with a dash would be one. -/
def sshReads (letters : Char → Option Bool) (arguments : List String) : Option SshInvocation :=
  match Options.getopt letters (arguments.map String.toList) with
  | some (flags, destination :: rest) =>
      match Options.getopt letters rest with
      | some (later, [command]) =>
          ((forwardSpecs (flags ++ later)).mapM readForward).map fun forwards =>
            ⟨forwards, destination, command⟩
      | _ => none
  | _ => none

/-- The options that the transport uses are options of `ssh`, and all but `-T` take an argument. -/
structure SshLetters (letters : Char → Option Bool) : Prop where
  configFile : letters 'F' = some true
  identityFile : letters 'i' = some true
  option : letters 'o' = some true
  forward : letters 'L' = some true
  noTerminal : letters 'T' = some false

/-- The tunnel of a port: from the loopback of the host to the loopback of the guest. -/
def tunnel (port : ℤ) : Forward :=
  ⟨"127.0.0.1".toList, (toString port).toList, "127.0.0.1".toList, (toString port).toList⟩

lemma colon_notMem_toString {port : ℤ} (h : 1 ≤ port) : ':' ∉ (toString port).toList := by
  obtain ⟨n, rfl⟩ : ∃ n : ℕ, port = n := ⟨port.toNat, by omega⟩
  have htext : (toString (n : ℤ)).toList = Nat.toDigits 10 n := by
    have hrepr : toString (n : ℤ) = Nat.repr n := rfl
    rw [hrepr, Nat.repr, String.toList_ofList]
  rw [htext]
  intro hmem
  exact absurd (Text.isDigit_of_mem_toDigits hmem) (by decide)

lemma readForward_tunnel {port : ℤ} (h : 1 ≤ port) :
    readForward s!"127.0.0.1:{port}:127.0.0.1:{port}".toList = some (tunnel port) := by
  have htext : s!"127.0.0.1:{port}:127.0.0.1:{port}".toList
      = [':'].intercalate ["127.0.0.1".toList, (toString port).toList, "127.0.0.1".toList,
          (toString port).toList] := by
    have hparts : s!"127.0.0.1:{port}:127.0.0.1:{port}"
        = "127.0.0.1:" ++ toString port ++ ":127.0.0.1:" ++ toString port := rfl
    have hfirst : "127.0.0.1:".toList = "127.0.0.1".toList ++ [':'] := rfl
    have hsecond : ":127.0.0.1:".toList = ':' :: ("127.0.0.1".toList ++ [':']) := rfl
    simp only [hparts, String.toList_append, hfirst, hsecond]
    simp [List.intercalate]
  have hcolon := colon_notMem_toString h
  have hparts : ∀ l ∈ ["127.0.0.1".toList, (toString port).toList, "127.0.0.1".toList,
      (toString port).toList], ':' ∉ l := by
    simp only [List.forall_mem_cons]
    exact ⟨by decide, hcolon, by decide, hcolon, by simp⟩
  have hsplit := List.splitOn_intercalate ':' hparts (by simp)
  rw [readForward, htext, hsplit]
  rfl

/-- What reaches the guest over a command line of `ssh`: where it connects to, the ports it forwards
and the commands that the shell of the guest runs. -/
def RunsRemotely (letters : Char → Option Bool) (argv : List String) (program destination : String)
    (forwards : List Forward) (commands : List Shell.Simple) : Prop :=
  ∃ arguments text, argv = program :: arguments ∧
    sshReads letters arguments = some ⟨forwards, destination.toList, text⟩ ∧
    Shell.script text = some commands

namespace SSHTransport

/-- The options in front of `-T`. -/
def optionFlags (t : SSHTransport) : List Options.Flag :=
  [('F', some t.configFile.toList), ('i', some t.privateKey.toList),
    ('o', some "BatchMode=yes".toList), ('o', some "IdentitiesOnly=yes".toList),
    ('o', some s!"ConnectTimeout={t.connectTimeout}".toList),
    ('o', some s!"ConnectionAttempts={t.connectionAttempts}".toList),
    ('o', some s!"ServerAliveInterval={t.serverAliveInterval}".toList),
    ('o', some s!"ServerAliveCountMax={t.serverAliveCountMax}".toList),
    ('o', some ("TCPKeepAlive=" ++ (if t.tcpKeepAlive then "yes" else "no")).toList),
    ('o', some "ExitOnForwardFailure=yes".toList),
    ('o', some "StrictHostKeyChecking=accept-new".toList),
    ('o', some "GlobalKnownHostsFile=/dev/null".toList),
    ('o', some s!"UserKnownHostsFile={t.knownHostsFile}".toList)]

lemma map_options (t : SSHTransport) :
    t.options.map String.toList = t.optionFlags.flatMap Options.render := rfl

/-- The ports that are forwarded, in the order of the command line. -/
def forwarded (ports : List ℤ) : List ℤ := ports.dedup.mergeSort (· ≤ ·)

lemma mem_forwarded {ports : List ℤ} {port : ℤ} : port ∈ forwarded ports ↔ port ∈ ports := by
  rw [forwarded, List.mem_mergeSort, List.mem_dedup]

/-- The options of a command line with forwardings. -/
def flags (t : SSHTransport) (ports : List ℤ) : List Options.Flag :=
  t.optionFlags ++ ('T', Option.none) ::
    (forwarded ports).map fun port =>
      ('L', some s!"{t.bindAddress}:{port}:127.0.0.1:{port}".toList)

/-- **A command line is its options, the destination and the text.** -/
lemma command_eq_ok {t : SSHTransport} {text : String} {ports : List ℤ} {argv : List String}
    (h : t.command text ports = .ok argv) :
    (∀ port ∈ ports, 1 ≤ port ∧ port ≤ 65535) ∧
      ∃ arguments, argv = t.sshCommand :: arguments ∧ arguments.map String.toList
        = (t.flags ports).flatMap Options.render ++ [t.target.toList, text.toList] := by
  obtain ⟨forwards, hforwards, hargv⟩ := exists_of_bind_eq_ok h
  obtain ⟨hrange, rfl⟩ := mapM_guard_eq_ok hforwards
  refine ⟨fun port hport => hrange port (mem_forwarded.mpr hport), _, (Except.ok.inj hargv).symm,
    ?_⟩
  have hlines : (((forwarded ports).map fun port =>
        ["-L", s!"{t.bindAddress}:{port}:127.0.0.1:{port}"]).flatten).map String.toList
      = ((forwarded ports).map fun port : ℤ => ((('L', some
          s!"{t.bindAddress}:{port}:127.0.0.1:{port}".toList) : Options.Flag))).flatMap
            Options.render := by
    rw [List.map_flatten, List.flatMap_map, List.flatMap_def, List.map_map]
    rfl
  simp only [flags, List.flatMap_append, List.flatMap_cons, ← map_options, ← hlines]
  simp [forwarded, Options.render]

lemma forwardSpecs_flags {t : SSHTransport} (ports : List ℤ) :
    forwardSpecs (t.flags ports)
      = (forwarded ports).map fun port => s!"{t.bindAddress}:{port}:127.0.0.1:{port}".toList := by
  simp only [forwardSpecs, flags, List.filterMap_append, List.filterMap_cons, List.filterMap_map]
  have hoptions : t.optionFlags.filterMap (fun flag => if flag.1 = 'L' then flag.2 else Option.none)
      = [] := rfl
  rw [hoptions]
  simp

lemma known_flags {letters : Char → Option Bool} (h : SshLetters letters) (t : SSHTransport)
    (ports : List ℤ) : ∀ flag ∈ t.flags ports, Options.Known letters flag := by
  have hF : ∀ v, Options.Known letters ('F', some v) := fun _ =>
    ⟨(by decide : 'F' ≠ '-'), h.configFile⟩
  have hi : ∀ v, Options.Known letters ('i', some v) := fun _ =>
    ⟨(by decide : 'i' ≠ '-'), h.identityFile⟩
  have ho : ∀ v, Options.Known letters ('o', some v) := fun _ =>
    ⟨(by decide : 'o' ≠ '-'), h.option⟩
  have hL : ∀ v, Options.Known letters ('L', some v) := fun _ =>
    ⟨(by decide : 'L' ≠ '-'), h.forward⟩
  intro flag hflag
  rcases List.mem_append.mp hflag with hflag | hflag
  · simp only [optionFlags, List.mem_cons, List.not_mem_nil, or_false] at hflag
    rcases hflag with rfl | rfl | rfl | rfl | rfl | rfl | rfl | rfl | rfl | rfl | rfl | rfl | rfl
    · exact hF _
    · exact hi _
    all_goals exact ho _
  · rcases List.mem_cons.mp hflag with rfl | hflag
    · exact ⟨by decide, h.noTerminal⟩
    · obtain ⟨port, -, rfl⟩ := List.mem_map.mp hflag
      exact hL _

/-- Who has passed `assert_available` has a name that does not look like an option. -/
lemma target_of_assertAvailable {py : PythonLibrary} {files : ClientFiles} {scpCommand : String}
    {t : SSHTransport} (h : t.assertAvailable py files scpCommand = .ok ()) :
    t.target.toList.head? ≠ some '-' := by
  have huser : isUserName t.user = true := by
    by_contra hnot
    cases haddress : py.ipAddress t.bindAddress <;>
      simp [assertAvailable, haddress, hnot, throw, throwThe, MonadExceptOf.throw, bind,
        Except.bind] at h
  have htarget : t.target.toList = t.user.toList ++ '@' :: t.host.toList := by
    have hparts : t.target = t.user ++ "@" ++ t.host := rfl
    simp [hparts]
  rw [htarget]
  rw [isUserName] at huser
  cases hchars : t.user.toList with
  | nil => simp
  | cons c cs =>
      rw [hchars] at huser
      simp only [Bool.and_eq_true] at huser
      have hc : c ≠ '-' := by
        rintro rfl
        exact absurd huser.1 (by decide)
      simpa using hc

/-- **What a command line of the transport is to `ssh`.** -/
lemma sshReads_command {letters : Char → Option Bool} (hletters : SshLetters letters)
    {t : SSHTransport} (hbind : t.bindAddress = "127.0.0.1")
    (htarget : t.target.toList.head? ≠ some '-')
    {text : String} (htext : text.toList.head? ≠ some '-') {ports : List ℤ} {argv : List String}
    (h : t.command text ports = .ok argv) :
    ∃ arguments, argv = t.sshCommand :: arguments ∧ sshReads letters arguments
      = some ⟨(forwarded ports).map tunnel, t.target.toList, text.toList⟩ := by
  obtain ⟨hrange, arguments, rfl, harguments⟩ := command_eq_ok h
  refine ⟨arguments, rfl, ?_⟩
  have hgetopt := Options.getopt_render (known_flags hletters t ports) htarget [text.toList]
  have hforwards : (forwardSpecs (t.flags ports)).mapM readForward
      = some ((forwarded ports).map tunnel) := by
    have heach : ∀ ps : List ℤ, (∀ port ∈ ps, 1 ≤ port) →
        (ps.map fun port => s!"127.0.0.1:{port}:127.0.0.1:{port}".toList).mapM readForward
          = some (ps.map tunnel) := by
      intro ps hps
      induction ps with
      | nil => rfl
      | cons port ps ih =>
          rw [List.forall_mem_cons] at hps
          rw [List.map_cons, List.mapM_cons, readForward_tunnel hps.1, ih hps.2]
          rfl
    rw [forwardSpecs_flags, hbind]
    exact heach _ fun port hport => (hrange port (mem_forwarded.mp hport)).1
  rw [sshReads, harguments, hgetopt]
  simp only [Options.getopt_operand htext, List.append_nil, hforwards]
  rfl

end SSHTransport

/-! ## The launch -/

/-- Neither text for the guest begins with a dash. -/
lemma stageCommand_head (remoteDir remotePath : String) :
    (stageCommand remoteDir remotePath).toList.head? ≠ some '-' := by
  have hinstall : "install -d -m 700".toList = 'i' :: "nstall -d -m 700".toList := rfl
  rw [toList_stageCommand, hinstall, List.cons_append, List.head?_cons]
  decide

lemma execCommand_head (kernelCommand : List String) :
    (execCommand kernelCommand).toList.head? ≠ some '-' := by
  have hexec : "exec ".toList = 'e' :: "xec ".toList := rfl
  rw [execCommand, String.toList_append, hexec, List.cons_append, List.head?_cons]
  decide

/-- `remote_kernel_command` replaces the connection file, under whichever name it is given, and the
kernel's command names it. -/
lemma remoteKernelCommand_eq_ok {command kernelCommand : List String} {file : HostFile}
    {remoteConnectionFile : String}
    (h : remoteKernelCommand command file remoteConnectionFile = .ok kernelCommand) :
    remoteConnectionFile ∈ kernelCommand ∧
      kernelCommand = command.map fun argument =>
        if argument ∈ [file.path, file.resolved, file.name] then remoteConnectionFile
          else argument := by
  simp only [remoteKernelCommand] at h
  split_ifs at h with hany
  cases h
  obtain ⟨argument, hmem, hcandidate⟩ := List.any_eq_true.mp hany
  refine ⟨List.mem_map.mpr ⟨argument, hmem, by rw [if_pos hcandidate]⟩, ?_⟩
  simp only [List.contains_iff_mem]

/-- What `stage` has done when it returns. -/
lemma stage_eq_ok {t : SSHTransport} {file : HostFile} {remoteDir remotePath : String}
    {outcome : ProbeOutcome} {call : Option StageCall}
    (h : t.stage file remoteDir outcome = (call, .ok remotePath)) :
    ∃ command content, call = some ⟨command, content, 15⟩ ∧ file.readText = .ok content ∧
      remotePath = file.remotePath remoteDir ∧
      t.command (stageCommand remoteDir (file.remotePath remoteDir)) = .ok command := by
  rw [SSHTransport.stage] at h
  split at h
  · cases h
  next command hprepared =>
    obtain ⟨rfl, hrun⟩ := Prod.mk.inj h
    have hpath : remotePath = file.remotePath remoteDir := by
      cases hresult : SSHTransport.run command.command true outcome with
      | error e => simp [hresult, Except.map] at hrun
      | ok result => simpa [hresult, Except.map] using hrun.symm
    have hcall : ∃ content, file.readText = .ok content ∧ ∃ argv,
        t.command (stageCommand remoteDir (file.remotePath remoteDir)) = .ok argv
          ∧ command = ⟨argv, content, 15⟩ := by
      have hpresent : file.present = true := by
        by_contra hnot
        simp [hnot, throw, throwThe, MonadExceptOf.throw, bind, Except.bind] at hprepared
      have hregular : ¬ (file.isSymlink || file.bytes.isNone) = true := by
        intro hnot
        simp only [if_pos hpresent, if_pos hnot] at hprepared
        cases hprepared
      have habsolute : Text.startsWith "/" remoteDir = true := by
        by_contra hnot
        simp only [if_pos hpresent, if_neg hregular, if_neg hnot] at hprepared
        cases hprepared
      simp only [if_pos hpresent, if_neg hregular, if_pos habsolute] at hprepared
      obtain ⟨content, hcontent, hprepared⟩ := exists_of_bind_eq_ok hprepared
      obtain ⟨argv, hargv, hprepared⟩ := exists_of_bind_eq_ok hprepared
      exact ⟨content, hcontent, argv, hargv, (Except.ok.inj hprepared).symm⟩
    obtain ⟨content, hcontent, argv, hcommand, rfl⟩ := hcall
    exact ⟨argv, content, rfl, hcontent, hpath, hcommand⟩

/-- What `pre_launch` has done behind `gather` when it returns. -/
lemma prepareCommand_eq_ok {t : SSHTransport} {file : HostFile} {remoteDir : String}
    {cmd : List String}
    {ports : List ℤ} {outcome : ProbeOutcome} {call : Option StageCall} {argv : List String}
    (h : t.prepareCommand file remoteDir cmd ports outcome = (call, .ok argv)) :
    ∃ staged content kernelCommand, call = some ⟨staged, content, 15⟩
      ∧ file.readText = .ok content ∧
      t.command (stageCommand remoteDir (file.remotePath remoteDir)) = .ok staged ∧
      t.command (execCommand kernelCommand) ports = .ok argv ∧
      file.remotePath remoteDir ∈ kernelCommand ∧
      kernelCommand = cmd.map fun argument =>
        if argument ∈ [file.path, file.resolved, file.name] then file.remotePath remoteDir
        else argument := by
  rw [SSHTransport.prepareCommand] at h
  cases hstage : t.stage file remoteDir outcome with
  | mk call' result =>
      cases result with
      | error e => simp [hstage] at h
      | ok remotePath =>
          simp only [hstage, Prod.mk.injEq] at h
          obtain ⟨rfl, h⟩ := h
          obtain ⟨staged, content, hcall, hcontent, rfl, hcommand⟩ := stage_eq_ok hstage
          obtain ⟨kernelCommand, hkernel, hargv⟩ := exists_of_bind_eq_ok h
          exact ⟨staged, content, kernelCommand, hcall, hcontent, hcommand, hargv,
            remoteKernelCommand_eq_ok hkernel⟩

/-- **The guest runs what it is meant to.**  When `pre_launch` has put the command together, the
shell of the guest has created the directory, written the connection file and protected it, and the
command for Jupyter makes it run the kernel's own words, with the path of that file for the path on
the host. -/
theorem remote_run {letters : Char → Option Bool} (hletters : SshLetters letters)
    {py : PythonLibrary}
    {files : ClientFiles} {scpCommand : String} {t : SSHTransport} {file : HostFile}
    {remoteDir : String} {cmd : List String} {ports : List ℤ} {outcome : ProbeOutcome}
    {call : Option StageCall} {argv : List String} (hbind : t.bindAddress = "127.0.0.1")
    (havailable : t.assertAvailable py files scpCommand = .ok ())
    (h : t.prepareCommand file remoteDir cmd ports outcome = (call, .ok argv)) :
    ∃ staged content kernelCommand, call = some ⟨staged, content, 15⟩
      ∧ file.readText = .ok content ∧
      RunsRemotely letters staged t.sshCommand t.target []
        [guestCommand ["install", "-d", "-m", "700", remoteDir],
          guestCommand ["cat"] (some (file.remotePath remoteDir)),
          guestCommand ["chmod", "600", file.remotePath remoteDir]] ∧
      RunsRemotely letters argv t.sshCommand t.target ((SSHTransport.forwarded ports).map tunnel)
        [guestCommand ("exec" :: kernelCommand)] ∧
      file.remotePath remoteDir ∈ kernelCommand ∧
      kernelCommand = cmd.map fun argument =>
        if argument ∈ [file.path, file.resolved, file.name] then file.remotePath remoteDir
        else argument := by
  have htarget := SSHTransport.target_of_assertAvailable havailable
  obtain ⟨staged, content, kernelCommand, hcall, hcontent, hcommand, hargv, hmem, hwords⟩ :=
    prepareCommand_eq_ok h
  obtain ⟨stageArguments, hstaged, hstageReads⟩ :=
    SSHTransport.sshReads_command hletters hbind htarget (stageCommand_head _ _) hcommand
  obtain ⟨arguments, hprogram, hreads⟩ :=
    SSHTransport.sshReads_command hletters hbind htarget (execCommand_head _) hargv
  have hnone : (SSHTransport.forwarded []).map tunnel = [] := by simp [SSHTransport.forwarded]
  rw [hnone] at hstageReads
  refine ⟨staged, content, kernelCommand, hcall, hcontent, ?_, ?_, hmem, hwords⟩
  · exact ⟨stageArguments, _, hstaged, hstageReads, script_stageCommand _ _⟩
  · exact ⟨arguments, _, hprogram, hreads, script_execCommand (List.ne_nil_of_mem hmem)⟩

/-! ## A launch that goes through -/

lemma mapM_guard {ε α β : Type} {p : α → Prop} [DecidablePred p] {f : α → β} {e : ε} {as : List α}
    (h : ∀ a ∈ as, p a) :
    as.mapM (fun a => if p a then Except.ok (f a) else .error e) = .ok (as.map f) := by
  induction as with
  | nil => rfl
  | cons a as ih =>
      rw [List.forall_mem_cons] at h
      rw [List.mapM_cons, if_pos h.1, ih h.2]
      rfl

lemma exists_command (t : SSHTransport) (text : String) (ports : List ℤ)
    (h : ∀ port ∈ ports, 1 ≤ port ∧ port ≤ 65535) : ∃ argv, t.command text ports = .ok argv := by
  have hrange : ∀ port ∈ SSHTransport.forwarded ports, 1 ≤ port ∧ port ≤ 65535 :=
    fun port hport => h port (SSHTransport.mem_forwarded.mp hport)
  have hforwards := mapM_guard (f := fun port : ℤ =>
    ["-L", s!"{t.bindAddress}:{port}:127.0.0.1:{port}"])
    (e := PyError.valueError "Invalid SSH forwarding port") hrange
  exact ⟨_, congrArg (· >>= _) hforwards⟩

/-- A regular file that is UTF-8 can be staged for a command that names it. -/
lemma exists_prepareCommand (t : SSHTransport) (file : HostFile) (remoteDir : String)
    (cmd : List String) (ports : List ℤ) {bytes : List ℕ} {text : Str}
    (hpresent : file.present = true)
    (hregular : file.isSymlink = false ∧ file.unreadable = false ∧ file.bytes = some bytes)
    (htext : decode bytes = some text) (hdir : Text.startsWith "/" remoteDir = true)
    (hnamed : cmd.any [file.path, file.resolved, file.name].contains = true)
    (hports : ∀ port ∈ ports, 1 ≤ port ∧ port ≤ 65535) :
    ∃ staged argv, t.prepareCommand file remoteDir cmd ports (.completed 0 "" "")
      = (some ⟨staged, universalNewlines text, 15⟩, .ok argv) := by
  obtain ⟨hlink, hreadable, hbytes⟩ := hregular
  have hread : file.readText = .ok (universalNewlines text) := by
    simp [HostFile.readText, hreadable, hbytes, htext]
  obtain ⟨staged, hstaged⟩ := exists_command t
    (stageCommand remoteDir (file.remotePath remoteDir)) [] (by simp)
  have hstage : t.stage file remoteDir (.completed 0 "" "")
      = (some ⟨staged, universalNewlines text, 15⟩, .ok (file.remotePath remoteDir)) := by
    simp [SSHTransport.stage, hpresent, hlink, hbytes, hdir, hread, hstaged, SSHTransport.run,
      bind, Except.bind, pure, Except.pure, Except.map]
  obtain ⟨argv, hargv⟩ := exists_command t (execCommand (cmd.map fun argument =>
    if [file.path, file.resolved, file.name].contains argument then file.remotePath remoteDir
    else argument)) ports hports
  refine ⟨staged, argv, ?_⟩
  rw [SSHTransport.prepareCommand, hstage]
  simp only [remoteKernelCommand, if_pos hnamed, bind, Except.bind, hargv]

/-- The letters of `ssh` that the transport uses. -/
def sampleLetters (letter : Char) : Option Bool :=
  if letter = 'T' then some false else if letter ∈ ['F', 'i', 'o', 'L'] then some true else .none

lemma sample_letters : SshLetters sampleLetters := ⟨rfl, rfl, rfl, rfl, rfl⟩

def guestTransport : SSHTransport :=
  ({} : RemoteSettings).transport "10.77.0.2" "/home/lab/known_hosts" "/home/lab/id_ed25519"

/-- Everything that a transport needs is there. -/
def sampleFiles : ClientFiles where
  isFile _ := true
  isSymlink _ := false
  isExecutable _ := true
  which _ := true
  readable _ := true

lemma sample_available : guestTransport.assertAvailable sampleLibrary sampleFiles "/usr/bin/scp"
    = .ok () :=
  rfl

/-- A connection file in a directory with a blank and a quote. -/
def sampleFile (bytes : Option (List ℕ)) : HostFile where
  path := "/tmp/o'clock/kernel 1.json"
  resolved := "/tmp/o'clock/kernel 1.json"
  present := true
  isSymlink := false
  bytes := bytes

/-- A quote in the name of the remote directory. -/
theorem remote_run_sample :
    ∃ staged argv kernelCommand, guestTransport.prepareCommand
      (sampleFile (some [])) "/tmp/o'clock/"
          ["python3", "-f", "/tmp/o'clock/kernel 1.json"] [30001, 30000] (.completed 0 "" "")
        = (some ⟨staged, [], 15⟩, .ok argv) ∧
      RunsRemotely sampleLetters staged "/usr/bin/ssh" "freebsd@10.77.0.2" []
        [guestCommand ["install", "-d", "-m", "700", "/tmp/o'clock/"],
          guestCommand ["cat"] (some "/tmp/o'clock/kernel 1.json"),
          guestCommand ["chmod", "600", "/tmp/o'clock/kernel 1.json"]] ∧
      RunsRemotely sampleLetters argv "/usr/bin/ssh" "freebsd@10.77.0.2"
        ((SSHTransport.forwarded [30001, 30000]).map tunnel)
        [guestCommand ("exec" :: kernelCommand)] ∧
      kernelCommand = ["python3", "-f", "/tmp/o'clock/kernel 1.json"] := by
  obtain ⟨staged, argv, h⟩ := exists_prepareCommand guestTransport (sampleFile (some []))
    "/tmp/o'clock/" ["python3", "-f", "/tmp/o'clock/kernel 1.json"] [30001, 30000] rfl
    ⟨rfl, rfl, rfl⟩ rfl rfl (by decide) (by decide)
  obtain ⟨staged', content, kernelCommand, hcall, -, hstage, hrun, -, hwords⟩ :=
    remote_run sample_letters rfl sample_available h
  obtain ⟨rfl, -⟩ : staged = staged' ∧ universalNewlines [] = content := by
    simpa using hcall
  exact ⟨staged, argv, kernelCommand, h, hstage, hrun, hwords.trans (by decide)⟩

/-! ## The connection -/

/-- Text without carriage returns is read as it is. -/
lemma universalNewlines_of_printed {text : Str} (h : Printed text) :
    universalNewlines text = text := by
  induction text using universalNewlines.induct with
  | case1 text ih => exact absurd (h 13 (by simp)) (by omega)
  | case2 text _ ih => exact absurd (h 13 (by simp)) (by omega)
  | case3 c text h1 h2 ih =>
      rw [universalNewlines, ih fun d hd => h d (List.mem_cons_of_mem c hd)]
      all_goals assumption
  | case4 => rfl

/-- The text of a document that was written. -/
lemma decode_documentBytes {items : List (Str × Value)} {bytes : List ℕ}
    (h : documentBytes items = .ok bytes) : ∃ text, decode bytes = some text ∧ Printed text := by
  rw [documentBytes] at h
  cases htext : dumpsIndent 0 (.dict items) with
  | error e => cases e <;> simp [htext] at h
  | ok text =>
      cases hencode : encode (text ++ [10]) with
      | none => simp [htext, hencode] at h
      | some written =>
          obtain rfl : written = bytes := by simpa [htext, hencode] using h
          exact ⟨text ++ [10], decode_encode hencode,
            printed_append.mpr ⟨printed_dumpsIndent _ 0 htext, by simp [Printed]⟩⟩

/-- What `rewrite_connection_file` leaves when it returns. -/
lemma rewrite_eq_ok {fault : FileStep → Bool} {py : PythonLibrary} {ports : List ℤ}
    {k k' : KernelConnection} {result : Rewritten}
    (h : rewriteConnectionFile fault py "127.0.0.1" (some (.iterable (ports.map .int))) k
      = (.ok result, k')) :
    ValidPorts ports ∧ result.tunnelPorts = ports ∧ ∃ items bytes, k'.directory.file = some bytes ∧
      (decode bytes).bind loads = some (.dict items)
      ∧ (∃ text, decode bytes = some text ∧ Printed text) ∧
      lookup items (str "ip") = some (.str (str "127.0.0.1")) ∧ PortFields (lookup items) ports ∧
      k'.parent.Carries (str "127.0.0.1") ports := by
  rcases rewrite_cases fault py "127.0.0.1" (some (.iterable (ports.map .int))) k with
    ⟨e, herror, -⟩ | ⟨items, originalPorts, tunnelPorts, haccepted⟩
  · rw [herror] at h
    cases h
  obtain ⟨hvalid, rfl⟩ : ValidPorts tunnelPorts ∧ tunnelPorts = ports := by
    rcases haccepted.tunnel with ⟨hnone, -⟩ | ⟨hvalid, hsome⟩
    · cases hnone
    · rw [Option.some.injEq, PortSequence.iterable.injEq] at hsome
      exact ⟨hvalid, (List.map_injective_iff.mpr (fun _ _ => Value.int.inj) hsome).symm⟩
  obtain ⟨bytes, hbytes, hdocument⟩ := documentBytes_of_readable (readable_rewritten haccepted)
  obtain ⟨hip, hfields, -⟩ := lookup_setAll (str "127.0.0.1") items hvalid
  obtain ⟨hcarries, -⟩ := value_setAll k.parent (str "127.0.0.1") hvalid
  rw [rewrite_of_accepted haccepted] at h
  cases hreplace : replaceFile fault k.directory.remoteTmp
      (rewrittenItems "127.0.0.1" items tunnelPorts) with
  | mk written remoteTmp =>
      cases written with
      | error e => simp [hreplace] at h
      | ok written =>
          have hwrites := replaceFile_of_writes hbytes (writes_of_replaceFile hreplace)
          obtain rfl : written = bytes := by
            rw [hreplace, Prod.mk.injEq, Except.ok.injEq] at hwrites
            exact hwrites.1
          simp only [hreplace, Prod.mk.injEq, Except.ok.injEq] at h
          obtain ⟨rfl, rfl⟩ := h
          exact ⟨hvalid, rfl, _, written, rfl, hdocument, decode_documentBytes hbytes, hip, hfields,
            hcarries⟩

/-- **The ends of the tunnel meet.**  Where `pre_launch` goes through, the kernel manager, the
connection file of the host and the one that the guest gets carry the same five ports of the
loopback, and `ssh` connects each of them, and nothing else, with the same port of the guest. -/
theorem tunnel_ends_meet {letters : Char → Option Bool} (hletters : SshLetters letters)
    {py : PythonLibrary} {files : ClientFiles} {scpCommand : String} {t : SSHTransport}
    {fault : FileStep → Bool} {ports : List ℤ} {k k' : KernelConnection} {result : Rewritten}
    {file : HostFile} {remoteDir : String} {cmd : List String} {outcome : ProbeOutcome}
    {call : Option StageCall} {argv : List String} (hbind : t.bindAddress = "127.0.0.1")
    (havailable : t.assertAvailable py files scpCommand = .ok ())
    (hrewrite : rewriteConnectionFile fault py "127.0.0.1" (some (.iterable (ports.map .int))) k
      = (.ok result, k'))
    (hfile : file.bytes = k'.directory.file)
    (h : t.prepareCommand file remoteDir cmd result.tunnelPorts outcome = (call, .ok argv)) :
    ∃ items staged content forwards commands,
      k'.document = some (.dict items) ∧ k'.parent.Carries (str "127.0.0.1") ports ∧
      call = some ⟨staged, content, 15⟩ ∧ loads content = some (.dict items) ∧
      lookup items (str "ip") = some (.str (str "127.0.0.1")) ∧ PortFields (lookup items) ports ∧
      RunsRemotely letters argv t.sshCommand t.target forwards commands ∧ forwards.length = 5 ∧
      ∀ forward, forward ∈ forwards ↔ ∃ port ∈ ports, forward = tunnel port := by
  obtain ⟨hvalid, hports, items, bytes, hbytes, hdocument, ⟨text, hdecode, hprinted⟩, hip, hfields,
    hcarries⟩ := rewrite_eq_ok hrewrite
  obtain ⟨staged, content, kernelCommand, hcall, hcontent, -, hargv, hmem, -⟩ :=
    prepareCommand_eq_ok h
  have htarget := SSHTransport.target_of_assertAvailable havailable
  obtain ⟨arguments, hprogram, hreads⟩ :=
    SSHTransport.sshReads_command hletters hbind htarget (execCommand_head _) hargv
  have hcontent' : content = text := by
    rw [HostFile.readText, hfile, hbytes] at hcontent
    split_ifs at hcontent
    simp only [Option.bind_some, hdecode, universalNewlines_of_printed hprinted, Except.ok.injEq]
      at hcontent
    exact hcontent.symm
  subst hcontent'
  refine ⟨items, staged, content, _, _, ?_, hcarries, hcall, ?_, hip, hfields,
    ⟨arguments, _, hprogram, hreads, script_execCommand (List.ne_nil_of_mem hmem)⟩, ?_, ?_⟩
  · rw [KernelConnection.document, hbytes]
    exact hdocument
  · simpa [hdecode] using hdocument
  · rw [hports, List.length_map, SSHTransport.forwarded, List.length_mergeSort,
      hvalid.nodup.dedup, hvalid.length_eq]
  · intro forward
    simp only [List.mem_map, SSHTransport.mem_forwarded, hports, eq_comm]

/-- The sample goes through the tunnel. -/
theorem tunnel_ends_meet_sample :
    ∃ k' argv items staged content forwards commands,
      rewriteConnectionFile noFault sampleLibrary "127.0.0.1"
          (some (.iterable ([11, 12, 13, 14, 15].map .int))) sampleConnection
        = (.ok ⟨str "10.0.0.1", [1, 2, 3, 4, 5], [11, 12, 13, 14, 15]⟩, k') ∧
      guestTransport.prepareCommand (sampleFile k'.directory.file) "/tmp"
          ["python3", "-f", "/tmp/o'clock/kernel 1.json"] [11, 12, 13, 14, 15] (.completed 0 "" "")
        = (some ⟨staged, content, 15⟩, .ok argv) ∧
      loads content = some (.dict items) ∧ PortFields (lookup items) [11, 12, 13, 14, 15] ∧
      RunsRemotely sampleLetters argv "/usr/bin/ssh" "freebsd@10.77.0.2" forwards commands ∧
      ∀ forward, forward ∈ forwards ↔ ∃ port ∈ [11, 12, 13, 14, 15], forward = tunnel port := by
  have hvalid : ValidPorts [11, 12, 13, 14, 15] := ⟨rfl, by decide, by decide⟩
  have hconnection : JupyterConnection sampleConnection sampleItems (str "10.0.0.1")
    [1, 2, 3, 4, 5] :=
    ⟨sample_opens (by decide), rfl, sample_ports⟩
  obtain ⟨bytes, hdocument, hrewrite⟩ := rewrite_to_tunnel sampleLibrary hconnection hvalid
  obtain ⟨text, hdecode, -⟩ := Option.bind_eq_some_iff.mp hdocument
  have hnamed : ["python3", "-f", "/tmp/o'clock/kernel 1.json"].any [(sampleFile (some bytes)).path,
      (sampleFile (some bytes)).resolved, (sampleFile (some bytes)).name].contains = true :=
    List.any_eq_true.mpr ⟨"/tmp/o'clock/kernel 1.json", by simp, by simp [sampleFile]⟩
  obtain ⟨staged, argv, h⟩ := exists_prepareCommand guestTransport (sampleFile (some bytes)) "/tmp"
    ["python3", "-f", "/tmp/o'clock/kernel 1.json"] [11, 12, 13, 14, 15] rfl ⟨rfl, rfl, rfl⟩ hdecode
    rfl hnamed (by decide)
  obtain ⟨items, staged', content, forwards, commands, -, -, hcall, hloads, -, hfields, hrun, -,
    hforwards⟩ := tunnel_ends_meet sample_letters rfl sample_available hrewrite rfl h
  obtain ⟨rfl, rfl⟩ : staged = staged' ∧ universalNewlines text = content := by
    simpa using hcall
  exact ⟨_, argv, items, staged, _, forwards, commands, hrewrite, h, hloads, hfields,
    hrun, hforwards⟩

end FreebsdLaboratory
