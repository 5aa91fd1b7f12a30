import FreebsdLaboratory.Model.CommandText
import FreebsdLaboratory.Model.RuntimeManager

/-!
# Garbage collection

`_registered`, the discovery functions and `gc`: stale registered runtimes first, then jails, VMs
and datasets that carry a runtime's name but are not registered, then members of the bridge that no
record names, then leases without a registered owner.  The registry is read anew before each phase.
-/

namespace FreebsdLaboratory

open Library Program

/-- The loop of `_registered` over the names in the directory. -/
def registeredLoop : List String → Program (List (String × RuntimeRecord))
  | [] => pure []
  | name :: names => do
      if isRuntimeName name then
        match ← loadRegistry name with
        | some record => return (name, record) :: (← registeredLoop names)
        | none => registeredLoop names
      else registeredLoop names

/-- `_registered`. -/
def registered : Program (List (String × RuntimeRecord)) := do
  registeredLoop (← op .registryNames)

/-! ## Discovery -/

/-- `name=(?:"([^"]+)"|(\S+))` at the start of the text: the name and the rest. -/
def matchNameField (cs : List Char) : Option (List Char × List Char) :=
  if "name=".toList.isPrefixOf cs then
    let value := cs.drop 5
    let bare := value.takeWhile (!Text.isSpace ·)
    let bareMatch := if bare = [] then none else some (bare, value.drop bare.length)
    match value with
    | '"' :: quoted =>
        let inside := quoted.takeWhile (· ≠ '"')
        match quoted.drop inside.length with
        | '"' :: rest => if inside = [] then bareMatch else some (inside, rest)
        | _ => bareMatch
    | _ => bareMatch
  else none

/-- `re.finditer` for `(?:^|\s)name=(?:"([^"]+)"|(\S+))`: the names, left to right. -/
def nameFields : ℕ → (start : Bool) → List Char → List String
  | 0, _, _ => []
  | _, _, [] => []
  | fuel + 1, start, c :: cs =>
      let here := if start then matchNameField (c :: cs) else none
      match here <|> (if Text.isSpace c then matchNameField cs else none) with
      | some (name, rest) => String.ofList name :: nameFields fuel false rest
      | none => nameFields fuel false cs

/-- `_discover_jails`. -/
def discoverJails : Program (List String) := do
  let result ← run .jlsAll false
  if result.returncode ≠ 0 then pure []
  else pure ((nameFields (result.stdout.length + 1) true result.stdout.toList).filter isRuntimeName)

/-- `_discover_vms`. -/
def discoverVms : Program (List String) := do
  if ← op .vmAvailable then
    let result ← run .vmList false
    if result.returncode ≠ 0 then pure []
    else pure (((Text.splitLines result.stdout).filterMap fun line =>
      (Text.split line).head?).filter isRuntimeName)
  else pure []

/-- `_discover_datasets`. -/
def discoverDatasets (m : RuntimeManager) : Program (List String) := do
  let result ← run .zfsListChildren false
  if result.returncode ≠ 0 then pure []
  else
    let stem := Text.rstripChar '/' m.config.jailDatasetParent ++ "/" ++ RUNTIME_PREFIX
    pure (((Text.splitLines result.stdout).map Text.strip).filter (Text.startsWith stem))

/-- `\w` of one character, as far as interface names go. -/
def isWordChar (c : Char) : Bool := c.isAlphanum || c == '_' || Text.isDigit c

/-- `member:\s+(epair\d+a)\b` at the start of the text: the interface and the rest. -/
def matchMember (cs : List Char) : Option (List Char × List Char) :=
  if "member:".toList.isPrefixOf cs then
    let gap := (cs.drop 7).takeWhile Text.isSpace
    let value := (cs.drop 7).drop gap.length
    let digits := (value.drop 5).takeWhile Text.isDigit
    let rest := value.drop (5 + digits.length)
    if gap ≠ [] ∧ "epair".toList.isPrefixOf value ∧ digits ≠ [] ∧ rest.head? = some 'a'
        ∧ rest.tail.head?.all (!isWordChar ·) then
      some (value.take (5 + digits.length + 1), rest.tail)
    else none
  else none

/-- `re.finditer` for `member:\s+(epair\d+a)\b`. -/
def memberFields : ℕ → List Char → List String
  | 0, _ => []
  | _, [] => []
  | fuel + 1, c :: cs =>
      match matchMember (c :: cs) with
      | some (interface, rest) => String.ofList interface :: memberFields fuel rest
      | none => memberFields fuel cs

/-- `_bridge_epairs`. -/
def bridgeEpairs : Program (List String) := do
  let result ← run .ifconfigBridge false
  if result.returncode ≠ 0 then pure []
  else pure (memberFields (result.stdout.length + 1) result.stdout.toList)

/-! ## Collection -/

/-- `sorted(set(names))`. -/
def sortedSet (names : List String) : List String := names.dedup.insertionSort (· ≤ ·)

/-- The accumulators of `gc`. -/
structure GcState where
  retained : List String := []
  cleaned : List String := []
  errors : List (String × String) := []

/-- What `gc` returns. -/
structure GcReport where
  cleaned : List String
  retained : List String
  removedEpairs : List String
  releasedAddresses : List String
  errors : List (String × String)
  staleOnly : Bool
  deriving DecidableEq

/-- The loop over the registered runtimes. -/
def gcRegistered (m : RuntimeManager) (staleOnly : Bool) (requesterUid : ℕ) :
    List (String × RuntimeRecord) → GcState → Program GcState
  | [], st => pure st
  | (name, record) :: records, st => do
      if requesterUid ≠ 0 ∧ record.ownerUid.eqInt requesterUid = false then
        gcRegistered m staleOnly requesterUid records { st with retained := name :: st.retained }
      else
        let alive ← ownerAlive record
        if staleOnly && alive then
          gcRegistered m staleOnly requesterUid records { st with retained := name :: st.retained }
        else
          let st ← Prog.tryCatch
            (do
              let _ ← destroy m name (some requesterUid) (requesterUid = 0)
              pure { st with cleaned := st.cleaned ++ [name] })
            fun error => pure
              { st with
                retained := name :: st.retained
                errors := st.errors ++ [(name, error.text m)] }
          gcRegistered m staleOnly requesterUid records st

/-- The loop over the discovered names nothing accounts for. -/
def gcDiscovered (m : RuntimeManager) : List String → GcState → Program GcState
  | [], st => pure st
  | name :: names, st => do
      let st ← Prog.tryCatch
        (do
          let _ ← destroy m name none true
          pure { st with cleaned := st.cleaned ++ [name] })
        fun error => pure { st with errors := st.errors ++ [(name, error.text m)] }
      gcDiscovered m names st

/-- The loop over the members of the bridge no record names. -/
def gcEpairs : List String → Program (List String)
  | [] => pure []
  | interface :: interfaces => do
      let removed ← succeeds (.ifconfigDestroy interface)
      let others ← gcEpairs interfaces
      return if removed then interface :: others else others

/-- `arp -d` for every released address. -/
def forgetAddresses (addresses : List String) : Program Unit :=
  Prog.forEach addresses fun address => do
    let _ ← run (.arpDelete address) false

/-- The host side of the epair a record names. -/
def referencedEpair (record : RuntimeRecord) : Option String :=
  if record.epairHost.truthy then record.epairHost.asStr else none

/-- The root-only phases: orphans, then epairs.  Returns the removed epairs. -/
def gcOrphans (m : RuntimeManager) (st : GcState) : Program (GcState × List String) := do
  let jails ← discoverJails
  let vms ← discoverVms
  let datasets ← discoverDatasets m
  let discovered := jails ++ vms ++ datasets.map (Text.afterLast '/')
  let st ← gcDiscovered m (sortedSet (discovered.filter (· ∉ st.retained))) st
  let records ← registered
  let referenced := records.filterMap fun (_, record) => referencedEpair record
  let members ← bridgeEpairs
  let removed ← gcEpairs (sortedSet (members.filter (· ∉ referenced)))
  pure (st, removed)

/-- `gc` inside the shared lock. -/
def gcBody (m : RuntimeManager) (staleOnly : Bool) (requesterUid : ℕ) : Program GcReport := do
  let records ← registered
  let st ← gcRegistered m staleOnly requesterUid records {}
  let registeredAfter ← registered
  let st := { st with retained := registeredAfter.map Prod.fst ++ st.retained }
  let (st, removedEpairs) ← (if requesterUid = 0 then gcOrphans m st else pure (st, []))
  let activeOwners := (← registered).map Prod.fst
  let releasedAddresses ←
    (if requesterUid = 0 then (do ofExcept (← op (.leaseClearOrphans activeOwners))) else pure [])
  forgetAddresses releasedAddresses
  pure
    { cleaned := sortedSet st.cleaned
      retained := sortedSet activeOwners
      removedEpairs := removedEpairs
      releasedAddresses := releasedAddresses
      errors := st.errors
      staleOnly := staleOnly }

/-- `gc`. -/
def gc (m : RuntimeManager) (staleOnly : Bool) (requesterUid : ℕ) : Program GcReport :=
  withLock .shared (gcBody m staleOnly requesterUid)

end FreebsdLaboratory
