import FreebsdLaboratory.Properties.RemoteConnection

/-!
# Moving a connection back

What `restore_connection_file` does for a launch that has failed.  Where nothing was moved it
changes nothing (`restore_nothing`).  Where the connection was moved it puts back the kernel
manager, and the file if it can be written (`restore_onTunnel`).
-/

namespace FreebsdLaboratory

open Library Library.Json Library.Unicode
open Library.Json.Value (lookup insertItem)

/-- The kernel manager is as it was, and the connection file says what it said. -/
structure KernelConnection.Same (k k' : KernelConnection) : Prop where
  parent : k'.parent = k.parent
  document : k'.document = k.document

lemma KernelConnection.Same.trans {k k' k'' : KernelConnection} (h : k.Same k') (h' : k'.Same k'') :
    k.Same k'' :=
  ⟨h'.parent.trans h.parent, h'.document.trans h.document⟩

/-- `restore_connection_file` raises. -/
def RestoreRaises (fault : FileStep → Bool) (k : KernelConnection) : Prop :=
  (∃ path, k.parent.connectionFile = some path ∧ path ≠ "") ∧
    (fault .isSymlink = true ∨
      k.directory.isLink = false ∧ (fault .resolve = true ∨ fault .isFile = true))

/-- The file says already what is to be restored. -/
def KernelConnection.Says (k : KernelConnection) (ip : Str) (ports : List ℤ) : Prop :=
  ∃ items, k.document = some (.dict items) ∧ lookup items (str "ip") = some (.str ip) ∧
    PortFields (lookup items) ports

/-- The kernel manager and the file have been moved to the tunnel from `k₀`, where they carried `ip`
and `ports`. -/
structure KernelConnection.OnTunnel (k₀ k : KernelConnection) (ip : Str) (ports : List ℤ)
    (items : List (Str × Value)) (tunnelPorts : List ℤ) : Prop where
  tunnel : ValidPorts tunnelPorts
  original : k₀.document = some (.dict items)
  lookup_ip : lookup items (str "ip") = some (.str ip)
  lookup_ports : ValidPorts ports ∧ PortFields (lookup items) ports
  carried : k₀.parent.Carries ip ports
  parent : k.parent = rewrittenParent "127.0.0.1" k₀.parent tunnelPorts
  document : k.document = some (.dict (rewrittenItems "127.0.0.1" items tunnelPorts))
  path : ∃ path, k.parent.connectionFile = some path ∧ path ≠ ""
  no_link : k.directory.isLink = false

section Connection

variable {fault : FileStep → Bool} {k k' k₀ : KernelConnection} {ip : Str}
    {ports tunnelPorts : List ℤ}
variable {items : List (Str × Value)} {py : PythonLibrary}

lemma setPorts_nil (items : List (Str × Value)) : setPorts [] items = items := by
  rw [setPorts, List.zip_nil_right]
  rfl

/-- The bytes that are put in place are those of the document. -/
lemma documentBytes_of_replaceFile {temporary temporary' : TemporaryFile} {bytes : List ℕ}
    (hreadable : (Value.dict items).Readable)
    (h : replaceFile fault temporary items = (.ok bytes, temporary')) :
    (decode bytes).bind loads = some (.dict items) := by
  obtain ⟨written, hwritten, hloads⟩ := documentBytes_of_readable hreadable
  rw [replaceFile_of_writes hwritten (writes_of_replaceFile h)] at h
  obtain rfl := Except.ok.inj (Prod.mk.inj h).1
  exact hloads

/-- Restoring nothing changes nothing. -/
lemma restore_nothing (fault : FileStep → Bool) (k : KernelConnection) :
    k.Same (restoreConnectionFile fault none [] k).2 := by
  have hparent : Parent.setPorts [] k.parent = k.parent := by
    rw [Parent.setPorts, List.zip_nil_right]
    rfl
  simp only [restoreConnectionFile, if_true, hparent, setPorts_nil]
  have hsame : ∀ file restoreTmp, file = k.directory.file →
      k.Same { parent := k.parent, directory := { k.directory with file, restoreTmp } } := by
    rintro _ restoreTmp rfl
    exact ⟨rfl, rfl⟩
  cases hpath : k.parent.connectionFile with
  | none => exact ⟨rfl, rfl⟩
  | some path =>
      cases hfile : k.directory.file with
      | none =>
          dsimp only
          split_ifs <;> exact ⟨rfl, rfl⟩
      | some bytes =>
          dsimp only
          cases hdocument : (decode bytes).bind loads with
          | none =>
              dsimp only
              split_ifs <;> exact ⟨rfl, rfl⟩
          | some document =>
              have hreadable := readable_of_document hdocument
              cases document with
              | dict items =>
                  dsimp only
                  cases hreplace : replaceFile fault k.directory.restoreTmp items with
                  | mk result restoreTmp =>
                      cases result with
                      | error e =>
                          dsimp only
                          split_ifs
                          all_goals first | exact ⟨rfl, rfl⟩ | exact hsame _ _ hfile.symm
                      | ok written =>
                          have hwritten := documentBytes_of_replaceFile hreadable hreplace
                          dsimp only
                          split_ifs
                          iterate 5 exact ⟨rfl, rfl⟩
                          refine ⟨rfl, ?_⟩
                          simp only [KernelConnection.document, hfile, Option.bind_some, hdocument,
                            hwritten]
              | _ =>
                  dsimp only
                  split_ifs <;> exact ⟨rfl, rfl⟩

lemma restore_nothing_ok (h : ¬ RestoreRaises fault k) :
    (restoreConnectionFile fault none [] k).1 = .ok () := by
  have hparent : Parent.setPorts [] k.parent = k.parent := by
    rw [Parent.setPorts, List.zip_nil_right]
    rfl
  simp only [restoreConnectionFile, if_true, hparent, setPorts_nil]
  have hno : ∀ path, k.parent.connectionFile = some path → path ≠ "" →
      fault .isSymlink ≠ true ∧
        (k.directory.isLink ≠ true → ¬ (fault .resolve = true ∨ fault .isFile = true)) := by
    intro path hpath hne
    refine ⟨fun hlink => h ⟨⟨path, hpath, hne⟩, .inl hlink⟩, fun hlink hfile => ?_⟩
    exact h ⟨⟨path, hpath, hne⟩, .inr ⟨by simpa using hlink, hfile⟩⟩
  cases hpath : k.parent.connectionFile with
  | none => rfl
  | some path =>
      by_cases hne : path = ""
      · simp only [hne, if_true]
      · obtain ⟨hsymlink, hfiles⟩ := hno path hpath hne
        by_cases hlink : k.directory.isLink = true
        · simp only [hne, hsymlink, hlink, Bool.false_eq_true, if_true, if_false]
        · simp only [hne, hsymlink, hlink, hfiles hlink, Bool.false_eq_true, if_false]
          cases k.directory.file with
          | none => rfl
          | some bytes =>
              dsimp only
              split_ifs
              · rfl
              · cases (decode bytes).bind loads with
                | none => rfl
                | some document =>
                    cases document with
                    | dict items =>
                        dsimp only
                        cases replaceFile fault k.directory.restoreTmp items with
                        | mk result restoreTmp => cases result <;> rfl
                    | _ => rfl

/-- The kernel manager with its own address and ports again. -/
lemma restoredParent (htunnel : ValidPorts tunnelPorts) (hports : ValidPorts ports)
    (hcarries : k₀.parent.Carries ip ports) :
    ((rewrittenParent "127.0.0.1" k₀.parent tunnelPorts).setattr (str "ip") (.str ip)).setPorts
    ports
      = k₀.parent := by
  obtain ⟨hset, hothers⟩ :=
    value_setAll (rewrittenParent "127.0.0.1" k₀.parent tunnelPorts) ip hports
  have hothers' := (value_setAll k₀.parent (str "127.0.0.1") htunnel).2
  have hvalue : (((rewrittenParent "127.0.0.1" k₀.parent tunnelPorts).setattr (str "ip")
      (.str ip)).setPorts ports).value = k₀.parent.value := by
    funext name
    by_cases hname : name ∈ portKeys
    · exact hset.2.eq_on hcarries.2 hname
    · by_cases hip : name = str "ip"
      · subst hip
        exact hset.1.trans hcarries.1.symm
      · exact (hothers name hname hip).trans (hothers' name hname hip)
  have hfile : (((rewrittenParent "127.0.0.1" k₀.parent tunnelPorts).setattr (str "ip")
      (.str ip)).setPorts ports).connectionFile = k₀.parent.connectionFile := by
    rw [connectionFile_setPorts]
    exact connectionFile_setPorts _ _
  calc _ = (⟨k₀.parent.connectionFile, k₀.parent.value⟩ : Parent) := by rw [← hvalue, ← hfile]
    _ = k₀.parent := rfl

/-- A document that was moved to the tunnel and says what it said is the original. -/
lemma rewrittenItems_eq (hnodup : (items.map Prod.fst).Nodup) (htunnel : ValidPorts tunnelPorts)
    (hip : lookup items (str "ip") = some (.str ip)) (hports : PortFields (lookup items) ports)
    (hunchanged : lookup (rewrittenItems "127.0.0.1" items tunnelPorts) (str "ip")
      = some (.str ip) ∧
      PortFields (lookup (rewrittenItems "127.0.0.1" items tunnelPorts)) ports) :
    rewrittenItems "127.0.0.1" items tunnelPorts = items := by
  have hkeys := keys_setAll (str "127.0.0.1") htunnel (mem_keys_of_lookup hip)
    fun key hkey => hports.mem_keys hkey
  refine items_ext hkeys (by rw [rewrittenItems, hkeys]; exact hnodup) ?_
  intro key
  by_cases hkey : key ∈ portKeys
  · exact hunchanged.2.eq_on hports hkey
  · by_cases hne : key = str "ip"
    · subst hne
      exact hunchanged.1.trans hip.symm
    · exact (lookup_setAll (str "127.0.0.1") items htunnel).2.2 key hkey hne

/-- **From the tunnel back**: the kernel manager and the file are as they were, if the file can be
written or says so already. -/
lemma restore_onTunnel (h : k₀.OnTunnel k ip ports items tunnelPorts)
    (hraises : ¬ RestoreRaises fault k)
    (hwrites : fault .readText = false ∧ Writes fault k.directory.restoreTmp ∨ k.Says ip ports) :
    ∃ k', restoreConnectionFile fault (some ip) (ports.map .int) k = (.ok (), k') ∧ k₀.Same k' := by
  obtain ⟨path, hpath, hne⟩ := h.path
  obtain ⟨bytes, hfile, hdocument⟩ := Option.bind_eq_some_iff.mp h.document
  obtain ⟨original, -, horiginal⟩ := Option.bind_eq_some_iff.mp h.original
  have hreadable := readable_of_document horiginal
  have hitems : setPorts ports (insertItem (str "ip") (.str ip)
      (rewrittenItems "127.0.0.1" items tunnelPorts)) = items :=
    setAll_setAll (str "127.0.0.1") hreadable.1 h.lookup_ip h.lookup_ports h.tunnel
  have hvalid : validatePortSequence (.iterable (ports.map .int)) = .ok ports :=
    validatePortSequence_eq_ok.mpr ⟨h.lookup_ports.1, rfl⟩
  have hnonempty : ports.map Value.int ≠ [] := by
    intro hnil
    have hlength := congrArg List.length hnil
    rw [List.length_map, h.lookup_ports.1.length_eq] at hlength
    cases hlength
  have hparent : (k.parent.setattr (str "ip") (.str ip)).setPorts ports = k₀.parent := by
    rw [h.parent]
    exact restoredParent h.tunnel h.lookup_ports.1 h.carried
  have hpath₀ : k₀.parent.connectionFile = some path := by
    have hfile : (rewrittenParent "127.0.0.1" k₀.parent tunnelPorts).connectionFile
        = k₀.parent.connectionFile := connectionFile_setPorts _ _
    rw [← hpath, h.parent, hfile]
  have hfaults : fault .isSymlink = false ∧ fault .resolve = false ∧ fault .isFile = false := by
    refine ⟨?_, ?_, ?_⟩ <;> rw [← Bool.not_eq_true] <;> intro hfault
    · exact hraises ⟨h.path, .inl hfault⟩
    · exact hraises ⟨h.path, .inr ⟨h.no_link, .inl hfault⟩⟩
    · exact hraises ⟨h.path, .inr ⟨h.no_link, .inr hfault⟩⟩
  -- the file as it is already says what it said
  have hunchanged : ∀ directory, directory.file = some bytes →
      ¬ (fault .readText = false ∧ Writes fault k.directory.restoreTmp) →
      k₀.Same { parent := k₀.parent, directory := directory } := by
    intro directory hbytes hfails
    obtain ⟨items', hitems', hsaid⟩ := hwrites.resolve_left hfails
    obtain rfl : rewrittenItems "127.0.0.1" items tunnelPorts = items' := by
      have hsome := h.document.symm.trans hitems'
      rwa [Option.some.injEq, Value.dict.injEq] at hsome
    refine ⟨rfl, ?_⟩
    rw [h.original, ← rewrittenItems_eq hreadable.1 h.tunnel h.lookup_ip h.lookup_ports.2 hsaid,
      KernelConnection.document, hbytes]
    exact hdocument
  simp only [restoreConnectionFile, hnonempty, if_false, hvalid, hparent, hpath₀, hne, hfaults.1,
    hfaults.2.1, hfaults.2.2, h.no_link, Bool.false_eq_true, or_self, hfile, hdocument, hitems]
  split_ifs with hread
  · exact ⟨_, rfl, hunchanged _ hfile fun hok => by rw [hok.1] at hread; cases hread⟩
  · cases hreplace : replaceFile fault k.directory.restoreTmp items with
    | mk result restoreTmp =>
        cases result with
        | error e =>
            refine ⟨_, rfl, hunchanged _ rfl fun hok => ?_⟩
            obtain ⟨written, hwritten, -⟩ := documentBytes_of_readable hreadable
            rw [replaceFile_of_writes hwritten hok.2] at hreplace
            cases hreplace
        | ok written =>
            refine ⟨_, rfl, rfl, ?_⟩
            rw [h.original]
            exact documentBytes_of_replaceFile hreadable hreplace

end Connection

end FreebsdLaboratory
