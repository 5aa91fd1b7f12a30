import FreebsdLaboratory.Model.RemoteConnection

/-!
# Moving a connection to the tunnel and back

**The round trip.**  `rewrite_connection_file` and `restore_connection_file` set the same six fields
in the document and in the kernel manager.  The six keys are in the document already, so setting
them changes no key and no order, and what is set back is the document itself (`items_ext`).

**Failures.**  `rewrite_connection_file` sets the fields of the kernel manager before it writes the
file.  `rewrite_unchanged_iff` says when a failure leaves no trace: it comes before that, or there
was nothing to change.
-/

namespace FreebsdLaboratory

open Library Library.Json Library.Unicode
open Library.Json.Value (lookup insertItem)

/-! ## Items of a document -/

/-- A document that has the key keeps its keys. -/
lemma insertItem_keys_of_mem {items : List (Str × Value)} {k : Str} {v : Value}
    (h : k ∈ items.map Prod.fst) : (insertItem k v items).map Prod.fst = items.map Prod.fst := by
  rw [insertItem_keys, if_pos h]

/-- Keys and values side by side. -/
lemma map_lookup_zip {α : Type} {ks : List Str} {vs : List α} (hnodup : ks.Nodup)
    (hlength : ks.length = vs.length) : ks.map (fun key => (ks.zip vs).lookup key)
    = vs.map some := by
  induction ks generalizing vs with
  | nil =>
      obtain rfl := List.length_eq_zero_iff.mp hlength.symm
      rfl
  | cons k ks ih =>
      cases vs with
      | nil => cases hlength
      | cons v vs =>
          rw [List.nodup_cons] at hnodup
          have htail : ks.map (fun key => ((k, v) :: ks.zip vs).lookup key)
              = ks.map (fun key => (ks.zip vs).lookup key) := by
            refine List.map_congr_left ?_
            intro key hkey
            have hbeq : (key == k) = false := by
              rw [beq_eq_false_iff_ne]
              rintro rfl
              exact hnodup.1 hkey
            rw [List.lookup_cons, hbeq]
          rw [List.zip_cons_cons, List.map_cons, List.map_cons, htail,
            ih hnodup.2 (by simpa using hlength), List.lookup_cons, BEq.rfl]

/-! ## The ports -/

lemma nodup_portKeys : portKeys.Nodup := by decide

lemma ip_notMem_portKeys : str "ip" ∉ portKeys := by decide

/-- Five distinct ports. -/
structure ValidPorts (ports : List ℤ) : Prop where
  length_eq : ports.length = 5
  nodup : ports.Nodup
  range : ∀ port ∈ ports, 1 ≤ port ∧ port ≤ 65535

/-- The ports under the keys of the port fields. -/
def PortFields (value : Str → Option Value) (ports : List ℤ) : Prop :=
  portKeys.map value = ports.map fun port => some (.int port)

lemma connectionPort_eq_ok {items : List (Str × Value)} {field : String} {port : ℤ} :
    connectionPort items field = .ok port
      ↔ lookup items (str field) = some (.int port) ∧ 1 ≤ port ∧ port ≤ 65535 := by
  unfold connectionPort
  split
  · next value heq =>
      rw [heq]
      split_ifs with hrange
      · rw [Except.ok.injEq, Option.some.injEq, Value.int.injEq]
        constructor
        · rintro rfl
          exact ⟨rfl, hrange⟩
        · exact And.left
      · simp only [Option.some.injEq, Value.int.injEq, false_iff]
        rintro ⟨rfl, h⟩
        exact hrange h
  · next hne =>
      simp only [reduceCtorEq, false_iff]
      rintro ⟨h, -⟩
      exact hne port h

/-- The loop of `connection_ports`. -/
lemma mapM_connectionPort {items : List (Str × Value)} {fields : List String} {ports : List ℤ} :
    fields.mapM (connectionPort items) = .ok ports
      ↔ (fields.map str).map (lookup items) = ports.map (fun port => some (.int port))
        ∧ ∀ port ∈ ports, 1 ≤ port ∧ port ≤ 65535 := by
  induction fields generalizing ports with
  | nil => cases ports <;> simp [pure, Except.pure]
  | cons field fields ih =>
      constructor
      · intro h
        rw [List.mapM_cons] at h
        cases hport : connectionPort items field with
        | error e => simp [hport, bind, Except.bind] at h
        | ok port =>
            cases hports : fields.mapM (connectionPort items) with
            | error e => simp [hport, hports, bind, Except.bind] at h
            | ok ports' =>
                obtain rfl : port :: ports' = ports := by
                  simpa [hport, hports, bind, Except.bind, pure, Except.pure] using h
                obtain ⟨hlookup, hrange⟩ := connectionPort_eq_ok.mp hport
                obtain ⟨hmap, hall⟩ := ih.mp hports
                exact ⟨by simp only [List.map_cons, hlookup, hmap],
                  List.forall_mem_cons.mpr ⟨hrange, hall⟩⟩
      · rintro ⟨hmap, hall⟩
        cases ports with
        | nil => simp at hmap
        | cons port ports =>
            simp only [List.map_cons, List.cons.injEq] at hmap
            rw [List.forall_mem_cons] at hall
            rw [List.mapM_cons, connectionPort_eq_ok.mpr ⟨hmap.1, hall.1⟩, ih.mpr ⟨hmap.2, hall.2⟩]
            rfl

/-- **A document is accepted exactly with five distinct ports.** -/
theorem connectionPorts_eq_ok {items : List (Str × Value)} {ports : List ℤ} :
    connectionPorts (.dict items) = .ok ports ↔ ValidPorts ports
      ∧ PortFields (lookup items) ports := by
  have hloop : CONNECTION_PORT_FIELDS.mapM (connectionPort items) = .ok ports
      ↔ portKeys.map (lookup items) = ports.map (fun port => some (.int port))
        ∧ ∀ port ∈ ports, 1 ≤ port ∧ port ≤ 65535 := mapM_connectionPort
  constructor
  · intro h
    rw [connectionPorts] at h
    cases hports : CONNECTION_PORT_FIELDS.mapM (connectionPort items) with
    | error e => simp [hports, bind, Except.bind] at h
    | ok ports' =>
        by_cases hnodup : ports'.Nodup
        · obtain rfl : ports' = ports := by
            simpa [hports, hnodup, bind, Except.bind, pure, Except.pure] using h
          obtain ⟨hmap, hrange⟩ := hloop.mp hports
          have hlength := congrArg List.length hmap
          simp only [List.length_map] at hlength
          exact ⟨⟨hlength.symm, hnodup, hrange⟩, hmap⟩
        · simp [hports, hnodup, bind, Except.bind, throw, throwThe, MonadExceptOf.throw] at h
  · rintro ⟨hvalid, hfields⟩
    have hports := hloop.mpr ⟨hfields, hvalid.range⟩
    simp [connectionPorts, hports, hvalid.nodup, bind, Except.bind, pure, Except.pure]

/-- **A sequence is accepted exactly with five distinct ports.** -/
theorem validatePortSequence_eq_ok {sequence : PortSequence} {ports : List ℤ} :
    validatePortSequence sequence = .ok ports
      ↔ ValidPorts ports ∧ sequence = .iterable (ports.map .int) := by
  cases sequence with
  | text => simp [validatePortSequence]
  | notIterable => simp [validatePortSequence]
  | iterable values =>
      have hlengthKeys : portKeys.length = CONNECTION_PORT_FIELDS.length := rfl
      have hsome : ∀ ports : List ℤ, (ports.map fun port => some (Value.int port))
          = (ports.map Value.int).map some := by simp
      rw [validatePortSequence]
      by_cases hlength : values.length = CONNECTION_PORT_FIELDS.length
      · have hzip : portKeys.map (lookup (portKeys.zip values)) = values.map some :=
          map_lookup_zip nodup_portKeys (by rw [hlengthKeys, hlength])
        rw [if_neg (by simpa using hlength), connectionPorts_eq_ok, PortFields, hzip, hsome]
        refine and_congr_right fun _ => ?_
        rw [PortSequence.iterable.injEq]
        exact ⟨fun h => List.map_injective_iff.mpr (Option.some_injective _) h, congrArg _⟩
      · rw [if_pos hlength]
        simp only [reduceCtorEq, false_iff, PortSequence.iterable.injEq]
        rintro ⟨hvalid, rfl⟩
        exact hlength (by rw [List.length_map, hvalid.length_eq]; rfl)

/-! ## Setting the fields -/

/-- The values behind a loop that sets ports. -/
def setValues (pairs : List (Str × ℤ)) (value : Str → Option Value) (key : Str) : Option Value :=
  match pairs.lookup key with
  | some port => some (.int port)
  | none => value key

lemma setValues_cons {k : Str} {port : ℤ} {pairs : List (Str × ℤ)} (hk : k ∉ pairs.map Prod.fst)
    (value : Str → Option Value) : setValues ((k, port) :: pairs) value
      = setValues pairs fun key => if key = k then some (.int port) else value key := by
  funext key
  rw [setValues, setValues, List.lookup_cons]
  by_cases hkey : key = k
  · subst hkey
    have hnone : pairs.lookup key = none := by
      rw [List.lookup_eq_none_iff]
      intro p hp
      have hne : key ≠ p.1 := fun h => hk (h ▸ List.mem_map_of_mem (f := Prod.fst) hp)
      simpa using hne
    simp [hnone]
  · have hbeq : (key == k) = false := by simpa using hkey
    rw [hbeq, if_neg hkey]

lemma lookup_foldl_insertItem {pairs : List (Str × ℤ)} {items : List (Str × Value)}
    (hnodup : (pairs.map Prod.fst).Nodup) :
    lookup (pairs.foldl (fun items p => insertItem p.1 (.int p.2) items) items)
      = setValues pairs (lookup items) := by
  induction pairs generalizing items with
  | nil => rfl
  | cons pair pairs ih =>
      obtain ⟨k, port⟩ := pair
      rw [List.map_cons, List.nodup_cons] at hnodup
      have hinsert : lookup (insertItem k (.int port) items)
          = fun key => if key = k then some (.int port) else lookup items key :=
        funext fun _ => lookup_insertItem
      rw [List.foldl_cons, ih hnodup.2, setValues_cons hnodup.1, hinsert]

lemma value_foldl_setattr {pairs : List (Str × ℤ)} {parent : Parent}
    (hnodup : (pairs.map Prod.fst).Nodup) :
    (pairs.foldl (fun parent p => parent.setattr p.1 (.int p.2)) parent).value
      = setValues pairs parent.value := by
  induction pairs generalizing parent with
  | nil => rfl
  | cons pair pairs ih =>
      obtain ⟨k, port⟩ := pair
      rw [List.map_cons, List.nodup_cons] at hnodup
      have hset : (parent.setattr k (.int port)).value
          = fun key => if key = k then some (.int port) else parent.value key := by
        funext key
        exact Function.update_apply _ _ _ _
      rw [List.foldl_cons, ih hnodup.2, setValues_cons hnodup.1, hset]

section Fields

variable {ports : List ℤ} {value : Str → Option Value} {items : List (Str × Value)}
    {parent : Parent}

lemma map_fst_zip_portKeys (h : ports.length = 5) : (portKeys.zip ports).map Prod.fst = portKeys :=
  List.map_fst_zip (by rw [h]; decide)

lemma lookup_setPorts (h : ports.length = 5) :
    lookup (setPorts ports items) = setValues (portKeys.zip ports) (lookup items) :=
  lookup_foldl_insertItem (by rw [map_fst_zip_portKeys h]; exact nodup_portKeys)

lemma value_setPorts (parent : Parent) (h : ports.length = 5) :
    (parent.setPorts ports).value = setValues (portKeys.zip ports) parent.value :=
  value_foldl_setattr (by rw [map_fst_zip_portKeys h]; exact nodup_portKeys)

lemma setValues_of_notMem (h : ports.length = 5) {key : Str} (hkey : key ∉ portKeys) :
    setValues (portKeys.zip ports) value key = value key := by
  have hnone : (portKeys.zip ports).lookup key = none := by
    rw [List.lookup_eq_none_iff]
    intro p hp
    have hmem : p.1 ∈ portKeys := by
      rw [← map_fst_zip_portKeys h]
      exact List.mem_map_of_mem (f := Prod.fst) hp
    have hne : key ≠ p.1 := fun heq => hkey (heq ▸ hmem)
    simpa using hne
  rw [setValues, hnone]

/-- The ports that were set are the ports that are there. -/
lemma portFields_setValues (h : ports.length = 5) :
    PortFields (setValues (portKeys.zip ports) value) ports := by
  have hzip : portKeys.map (fun key => (portKeys.zip ports).lookup key) = ports.map some :=
    map_lookup_zip nodup_portKeys (by rw [h]; decide)
  have hset : portKeys.map (setValues (portKeys.zip ports) value)
      = portKeys.map fun key => ((portKeys.zip ports).lookup key).map Value.int := by
    refine List.map_congr_left ?_
    intro key hkey
    have hmem : (portKeys.zip ports).lookup key ∈ ports.map some := by
      rw [← hzip]
      exact List.mem_map_of_mem (f := fun key => (portKeys.zip ports).lookup key) hkey
    obtain ⟨port, -, hport⟩ := List.mem_map.mp hmem
    rw [setValues, ← hport]
    rfl
  calc portKeys.map (setValues (portKeys.zip ports) value)
      = (portKeys.map fun key => (portKeys.zip ports).lookup key).map (Option.map Value.int) := by
        rw [hset, List.map_map]
        rfl
    _ = ports.map fun port => some (.int port) := by
        rw [hzip, List.map_map]
        rfl

lemma PortFields.eq_on {f g : Str → Option Value} (hf : PortFields f ports)
    (hg : PortFields g ports)
    {key : Str} (hkey : key ∈ portKeys) : f key = g key :=
  List.map_inj_left.mp (hf.trans hg.symm) key hkey

lemma PortFields.mem_keys (h : PortFields (lookup items) ports) {key : Str}
    (hkey : key ∈ portKeys) :
    key ∈ items.map Prod.fst := by
  have hmem : lookup items key ∈ ports.map fun port => some (Value.int port) := by
    rw [← show portKeys.map (lookup items) = _ from h]
    exact List.mem_map_of_mem hkey
  obtain ⟨port, -, hport⟩ := List.mem_map.mp hmem
  exact mem_keys_of_lookup hport.symm

/-- A document that has the fields keeps its keys. -/
lemma keys_setPorts (h : ∀ key ∈ portKeys, key ∈ items.map Prod.fst) (hlength : ports.length = 5) :
    (setPorts ports items).map Prod.fst = items.map Prod.fst := by
  have hfold : ∀ (pairs : List (Str × ℤ)) (items : List (Str × Value)),
      (∀ p ∈ pairs, p.1 ∈ items.map Prod.fst) →
      (pairs.foldl (fun items p => insertItem p.1 (.int p.2) items) items).map Prod.fst
        = items.map Prod.fst := by
    intro pairs
    induction pairs with
    | nil => exact fun _ _ => rfl
    | cons p pairs ih =>
        intro items hall
        rw [List.forall_mem_cons] at hall
        have hkeys : (insertItem p.1 (.int p.2) items).map Prod.fst = items.map Prod.fst :=
          insertItem_keys_of_mem hall.1
        rw [List.foldl_cons, ih _ (by rw [hkeys]; exact hall.2), hkeys]
  refine hfold _ _ ?_
  intro p hp
  refine h p.1 ?_
  rw [← map_fst_zip_portKeys hlength]
  exact List.mem_map_of_mem (f := Prod.fst) hp

end Fields

/-! ## Reading and writing the document -/

lemma readable_insertItem {items : List (Str × Value)} {key : Str} {v : Value}
    (h : (Value.dict items).Readable) (hkey : Unpaired key) (hv : v.Readable) :
    (Value.dict (insertItem key v items)).Readable :=
  ⟨nodup_insertItem h.1, readableItems_insertItem h.2 hkey hv⟩

/-- Text without lone surrogates has no pair of them. -/
lemma unpaired_of_encodable {s : Str} (h : Encodable s) : Unpaired s := by
  induction s with
  | nil => exact unpaired_nil
  | cons c s ih =>
      rw [encodable_cons] at h
      exact unpaired_cons_of_not_high (isScalar_lt h.1) (not_isHigh_of_isScalar h.1) (ih h.2)

lemma readable_port {port : ℤ} (h : 1 ≤ port ∧ port ≤ 65535) : (Value.int port).Readable := by
  have hdigits : (Nat.toDigits 10 port.natAbs).length ≤ 5 :=
    (Nat.length_toDigits_le_iff (by decide) (by decide)).mpr (by omega)
  show (decimal port.natAbs).length ≤ maxIntDigits
  rw [decimal, List.length_map, maxIntDigits]
  omega

lemma readable_setPorts {ports : List ℤ} {items : List (Str × Value)} (hvalid : ValidPorts ports)
    (h : (Value.dict items).Readable) : (Value.dict (setPorts ports items)).Readable := by
  have hfold : ∀ (pairs : List (Str × ℤ)) (items : List (Str × Value)),
      (Value.dict items).Readable → (∀ p ∈ pairs, Encodable p.1 ∧ (Value.int p.2).Readable) →
      (Value.dict (pairs.foldl (fun items p => insertItem p.1 (.int p.2) items)
        items)).Readable := by
    intro pairs
    induction pairs with
    | nil => exact fun _ h _ => h
    | cons p pairs ih =>
        intro items h hall
        rw [List.forall_mem_cons] at hall
        rw [List.foldl_cons]
        exact ih _ (readable_insertItem h (unpaired_of_encodable hall.1.1) hall.1.2) hall.2
  refine hfold _ _ h ?_
  intro p hp
  obtain ⟨hkey, hport⟩ := List.of_mem_zip hp
  have hkeys : ∀ key ∈ portKeys, Encodable key := by
    intro key hmem
    obtain ⟨field, -, rfl⟩ := List.mem_map.mp hmem
    exact encodable_str field
  exact ⟨hkeys _ hkey, readable_port (hvalid.range _ hport)⟩

lemma encodable_of_map_cons {n : ℕ} {rest : List ℕ} {text : Str} (hn : isScalar n = true)
    (hrest : ∀ {text}, decode rest = some text → Json.Encodable text)
    (h : (decode rest).map (n :: ·) = some text) : Json.Encodable text := by
  obtain ⟨text, htext, rfl⟩ := Option.map_eq_some_iff.mp h
  exact encodable_cons.mpr ⟨hn, hrest htext⟩

/-- Text that was decoded has no lone surrogates. -/
lemma encodable_of_decode {bytes : List ℕ} {text : Str} (h : decode bytes = some text) :
    Json.Encodable text := by
  fun_induction decode bytes generalizing text with
  | case1 =>
      cases h
      exact encodable_nil
  | case2 a as hlt ih => exact encodable_of_map_cons (by simp [isScalar, isSurrogate]; omega) ih h
  | case4 a ha b bs hrange htail ih =>
      simp only [isTail, Bool.and_eq_true, decide_eq_true_eq] at htail
      exact encodable_of_map_cons (by simp [isScalar, isSurrogate]; omega) ih h
  | case7 =>
      rename_i hvalid ih
      exact encodable_of_map_cons hvalid.2.2.2 ih h
  | case10 =>
      rename_i n hvalid ih
      exact encodable_of_map_cons (by simp [isScalar, isSurrogate]; omega) ih h
  | case3 => cases h
  | case5 => cases h
  | case6 => cases h
  | case8 => cases h
  | case9 => cases h
  | case11 => cases h

/-- The document of the connection file. -/
def KernelConnection.document (k : KernelConnection) : Option Value :=
  k.directory.file.bind fun bytes => (decode bytes).bind loads

/-- A document that was read is readable. -/
lemma readable_of_document {bytes : List ℕ} {v : Value} (h : (decode bytes).bind loads = some v) :
    v.Readable := by
  obtain ⟨text, hdecode, hloads⟩ := Option.bind_eq_some_iff.mp h
  exact readable_of_loads (encodable_of_decode hdecode) hloads

/-- **A readable document is written and reads back.** -/
lemma documentBytes_of_readable {items : List (Str × Value)} (h : (Value.dict items).Readable) :
    ∃ bytes, documentBytes items = .ok bytes ∧ (decode bytes).bind loads = some (.dict items) := by
  obtain ⟨text, htext, hloads⟩ :
      ∃ text, dumpsIndent 0 (.dict items) = .ok text ∧ loads (text ++ [10]) = some (.dict items) :=
    loads_dumpsIndent h (by decide)
  have hnewline : Json.Encodable [10] := encodable_of_lt (by decide)
  have hencodable : Json.Encodable (text ++ [10]) :=
    encodable_append.mpr ⟨encodable_dumpsIndent _ 0 h htext, hnewline⟩
  have hencode : encode (text ++ [10]) = some ((text ++ [10]).flatMap encodeChar) :=
    encode_eq_some_iff.mpr ⟨hencodable, rfl⟩
  refine ⟨_, by rw [documentBytes, htext]; simp only [hencode]; rfl, ?_⟩
  rw [decode_encode hencode]
  exact hloads

/-- What stands between `rewrite_connection_file` and the items of the document. -/
structure Opens (fault : FileStep → Bool) (parent : Parent) (directory : ConnectionDirectory)
    (items : List (Str × Value)) : Prop where
  path : ∃ path, parent.connectionFile = some path ∧ path ≠ ""
  no_link : directory.isLink = false
  steps : fault .isSymlink = false ∧ fault .resolve = false ∧ fault .isFile = false
    ∧ fault .readText = false
  document : ∃ bytes, directory.file = some bytes ∧ (decode bytes).bind loads = some (.dict items)
  tcp : lookup items (str "transport") = none
    ∨ lookup items (str "transport") = some (.str (str "tcp"))

lemma readConnection_eq_ok {fault : FileStep → Bool} {parent : Parent}
    {directory : ConnectionDirectory} {items : List (Str × Value)} :
    readConnection fault parent directory = .ok items ↔ Opens fault parent directory items := by
  constructor
  · intro h
    unfold readConnection at h
    simp only [bind, Except.bind, throw, throwThe, MonadExceptOf.throw, pure, Except.pure] at h
    cases hpath : parent.connectionFile with
    | none => simp [hpath] at h
    | some path =>
        cases hfile : directory.file with
        | none =>
            simp only [hpath, hfile] at h
            split_ifs at h
        | some bytes =>
            simp only [hpath, hfile] at h
            split_ifs at h with hne h1 hlink h2 h3 h4
            cases hdecode : decode bytes with
            | none => simp [hdecode] at h
            | some text =>
                cases hloads : loads text with
                | none => simp [hdecode, hloads] at h
                | some document =>
                    simp only [hdecode, hloads] at h
                    have hopens : ∀ items', document = .dict items' →
                        (lookup items' (str "transport") = none
                          ∨ lookup items' (str "transport") = some (.str (str "tcp"))) →
                        Opens fault parent directory items' := by
                      rintro items' rfl htcp
                      refine ⟨⟨path, hpath, hne⟩, by simpa using hlink, by simp_all,
                        ⟨bytes, hfile, ?_⟩, htcp⟩
                      rw [hdecode, Option.bind_some, hloads]
                    split at h
                    · next items' =>
                        split at h
                        · next heq =>
                            cases h
                            exact hopens _ rfl (.inl heq)
                        · next transport heq =>
                            split_ifs at h with htcp
                            cases h
                            exact hopens _ rfl (.inr (by rw [heq, htcp]))
                        · cases h
                    · cases h
  · rintro ⟨⟨path, hpath, hne⟩, hlink, ⟨h1, h2, h3, h4⟩, ⟨bytes, hfile, hdocument⟩, htcp⟩
    obtain ⟨text, hdecode, hloads⟩ := Option.bind_eq_some_iff.mp hdocument
    rcases htcp with htcp | htcp
    · simp [readConnection, hpath, hne, hlink, h1, h2, h3, h4, hfile, hdecode, hloads, htcp, pure,
        Except.pure]
    · simp [readConnection, hpath, hne, hlink, h1, h2, h3, h4, hfile, hdecode, hloads, htcp, pure,
        Except.pure]

/-! ## Rewriting -/

/-- `rewrite_connection_file` gets as far as changing the kernel manager. -/
structure Accepted (fault : FileStep → Bool) (py : PythonLibrary) (bindIp : String)
    (ports : Option PortSequence) (k : KernelConnection) (items : List (Str × Value))
    (originalPorts tunnelPorts : List ℤ) : Prop where
  ipAddress : py.ipAddress bindIp = true
  opens : Opens fault k.parent k.directory items
  original : ValidPorts originalPorts ∧ PortFields (lookup items) originalPorts
  tunnel : ports = none ∧ tunnelPorts = originalPorts
    ∨ ValidPorts tunnelPorts ∧ ports = some (.iterable (tunnelPorts.map .int))

/-- `str(document.get("ip", getattr(parent, "ip", "")))`. -/
def originalIp (py : PythonLibrary) (k : KernelConnection) (items : List (Str × Value)) : Str :=
  py.text ((lookup items (str "ip")).getD ((k.parent.value (str "ip")).getD (.str [])))

/-- The document on the way to the file. -/
def rewrittenItems (bindIp : String) (items : List (Str × Value)) (tunnelPorts : List ℤ) :
    List (Str × Value) :=
  setPorts tunnelPorts (insertItem (str "ip") (.str (str bindIp)) items)

/-- The kernel manager with the tunnel's address and ports. -/
def rewrittenParent (bindIp : String) (parent : Parent) (tunnelPorts : List ℤ) : Parent :=
  (parent.setattr (str "ip") (.str (str bindIp))).setPorts tunnelPorts

section Rewriting

variable {fault : FileStep → Bool} {py : PythonLibrary} {bindIp : String}
  {ports : Option PortSequence} {k : KernelConnection} {items : List (Str × Value)}
  {originalPorts tunnelPorts : List ℤ}

lemma Accepted.validTunnel (h : Accepted fault py bindIp ports k items originalPorts tunnelPorts) :
    ValidPorts tunnelPorts := by
  rcases h.tunnel with ⟨-, rfl⟩ | ⟨hvalid, -⟩
  · exact h.original.1
  · exact hvalid

/-- **What `rewrite_connection_file` does with what it accepts.** -/
lemma rewrite_of_accepted (h : Accepted fault py bindIp ports k items originalPorts tunnelPorts) :
    rewriteConnectionFile fault py bindIp ports k
      = match replaceFile fault k.directory.remoteTmp (rewrittenItems bindIp items tunnelPorts) with
        | (.error e, remoteTmp) => (.error e,
            { parent := rewrittenParent bindIp k.parent tunnelPorts,
              directory := { k.directory with remoteTmp } })
        | (.ok bytes, remoteTmp) => (.ok ⟨originalIp py k items, originalPorts, tunnelPorts⟩,
            { parent := rewrittenParent bindIp k.parent tunnelPorts,
              directory := { k.directory with remoteTmp, file := some bytes } }) := by
  have hread := readConnection_eq_ok.mpr h.opens
  have horiginal := connectionPorts_eq_ok.mpr h.original
  rcases h.tunnel with ⟨rfl, rfl⟩ | ⟨hvalid, rfl⟩
  · simp only [rewriteConnectionFile, h.ipAddress, hread, horiginal, bind, Except.bind, pure,
      Except.pure, if_true]
    rfl
  · have htunnel := validatePortSequence_eq_ok.mpr ⟨hvalid, rfl⟩
    simp only [rewriteConnectionFile, h.ipAddress, hread, horiginal, htunnel, bind,
      Except.bind, pure, Except.pure, if_true]
    rfl

/-- What it does not accept it refuses before it changes anything. -/
lemma rewrite_cases (fault : FileStep → Bool) (py : PythonLibrary) (bindIp : String)
    (ports : Option PortSequence) (k : KernelConnection) :
    (∃ e, rewriteConnectionFile fault py bindIp ports k = (.error e, k)
      ∧ ∀ items originalPorts tunnelPorts,
        ¬ Accepted fault py bindIp ports k items originalPorts tunnelPorts)
    ∨ ∃ items originalPorts tunnelPorts,
        Accepted fault py bindIp ports k items originalPorts tunnelPorts := by
  by_cases hip : py.ipAddress bindIp = true
  · cases hread : readConnection fault k.parent k.directory with
    | error e =>
        refine .inl ⟨e, ?_, ?_⟩
        · simp [rewriteConnectionFile, hip, hread, bind, Except.bind]
        · intro items _ _ h
          rw [readConnection_eq_ok.mpr h.opens] at hread
          cases hread
    | ok items =>
        have hopens := readConnection_eq_ok.mp hread
        have hsame : ∀ items', Opens fault k.parent k.directory items' → items' = items := by
          intro items' h
          have hread' := readConnection_eq_ok.mpr h
          rw [hread, Except.ok.injEq] at hread'
          exact hread'.symm
        cases horiginal : connectionPorts (.dict items) with
        | error e =>
            refine .inl ⟨e, ?_, ?_⟩
            · simp [rewriteConnectionFile, hip, hread, horiginal, bind, Except.bind]
            · intro items' _ _ h
              obtain rfl := hsame items' h.opens
              rw [connectionPorts_eq_ok.mpr h.original] at horiginal
              cases horiginal
        | ok originalPorts =>
            have horiginal' := connectionPorts_eq_ok.mp horiginal
            cases ports with
            | none =>
                exact .inr ⟨items, originalPorts, originalPorts, hip, hopens, horiginal',
                  .inl ⟨rfl, rfl⟩⟩
            | some sequence =>
                cases htunnel : validatePortSequence sequence with
                | error e =>
                    refine .inl ⟨e, ?_, ?_⟩
                    · simp [rewriteConnectionFile, hip, hread, horiginal, htunnel,
                        bind, Except.bind]
                    · intro _ _ tunnelPorts h
                      rcases h.tunnel with ⟨hnone, -⟩ | ⟨hvalid, hsome⟩
                      · cases hnone
                      · cases hsome
                        rw [validatePortSequence_eq_ok.mpr ⟨hvalid, rfl⟩] at htunnel
                        cases htunnel
                | ok tunnelPorts =>
                    obtain ⟨hvalid, rfl⟩ := validatePortSequence_eq_ok.mp htunnel
                    exact .inr ⟨items, originalPorts, tunnelPorts, hip, hopens, horiginal',
                      .inr ⟨hvalid, rfl⟩⟩
  · refine .inl ⟨.valueError s!"Invalid bind_ip: {bindIp}", ?_, ?_⟩
    · simp only [rewriteConnectionFile, hip, bind, Except.bind, throw, throwThe,
        MonadExceptOf.throw]
      rfl
    · intro _ _ _ h
      exact hip h.ipAddress

lemma readable_rewritten (h : Accepted fault py bindIp ports k items originalPorts tunnelPorts) :
    (Value.dict (rewrittenItems bindIp items tunnelPorts)).Readable := by
  obtain ⟨bytes, -, hdocument⟩ := h.opens.document
  have hreadable := readable_of_document hdocument
  exact readable_setPorts h.validTunnel (readable_insertItem hreadable
    (unpaired_of_encodable (encodable_str _)) (unpaired_of_encodable (encodable_str _)))

/-- The document goes through the temporary file into place. -/
structure Writes (fault : FileStep → Bool) (temporary : TemporaryFile) : Prop where
  inspected : fault .temporaryIsSymlink = false
  unlinked : temporary = .link → fault .unlink = false
  written : fault .writeText = false
  chmodded : fault .chmod = false
  replaced : fault .replace = false

lemma replaceFile_of_writes {temporary : TemporaryFile} {bytes : List ℕ}
    (hbytes : documentBytes items = .ok bytes) (h : Writes fault temporary) :
    replaceFile fault temporary items = (.ok bytes, .absent) := by
  cases temporary with
  | link =>
      simp [replaceFile, hbytes, h.inspected, h.unlinked rfl, h.written, h.chmodded, h.replaced]
  | absent => simp [replaceFile, hbytes, h.inspected, h.written, h.chmodded, h.replaced]
  | file _ => simp [replaceFile, hbytes, h.inspected, h.written, h.chmodded, h.replaced]

lemma writes_of_replaceFile {temporary temporary' : TemporaryFile} {bytes : List ℕ}
    (h : replaceFile fault temporary items = (.ok bytes, temporary')) : Writes fault temporary := by
  have hfirst : (replaceFile fault temporary items).1 = .ok bytes := congrArg Prod.fst h
  cases hbytes : documentBytes items with
  | error e =>
      cases temporary <;> simp only [replaceFile, hbytes] at hfirst <;> split_ifs at hfirst
  | ok written =>
      cases temporary with
      | link =>
          simp only [replaceFile, hbytes] at hfirst
          split_ifs at hfirst with h1 h2 h3 h4 h5
          exact ⟨by simpa using h1,
            fun _ => by simpa using h2, by simpa using h3, by simpa using h4, by simpa using h5⟩
      | absent =>
          simp only [replaceFile, hbytes] at hfirst
          split_ifs at hfirst with h1 h3 h4 h5
          exact ⟨by simpa using h1, by simp, by simpa using h3, by simpa using h4,
            by simpa using h5⟩
      | file old =>
          simp only [replaceFile, hbytes] at hfirst
          split_ifs at hfirst with h1 h3 h4 h5
          exact ⟨by simpa using h1, by simp, by simpa using h3, by simpa using h4,
            by simpa using h5⟩

/-- The kernel manager carries an address and ports. -/
def Parent.Carries (parent : Parent) (ip : Str) (ports : List ℤ) : Prop :=
  parent.value (str "ip") = some (.str ip) ∧ PortFields parent.value ports

lemma connectionFile_setPorts (parent : Parent) (ports : List ℤ) :
    (parent.setPorts ports).connectionFile = parent.connectionFile := by
  rw [Parent.setPorts]
  induction portKeys.zip ports generalizing parent with
  | nil => rfl
  | cons p pairs ih => exact ih _

/-- What is under a name of the kernel manager behind the two writes of its fields. -/
lemma value_setAll (parent : Parent) (ip : Str) (h : ValidPorts tunnelPorts) :
    ((parent.setattr (str "ip") (.str ip)).setPorts tunnelPorts).Carries ip tunnelPorts
      ∧ ∀ name ∉ portKeys, name ≠ str "ip" →
        ((parent.setattr (str "ip") (.str ip)).setPorts tunnelPorts).value name = parent.value name
      := by
  have hvalue := value_setPorts (parent.setattr (str "ip") (.str ip)) h.length_eq
  refine ⟨⟨?_, ?_⟩, ?_⟩
  · rw [hvalue, setValues_of_notMem h.length_eq ip_notMem_portKeys]
    exact Function.update_self (str "ip") (some (Value.str ip)) parent.value
  · rw [hvalue]
    exact portFields_setValues h.length_eq
  · intro name hname hne
    rw [hvalue, setValues_of_notMem h.length_eq hname]
    exact Function.update_of_ne hne (some (Value.str ip)) parent.value

/-- Nothing changes in a kernel manager that carries what it is given. -/
lemma rewrittenParent_eq_self_iff {parent : Parent} (h : ValidPorts tunnelPorts) :
    rewrittenParent bindIp parent tunnelPorts = parent
      ↔ parent.Carries (str bindIp) tunnelPorts := by
  obtain ⟨hcarries, hothers⟩ := value_setAll parent (str bindIp) h
  constructor
  · intro heq
    rw [← heq]
    exact hcarries
  · intro hparent
    have hvalue : (rewrittenParent bindIp parent tunnelPorts).value = parent.value := by
      funext name
      by_cases hname : name ∈ portKeys
      · exact hcarries.2.eq_on hparent.2 hname
      · by_cases hip : name = str "ip"
        · subst hip
          exact hcarries.1.trans hparent.1.symm
        · exact hothers name hname hip
    have hfile : (rewrittenParent bindIp parent tunnelPorts).connectionFile
      = parent.connectionFile :=
      connectionFile_setPorts _ _
    calc rewrittenParent bindIp parent tunnelPorts
        = ⟨(rewrittenParent bindIp parent tunnelPorts).connectionFile,
            (rewrittenParent bindIp parent tunnelPorts).value⟩ := rfl
      _ = parent := by rw [hvalue, hfile]

end Rewriting

/-! ## Failures leave no trace -/

/-- Where `rewrite_connection_file` raises, the kernel manager and the connection file are as they
were. -/
def LeavesNoTrace (fault : FileStep → Bool) (py : PythonLibrary) (bindIp : String)
    (ports : Option PortSequence) (k : KernelConnection) : Prop :=
  ∀ e k', rewriteConnectionFile fault py bindIp ports k = (.error e, k') →
    k'.parent = k.parent ∧ k'.directory.file = k.directory.file

/-- **A failure leaves no trace exactly where nothing fails behind the change of the kernel manager,
or the kernel manager carries the tunnel's address and ports already.** -/
theorem rewrite_unchanged_iff (fault : FileStep → Bool) (py : PythonLibrary) (bindIp : String)
    (ports : Option PortSequence) (k : KernelConnection) :
    LeavesNoTrace fault py bindIp ports k
      ↔ ∀ items originalPorts tunnelPorts,
        Accepted fault py bindIp ports k items originalPorts tunnelPorts →
          Writes fault k.directory.remoteTmp ∨ k.parent.Carries (str bindIp) tunnelPorts := by
  constructor
  · intro h items originalPorts tunnelPorts haccepted
    have hrewrite := rewrite_of_accepted haccepted
    cases hreplace : replaceFile fault k.directory.remoteTmp
        (rewrittenItems bindIp items tunnelPorts) with
    | mk result remoteTmp =>
        rw [hreplace] at hrewrite
        cases result with
        | error e =>
            exact .inr ((rewrittenParent_eq_self_iff haccepted.validTunnel).mp (h _ _ hrewrite).1)
        | ok bytes => exact .inl (writes_of_replaceFile hreplace)
  · intro h e k' hraised
    rcases rewrite_cases fault py bindIp ports k with
      ⟨e', hrefused, -⟩ | ⟨items, originalPorts, tunnelPorts, haccepted⟩
    · rw [hrefused] at hraised
      cases hraised
      exact ⟨rfl, rfl⟩
    · have hrewrite := rewrite_of_accepted haccepted
      rcases h items originalPorts tunnelPorts haccepted with hwrites | hcarries
      · obtain ⟨bytes, hbytes, -⟩ := documentBytes_of_readable (readable_rewritten haccepted)
        rw [hrewrite, replaceFile_of_writes hbytes hwrites] at hraised
        cases hraised
      · have hparent := (rewrittenParent_eq_self_iff haccepted.validTunnel).mpr hcarries
        cases hreplace : replaceFile fault k.directory.remoteTmp
            (rewrittenItems bindIp items tunnelPorts) with
        | mk result remoteTmp =>
            rw [hrewrite, hreplace] at hraised
            cases result with
            | error e' =>
                cases hraised
                exact ⟨hparent, rfl⟩
            | ok bytes => cases hraised

/-- A document. -/
def sampleItems : List (Str × Value) :=
  [(str "ip", .str (str "10.0.0.1")), (str "key", .str (str "k")), (str "shell_port", .int 1),
    (str "iopub_port", .int 2), (str "stdin_port", .int 3), (str "control_port", .int 4),
    (str "hb_port", .int 5)]

/-- A kernel manager with the document in its connection file. -/
def sampleConnection : KernelConnection where
  parent :=
    { connectionFile := some "/run/kernel.json"
      value := fun _ => none }
  directory :=
    { isLink := false
      file := (documentBytes sampleItems).toOption
      remoteTmp := .absent
      restoreTmp := .absent }

/-- `ip_address` and `str` as far as the samples need them. -/
def sampleLibrary : PythonLibrary where
  ipAddress text := text == "127.0.0.1"
  ipAddress_loopback := rfl
  text
    | .str s => s
    | _ => []
  text_str _ := rfl

/-- The disk is full when the document is written. -/
def diskFull (step : FileStep) : Bool := step = .writeText

lemma sample_readable : (Value.dict sampleItems).Readable := by
  have hstr : ∀ s : String, Unpaired (str s) := fun s => unpaired_of_encodable (encodable_str s)
  exact ⟨by decide, hstr _, hstr _, hstr _, hstr _, hstr _, readable_port (by decide), hstr _,
    readable_port (by decide), hstr _, readable_port (by decide), hstr _, readable_port (by decide),
    hstr _, readable_port (by decide), trivial⟩

lemma sample_document : ∃ bytes, sampleConnection.directory.file = some bytes
    ∧ (decode bytes).bind loads = some (.dict sampleItems) := by
  obtain ⟨bytes, hbytes, hread⟩ := documentBytes_of_readable sample_readable
  have hfile : sampleConnection.directory.file = (documentBytes sampleItems).toOption := rfl
  exact ⟨bytes, by rw [hfile, hbytes]; rfl, hread⟩

lemma sample_ports : ValidPorts [1, 2, 3, 4, 5] ∧ PortFields (lookup sampleItems) [1, 2, 3, 4, 5] :=
  ⟨⟨rfl, by decide, by decide⟩, rfl⟩

lemma sample_opens {fault : FileStep → Bool}
    (h : fault .isSymlink = false ∧ fault .resolve = false ∧ fault .isFile = false
      ∧ fault .readText = false) :
    Opens fault sampleConnection.parent sampleConnection.directory sampleItems :=
  ⟨⟨_, rfl, by decide⟩, rfl, h, sample_document, .inl rfl⟩

/-- **A full disk leaves the tunnel's address in the kernel manager.** -/
theorem not_leavesNoTrace_of_diskFull :
    ¬ LeavesNoTrace diskFull sampleLibrary "127.0.0.1"
      (some (.iterable ([11, 12, 13, 14, 15].map .int))) sampleConnection := by
  intro h
  have haccepted : Accepted diskFull sampleLibrary "127.0.0.1"
      (some (.iterable ([11, 12, 13, 14, 15].map .int))) sampleConnection
      sampleItems [1, 2, 3, 4, 5]
      [11, 12, 13, 14, 15] :=
    ⟨rfl, sample_opens (by decide), sample_ports, .inr ⟨⟨rfl, by decide, by decide⟩, rfl⟩⟩
  obtain ⟨bytes, hbytes, -⟩ := documentBytes_of_readable (readable_rewritten haccepted)
  have hrewrite := rewrite_of_accepted haccepted
  simp only [replaceFile, hbytes, sampleConnection, diskFull, decide_true, if_true, reduceCtorEq,
    decide_false, if_false, Bool.false_eq_true] at hrewrite
  obtain ⟨hparent, -⟩ := h _ _ hrewrite
  have hcarries := (rewrittenParent_eq_self_iff haccepted.validTunnel).mp hparent
  cases hcarries.1

/-! ## There and back -/

/-- No file operation fails. -/
def noFault (_ : FileStep) : Bool := false

/-- A Jupyter connection: a document with an address, TCP transport and five distinct ports. -/
structure JupyterConnection (k : KernelConnection) (items : List (Str × Value)) (ip : Str)
    (ports : List ℤ) : Prop where
  opens : Opens noFault k.parent k.directory items
  ip : lookup items (str "ip") = some (.str ip)
  ports : ValidPorts ports ∧ PortFields (lookup items) ports

/-- A document that carries an address and ports, and is the original elsewhere. -/
structure DocumentCarries (k : KernelConnection) (items : List (Str × Value)) (ip : Str)
    (ports : List ℤ) : Prop where
  document : ∃ items', k.document = some (.dict items')
    ∧ lookup items' (str "ip") = some (.str ip) ∧ PortFields (lookup items') ports
    ∧ items'.map Prod.fst = items.map Prod.fst
    ∧ ∀ key ∉ portKeys, key ≠ str "ip" → lookup items' key = lookup items key

lemma noFault_writes (temporary : TemporaryFile) : Writes noFault temporary :=
  ⟨rfl, fun _ => rfl, rfl, rfl, rfl⟩

/-- What is under a key of a document behind the writes of its fields. -/
lemma lookup_setAll (ip : Str) (items : List (Str × Value)) {ports : List ℤ}
    (h : ValidPorts ports) :
    lookup (setPorts ports (insertItem (str "ip") (.str ip) items)) (str "ip") = some (.str ip)
      ∧ PortFields (lookup (setPorts ports (insertItem (str "ip") (.str ip) items))) ports
      ∧ ∀ key ∉ portKeys, key ≠ str "ip" →
        lookup (setPorts ports (insertItem (str "ip") (.str ip) items)) key = lookup items key := by
  rw [lookup_setPorts h.length_eq]
  refine ⟨?_, portFields_setValues h.length_eq, ?_⟩
  · rw [setValues_of_notMem h.length_eq ip_notMem_portKeys, lookup_insertItem, if_pos rfl]
  · intro key hkey hne
    rw [setValues_of_notMem h.length_eq hkey, lookup_insertItem, if_neg hne]

/-- A document that has the six fields keeps its keys when they are set. -/
lemma keys_setAll (ip : Str) {items : List (Str × Value)} {ports : List ℤ} (h : ValidPorts ports)
    (hip : str "ip" ∈ items.map Prod.fst) (hports : ∀ key ∈ portKeys, key ∈ items.map Prod.fst) :
    (setPorts ports (insertItem (str "ip") (.str ip) items)).map Prod.fst = items.map Prod.fst := by
  have hinsert : (insertItem (str "ip") (.str ip) items).map Prod.fst = items.map Prod.fst :=
    insertItem_keys_of_mem hip
  rw [keys_setPorts (by rw [hinsert]; exact hports) h.length_eq, hinsert]

/-- **Setting the six fields back gives the document itself.** -/
lemma setAll_setAll {ip : Str} (ip' : Str) {items : List (Str × Value)} {ports ports' : List ℤ}
    (hnodup : (items.map Prod.fst).Nodup) (hip : lookup items (str "ip") = some (.str ip))
    (hports : ValidPorts ports ∧ PortFields (lookup items) ports) (hports' : ValidPorts ports') :
    setPorts ports (insertItem (str "ip") (.str ip)
      (setPorts ports' (insertItem (str "ip") (.str ip') items))) = items := by
  have hipMem := mem_keys_of_lookup hip
  have hmem : ∀ key ∈ portKeys, key ∈ items.map Prod.fst := fun key hkey =>
    hports.2.mem_keys hkey
  have hkeys := keys_setAll ip' hports' hipMem hmem
  have hkeys' := keys_setAll ip hports.1 (hkeys ▸ hipMem) (hkeys ▸ hmem)
  obtain ⟨hip₁, hfields₁, hothers₁⟩ := lookup_setAll ip
    (setPorts ports' (insertItem (str "ip") (.str ip') items)) hports.1
  obtain ⟨-, -, hothers₂⟩ := lookup_setAll ip' items hports'
  refine items_ext (hkeys'.trans hkeys) (by rw [hkeys', hkeys]; exact hnodup) ?_
  intro key
  by_cases hkey : key ∈ portKeys
  · exact hfields₁.eq_on hports.2 hkey
  · by_cases hne : key = str "ip"
    · subst hne
      exact hip₁.trans hip.symm
    · rw [hothers₁ key hkey hne, hothers₂ key hkey hne]

section RoundTrip

variable {k : KernelConnection} {items : List (Str × Value)} {ip : Str}
  {ports tunnelPorts : List ℤ}

lemma accepted_tunnel (py : PythonLibrary) (h : JupyterConnection k items ip ports)
    (htunnel : ValidPorts tunnelPorts) :
    Accepted noFault py "127.0.0.1" (some (.iterable (tunnelPorts.map .int))) k items ports
      tunnelPorts :=
  ⟨py.ipAddress_loopback, h.opens, h.ports, .inr ⟨htunnel, rfl⟩⟩

/-- The kernel manager and the file on the tunnel. -/
lemma rewrite_to_tunnel (py : PythonLibrary) (h : JupyterConnection k items ip ports)
    (htunnel : ValidPorts tunnelPorts) :
    ∃ bytes, (decode bytes).bind loads = some (.dict (rewrittenItems "127.0.0.1" items tunnelPorts))
      ∧ rewriteConnectionFile noFault py "127.0.0.1" (some (.iterable (tunnelPorts.map .int))) k
        = (.ok ⟨ip, ports, tunnelPorts⟩,
            { parent := rewrittenParent "127.0.0.1" k.parent tunnelPorts,
              directory := { k.directory with remoteTmp := .absent, file := some bytes } }) := by
  have haccepted := accepted_tunnel py h htunnel
  obtain ⟨bytes, hbytes, hdocument⟩ := documentBytes_of_readable (readable_rewritten haccepted)
  have hip : originalIp py k items = ip := by
    rw [originalIp, h.ip, Option.getD_some, py.text_str]
  refine ⟨bytes, hdocument, ?_⟩
  rw [rewrite_of_accepted haccepted, replaceFile_of_writes hbytes (noFault_writes _), hip]

/-- `restore_connection_file` on what `rewrite_connection_file` left behind. -/
lemma restore_from_tunnel (h : JupyterConnection k items ip ports)
    (htunnel : ValidPorts tunnelPorts)
    {bytes : List ℕ}
    (hbytes : (decode bytes).bind loads
      = some (.dict (rewrittenItems "127.0.0.1" items tunnelPorts))) :
    ∃ written, (decode written).bind loads = some (.dict items)
      ∧ restoreConnectionFile noFault (some ip) (ports.map .int)
          { parent := rewrittenParent "127.0.0.1" k.parent tunnelPorts,
            directory := { k.directory with remoteTmp := .absent, file := some bytes } }
        = (.ok (),
            { parent := ((rewrittenParent "127.0.0.1" k.parent tunnelPorts).setattr (str "ip")
                (.str ip)).setPorts ports,
              directory := { k.directory with
                remoteTmp := .absent, restoreTmp := .absent, file := some written } }) := by
  obtain ⟨original, horiginal, hdocument⟩ := h.opens.document
  have hreadable := readable_of_document hdocument
  obtain ⟨written, hwritten, hloads⟩ := documentBytes_of_readable hreadable
  obtain ⟨path, hpath, hne⟩ := h.opens.path
  have hitems := setAll_setAll (str "127.0.0.1") hreadable.1 h.ip h.ports htunnel
  have hvalid : validatePortSequence (.iterable (ports.map .int)) = .ok ports :=
    validatePortSequence_eq_ok.mpr ⟨h.ports.1, rfl⟩
  have hnonempty : ports.map Value.int ≠ [] := by
    intro hnil
    have hlength := congrArg List.length hnil
    rw [List.length_map, h.ports.1.length_eq] at hlength
    cases hlength
  have hfile : (((rewrittenParent "127.0.0.1" k.parent tunnelPorts).setattr (str "ip")
      (.str ip)).setPorts ports).connectionFile = some path := by
    rw [connectionFile_setPorts]
    exact (connectionFile_setPorts _ _).trans hpath
  have hreplace : replaceFile noFault k.directory.restoreTmp
      (setPorts ports (insertItem (str "ip") (.str ip)
        (rewrittenItems "127.0.0.1" items tunnelPorts))) = (.ok written, .absent) := by
    rw [rewrittenItems, hitems]
    exact replaceFile_of_writes hwritten (noFault_writes _)
  refine ⟨written, hloads, ?_⟩
  simp only [restoreConnectionFile, hnonempty, if_false, hvalid, hfile, hne, noFault,
    h.opens.no_link, Bool.false_eq_true, or_self, hbytes]
  rw [hreplace]

end RoundTrip

/-- **There and back.**  From every Jupyter connection, `rewrite_connection_file` with five valid
ports moves the document and the kernel manager to the tunnel, and `restore_connection_file` with
what it returned moves both back: the file parses to the original document.  And a document or a
sequence of ports is accepted exactly where it has five distinct ports. -/
theorem connection_file_round_trip :
    (∀ (py : PythonLibrary) (k : KernelConnection) (items : List (Str × Value)) (ip : Str)
        (ports tunnelPorts : List ℤ), JupyterConnection k items ip ports → ValidPorts tunnelPorts →
        ∃ k₁ k₂,
          rewriteConnectionFile noFault py "127.0.0.1" (some (.iterable (tunnelPorts.map .int))) k
              = (.ok ⟨ip, ports, tunnelPorts⟩, k₁)
            ∧ DocumentCarries k₁ items (str "127.0.0.1") tunnelPorts
            ∧ k₁.parent.Carries (str "127.0.0.1") tunnelPorts
            ∧ restoreConnectionFile noFault (some ip) (ports.map .int) k₁ = (.ok (), k₂)
            ∧ k₂.document = some (.dict items) ∧ k₂.parent.Carries ip ports)
      ∧ ∀ (py : PythonLibrary) (k : KernelConnection) (items : List (Str × Value))
        (sequence : Option PortSequence), Opens noFault k.parent k.directory items →
        ((∃ result k', rewriteConnectionFile noFault py "127.0.0.1" sequence k = (.ok result, k'))
          ↔ (∃ ports, ValidPorts ports ∧ PortFields (lookup items) ports)
            ∧ (sequence = none ∨ ∃ ports, ValidPorts ports
              ∧ sequence = some (.iterable (ports.map .int)))) := by
  constructor
  · intro py k items ip ports tunnelPorts h htunnel
    obtain ⟨bytes, hbytes, hrewrite⟩ := rewrite_to_tunnel py h htunnel
    obtain ⟨written, hwritten, hrestore⟩ := restore_from_tunnel h htunnel hbytes
    have hfields := lookup_setAll (str "127.0.0.1") items htunnel
    have hkeys := keys_setAll (str "127.0.0.1") htunnel (mem_keys_of_lookup h.ip)
      fun key hkey => h.ports.2.mem_keys hkey
    exact ⟨_, _, hrewrite, ⟨_, hbytes, hfields.1, hfields.2.1, hkeys, hfields.2.2⟩,
      (value_setAll _ _ htunnel).1, hrestore, hwritten, (value_setAll _ _ h.ports.1).1⟩
  · intro py k items sequence hopens
    constructor
    · rintro ⟨result, k', hok⟩
      rcases rewrite_cases noFault py "127.0.0.1" sequence
        k with ⟨e, hrefused, -⟩ | ⟨items', originalPorts, tunnelPorts, haccepted⟩
      · rw [hrefused] at hok
        cases hok
      · have hsame : items' = items := by
          have hread := readConnection_eq_ok.mpr haccepted.opens
          rw [readConnection_eq_ok.mpr hopens, Except.ok.injEq] at hread
          exact hread.symm
        subst hsame
        refine ⟨⟨originalPorts, haccepted.original⟩, ?_⟩
        rcases haccepted.tunnel with ⟨hnone, -⟩ | ⟨hvalid, hsome⟩
        · exact .inl hnone
        · exact .inr ⟨tunnelPorts, hvalid, hsome⟩
    · rintro ⟨⟨originalPorts, horiginal⟩, hsequence⟩
      have haccepted : ∃ tunnelPorts,
          Accepted noFault py "127.0.0.1" sequence k items originalPorts tunnelPorts := by
        rcases hsequence with hnone | ⟨tunnelPorts, hvalid, hsome⟩
        · exact ⟨originalPorts, py.ipAddress_loopback, hopens, horiginal, .inl ⟨hnone, rfl⟩⟩
        · exact ⟨tunnelPorts, py.ipAddress_loopback, hopens, horiginal, .inr ⟨hvalid, hsome⟩⟩
      obtain ⟨tunnelPorts, haccepted⟩ := haccepted
      obtain ⟨bytes, hbytes, -⟩ := documentBytes_of_readable (readable_rewritten haccepted)
      have hrewrite := rewrite_of_accepted haccepted
      rw [replaceFile_of_writes hbytes (noFault_writes _)] at hrewrite
      exact ⟨_, _, hrewrite⟩

/-- The sample goes to the tunnel and back. -/
theorem connection_file_round_trip_sample :
    ∃ k₁ k₂,
      rewriteConnectionFile noFault sampleLibrary "127.0.0.1"
          (some (.iterable ([11, 12, 13, 14, 15].map .int))) sampleConnection
          = (.ok ⟨str "10.0.0.1", [1, 2, 3, 4, 5], [11, 12, 13, 14, 15]⟩, k₁)
        ∧ DocumentCarries k₁ sampleItems (str "127.0.0.1") [11, 12, 13, 14, 15]
        ∧ k₁.parent.Carries (str "127.0.0.1") [11, 12, 13, 14, 15]
        ∧ restoreConnectionFile noFault (some (str "10.0.0.1")) ([1, 2, 3, 4, 5].map .int) k₁
            = (.ok (), k₂)
        ∧ k₂.document = some (.dict sampleItems)
        ∧ k₂.parent.Carries (str "10.0.0.1") [1, 2, 3, 4, 5] :=
  connection_file_round_trip.1 sampleLibrary sampleConnection sampleItems (str "10.0.0.1")
    [1, 2, 3, 4, 5] [11, 12, 13, 14, 15] ⟨sample_opens (by decide), rfl, sample_ports⟩
    ⟨rfl, by decide, by decide⟩

end FreebsdLaboratory
