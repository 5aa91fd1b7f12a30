import FreebsdLaboratory.Model.Socket
import FreebsdLaboratory.Properties.RemoteConnection
import FreebsdLaboratory.Properties.Responses
import FreebsdLaboratory.Tunnels.Names
import FreebsdLaboratory.Library.JsonItems
import FreebsdLaboratory.Library.JsonPrefix

/-!
# A call over the socket is a call of the method

What the client encodes is one line of printing ASCII (`loads_dumpsLine`), so that the daemon's
`readline` and the client's `_read_line` each find the end of it, and it loads as the dictionary
that was written, sorted by key.  `_dispatch` only looks fields up, which sorting does not change
(`parseAction_congr`).  A request that is cut short is no JSON (`loads_append`), and the daemon does
nothing.  `call_over_socket` puts the two directions together.
-/

namespace FreebsdLaboratory

open Library Library.Unicode Library.Json RuntimeClient

variable {m : RuntimeManager} {peer : PeerCredentials} (number : FloatLiteral → Json)
  (shown : Value → Str) {socketPath : String} {chunks : List (List ℕ)} {t rest : Str}

/-! ## What a call comes to -/

/-- A request that has arrived: the method, and what it raises as a reply. -/
def Action.run (m : RuntimeManager) (peer : PeerCredentials) (action : Action) : Program Reply :=
  Prog.tryCatch (do return .ok (← perform m peer action)) fun error => pure (.error error)

/-- What the client makes of the document of a reply: the result by its keys, or the daemon's error
text. -/
def Reply.told (m : RuntimeManager) : Reply → Except ControlError (List (Str × Value))
  | .ok result => .ok (sortItems (Value.normalItems result.document))
  | .error e =>
      .error (.control (str (if e.text m = "" then "runtime operation failed" else e.text m)))
  | .none => .error (.reading closedWithoutResponse)

/-- What the client makes of a reply. -/
def Reply.seen (m : RuntimeManager) (reply : Reply) : Except ControlError (List (Str × Value)) :=
  if ((reply.encoded m).getD []).length > MAX_RESPONSE_BYTES + 1 then
    .error (.reading sizeLimitExceeded)
  else reply.told m

/-- `recv` hands out a reply, all of it or up to where it raises. -/
def Hands (recv : List ℕ → Received) : Prop :=
  ∀ bytes, ∃ n, Delivers (recv bytes).chunks (bytes.take n)
    ∧ ((recv bytes).failure = none → bytes.length ≤ n)

def Channel.Hands : Channel → Prop
  | .connected recv => FreebsdLaboratory.Hands recv
  | .unreachable _ | .broken _ _ => True

/-- The daemon gets the request, but perhaps for the newline, and within the limit. -/
def Channel.Arrives (sent : List ℕ) : Channel → Prop
  | .unreachable _ => False
  | .broken got _ => sent.length ≤ got + 1 ∧ min got sent.length ≤ MAX_REQUEST_BYTES
  | .connected _ => sent.length ≤ MAX_REQUEST_BYTES

/-- What the client makes of a reply: what it says, unless the socket raises before the line has
ended. -/
def Channel.told (m : RuntimeManager) (socketPath : String) (reply : Reply) :
    Channel → Except ControlError (List (Str × Value))
  | .unreachable error | .broken _ error => .error (unavailable socketPath error)
  | .connected recv =>
      let received := recv ((reply.encoded m).getD [])
      match received.failure with
      | some error =>
          if 10 ∉ received.chunks.flatten ∧ received.chunks.flatten.length ≤ MAX_RESPONSE_BYTES then
            .error (unavailable socketPath error)
          else reply.seen m
      | none => reply.seen m

/-! ## One line -/

lemma newline_notMem (h : Printing t) : 10 ∉ t := by
  intro hmem
  have := (h 10 hmem).1
  omega

lemma takeWhile_line (h : Printing t) : (t ++ 10 :: rest).takeWhile (· ≠ 10) = t := by
  rw [takeWhile_append_of_not_mem _ (newline_notMem h), List.takeWhile_cons_of_neg (by simp),
    List.append_nil]

/-- `readline` reads a text without a newline to its end, or to the limit. -/
lemma readline_end (h : 10 ∉ t) (limit : ℕ) : readline t limit = t.take limit := by
  have hplain : ∀ c ∈ t, decide (c ≠ 10) = true := by
    intro c hc
    refine decide_eq_true ?_
    rintro rfl
    exact h hc
  have htake : t.takeWhile (· ≠ 10) = t := List.takeWhile_eq_self_iff.mpr hplain
  have hdrop : t.dropWhile (· ≠ 10) = [] := List.dropWhile_eq_nil_iff.mpr hplain
  rw [readline, htake, hdrop, List.take_nil, List.append_nil]

/-- `readline` stops behind the newline, or at the limit. -/
lemma readline_line (h : Printing t) (limit : ℕ) :
    readline (t ++ 10 :: rest) limit = (t ++ [10]).take limit := by
  have hdrop : (t ++ 10 :: rest).dropWhile (· ≠ 10) = 10 :: rest := by
    have happend := List.takeWhile_append_dropWhile (p := (· ≠ 10)) (l := t ++ 10 :: rest)
    rw [takeWhile_line h] at happend
    exact List.append_cancel_left happend
  rw [readline, takeWhile_line h, hdrop, List.take_succ_cons, List.take_zero]

/-- `_read_line` finds the line, in every delivery. -/
lemma readLine_line (h : Printing t) (hchunks : Delivers chunks (t ++ [10])) :
    readLine chunks
      = if t.length > MAX_RESPONSE_BYTES then .error sizeLimitExceeded else .ok t := by
  have hloop : RuntimeClient.finish (readChunks [] 0 chunks) = lineOf ([] ++ chunks).flatten :=
    finish_readChunks (by simp) (by simp) hchunks.nonempty
  have hline : lineOf (t ++ [10])
      = if t.length > MAX_RESPONSE_BYTES then .error sizeLimitExceeded else .ok t := by
    have hne : t ++ [10] ≠ [] := by simp
    simp only [lineOf, takeWhile_line h, hne, if_false]
  rw [List.nil_append, hchunks.flatten, hline] at hloop
  exact hloop

/-- The newline is no part of the text. -/
lemma decode_line (h : Printing t) : decode (t ++ [10]) = some (t ++ [10]) := by
  refine decode_encode (encode_ascii ?_)
  intro c hc
  rcases List.mem_append.mp hc with hc | hc
  · exact h.lt c hc
  · obtain rfl := List.mem_singleton.mp hc
    omega

/-! ## The fields of a request -/

lemma scalarText_str (s : String) : scalarText (str s) = some s := by
  have hall : (str s).all isScalar = true :=
    List.all_eq_true.mpr (encodable_str s)
  rw [scalarText, if_pos hall, str, List.map_map]
  have hid : Char.ofNat ∘ Char.toNat = id := by
    funext c
    exact Char.ofNat_toNat c
  rw [hid, List.map_id, String.ofList_toList]

lemma jsonOf_value {j : Json} {v : Value} (h : j.value = some v) :
    jsonOf number v = some j ∧ v.normal = v := by
  cases j with
  | null =>
      cases h
      exact ⟨rfl, rfl⟩
  | bool b =>
      cases h
      exact ⟨rfl, rfl⟩
  | int z =>
      cases h
      exact ⟨rfl, rfl⟩
  | str s =>
      cases h
      refine ⟨?_, rfl⟩
      rw [jsonOf, scalarText_str]
      rfl
  | float q => cases h
  | compound => cases h

/-- The fields that were written are read. -/
lemma mapM_fieldOf {fields : List (String × Json)} {items : List (Str × Value)}
    (h : fields.mapM itemOf = some items) :
    (Value.normalItems items).mapM (fieldOf number) = some fields
      ∧ items.map Prod.fst = fields.map fun field => str field.1 := by
  induction fields generalizing items with
  | nil =>
      cases h
      exact ⟨rfl, rfl⟩
  | cons field fields ih =>
      obtain ⟨key, j⟩ := field
      rw [List.mapM_cons] at h
      cases hv : j.value with
      | none => simp [itemOf, hv] at h
      | some v =>
          cases hrest : fields.mapM itemOf with
          | none => simp [itemOf, hv, hrest] at h
          | some items' =>
              obtain rfl : (str key, v) :: items' = items := by simpa [itemOf, hv, hrest] using h
              obtain ⟨hread, hkeys⟩ := ih hrest
              obtain ⟨hj, hnormal⟩ := jsonOf_value number hv
              refine ⟨?_, by rw [List.map_cons, List.map_cons, hkeys]⟩
              rw [Value.normalItems, List.mapM_cons, hread, hnormal]
              simp [fieldOf, scalarText_str, hj]

lemma exists_field {fields : List (String × Json)} {items : List (Str × Value)}
    (h : fields.mapM itemOf = some items) : ∀ item ∈ items, ∃ field, itemOf field = some item := by
  induction fields generalizing items with
  | nil =>
      cases h
      simp
  | cons field fields ih =>
      rw [List.mapM_cons] at h
      simp only [Option.bind_eq_bind, Option.bind_eq_some_iff] at h
      obtain ⟨item, hitem, items', hitems', hcons⟩ := h
      obtain rfl := Option.some.inj hcons
      exact List.forall_mem_cons.mpr ⟨⟨field, hitem⟩, ih hitems'⟩

/-- Elements that are all taken are taken in any order. -/
lemma mapM_of_perm {α β : Type} {f : α → Option β} {as bs : List α} (h : as.Perm bs) {cs : List β}
    (has : as.mapM f = some cs) : ∃ ds, bs.mapM f = some ds ∧ cs.Perm ds := by
  induction h generalizing cs with
  | nil => exact ⟨cs, has, .refl _⟩
  | cons a _ ih =>
      rw [List.mapM_cons] at has
      simp only [Option.bind_eq_bind, Option.bind_eq_some_iff] at has
      obtain ⟨c, hc, cs', hcs', hcons⟩ := has
      obtain ⟨ds, hds, hperm⟩ := ih hcs'
      obtain rfl := Option.some.inj hcons
      refine ⟨c :: ds, ?_, hperm.cons c⟩
      rw [List.mapM_cons, hc, hds]
      rfl
  | swap a b as =>
      simp only [List.mapM_cons, Option.bind_eq_bind, Option.bind_eq_some_iff] at has
      obtain ⟨c, hc, _, ⟨d, hd, cs', hcs', htail⟩, hcons⟩ := has
      obtain rfl := Option.some.inj htail
      obtain rfl := Option.some.inj hcons
      refine ⟨d :: c :: cs', ?_, .swap d c cs'⟩
      rw [List.mapM_cons, List.mapM_cons, hc, hd, hcs']
      rfl
  | trans _ _ ih ih' =>
      obtain ⟨ds, hds, hperm⟩ := ih has
      obtain ⟨es, hes, hperm'⟩ := ih' hds
      exact ⟨es, hes, hperm.trans hperm'⟩

/-- Looking up does not depend on the order of fields with different keys. -/
lemma lookup_of_perm {fields fields' : List (String × Json)} (h : fields.Perm fields')
    (hnodup : (fields.map Prod.fst).Nodup) (key : String) :
    fields'.lookup key = fields.lookup key := by
  induction h with
  | nil => rfl
  | cons field _ ih =>
      rw [List.map_cons, List.nodup_cons] at hnodup
      rw [List.lookup_cons, List.lookup_cons, ih hnodup.2]
  | swap f g fields =>
      obtain ⟨k, j⟩ := f
      obtain ⟨k', j'⟩ := g
      have hne : k' ≠ k := by
        intro heq
        simp [heq] at hnodup
      simp only [List.lookup_cons]
      by_cases hk : key = k
      · subst hk
        have hk' : (key == k') = false := by simpa using hne.symm
        rw [hk', BEq.rfl]
      · have hbeq : (key == k) = false := by simpa using hk
        rw [hbeq]
  | trans h _ ih ih' =>
      have hnodup' := (h.map Prod.fst).nodup_iff.mp hnodup
      rw [ih' hnodup', ih hnodup]

/-- `_dispatch` only looks fields up. -/
lemma parseAction_congr {fields fields' : List (String × Json)}
    (h : ∀ key, fields'.lookup key = fields.lookup key) : parseAction fields'
    = parseAction fields := by
  have hfield : field fields' = field fields := by
    funext key
    rw [field, field, h]
  have hstring : stringField fields' = stringField fields := by
    funext key
    rw [stringField, stringField, hfield]
  have howner : ownerPidField fields' = ownerPidField fields := by
    rw [ownerPidField, ownerPidField, hfield]
  simp only [parseAction, hfield, hstring, howner, h]

/-- Only what is written has a text. -/
lemma written_of_dumps {items : List (Str × Value)} {t : Str}
    (h : dumpsLine (.dict items) = .ok t) :
    ∀ item ∈ items, ∃ u, dumpsLine item.2 = .ok u := by
  intro item hitem
  have hmap : dumpsLineItems items = items.map fun item => (item.1, dumpsLine item.2) := by
    clear h hitem
    induction items with
    | nil => rfl
    | cons item items ih => rw [dumpsLineItems, List.map_cons, ih]
  have hmem : (item.1, dumpsLine item.2) ∈ sortItems (dumpsLineItems items) := by
    rw [(sortItems_perm _).mem_iff, hmap]
    exact List.mem_map_of_mem (f := fun item => (item.1, dumpsLine item.2)) hitem
  rw [dumpsLine] at h
  cases hts : (sortItems (dumpsLineItems items)).mapM lineItem with
  | error e => simp [hts, Except.map] at h
  | ok ts =>
      obtain ⟨u, -, hu⟩ := exists_of_forall₂_left (forall₂_of_mapM hts).flip hmem
      cases htext : dumpsLine item.2 with
      | error e => simp [lineItem, htext, Except.map] at hu
      | ok w => exact ⟨w, rfl⟩

lemma unpaired_str (s : String) : Unpaired (str s) := unpaired_of_encodable (encodable_str s)

/-- The document of a request that is written can be read. -/
lemma readable_document {fields : List (String × Json)} {items : List (Str × Value)} {t : Str}
    (h : fields.mapM itemOf = some items) (hnodup : (fields.map Prod.fst).Nodup)
    (hdumps : dumpsLine (.dict items) = .ok t) : (Value.dict items).Readable := by
  have hkeys := (mapM_fieldOf (fun _ => .null) h).2
  refine ⟨?_, Value.readableItems_iff.mpr fun item hitem => ?_⟩
  · have hinj : Function.Injective str := fun _ _ => str_injective
    have hmap : (fields.map fun field => str field.1) = (fields.map Prod.fst).map str := by simp
    rw [hkeys, hmap]
    exact hnodup.map hinj
  · obtain ⟨⟨key, j⟩, hfield⟩ := exists_field h item hitem
    obtain ⟨u, hu⟩ := written_of_dumps hdumps item hitem
    obtain ⟨v, hv, rfl⟩ := Option.map_eq_some_iff.mp hfield
    refine ⟨unpaired_str key, ?_⟩
    cases j with
    | null =>
        cases hv
        trivial
    | bool b =>
        cases hv
        trivial
    | int z =>
        cases hv
        rw [dumpsLine, intText] at hu
        split_ifs at hu with hlength
        · exact hlength
        · exact hlength
    | str s =>
        cases hv
        exact unpaired_str s
    | float q => cases hv
    | compound => cases hv

/-! ## The request -/

lemma getLast?_joinTexts (close : ℕ) (ts : List Str) : (joinTexts close ts).getLast?
    = some close := by
  induction ts with
  | nil => rfl
  | cons u us ih =>
      cases us with
      | nil => exact List.getLast?_concat
      | cons w ws =>
          have hne : joinTexts close (w :: ws) ≠ [] := by
            intro hnil
            rw [hnil] at ih
            cases ih
          rw [joinTexts, List.getLast?_append_of_ne_nil _ (by simp),
            List.getLast?_cons_of_ne_nil hne, ih]
          · exact List.cons_ne_nil w ws

/-- A dictionary is written in braces. -/
lemma braces_of_dumpsLine {items : List (Str × Value)} (h : dumpsLine (.dict items) = .ok t) :
    t.head? = some 123 ∧ t.getLast? = some 125 := by
  rw [dumpsLine] at h
  cases hitems : (sortItems (dumpsLineItems items)).mapM lineItem with
  | error e => simp [hitems, Except.map] at h
  | ok ts =>
      obtain rfl : 123 :: joinTexts 125 ts = t := by simpa [hitems, Except.map] using h
      have hlast := getLast?_joinTexts 125 ts
      have hne : joinTexts 125 ts ≠ [] := by
        intro hnil
        rw [hnil] at hlast
        cases hlast
      exact ⟨rfl, by rw [List.getLast?_cons_of_ne_nil hne, hlast]⟩

/-- What the client sends is a line, which loads as the fields. -/
structure IsLine (fields : List (String × Json)) (t : Str) : Prop where
  printing : Printing t
  loads : ∃ items, fields.mapM itemOf = some items ∧ ∀ rest, (∀ c ∈ rest, isWhite c = true) →
    Json.loads (t ++ rest) = some (.dict (sortItems (Value.normalItems items)))
  braces : t.head? = some 123 ∧ t.getLast? = some 125

lemma exists_line {fields : List (String × Json)} {sent : List ℕ}
    (hnodup : (fields.map Prod.fst).Nodup) (h : (RawRequest.object fields).encoded = some sent) :
    ∃ t, sent = t ++ [10] ∧ IsLine fields t := by
  simp only [RawRequest.encoded, RawRequest.document, Option.bind_eq_bind, Option.bind_eq_some_iff,
    Option.map_eq_some_iff] at h
  obtain ⟨_, ⟨items, hitems, rfl⟩, text, htext, bytes, hbytes, hsent⟩ := h
  have hdumps : dumpsLine (.dict items) = .ok text := by
    cases hd : dumpsLine (.dict items) with
    | error e => simp [hd, Except.toOption] at htext
    | ok u =>
        obtain rfl : u = text := by simpa [hd, Except.toOption] using htext
        rfl
  obtain ⟨t, ht, hprinting, hloads⟩ := loads_dumpsLine (readable_document hitems hnodup hdumps)
  obtain rfl : t = text := Except.ok.inj (ht.symm.trans hdumps)
  obtain rfl : t = bytes := Option.some.inj ((encode_ascii hprinting.lt).symm.trans hbytes)
  exact ⟨t, (Option.some.inj hsent).symm, hprinting, ⟨items, hitems, hloads⟩,
    braces_of_dumpsLine hdumps⟩

/-- **The daemon reads the fields the client has written**, in some order, or finds the request too
long, with the newline or without. -/
lemma readRequest_of_readline {fields : List (String × Json)} {stream tail : List ℕ}
    (hnodup : (fields.map Prod.fst).Nodup) (hline : IsLine fields t)
    (htail : tail = [] ∨ tail = [10])
    (hstream : readline stream (MAX_REQUEST_BYTES + 1) = (t ++ tail).take (MAX_REQUEST_BYTES + 1)) :
    if (t ++ tail).length ≤ MAX_REQUEST_BYTES then
      ∃ fields', readRequest number stream = some (.object fields')
        ∧ ∀ key, fields'.lookup key = fields.lookup key
    else readRequest number stream = some .oversized := by
  have htake : (t ++ tail).take (MAX_REQUEST_BYTES + 1) ≠ [] := by
    obtain ⟨s, rfl⟩ : ∃ s, t = 123 :: s := by
      cases t with
      | nil => cases hline.braces.1
      | cons c s => exact ⟨s, by rw [Option.some.inj hline.braces.1]⟩
    simp
  rw [readRequest, hstream]
  by_cases hlength : (t ++ tail).length ≤ MAX_REQUEST_BYTES
  · obtain ⟨items, hitems, hloads⟩ := hline.loads
    obtain ⟨fields', hfields', hperm⟩ :=
      mapM_of_perm (sortItems_perm (Value.normalItems items)).symm
        (mapM_fieldOf number hitems).1
    have hwhole : (t ++ tail).take (MAX_REQUEST_BYTES + 1) = t ++ tail :=
      List.take_of_length_le (by omega)
    have hload : loads (t ++ tail) = some (.dict (sortItems (Value.normalItems items))) :=
      hloads tail (by rcases htail with rfl | rfl <;> decide)
    have hdecode : decode (t ++ tail) = some (t ++ tail) := by
      rcases htail with rfl | rfl
      · rw [List.append_nil]
        exact decode_encode (encode_ascii hline.printing.lt)
      · exact decode_line hline.printing
    rw [if_pos hlength]
    refine ⟨fields', ?_, lookup_of_perm hperm hnodup⟩
    rw [hwhole] at htake ⊢
    simp only [htake, if_false, gt_iff_lt, not_lt.mpr hlength, hdecode, Option.bind_some, hload,
      hfields', Option.map_some]
  · have hlong : ((t ++ tail).take (MAX_REQUEST_BYTES + 1)).length > MAX_REQUEST_BYTES := by
      rw [List.length_take]
      omega
    rw [if_neg hlength]
    simp only [htake, if_false, hlong, if_true]

/-- **A request that is cut short is none.** -/
lemma readRequest_cut {fields : List (String × Json)} {got : ℕ} (hline : IsLine fields t)
    (hcut : got < t.length) : ∃ request, readRequest number (t.take got) = some request
      ∧ (request = .nothing ∨ request = .oversized ∨ request = .undecodable) := by
  have hprinting : Printing (t.take got) := fun c hc => hline.printing c (List.mem_of_mem_take hc)
  rw [readRequest, readline_end (newline_notMem hprinting)]
  by_cases hnil : (t.take got).take (MAX_REQUEST_BYTES + 1) = []
  · exact ⟨.nothing, by simp only [hnil, if_true], .inl rfl⟩
  by_cases hlong : ((t.take got).take (MAX_REQUEST_BYTES + 1)).length > MAX_REQUEST_BYTES
  · exact ⟨.oversized, by simp only [hnil, if_false, hlong, if_true], .inr (.inl rfl)⟩
  have hshort : (t.take got).take (MAX_REQUEST_BYTES + 1) = t.take got := by
    refine List.take_of_length_le ?_
    rw [List.length_take] at hlong
    omega
  have hload : loads (t.take got) = none := by
    cases hfound : loads (t.take got) with
    | none => rfl
    | some v =>
        obtain ⟨items, -, hloads⟩ := hline.loads
        have hwhole := hloads [] (by simp)
        rw [List.append_nil, ← List.take_append_drop got t] at hwhole
        have hhead : (t.take got).head? = some 123 := by
          rw [hshort] at hnil
          rw [List.head?_take, if_neg (fun h => hnil (by rw [h, List.take_zero]))]
          exact hline.braces.1
        obtain ⟨-, hwhite⟩ := loads_append hhead hfound hwhole
        -- what is missing ends with the brace
        have hbrace : 125 ∈ t.drop got := by
          refine List.mem_of_getLast? ?_
          rw [List.getLast?_drop, if_neg (by omega)]
          exact hline.braces.2
        have hall := List.dropWhile_eq_nil_iff.mp hwhite 125 hbrace
        exact absurd hall (by decide)
  refine ⟨.undecodable, ?_, .inr (.inr rfl)⟩
  simp only [hshort] at hnil hlong ⊢
  simp only [hnil, if_false, hlong, decode_encode (encode_ascii hprinting.lt),
    Option.bind_some, hload]

/-! ## The reply -/

lemma readable_textValues (xs : List String) : (textValues xs).Readable := by
  refine ⟨rfl, ?_⟩
  induction xs with
  | nil => trivial
  | cons x xs ih => exact ⟨unpaired_str x, ih⟩

/-- A dictionary with the keys of the source can be read, where its values can. -/
lemma readable_itemsOf {items : List (String × Value)} (hnodup : (items.map Prod.fst).Nodup)
    (h : ∀ item ∈ items, item.2.Readable) : (Value.dict (itemsOf items)).Readable := by
  have hinj : Function.Injective str := fun _ _ => str_injective
  have hkeys : (itemsOf items).map Prod.fst = (items.map Prod.fst).map str := by
    simp [itemsOf]
  refine ⟨by rw [hkeys]; exact hnodup.map hinj, Value.readableItems_iff.mpr ?_⟩
  intro item hitem
  obtain ⟨⟨key, v⟩, hmem, rfl⟩ := List.mem_map.mp hitem
  exact ⟨unpaired_str key, h _ hmem⟩

lemma readable_errors (errors : List (String × String)) {items : List (Str × Value)}
    (h : (Value.dict items).Readable) :
    (Value.dict (errors.foldl
      (fun errors (name, detail) => Value.insertItem (str name) (textValue detail) errors)
      items)).Readable := by
  induction errors generalizing items with
  | nil => exact h
  | cons entry errors ih =>
      exact ih (readable_insertItem h (unpaired_str entry.1) (unpaired_str entry.2))

/-- Every result can be written. -/
lemma readable_result (result : Result) : (Value.dict result.document).Readable := by
  have htext : ∀ s, (textValue s).Readable := unpaired_str
  cases result with
  | pong =>
      refine readable_itemsOf (by decide) ?_
      simp only [List.forall_mem_cons, List.not_mem_nil, false_imp_iff, implies_true, and_true]
      exact ⟨htext _, readable_port (by decide), readable_textValues _, readable_textValues _⟩
  | created result =>
      obtain ⟨name, type, profile, guestOs, guestIp, networkCidr, bridge, interface⟩ := result
      refine readable_itemsOf ?_ ?_
      · cases profile <;> cases guestOs <;> simp
      · cases profile <;> cases guestOs <;> simp [htext]
  | destroyed result =>
      refine readable_itemsOf (by simp) ?_
      simp only [List.forall_mem_cons, List.not_mem_nil, false_imp_iff, implies_true, and_true]
      exact ⟨htext _, readable_textValues _⟩
  | collected report =>
      refine readable_itemsOf (by simp) ?_
      simp only [List.forall_mem_cons, List.not_mem_nil, false_imp_iff, implies_true, and_true]
      exact ⟨readable_textValues _, readable_textValues _, readable_textValues _,
        readable_textValues _, readable_errors _ ⟨by simp, trivial⟩, trivial⟩

/-- A document that can be read makes one line, and the client looks its items up. -/
lemma receive_document {document : List (Str × Value)} (h : (Value.dict document).Readable) :
    ∃ t, dumpsLine (.dict document) = .ok t ∧ Printing t
      ∧ ∀ {chunks}, Delivers chunks (t ++ [10]) → receive shown socketPath ⟨chunks, none⟩
        = if (t ++ [10]).length > MAX_RESPONSE_BYTES + 1 then .error (.reading sizeLimitExceeded)
          else resultOf shown (sortItems (Value.normalItems document)) := by
  obtain ⟨t, ht, hprinting, hloads⟩ := loads_dumpsLine h
  have hencode := encode_ascii hprinting.lt
  have hload : loads t = some (.dict (sortItems (Value.normalItems document))) := by
    have := hloads [] (by simp)
    rwa [List.append_nil] at this
  refine ⟨t, ht, hprinting, fun hdeliver => ?_⟩
  rw [receive]
  dsimp only
  rw [readLine_line hprinting hdeliver, List.length_append, List.length_singleton]
  by_cases hlength : t.length > MAX_RESPONSE_BYTES
  · rw [if_pos hlength, if_pos (by omega)]
    rfl
  · rw [if_neg hlength, if_neg (by omega)]
    change response shown t = _
    rw [response, decode_encode hencode, Option.bind_some, hload]

lemma encoded_of_document {reply : Reply} {document : List (Str × Value)} {t : Str}
    (h : reply.document m = some document) (ht : dumpsLine (.dict document) = .ok t)
    (hprinting : Printing t) : reply.encoded m = some (t ++ [10]) := by
  have hencode := encode_ascii hprinting.lt
  rw [Reply.encoded, h]
  simp only [ht, Except.toOption, Option.bind_eq_bind, Option.bind_some, hencode, Option.pure_def]

/-- Every reply can be written, and the client is told what is in it. -/
lemma told_of_document {reply : Reply} {document : List (Str × Value)}
    (h : reply.document m = some document) :
    (Value.dict document).Readable
      ∧ resultOf shown (sortItems (Value.normalItems document)) = reply.told m := by
  cases reply with
  | ok result =>
      obtain rfl := Option.some.inj h
      have hreadable : (Value.dict
          (itemsOf [("ok", .bool true), ("result", .dict result.document)])).Readable := by
        refine readable_itemsOf (by simp) ?_
        simp only [List.forall_mem_cons, List.not_mem_nil, false_imp_iff, implies_true, and_true]
        exact ⟨trivial, readable_result result⟩
      refine ⟨hreadable, ?_⟩
      have hok : Value.lookup (itemsOf [("ok", .bool true), ("result", .dict result.document)])
          (str "ok") = some (.bool true) := rfl
      have hresult : Value.lookup (itemsOf [("ok", .bool true), ("result", .dict result.document)])
          (str "result") = some (.dict result.document) := rfl
      rw [resultOf, lookup_readBack hreadable.1, lookup_readBack hreadable.1, hok, hresult]
      rfl
  | error e =>
      obtain rfl := Option.some.inj h
      have hreadable : (Value.dict
          (itemsOf [("ok", .bool false), ("error", textValue (e.text m))])).Readable := by
        refine readable_itemsOf (by simp) ?_
        simp only [List.forall_mem_cons, List.not_mem_nil, false_imp_iff, implies_true, and_true]
        exact ⟨trivial, unpaired_str _⟩
      refine ⟨hreadable, ?_⟩
      have hok : Value.lookup (itemsOf [("ok", .bool false), ("error", textValue (e.text m))])
          (str "ok") = some (.bool false) := rfl
      have herror : Value.lookup (itemsOf [("ok", .bool false), ("error", textValue (e.text m))])
          (str "error") = some (.str (str (e.text m))) := rfl
      have hdetail : detailText shown (sortItems (Value.normalItems
          (itemsOf [("ok", .bool false), ("error", textValue (e.text m))])))
            = str (if e.text m = "" then "runtime operation failed" else e.text m) := by
        rw [detailText, lookup_readBack hreadable.1, herror]
        by_cases hempty : e.text m = ""
        · rw [if_pos hempty, hempty]
          rfl
        · have hstr : str (e.text m) ≠ [] := fun heq =>
            hempty (str_injective (heq : str (e.text m) = str ""))
          rw [if_neg hempty]
          exact if_neg hstr
      rw [resultOf, lookup_readBack hreadable.1, hok]
      exact congrArg (Except.error ∘ ControlError.control) hdetail
  | none => cases h

/-- **The client makes of the bytes of a reply what the reply says**, in every delivery; the bytes
are none or a line. -/
theorem receive_encoded (reply : Reply) :
    ∃ answer, reply.encoded m = some answer ∧ (answer = [] ∨ ∃ t, Printing t ∧ answer = t ++ [10])
      ∧ ∀ {chunks}, Delivers chunks answer →
        receive shown socketPath ⟨chunks, none⟩ = reply.seen m := by
  cases hdocument : reply.document m with
  | none =>
      have hnone : reply = .none := by
        cases reply with
        | ok result => cases hdocument
        | error e => cases hdocument
        | none => rfl
      subst hnone
      refine ⟨[], rfl, .inl rfl, fun {chunks} hdeliver => ?_⟩
      have hchunks : chunks = [] := by
        by_contra hne
        obtain ⟨chunk, hchunk⟩ := List.exists_mem_of_ne_nil _ hne
        have hflat := hdeliver.flatten
        rw [List.flatten_eq_nil_iff] at hflat
        exact hdeliver.nonempty chunk hchunk (hflat chunk hchunk)
      rw [hchunks]
      rfl
  | some document =>
      obtain ⟨hreadable, htold⟩ := told_of_document shown hdocument
      obtain ⟨t, ht, hprinting, hreceive⟩ := receive_document shown hreadable
      have hanswer := encoded_of_document hdocument ht hprinting
      refine ⟨t ++ [10], hanswer, .inr ⟨t, hprinting, rfl⟩, fun hdeliver => ?_⟩
      rw [hreceive hdeliver, htold, Reply.seen, hanswer, Option.getD_some]

/-- The loop asks on exactly where the line has not ended and the limit is kept. -/
lemma asksOn_iff {size : ℕ} (hne : ∀ chunk ∈ chunks, chunk ≠ [])
    (hsize : size ≤ MAX_RESPONSE_BYTES) :
    asksOn size chunks = true
      ↔ 10 ∉ chunks.flatten ∧ size + chunks.flatten.length ≤ MAX_RESPONSE_BYTES := by
  induction chunks generalizing size with
  | nil => simp [asksOn, hsize]
  | cons chunk rest ih =>
      rw [List.forall_mem_cons] at hne
      rw [asksOn, List.flatten_cons, List.length_append, List.mem_append, not_or]
      by_cases hlimit : size + chunk.length ≤ MAX_RESPONSE_BYTES
      · simp only [Bool.and_eq_true, decide_eq_true_eq, ih hne.2 hlimit, hlimit]
        constructor
        · rintro ⟨⟨⟨-, hchunk⟩, -⟩, hrest, hlength⟩
          exact ⟨⟨hchunk, hrest⟩, by omega⟩
        · rintro ⟨⟨hchunk, hrest⟩, hlength⟩
          exact ⟨⟨⟨hne.1, hchunk⟩, trivial⟩, hrest, by omega⟩
      · simp only [hlimit, decide_false, Bool.and_false, Bool.false_and,
          Bool.false_eq_true, false_iff, not_and, not_le]
        omega

/-- Where `recv` has handed out more than the limit without a newline, the client gives up. -/
lemma receive_long {failure : Option String} {stream : List ℕ} (hdeliver : Delivers chunks stream)
    (hline : 10 ∉ stream) (hlong : MAX_RESPONSE_BYTES < stream.length) :
    receive shown socketPath ⟨chunks, failure⟩ = .error (.reading sizeLimitExceeded) := by
  have hloop : RuntimeClient.finish (readChunks [] 0 chunks) = lineOf ([] ++ chunks).flatten :=
    finish_readChunks (by simp) (by simp) hdeliver.nonempty
  have hwhole : stream.takeWhile (· ≠ 10) = stream := by
    have happend := takeWhile_append_of_not_mem [] hline
    simpa only [List.append_nil, List.takeWhile_nil] using happend
  have hne : stream ≠ [] := by
    rintro rfl
    simp at hlong
  have hread : readLine chunks = .error sizeLimitExceeded := by
    rw [List.nil_append, hdeliver.flatten] at hloop
    refine hloop.trans ?_
    simp only [lineOf, hwhole, hne, if_false, gt_iff_lt, hlong, if_true]
  have hasks : asksOn 0 chunks = false := by
    rw [Bool.eq_false_iff, Ne, asksOn_iff hdeliver.nonempty (Nat.zero_le _), hdeliver.flatten,
      Nat.zero_add]
    exact fun h => absurd h.2 (not_le.mpr hlong)
  rw [receive]
  simp only [hasks, hread]
  rfl

/-- **The client is told what the channel and the reply say.** -/
theorem receive_told {recv : List ℕ → Received} (hhands : Hands recv) (reply : Reply) :
    ((reply.encoded m).map fun answer => receive shown socketPath (recv answer))
      = some ((Channel.connected recv).told m socketPath reply) := by
  obtain ⟨answer, hanswer, hline, hreceive⟩ := receive_encoded (m := m) shown reply
  obtain ⟨n, hdeliver, hall⟩ := hhands answer
  rw [hanswer, Option.map_some, Option.some.injEq, Channel.told, hanswer, Option.getD_some]
  generalize recv answer = received at *
  obtain ⟨chunks, failure⟩ := received
  cases failure with
  | none =>
      rw [List.take_of_length_le (hall rfl)] at hdeliver
      exact hreceive hdeliver
  | some error =>
      dsimp only at hdeliver ⊢
      by_cases hasks : 10 ∉ chunks.flatten ∧ chunks.flatten.length ≤ MAX_RESPONSE_BYTES
      · have hon : asksOn 0 chunks = true := by
          rw [asksOn_iff hdeliver.nonempty (Nat.zero_le _), Nat.zero_add]
          exact hasks
        rw [if_pos hasks, receive]
        simp only [hon]
      · have hoff : asksOn 0 chunks = false := by
          rw [Bool.eq_false_iff, Ne, asksOn_iff hdeliver.nonempty (Nat.zero_le _), Nat.zero_add]
          exact hasks
        have hsame : receive shown socketPath ⟨chunks, some error⟩
            = receive shown socketPath ⟨chunks, none⟩ := by
          rw [receive, receive]
          simp only [hoff]
        rw [if_neg hasks]
        by_cases hended : 10 ∈ chunks.flatten
        · -- the newline is the last byte
          obtain rfl | ⟨t, hprinting, rfl⟩ := hline
          · rw [hdeliver.flatten, List.take_nil] at hended
            cases hended
          · have hlength : (t ++ [10]).length ≤ n := by
              by_contra hshort
              rw [List.length_append, List.length_singleton] at hshort
              rw [hdeliver.flatten, List.take_append_of_le_length (by omega)] at hended
              exact newline_notMem hprinting (List.mem_of_mem_take hended)
            rw [List.take_of_length_le hlength] at hdeliver
            rw [hsame, hreceive hdeliver]
        · have hlong : MAX_RESPONSE_BYTES < (answer.take n).length := by
            rw [← hdeliver.flatten]
            exact not_le.mp fun h => hasks ⟨hended, h⟩
          rw [receive_long shown hdeliver (hdeliver.flatten ▸ hended) hlong]
          obtain rfl | ⟨t, hprinting, rfl⟩ := hline
          · simp at hlong
          · have hmore : (t ++ [10]).length > MAX_RESPONSE_BYTES + 1 := by
              rw [List.length_take, List.length_append, List.length_singleton] at hlong
              rw [List.length_append, List.length_singleton]
              by_contra hshort
              have hfull : (t ++ [10]).take n = t ++ [10] := by
                refine List.take_of_length_le ?_
                rw [List.length_append, List.length_singleton]
                omega
              rw [hdeliver.flatten, hfull] at hended
              simp at hended
            rw [Reply.seen, hanswer, Option.getD_some, if_pos hmore]

/-! ## A call -/

lemma nodup_request (action : Action) {fields : List (String × Json)}
    (h : action.request = .object fields) : (fields.map Prod.fst).Nodup := by
  cases action <;> cases h <;> simp

lemma parseAction_request (action : Action) {fields : List (String × Json)}
    (h : action.request = .object fields) : parseAction fields = .ok action := by
  cases action <;> cases h <;> rfl

/-- A request whose fields are looked up as the client wrote them is the client's action. -/
lemma handle_object {action : Action} {fields : List (String × Json)}
    (h : parseAction fields = .ok action) : handle m ⟨peer, .object fields⟩
    = action.run m peer := by
  have haction : (⟨peer, .object fields⟩ : Connection).action = .ok action := h
  change Prog.tryCatch (do
      let action ← Program.ofExcept (⟨peer, .object fields⟩ : Connection).action
      return Reply.ok (← perform m peer action)) _ = _
  rw [haction]
  rfl

variable {number} {shown}

/-- The daemon's side of a call, by what it has read. -/
lemma handle_of_readRequest {action : Action} {fields fields' : List (String × Json)}
    (hfields : action.request = .object fields)
    (hlookup : ∀ key, fields'.lookup key = fields.lookup key) :
    handle m ⟨peer, .object fields'⟩ = action.run m peer :=
  handle_object ((parseAction_congr hlookup).trans (parseAction_request action hfields))

/-- **A call over the socket is a call of the method**: for every action and every channel, the
daemon performs exactly the action the client asked for, as the peer, if the request arrives, and
else nothing; and the client returns the result, raises the daemon's error text or reports what the
socket has raised. -/
theorem call_over_socket {channel : Channel} (hhands : channel.Hands)
    {action : Action} {sent : List ℕ}
    (hsent : action.request.encoded = some sent) :
    (channel.Arrives sent → callOverSocket m peer number shown socketPath channel action = some (do
      let reply ← action.run m peer
      return some (channel.told m socketPath reply)))
    ∧ (¬ channel.Arrives sent → ∃ reply,
      (∀ recv, channel = .connected recv →
        reply = .error (.valueError "request exceeded size limit"))
      ∧ callOverSocket m peer number shown socketPath channel action
        = some (pure (some (channel.told m socketPath reply)))) := by
  obtain ⟨fields, hfields⟩ : ∃ fields, action.request = .object fields := by
    cases action <;> exact ⟨_, rfl⟩
  have hnodup := nodup_request action hfields
  obtain ⟨t, rfl, hline⟩ := exists_line hnodup (hfields ▸ hsent)
  cases channel with
  | unreachable error =>
      refine ⟨False.elim, fun _ => ⟨.none, nofun, ?_⟩⟩
      rw [callOverSocket, hsent]
      rfl
  | connected recv =>
      have hstream : readline (t ++ [10]) (MAX_REQUEST_BYTES + 1)
          = (t ++ [10]).take (MAX_REQUEST_BYTES + 1) := readline_line hline.printing _
      have hread := readRequest_of_readline number hnodup hline (.inr rfl) hstream
      have htold : (fun reply : Reply => (reply.encoded m).map fun answer =>
            receive shown socketPath (recv answer))
          = fun reply => some ((Channel.connected recv).told m socketPath reply) :=
        funext fun reply => receive_told shown hhands reply
      have hcall : ∀ request, readRequest number (t ++ [10]) = some request →
          callOverSocket m peer number shown socketPath (.connected recv) action
            = some (do
                let reply ← handle m ⟨peer, request⟩
                return some ((Channel.connected recv).told m socketPath reply)) := by
        intro request hrequest
        rw [callOverSocket, hsent]
        simp only [Option.bind_eq_bind, Option.bind_some, hrequest, Option.pure_def]
        exact congrArg (fun k : Reply → Option (Except ControlError (List (Str × Value))) =>
          some (handle m ⟨peer, request⟩ >>= fun reply => pure (k reply))) htold
      constructor
      · intro harrives
        have hlength : (t ++ [10]).length ≤ MAX_REQUEST_BYTES := harrives
        rw [if_pos hlength] at hread
        obtain ⟨fields', hrequest, hlookup⟩ := hread
        rw [hcall _ hrequest, handle_of_readRequest hfields hlookup]
      · intro hlong
        have hlength : ¬ (t ++ [10]).length ≤ MAX_REQUEST_BYTES := hlong
        rw [if_neg hlength] at hread
        exact ⟨_, fun _ _ => rfl, hcall _ hread⟩
  | broken got error =>
      have hcall : ∀ request, readRequest number ((t ++ [10]).take got) = some request →
          callOverSocket m peer number shown socketPath (.broken got error) action
            = some (do
                let _ ← handle m ⟨peer, request⟩
                return some (.error (unavailable socketPath error))) := by
        intro request hrequest
        rw [callOverSocket, hsent]
        simp only [Option.bind_eq_bind, Option.bind_some, hrequest]
        rfl
      by_cases hcut : got < t.length
      · obtain ⟨request, hrequest, hkind⟩ := readRequest_cut number hline hcut
        have htake : (t ++ [10]).take got = t.take got := List.take_append_of_le_length hcut.le
        rw [← htake] at hrequest
        constructor
        · rintro ⟨harrives, -⟩
          rw [List.length_append, List.length_singleton] at harrives
          omega
        · intro _
          refine ⟨.none, nofun, (hcall _ hrequest).trans ?_⟩
          rcases hkind with rfl | rfl | rfl <;> rfl
      · -- all of the line is there, with the newline or without
        obtain ⟨tail, htail, htake, hlength⟩ : ∃ tail, (tail = [] ∨ tail = [10])
            ∧ (t ++ [10]).take got = t ++ tail
              ∧ (t ++ tail).length = min got (t ++ [10]).length := by
          by_cases hexact : got = t.length
          · refine ⟨[], .inl rfl, ?_, ?_⟩
            · rw [hexact, List.take_left, List.append_nil]
            · rw [List.append_nil, List.length_append, List.length_singleton]
              omega
          · have hwhole : (t ++ [10]).length ≤ got := by
              rw [List.length_append, List.length_singleton]
              omega
            exact ⟨[10], .inr rfl, List.take_of_length_le hwhole, (min_eq_right hwhole).symm⟩
        have hstream : readline (t ++ tail) (MAX_REQUEST_BYTES + 1)
            = (t ++ tail).take (MAX_REQUEST_BYTES + 1) := by
          rcases htail with rfl | rfl
          · rw [List.append_nil]
            exact readline_end (newline_notMem hline.printing) _
          · exact readline_line hline.printing _
        have hread := readRequest_of_readline number hnodup hline htail hstream
        rw [hlength] at hread
        rw [htake] at hcall
        constructor
        · rintro ⟨-, hlimit⟩
          rw [if_pos hlimit] at hread
          obtain ⟨fields', hrequest, hlookup⟩ := hread
          rw [hcall _ hrequest, handle_of_readRequest hfields hlookup]
          rfl
        · intro hnot
          have hlimit : ¬ min got (t ++ [10]).length ≤ MAX_REQUEST_BYTES := by
            refine fun hlimit => hnot ⟨?_, hlimit⟩
            rw [List.length_append, List.length_singleton]
            omega
          rw [if_neg hlimit] at hread
          exact ⟨.none, nofun, (hcall _ hread).trans rfl⟩

/-- A socket that hands out a reply byte by byte. -/
def bytewise (bytes : List ℕ) : Received := ⟨bytes.map fun b => [b], none⟩

lemma bytewise_hands : Hands bytewise := by
  intro bytes
  refine ⟨bytes.length, ?_, fun _ => le_refl _⟩
  rw [List.take_length]
  refine ⟨?_, by simp [bytewise], by simp [bytewise]⟩
  change (bytes.map fun b => [b]).flatten = bytes
  rw [← List.flatMap_def]
  exact List.flatMap_singleton' bytes

/-- A request that is sent whole is performed, and one that is cut short is not. -/
theorem call_over_socket_destroy :
    callOverSocket .standard ⟨100, 1001, 1001⟩ (fun _ => .compound) (fun _ => [])
        "/var/run/freebsd-laboratory/runtime.sock" (.connected bytewise) (.destroy "freebsd-lab-a")
      = some (do
          let reply ← Action.run .standard ⟨100, 1001, 1001⟩ (.destroy "freebsd-lab-a")
          return some (reply.seen .standard))
    ∧ callOverSocket .standard ⟨100, 1001, 1001⟩ (fun _ => .compound) (fun _ => [])
        "/var/run/freebsd-laboratory/runtime.sock" (.broken 30 "[Errno 32] Broken pipe")
        (.destroy "freebsd-lab-a")
      = some (pure (some (.error (.control (str ("Runtime daemon unavailable at "
          ++ "/var/run/freebsd-laboratory/runtime.sock: [Errno 32] Broken pipe")))))) := by
  have hsent : (Action.destroy "freebsd-lab-a").request.encoded
      = some (str "\x7b\"action\":\"destroy\",\"name\":\"freebsd-lab-a\"\x7d\n") := rfl
  have hconnected : (Channel.connected bytewise).Hands := bytewise_hands
  have hbroken : (Channel.broken 30 "[Errno 32] Broken pipe").Hands := trivial
  constructor
  · refine (call_over_socket hconnected hsent).1 ?_
    have hlength : (str "\x7b\"action\":\"destroy\",\"name\":\"freebsd-lab-a\"\x7d\n").length
        ≤ MAX_REQUEST_BYTES := by decide
    exact hlength
  · obtain ⟨reply, -, hcall⟩ := (call_over_socket hbroken hsent).2 (by
      rintro ⟨hlength, -⟩
      revert hlength
      decide)
    exact hcall

end FreebsdLaboratory
