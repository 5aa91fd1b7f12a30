import FreebsdLaboratory.Library.JsonItems
import FreebsdLaboratory.Model.LabService

/-!
# Payloads that are kept

Whatever a caller passes, what `redactPayload` and `minimizePersistedPayload` leave of it has no
dictionary with two items under one key, so it is read back from its text as it is written.
-/

namespace FreebsdLaboratory

open Library Library.Unicode Library.Json Value

variable {kind : Str} {v v' : Value} {items items' : Items} {b : Bytes}

/-! ## Results of steps that can fail -/

lemma except_bind_eq_ok {ε α β : Type} {x : Except ε α} {f : α → Except ε β} {y : β} :
    (x >>= f) = .ok y ↔ ∃ a, x = .ok a ∧ f a = .ok y := by
  cases x with
  | error e => simp [bind, Except.bind]
  | ok a => simp [bind, Except.bind]

lemma except_pure_eq_ok {ε α : Type} {x y : α} : (pure x : Except ε α) = .ok y ↔ x = y := by
  simp [pure, Except.pure]

/-! ## Canonical JSON -/

/-- Canonical JSON is the UTF-8 of the text of the value. -/
lemma canonicalJson_eq_ok :
    canonicalJson v = .ok b ↔ ∃ text, dumps v = .ok text ∧ encode text = some b := by
  unfold canonicalJson
  cases dumps v with
  | error e => simp
  | ok text =>
      cases henc : encode text with
      | none => simp [henc]
      | some bytes => simp [henc]

/-- **Canonical JSON does not see the order of items**, nor tuples. -/
lemma canonicalJson_normal (v : Value) : canonicalJson v.normal = canonicalJson v := by
  rw [canonicalJson, canonicalJson, dumps_normal]

/-- Canonical JSON reads back. -/
lemma loads_canonicalJson (hv : v.WellFormed) (h : canonicalJson v = .ok b) :
    ∃ text, decode b = some text ∧ loads text = some v.normal := by
  obtain ⟨text, hdumps, hencode⟩ := canonicalJson_eq_ok.mp h
  have hloads := loads_dumps hv hdumps (show ∀ c ∈ ([] : Str), isWhite c = true by simp)
  rw [List.append_nil] at hloads
  exact ⟨text, decode_encode hencode, hloads⟩

/-- Canonical JSON has no line feed. -/
lemma canonicalJson_not_newline (hv : v.WellFormed) (h : canonicalJson v = .ok b) : 10 ∉ b := by
  obtain ⟨text, hdumps, hencode⟩ := canonicalJson_eq_ok.mp h
  rw [mem_encode_of_lt hencode (by decide)]
  intro hmem
  have := noControl_dumps v hv text hdumps 10 hmem
  omega

/-! ## What is left of a payload -/

lemma wellFormed_ofItems (h : ∀ item ∈ items, item.2.WellFormed) :
    (dict (ofItems items)).WellFormed := by
  have hfold : ∀ (items d : Items), (∀ item ∈ items, item.2.WellFormed) → (dict d).WellFormed →
      (dict (items.foldl (fun d item => insertItem item.1 item.2 d) d)).WellFormed := by
    intro items
    induction items with
    | nil => exact fun _ _ hd => hd
    | cons item items ih =>
        intro d hitems hd
        rw [List.forall_mem_cons] at hitems
        exact ih _ hitems.2 (wellFormed_insertItem hd hitems.1)
  exact hfold items [] h (by simp [wellFormed_dict])

mutual

/-- **A redacted value is well formed.** -/
theorem wellFormed_redactPayload : ∀ (v : Value) {v' : Value}, redactPayload v = .ok v' →
    v'.WellFormed
  | .none, v', h | .bool _, v', h | .int _, v', h | .float _, v', h | .str _, v', h
  | .object _, v', h => by
      obtain rfl := Except.ok.inj h
      trivial
  | .seq _ xs, v', h => by
      rw [redactPayload, except_bind_eq_ok] at h
      obtain ⟨redacted, hxs, h⟩ := h
      obtain rfl := except_pure_eq_ok.mp h
      exact wellFormedAll_iff.mpr (wellFormed_redactAll xs hxs)
  | .set _ xs, v', h => by
      rw [redactPayload, except_bind_eq_ok] at h
      obtain ⟨entries, hxs, h⟩ := h
      obtain rfl := except_pure_eq_ok.mp h
      refine wellFormedAll_iff.mpr fun x hx => ?_
      obtain ⟨entry, hentry, rfl⟩ := List.mem_map.mp hx
      exact wellFormed_redactSet xs hxs entry ((List.perm_insertionSort _ _).mem_iff.mp hentry)
  | .dict items, v', h => by
      rw [redactPayload, except_bind_eq_ok] at h
      obtain ⟨redacted, hitems, h⟩ := h
      obtain rfl := except_pure_eq_ok.mp h
      exact wellFormed_ofItems (wellFormed_redactItems items hitems)

theorem wellFormed_redactAll : ∀ (xs : List Value) {xs' : List Value}, redactAll xs = .ok xs' →
    ∀ x ∈ xs', x.WellFormed
  | [], xs', h => by
      obtain rfl := Except.ok.inj h
      simp
  | x :: xs, xs', h => by
      rw [redactAll, except_bind_eq_ok] at h
      obtain ⟨redacted, hx, h⟩ := h
      obtain ⟨rest, hxs, h⟩ := except_bind_eq_ok.mp h
      obtain rfl := except_pure_eq_ok.mp h
      exact List.forall_mem_cons.mpr
        ⟨wellFormed_redactPayload x hx, wellFormed_redactAll xs hxs⟩

theorem wellFormed_redactSet : ∀ (xs : List Value) {entries : List SetEntry},
    redactSet xs = .ok entries → ∀ e ∈ entries, e.redacted.WellFormed
  | [], entries, h => by
      obtain rfl := Except.ok.inj h
      simp
  | x :: xs, entries, h => by
      rw [redactSet, except_bind_eq_ok] at h
      obtain ⟨redacted, hx, h⟩ := h
      obtain ⟨text, -, h⟩ := except_bind_eq_ok.mp h
      obtain ⟨rest, hxs, h⟩ := except_bind_eq_ok.mp h
      obtain rfl := except_pure_eq_ok.mp h
      exact List.forall_mem_cons.mpr
        ⟨wellFormed_redactPayload x hx, wellFormed_redactSet xs hxs⟩

theorem wellFormed_redactItems : ∀ (items : Items) {items' : Items},
    redactItems items = .ok items' → ∀ item ∈ items', item.2.WellFormed
  | [], items', h => by
      obtain rfl := Except.ok.inj h
      simp
  | (key, item) :: items, items', h => by
      rw [redactItems, except_bind_eq_ok] at h
      obtain ⟨redacted, hitem, h⟩ := h
      obtain ⟨rest, hitems, h⟩ := except_bind_eq_ok.mp h
      obtain rfl := except_pure_eq_ok.mp h
      refine List.forall_mem_cons.mpr ⟨?_, wellFormed_redactItems items hitems⟩
      split_ifs at hitem
      · obtain rfl := Except.ok.inj hitem
        trivial
      · exact wellFormed_redactPayload item hitem

end

lemma wellFormed_eraseItem {key : Str} (h : (dict items).WellFormed) :
    (dict (eraseItem key items)).WellFormed := by
  rw [wellFormed_dict] at h ⊢
  have hsub : (eraseItem key items).Sublist items := List.filter_sublist
  exact ⟨h.1.sublist (hsub.map Prod.fst), fun item hitem => h.2 item (hsub.subset hitem)⟩

lemma wellFormed_minimize (hwell : (dict items).WellFormed)
    (h : minimizePersistedPayload kind items = .ok items') : (dict items').WellFormed := by
  unfold minimizePersistedPayload at h
  split_ifs at h with hkind
  · obtain rfl := Except.ok.inj h
    exact hwell
  · split at h
    · rename_i cell hcell
      have hcellWell : (dict cell).WellFormed :=
        (wellFormed_dict.mp hwell).2 _ ((lookup_eq_some_iff (wellFormed_dict.mp hwell).1).mp hcell)
      obtain ⟨text, -, h⟩ := except_bind_eq_ok.mp h
      split at h
      · rename_i bytes hbytes
        obtain rfl := except_pure_eq_ok.mp h
        have hhash : (dict (Value.insertItem (str "source_sha256") (.str (sha256Bytes bytes))
            (eraseItem (str "source") cell))).WellFormed :=
          wellFormed_insertItem (wellFormed_eraseItem hcellWell) trivial
        exact wellFormed_insertItem hwell (wellFormed_insertItem hhash trivial)
      · simp at h
    · simp at h

/-- **The payload that is kept is well formed**, and is measured by its own bytes. -/
theorem safePayload_spec {m : LabService} {payload : Value} {safe : Items}
    (h : m.safePayload kind payload = .ok (safe, b)) :
    (dict safe).WellFormed ∧ canonicalJson (dict safe) = .ok b := by
  unfold LabService.safePayload at h
  split at h
  · obtain ⟨redacted, hredact, h⟩ := except_bind_eq_ok.mp h
    split at h
    · rename_i redacted
      obtain ⟨incoming, -, h⟩ := except_bind_eq_ok.mp h
      split_ifs at h
      · cases h
      · obtain ⟨safe', hsafe, h⟩ := except_bind_eq_ok.mp h
        obtain ⟨bytes, hbytes, h⟩ := except_bind_eq_ok.mp h
        obtain ⟨rfl, rfl⟩ := Prod.mk.inj (except_pure_eq_ok.mp h)
        exact ⟨wellFormed_minimize (wellFormed_redactPayload _ hredact) hsafe, hbytes⟩
    · cases h
  · cases h

end FreebsdLaboratory
