import FreebsdLaboratory.Evidence.Payloads
import Mathlib.Data.List.Perm.Basic
import Mathlib.Data.Prod.Lex

/-!
# The order of a payload does not show

Dictionaries are equal whatever the order in which their items were inserted, and sets whatever the
order in which they are iterated over.  `redactPayload` takes equal payloads to dictionaries that
differ in the order of items alone, which canonical JSON does not see: so a call writes the same
line of either.

Equal here is equal with the same scalars.  `1`, `True` and `1.0` are equal in the language, but
they are written differently; and two keys of a dictionary with one text, such as `1` and `"1"`, are
one item of what is kept, so that it is the order that decides which value is lost.
-/

namespace FreebsdLaboratory

open Library Library.Unicode Library.Json Value

variable {m : LabService} {v w u : Value} {items items' : Items} {xs ys zs : List Value}

/-! ## Equal payloads -/

mutual

/-- The payloads are equal: what is in a dictionary and in a set is the same in any order. -/
def SamePayload : Value → Value → Prop
  | .none, w => w = .none
  | .bool b, w => w = .bool b
  | .int z, w => w = .int z
  | .float literal, w => w = .float literal
  | .str s, w => w = .str s
  | .seq tuple xs, w => ∃ ys, w = .seq tuple ys ∧ SamePayloads xs ys
  | .set _ xs, w => ∃ frozen ys zs, w = .set frozen ys ∧ SamePayloads xs zs ∧ zs.Perm ys
  | .dict items, w => ∃ items' between, w = .dict items' ∧ SameItems items between
      ∧ between.Perm items'
  | .object name, w => w = .object name

/-- Equal elements, one after the other. -/
def SamePayloads : List Value → List Value → Prop
  | [], ys => ys = []
  | x :: xs, ys => ∃ y ys', ys = y :: ys' ∧ SamePayload x y ∧ SamePayloads xs ys'

/-- The same keys with equal values, one after the other. -/
def SameItems : Items → Items → Prop
  | [], items' => items' = []
  | (key, v) :: items, items' => ∃ w rest, items' = (key, w) :: rest
      ∧ SamePayload v w ∧ SameItems items rest

end

mutual

/-- What can be an element of a set. -/
def Hashable : Value → Prop
  | .seq tuple xs => tuple = true ∧ HashableAll xs
  | .set frozen _ => frozen = true
  | .dict _ => False
  | .none | .bool _ | .int _ | .float _ | .str _ | .object _ => True

def HashableAll : List Value → Prop
  | [] => True
  | x :: xs => Hashable x ∧ HashableAll xs

end

mutual

/-- The elements of sets are hashable, and the keys of each dictionary have different texts. -/
def DistinctKeys : Value → Prop
  | .seq _ xs => DistinctKeysAll xs
  | .set _ xs => HashableAll xs ∧ DistinctKeysAll xs
  | .dict items => (items.map Prod.fst).Nodup ∧ DistinctKeysItems items
  | .none | .bool _ | .int _ | .float _ | .str _ | .object _ => True

def DistinctKeysAll : List Value → Prop
  | [] => True
  | x :: xs => DistinctKeys x ∧ DistinctKeysAll xs

def DistinctKeysItems : Items → Prop
  | [] => True
  | (_, v) :: items => DistinctKeys v ∧ DistinctKeysItems items

end

lemma hashableAll_iff : HashableAll xs ↔ ∀ x ∈ xs, Hashable x := by
  induction xs with
  | nil => simp [HashableAll]
  | cons x xs ih => rw [HashableAll, ih, List.forall_mem_cons]

lemma distinctKeysAll_iff : DistinctKeysAll xs ↔ ∀ x ∈ xs, DistinctKeys x := by
  induction xs with
  | nil => simp [DistinctKeysAll]
  | cons x xs ih => rw [DistinctKeysAll, ih, List.forall_mem_cons]

lemma distinctKeysItems_iff : DistinctKeysItems items ↔ ∀ item ∈ items, DistinctKeys item.2 := by
  induction items with
  | nil => simp [DistinctKeysItems]
  | cons item items ih => rw [DistinctKeysItems, ih, List.forall_mem_cons]

/-- Equal elements of sets have one type. -/
lemma typeName_same (h : SamePayload v w) (hv : Hashable v) (hw : Hashable w) :
    typeName v = typeName w := by
  cases v with
  | seq tuple xs =>
      obtain ⟨ys, rfl, -⟩ := h
      rfl
  | set frozen xs =>
      obtain ⟨frozen', ys, zs, rfl, -⟩ := h
      have hfrozen : frozen = true := hv
      have hfrozen' : frozen' = true := hw
      rw [hfrozen, hfrozen']
      rfl
  | dict items => exact hv.elim
  | _ =>
      obtain rfl := h
      rfl

/-! ## Steps that end in the same way -/

/-- Both steps fail, or both return, and what they return is related. -/
def EndAlike {ε α β : Type} (R : α → β → Prop) (x : Except ε α) (y : Except ε β) : Prop :=
  match x, y with
  | .ok a, .ok b => R a b
  | .error _, .error _ => True
  | _, _ => False

section EndAlike

variable {ε α β γ δ : Type} {R : α → β → Prop} {S : γ → δ → Prop} {x : Except ε α} {y : Except ε β}

lemma EndAlike.bind {f : α → Except ε γ} {g : β → Except ε δ} (h : EndAlike R x y)
    (hfg : ∀ a b, x = .ok a → y = .ok b → R a b → EndAlike S (f a) (g b)) :
    EndAlike S (x >>= f) (y >>= g) := by
  cases x with
  | error e =>
      cases y with
      | error e' => trivial
      | ok b => exact h.elim
  | ok a =>
      cases y with
      | error e' => exact h.elim
      | ok b => exact hfg a b rfl rfl h

lemma EndAlike.of_eq {x x' : Except ε α} (h : x = x') : EndAlike Eq x x' := by
  subst h
  cases x with
  | error e => trivial
  | ok a => exact rfl

lemma EndAlike.refl {R : α → α → Prop} (hR : ∀ a, R a a) (x : Except ε α) : EndAlike R x x := by
  cases x with
  | error e => trivial
  | ok a => exact hR a

lemma EndAlike.trans {T : α → γ → Prop} {Q : β → γ → Prop} {z : Except ε γ} (hxy : EndAlike R x y)
    (hyz : EndAlike Q y z) (hT : ∀ a b c, R a b → Q b c → T a c) : EndAlike T x z := by
  cases x with
  | error e =>
      cases y with
      | error e' =>
          cases z with
          | error e'' => trivial
          | ok c => exact hyz.elim
      | ok b => exact hxy.elim
  | ok a =>
      cases y with
      | error e' => exact hxy.elim
      | ok b =>
          cases z with
          | error e'' => exact hyz.elim
          | ok c => exact hT a b c hxy hyz

end EndAlike

/-! ## Sorting the elements of a set -/

/-- The entry with its value in normal form. -/
def SetEntry.normal (e : SetEntry) : SetEntry := { e with redacted := e.redacted.normal }

@[simp] lemma SetEntry.typeName_normal (e : SetEntry) : e.normal.typeName = e.typeName := rfl

@[simp] lemma SetEntry.text_normal (e : SetEntry) : e.normal.text = e.text := rfl

@[simp] lemma SetEntry.redacted_normal (e : SetEntry) : e.normal.redacted = e.redacted.normal := rfl

lemma SetEntry.le_iff {a b : SetEntry} :
    a.Le b ↔ toLex (a.typeName, a.text) ≤ toLex (b.typeName, b.text) :=
  (Prod.Lex.toLex_le_toLex (x := (a.typeName, a.text)) (y := (b.typeName, b.text))).symm

instance : Std.Total SetEntry.Le where
  total a b := by
    rw [SetEntry.le_iff, SetEntry.le_iff]
    exact le_total _ _

instance : IsTrans SetEntry SetEntry.Le where
  trans a b c hab hbc := by
    rw [SetEntry.le_iff] at hab hbc ⊢
    exact hab.trans hbc

/-- The text of the entry is the one of its value. -/
def SetEntry.Written (e : SetEntry) : Prop :=
  e.redacted.WellFormed ∧ canonicalJson e.redacted = .ok e.text

/-- **A text is the text of one normal form**, so entries that tie have one. -/
lemma normal_eq_of_text {a b : SetEntry} (ha : a.Written) (hb : b.Written) (h : a.text = b.text) :
    a.redacted.normal = b.redacted.normal := by
  obtain ⟨text, hdecode, hloads⟩ := loads_canonicalJson ha.1 ha.2
  obtain ⟨text', hdecode', hloads'⟩ := loads_canonicalJson hb.1 hb.2
  rw [h, hdecode', Option.some.injEq] at hdecode
  rw [← hdecode, hloads', Option.some.injEq] at hloads
  exact hloads.symm

/-- **Sorted entries do not show the order of iteration.** -/
theorem sorted_entries_eq {es fs : List SetEntry} (hes : ∀ e ∈ es, e.Written)
    (hfs : ∀ f ∈ fs, f.Written) (h : (es.map SetEntry.normal).Perm (fs.map SetEntry.normal)) :
    (es.insertionSort SetEntry.Le).map (fun e => e.redacted.normal)
      = (fs.insertionSort SetEntry.Le).map (fun e => e.redacted.normal) := by
  have hsort : ∀ es : List SetEntry, (es.insertionSort SetEntry.Le).map SetEntry.normal
      = (es.map SetEntry.normal).insertionSort SetEntry.Le := fun es =>
    List.map_insertionSort _ _ _ _ fun a _ b _ => Iff.rfl
  have hpairwise : ∀ es : List SetEntry,
      ((es.map SetEntry.normal).insertionSort SetEntry.Le).Pairwise SetEntry.Le := fun es =>
    List.pairwise_insertionSort _ _
  have hperm : ((es.map SetEntry.normal).insertionSort SetEntry.Le).Perm
      ((fs.map SetEntry.normal).insertionSort SetEntry.Le) :=
    ((List.perm_insertionSort _ _).trans h).trans (List.perm_insertionSort _ _).symm
  have hsorted : (es.map SetEntry.normal).insertionSort SetEntry.Le
      = (fs.map SetEntry.normal).insertionSort SetEntry.Le := by
    refine hperm.eq_of_pairwise ?_ (hpairwise es) (hpairwise fs)
    intro a b ha hb hab hba
    -- entries on either side of each other have one sort key
    rw [List.mem_insertionSort] at ha hb
    obtain ⟨e, he, rfl⟩ := List.mem_map.mp ha
    obtain ⟨f, hf, rfl⟩ := List.mem_map.mp hb
    rw [SetEntry.le_iff] at hab hba
    have hkey := toLex.injective (le_antisymm hab hba)
    simp only [SetEntry.typeName_normal, SetEntry.text_normal, Prod.mk.injEq] at hkey
    have hnormal := normal_eq_of_text (hes e he) (hfs f hf) hkey.2
    rw [SetEntry.normal, SetEntry.normal, hnormal, hkey.1, hkey.2]
  have hmap : ∀ es : List SetEntry, (es.insertionSort SetEntry.Le).map (fun e => e.redacted.normal)
      = ((es.insertionSort SetEntry.Le).map SetEntry.normal).map SetEntry.redacted := by
    intro es
    rw [List.map_map]
    rfl
  rw [hmap, hmap, hsort, hsort, hsorted]

/-! ## Redaction of equal payloads -/

/-- What `redactSet` makes of one element. -/
def redactEntry (x : Value) : Except ServiceError SetEntry := do
  let redacted ← redactPayload x
  let text ← canonicalJson redacted
  return ⟨typeName x, text, redacted⟩

/-- What `redactItems` makes of one item. -/
def redactItem (item : Str × Value) : Except ServiceError (Str × Value) := do
  let redacted ← (if isSensitiveKey item.1 then .ok redactedValue else redactPayload item.2 :
    Except ServiceError Value)
  return (item.1, redacted)

lemma redactSet_eq_mapM (xs : List Value) : redactSet xs = xs.mapM redactEntry := by
  induction xs with
  | nil => rfl
  | cons x xs ih =>
      rw [redactSet, List.mapM_cons, redactEntry, ih]
      simp only [bind_assoc, pure_bind]

lemma redactItems_eq_mapM (items : Items) : redactItems items = items.mapM redactItem := by
  induction items with
  | nil => rfl
  | cons item items ih =>
      obtain ⟨key, v⟩ := item
      rw [redactItems, List.mapM_cons, redactItem, ih]
      simp only [bind_assoc, pure_bind]

/-- **The order of the elements decides the order of the results alone**, and which error is
raised. -/
lemma mapM_perm {ε α β : Type} {f : α → Except ε β} {as bs : List α} (h : as.Perm bs) :
    EndAlike List.Perm (as.mapM f) (bs.mapM f) := by
  induction h with
  | nil => exact .refl .refl _
  | cons a _ ih =>
      rw [List.mapM_cons, List.mapM_cons]
      refine EndAlike.bind (EndAlike.of_eq rfl) fun b b' _ _ hb => ?_
      obtain rfl := hb
      exact EndAlike.bind ih fun cs cs' _ _ hcs => List.Perm.cons b hcs
  | swap a b as =>
      simp only [List.mapM_cons, bind_assoc, pure_bind]
      cases f a with
      | error e =>
          cases f b with
          | error e' => trivial
          | ok b' => trivial
      | ok a' =>
          cases f b with
          | error e' => trivial
          | ok b' =>
              show EndAlike List.Perm (as.mapM f >>= fun cs => pure (b' :: a' :: cs))
                (as.mapM f >>= fun cs => pure (a' :: b' :: cs))
              refine EndAlike.bind (EndAlike.of_eq rfl) fun cs cs' _ _ hcs => ?_
              obtain rfl := hcs
              exact List.Perm.swap a' b' cs
  | trans _ _ ih₁ ih₂ => exact ih₁.trans ih₂ fun _ _ _ => List.Perm.trans

lemma redactItems_keys {d : Items} (h : redactItems items = .ok d) :
    d.map Prod.fst = items.map Prod.fst := by
  induction items generalizing d with
  | nil =>
      obtain rfl := Except.ok.inj h
      rfl
  | cons item items ih =>
      obtain ⟨key, v⟩ := item
      rw [redactItems, except_bind_eq_ok] at h
      obtain ⟨redacted, -, h⟩ := h
      obtain ⟨rest, hitems, h⟩ := except_bind_eq_ok.mp h
      obtain rfl := except_pure_eq_ok.mp h
      rw [List.map_cons, List.map_cons, ih hitems]

/-- Items under different keys stay as they are. -/
lemma ofItems_of_nodup (h : (items.map Prod.fst).Nodup) : ofItems items = items := by
  have hfold : ∀ items d : Items, ((d ++ items).map Prod.fst).Nodup →
      items.foldl (fun d item => insertItem item.1 item.2 d) d = d ++ items := by
    intro items
    induction items with
    | nil => intro d _; simp
    | cons item items ih =>
        intro d hnodup
        have hfresh : item.1 ∉ d.map Prod.fst := by
          rw [List.map_append, List.nodup_append] at hnodup
          intro hmem
          exact hnodup.2.2 _ hmem item.1 (by simp) rfl
        rw [List.foldl_cons, insertItem_of_notMem hfresh, ih _ (by simpa using hnodup)]
        simp
  simpa [ofItems] using hfold items [] (by simpa using h)

/-- What is under a key does not depend on the order of the items. -/
lemma lookup_perm (hnodup : (items.map Prod.fst).Nodup) (h : items.Perm items') (key : Str) :
    lookup items key = lookup items' key := by
  have hnodup' : (items'.map Prod.fst).Nodup := (h.map Prod.fst).nodup_iff.mp hnodup
  refine Option.ext fun v => ?_
  rw [lookup_eq_some_iff hnodup, lookup_eq_some_iff hnodup', h.mem_iff]

/-- The values have one normal form. -/
def SameNormal (u u' : Value) : Prop := u.normal = u'.normal

/-- Values with one normal form have one text. -/
lemma SameNormal.canonicalJson {u u' : Value} (h : SameNormal u u') :
    FreebsdLaboratory.canonicalJson u = FreebsdLaboratory.canonicalJson u' := by
  rw [← canonicalJson_normal u, ← canonicalJson_normal u', h]

lemma redactEntry_written {x : Value} {e : SetEntry} (h : redactEntry x = .ok e) : e.Written := by
  obtain ⟨redacted, hredact, h⟩ := except_bind_eq_ok.mp h
  obtain ⟨text, htext, h⟩ := except_bind_eq_ok.mp h
  obtain rfl := except_pure_eq_ok.mp h
  exact ⟨wellFormed_redactPayload x hredact, htext⟩

lemma redactSet_written {es : List SetEntry} (h : redactSet xs = .ok es) : ∀ e ∈ es, e.Written := by
  induction xs generalizing es with
  | nil =>
      obtain rfl := Except.ok.inj h
      simp
  | cons x xs ih =>
      rw [redactSet_eq_mapM, List.mapM_cons, ← redactSet_eq_mapM, except_bind_eq_ok] at h
      obtain ⟨e, he, h⟩ := h
      obtain ⟨rest, hrest, h⟩ := except_bind_eq_ok.mp h
      obtain rfl := except_pure_eq_ok.mp h
      exact List.forall_mem_cons.mpr ⟨redactEntry_written he, ih hrest⟩

mutual

/-- **Redaction takes equal payloads to one normal form**, or fails on both. -/
theorem redactPayload_same : ∀ (v : Value) {w : Value}, SamePayload v w → DistinctKeys v →
    DistinctKeys w → EndAlike SameNormal (redactPayload v) (redactPayload w)
  | .none, w, h, _, _ | .bool _, w, h, _, _ | .int _, w, h, _, _ | .float _, w, h, _, _
  | .str _, w, h, _, _ | .object _, w, h, _, _ => by
      obtain rfl := h
      exact EndAlike.refl (R := SameNormal) (fun _ => rfl) _
  | .seq _ xs, w, h, hv, hw => by
      obtain ⟨ys, rfl, hxs⟩ := h
      rw [redactPayload, redactPayload]
      refine EndAlike.bind (redactAll_same xs hxs hv hw) fun us us' _ _ hus => ?_
      exact congrArg (Value.seq false) hus
  | .set _ xs, w, h, hv, hw => by
      obtain ⟨frozen, ys, zs, rfl, hxs, hperm⟩ := h
      have hhashable : HashableAll zs := by
        rw [hashableAll_iff]
        exact fun z hz => hashableAll_iff.mp hw.1 z (hperm.mem_iff.mp hz)
      have hdistinct : DistinctKeysAll zs := by
        rw [distinctKeysAll_iff]
        exact fun z hz => distinctKeysAll_iff.mp hw.2 z (hperm.mem_iff.mp hz)
      have hentries : EndAlike (fun es fs : List SetEntry =>
          (es.map SetEntry.normal).Perm (fs.map SetEntry.normal)) (redactSet xs)
          (redactSet ys) := by
        refine (redactSet_same xs hxs hv.1 hhashable hv.2 hdistinct).trans
          (R := fun es gs : List SetEntry => es.map SetEntry.normal = gs.map SetEntry.normal)
          (Q := List.Perm) ?_ ?_
        · rw [redactSet_eq_mapM zs, redactSet_eq_mapM ys]
          exact mapM_perm hperm
        · intro es gs fs hes hgs
          rw [hes]
          exact hgs.map _
      rw [redactPayload, redactPayload]
      refine EndAlike.bind hentries fun es fs hes hfs hsame => ?_
      have hsorted := sorted_entries_eq (redactSet_written hes) (redactSet_written hfs) hsame
      have hnormal : ∀ us : List Value, normalAll us = us.map Value.normal := by
        intro us
        induction us with
        | nil => rfl
        | cons u us ih => rw [normalAll, List.map_cons, ih]
      refine congrArg (Value.seq false) ?_
      rw [hnormal, hnormal, List.map_map, List.map_map]
      exact hsorted
  | .dict items, w, h, hv, hw => by
      obtain ⟨items', between, rfl, hitems, hperm⟩ := h
      have hdistinct : DistinctKeysItems between := by
        rw [distinctKeysItems_iff]
        exact fun item hitem => distinctKeysItems_iff.mp hw.2 item (hperm.mem_iff.mp hitem)
      have hredacted : EndAlike (fun d d' : Items => ∃ e, normalItems d = normalItems e ∧ e.Perm d')
          (redactItems items) (redactItems items') := by
        refine (redactItems_same items hitems hv.2 hdistinct).trans
          (R := fun d e : Items => normalItems d = normalItems e) (Q := List.Perm) ?_ ?_
        · rw [redactItems_eq_mapM between, redactItems_eq_mapM items']
          exact mapM_perm hperm
        · exact fun d e d' hd hd' => ⟨e, hd, hd'⟩
      rw [redactPayload, redactPayload]
      refine EndAlike.bind hredacted fun d d' hd hd' hsame => ?_
      obtain ⟨e, hde, hed⟩ := hsame
      have hdkeys : (d.map Prod.fst).Nodup := by
        rw [redactItems_keys hd]
        exact hv.1
      have hdkeys' : (d'.map Prod.fst).Nodup := by
        rw [redactItems_keys hd']
        exact hw.1
      have hekeys : (e.map Prod.fst).Nodup := (hed.map Prod.fst).nodup_iff.mpr hdkeys'
      show (Value.dict (ofItems d)).normal = (Value.dict (ofItems d')).normal
      rw [ofItems_of_nodup hdkeys, ofItems_of_nodup hdkeys', normal_dict_eq_iff hdkeys hdkeys']
      intro key
      rw [← lookup_perm hekeys hed, ← lookup_normalItems, ← lookup_normalItems, hde]

theorem redactAll_same : ∀ (xs : List Value) {ys : List Value}, SamePayloads xs ys →
    DistinctKeysAll xs → DistinctKeysAll ys →
    EndAlike (fun us us' => normalAll us = normalAll us') (redactAll xs) (redactAll ys)
  | [], ys, h, _, _ => by
      obtain rfl := h
      exact rfl
  | x :: xs, ys, h, hv, hw => by
      obtain ⟨y, ys', rfl, hx, hxs⟩ := h
      rw [redactAll, redactAll]
      refine EndAlike.bind (redactPayload_same x hx hv.1 hw.1) fun u u' _ _ hu => ?_
      refine EndAlike.bind (redactAll_same xs hxs hv.2 hw.2) fun us us' _ _ hus => ?_
      show normalAll (u :: us) = normalAll (u' :: us')
      rw [normalAll, normalAll, hu, hus]

theorem redactSet_same : ∀ (xs : List Value) {ys : List Value}, SamePayloads xs ys →
    HashableAll xs → HashableAll ys → DistinctKeysAll xs → DistinctKeysAll ys →
    EndAlike (fun es fs => es.map SetEntry.normal = fs.map SetEntry.normal)
      (redactSet xs) (redactSet ys)
  | [], ys, h, _, _, _, _ => by
      obtain rfl := h
      exact rfl
  | x :: xs, ys, h, hhx, hhy, hv, hw => by
      obtain ⟨y, ys', rfl, hx, hxs⟩ := h
      rw [redactSet, redactSet]
      refine EndAlike.bind (redactPayload_same x hx hv.1 hw.1) fun u u' _ _ hu => ?_
      have hnormal : u.normal = u'.normal := hu
      have htext : canonicalJson u = canonicalJson u' := SameNormal.canonicalJson hu
      refine EndAlike.bind (EndAlike.of_eq htext) fun t t' _ _ ht => ?_
      refine EndAlike.bind (redactSet_same xs hxs hhx.2 hhy.2 hv.2 hw.2) fun es fs _ _ hes => ?_
      show List.map SetEntry.normal (_ :: es) = List.map SetEntry.normal (_ :: fs)
      rw [List.map_cons, List.map_cons, hes, SetEntry.normal, SetEntry.normal, hnormal, ht,
        typeName_same hx hhx.1 hhy.1]

theorem redactItems_same : ∀ (items : Items) {items' : Items}, SameItems items items' →
    DistinctKeysItems items → DistinctKeysItems items' →
    EndAlike (fun d d' => normalItems d = normalItems d') (redactItems items) (redactItems items')
  | [], items', h, _, _ => by
      obtain rfl := h
      exact rfl
  | (key, v) :: items, items', h, hv, hw => by
      obtain ⟨w, rest, rfl, hvalue, hrest⟩ := h
      rw [redactItems, redactItems]
      have hitem : EndAlike SameNormal
          (if isSensitiveKey key then .ok redactedValue else redactPayload v :
            Except ServiceError Value)
          (if isSensitiveKey key then .ok redactedValue else redactPayload w) := by
        split_ifs
        · exact rfl
        · exact redactPayload_same v hvalue hv.1 hw.1
      refine EndAlike.bind hitem fun u u' _ _ hu => ?_
      refine EndAlike.bind (redactItems_same items hrest hv.2 hw.2) fun d d' _ _ hd => ?_
      show normalItems ((key, u) :: d) = normalItems ((key, u') :: d')
      have hnormal : u.normal = u'.normal := hu
      rw [normalItems, normalItems, hnormal, hd]

end

/-! ## What is left of the entries -/

lemma mem_ofItems {item : Str × Value} (h : item ∈ ofItems items) : item ∈ items := by
  have hfold : ∀ items d : Items,
      item ∈ items.foldl (fun d item => insertItem item.1 item.2 d) d →
        item ∈ d ∨ item ∈ items := by
    intro items
    induction items with
    | nil => exact fun d h => .inl h
    | cons first items ih =>
        intro d h
        rcases ih _ h with h | h
        · rcases mem_insertItem h with rfl | h
          · exact .inr List.mem_cons_self
          · exact .inl h
        · exact .inr (List.mem_cons_of_mem _ h)
  simpa using hfold items [] h

/-- **Entries are merged exactly if two keys have one text.** -/
theorem entries_kept_iff (h : redactPayload (.dict items) = .ok u) :
    ∃ d, u = .dict d ∧ (d.length = items.length ↔ (items.map Prod.fst).Nodup) := by
  have hwell := wellFormed_redactPayload _ h
  rw [redactPayload, except_bind_eq_ok] at h
  obtain ⟨redacted, hitems, h⟩ := h
  obtain rfl := except_pure_eq_ok.mp h
  have hkeys := redactItems_keys hitems
  refine ⟨_, rfl, fun hlength => ?_, fun hnodup => ?_⟩
  · have hnodup := (wellFormed_dict.mp hwell).1
    have hsubset : (ofItems redacted).map Prod.fst ⊆ items.map Prod.fst := by
      intro key hkey
      obtain ⟨item, hitem, rfl⟩ := List.mem_map.mp hkey
      rw [← hkeys]
      exact List.mem_map_of_mem (mem_ofItems hitem)
    have hperm : ((ofItems redacted).map Prod.fst).Perm (items.map Prod.fst) :=
      (List.subperm_of_subset hnodup hsubset).perm_of_length_le (by simp [hlength])
    exact hperm.nodup_iff.mp hnodup
  · rw [← hkeys] at hnodup
    rw [ofItems_of_nodup hnodup]
    simpa using congrArg List.length hkeys

/-! ## Calls with equal payloads -/

/-- The value is what redaction left. -/
def Redacted (u : Value) : Prop := ∃ v, redactPayload v = .ok u

lemma Redacted.wellFormed (h : Redacted u) : u.WellFormed := by
  obtain ⟨v, h⟩ := h
  exact wellFormed_redactPayload v h

lemma redacted_of_redactItems {d : Items} (h : redactItems items = .ok d) :
    ∀ item ∈ d, Redacted item.2 := by
  induction items generalizing d with
  | nil =>
      obtain rfl := Except.ok.inj h
      simp
  | cons item items ih =>
      obtain ⟨key, v⟩ := item
      rw [redactItems, except_bind_eq_ok] at h
      obtain ⟨redacted, hredact, h⟩ := h
      obtain ⟨rest, hitems, h⟩ := except_bind_eq_ok.mp h
      obtain rfl := except_pure_eq_ok.mp h
      refine List.forall_mem_cons.mpr ⟨?_, ih hitems⟩
      split_ifs at hredact
      · obtain rfl := Except.ok.inj hredact
        exact ⟨redactedValue, rfl⟩
      · exact ⟨v, hredact⟩

/-- What is under a key of a redacted dictionary is redacted. -/
lemma Redacted.lookup {d : Items} {key : Str} {x : Value} (h : Redacted (.dict d))
    (hx : Value.lookup d key = some x) : Redacted x := by
  have hnodup := (wellFormed_dict.mp h.wellFormed).1
  have hmem := (lookup_eq_some_iff hnodup).mp hx
  obtain ⟨v, h⟩ := h
  cases v with
  | dict items =>
      rw [redactPayload, except_bind_eq_ok] at h
      obtain ⟨redacted, hitems, h⟩ := h
      obtain rfl := Value.dict.inj (except_pure_eq_ok.mp h)
      exact redacted_of_redactItems hitems _ (mem_ofItems hmem)
  | seq tuple xs | set frozen xs =>
      obtain ⟨_, -, h⟩ := except_bind_eq_ok.mp h
      cases except_pure_eq_ok.mp h
  | _ => cases Except.ok.inj h

/-- Redaction leaves neither tuples nor sets. -/
lemma Redacted.not_tuple (h : Redacted (.seq true xs)) : False := by
  obtain ⟨v, h⟩ := h
  cases v with
  | dict _ | seq tuple xs | set frozen xs =>
      obtain ⟨_, -, h⟩ := except_bind_eq_ok.mp h
      cases except_pure_eq_ok.mp h
  | _ => cases Except.ok.inj h

lemma joinParts_normalAll (xs : List Value) : joinParts (normalAll xs) = joinParts xs := by
  induction xs with
  | nil => rfl
  | cons x xs ih => cases x <;> simp [normalAll, Value.normal, joinParts, ih]

/-- The source of a cell is read from the normal form. -/
lemma sourceText_normal (h : Redacted u) : sourceText u.normal = sourceText u := by
  cases u with
  | seq tuple xs =>
      cases tuple with
      | true => exact h.not_tuple.elim
      | false => rw [Value.normal, sourceText, sourceText, joinParts_normalAll]
  | _ => rfl

/-- Cells with one normal form have one source. -/
lemma sourceText_same {cell cell' : Items} (hr : Redacted (.dict cell))
    (hr' : Redacted (.dict cell')) (h : (Value.lookup cell (str "source")).map Value.normal
      = (Value.lookup cell' (str "source")).map Value.normal) :
    sourceText ((Value.lookup cell (str "source")).getD (.str []))
      = sourceText ((Value.lookup cell' (str "source")).getD (.str [])) := by
  cases hleft : Value.lookup cell (str "source") with
  | none =>
      rw [hleft] at h
      rw [Option.map_eq_none_iff.mp h.symm]
  | some x =>
      rw [hleft] at h
      obtain ⟨x', hright, hx⟩ := Option.map_eq_some_iff.mp h.symm
      rw [hright, Option.getD_some, Option.getD_some, ← sourceText_normal (hr.lookup hleft), ← hx,
        sourceText_normal (hr'.lookup hright)]

lemma lookup_eraseItem {k key : Str} :
    Value.lookup (eraseItem k items) key = if key
      = k then Option.none else Value.lookup items key := by
  induction items with
  | nil => simp [eraseItem, Value.lookup]
  | cons item items ih =>
      rw [eraseItem] at ih ⊢
      by_cases hk : item.1 = k
      · rw [List.filter_cons_of_neg (by simpa using hk), ih, lookup_cons, hk]
        split_ifs <;> rfl
      · rw [List.filter_cons_of_pos (by simpa using hk), lookup_cons, lookup_cons, ih]
        by_cases hkey : key = item.1
        · simp [hkey, hk]
        · simp [hkey]

lemma normal_eq_dict {u : Value} (h : u.normal = (Value.dict items).normal) :
    ∃ items', u = .dict items' := by
  cases u with
  | dict items' => exact ⟨items', rfl⟩
  | _ => cases h

/-- Inserting one value under one key keeps the normal forms the same. -/
lemma SameNormal.insertItem {key : Str} {u' : Value} (h : SameNormal (.dict items) (.dict items'))
    (hwell : (dict items).WellFormed) (hwell' : (dict items').WellFormed) (hsame : SameNormal u u')
    (hu : u.WellFormed) (hu' : u'.WellFormed) :
    SameNormal (.dict (Value.insertItem key u items)) (.dict (Value.insertItem key u' items')) := by
  have hinsert : ((Value.insertItem key u items).map Prod.fst).Nodup :=
    (wellFormed_dict.mp (wellFormed_insertItem hwell hu)).1
  have hinsert' : ((Value.insertItem key u' items').map Prod.fst).Nodup :=
    (wellFormed_dict.mp (wellFormed_insertItem hwell' hu')).1
  have hlookup :=
    (normal_dict_eq_iff (wellFormed_dict.mp hwell).1 (wellFormed_dict.mp hwell').1).mp h
  refine (normal_dict_eq_iff hinsert hinsert').mpr fun k => ?_
  rw [lookup_insertItem, lookup_insertItem]
  split_ifs
  · exact congrArg some hsame
  · exact hlookup k

/-- **Minimisation does not see the order of items.** -/
lemma minimize_same {kind : Str} (h : SameNormal (.dict items) (.dict items'))
    (hr : Redacted (.dict items)) (hr' : Redacted (.dict items')) :
    EndAlike (fun d d' => SameNormal (.dict d) (.dict d')) (minimizePersistedPayload kind items)
      (minimizePersistedPayload kind items') := by
  have hlookup := fun key => (normal_dict_eq_iff (wellFormed_dict.mp hr.wellFormed).1
    (wellFormed_dict.mp hr'.wellFormed).1).mp h key
  unfold minimizePersistedPayload
  split_ifs with hkind
  · exact h
  · have hcell := hlookup (str "cell")
    cases hleft : Value.lookup items (str "cell") with
    | none =>
        rw [hleft] at hcell
        rw [Option.map_eq_none_iff.mp hcell.symm]
        trivial
    | some x =>
        rw [hleft] at hcell
        obtain ⟨x', hright, hx⟩ := Option.map_eq_some_iff.mp hcell.symm
        rw [hright]
        cases x with
        | dict cell =>
            obtain ⟨cell', rfl⟩ := normal_eq_dict hx
            have hrc := hr.lookup hleft
            have hrc' := hr'.lookup hright
            have hnodup := (wellFormed_dict.mp hrc.wellFormed).1
            have hnodup' := (wellFormed_dict.mp hrc'.wellFormed).1
            have hsame : SameNormal (.dict cell) (.dict cell') := hx.symm
            have hcells := (normal_dict_eq_iff hnodup hnodup').mp hsame
            have herased : SameNormal (.dict (eraseItem (str "source") cell))
                (.dict (eraseItem (str "source") cell')) := by
              refine (normal_dict_eq_iff
                (wellFormed_dict.mp (wellFormed_eraseItem hrc.wellFormed)).1
                (wellFormed_dict.mp (wellFormed_eraseItem hrc'.wellFormed)).1).mpr fun key => ?_
              rw [lookup_eraseItem, lookup_eraseItem]
              split_ifs
              · rfl
              · exact hcells key
            have hsource := sourceText_same hrc hrc' (hcells (str "source"))
            dsimp only
            rw [hsource]
            refine EndAlike.bind (EndAlike.of_eq rfl) fun text text' _ _ htext => ?_
            obtain rfl := htext
            cases encode text with
            | none => trivial
            | some bytes =>
                have hhash : SameNormal (.str (sha256Bytes bytes)) (.str (sha256Bytes bytes)) := rfl
                have hlength : SameNormal (.int bytes.length) (.int bytes.length) := rfl
                have hdigested : ∀ {cell : Items}, (dict cell).WellFormed →
                    (dict (Value.insertItem (str "source_sha256") (.str (sha256Bytes bytes))
                      (eraseItem (str "source") cell))).WellFormed :=
                  fun hcell => wellFormed_insertItem (wellFormed_eraseItem hcell) trivial
                have hmeasured : ∀ {cell : Items}, (dict cell).WellFormed →
                    (dict (Value.insertItem (str "source_bytes") (.int bytes.length)
                      (Value.insertItem (str "source_sha256") (.str (sha256Bytes bytes))
                        (eraseItem (str "source") cell)))).WellFormed :=
                  fun hcell => wellFormed_insertItem (hdigested hcell) trivial
                refine h.insertItem hr.wellFormed hr'.wellFormed ?_ (hmeasured hrc.wellFormed)
                  (hmeasured hrc'.wellFormed)
                refine SameNormal.insertItem ?_ (hdigested hrc.wellFormed)
                  (hdigested hrc'.wellFormed) hlength trivial trivial
                exact herased.insertItem (wellFormed_eraseItem hrc.wellFormed)
                  (wellFormed_eraseItem hrc'.wellFormed) hhash trivial trivial
        | _ =>
            cases x' with
            | dict cell' => cases hx
            | _ => trivial

/-- **Equal payloads are kept as the same bytes.** -/
lemma safePayload_same {kind : Str} (hsame : SamePayload v w) (hv : DistinctKeys v)
    (hw : DistinctKeys w) :
    EndAlike (fun p p' => SameNormal (.dict p.1) (.dict p'.1) ∧ p.2 = p'.2)
      (m.safePayload kind v) (m.safePayload kind w) := by
  have hredact := redactPayload_same v hsame hv hw
  cases v with
  | dict items =>
      obtain ⟨items', between, rfl, -, -⟩ := hsame
      unfold LabService.safePayload
      dsimp only
      refine EndAlike.bind hredact fun u u' hu hu' hnormal => ?_
      obtain ⟨d, rfl, -⟩ := entries_kept_iff hu
      obtain ⟨d', rfl, -⟩ := entries_kept_iff hu'
      dsimp only
      rw [hnormal.canonicalJson]
      refine EndAlike.bind (EndAlike.of_eq rfl) fun incoming incoming' _ _ hincoming => ?_
      obtain rfl := hincoming
      split_ifs
      · trivial
      · refine EndAlike.bind (minimize_same hnormal ⟨_, hu⟩ ⟨_, hu'⟩) fun safe safe' _ _ hsafe => ?_
        rw [hsafe.canonicalJson]
        refine EndAlike.bind (EndAlike.of_eq rfl) fun bytes bytes' _ _ hbytes => ?_
        exact ⟨hsafe, hbytes⟩
  | seq tuple xs =>
      obtain ⟨ys, rfl, -⟩ := hsame
      trivial
  | set frozen xs =>
      obtain ⟨frozen', ys, zs, rfl, -⟩ := hsame
      trivial
  | _ =>
      obtain rfl := hsame
      trivial

/-- **The order of a payload does not show**: of equal payloads a call makes the same canonical
JSON, the same hash and the same line, or it fails on both; and redaction merges entries of a
dictionary exactly if two keys have one text. -/
theorem order_does_not_show (hsame : SamePayload v w) (hv : DistinctKeys v) (hw : DistinctKeys w) :
    EndAlike Eq (redactPayload v >>= canonicalJson) (redactPayload w >>= canonicalJson)
      ∧ (∀ (m : LabService) (kind source : Str) (now : String) (s : Session),
        EndAlike (fun p p' => p.1.payloadSha256 = p'.1.payloadSha256
            ∧ canonicalJson (.dict p.1.payload) = canonicalJson (.dict p'.1.payload) ∧ p.2 = p'.2)
          (m.nextEvent kind v source now s) (m.nextEvent kind w source now s))
      ∧ ∀ items u, redactPayload (.dict items) = .ok u →
        ∃ d, u = .dict d ∧ (d.length = items.length ↔ (items.map Prod.fst).Nodup) := by
  refine ⟨?_, ?_, fun items u => entries_kept_iff⟩
  · refine EndAlike.bind (redactPayload_same v hsame hv hw) fun u u' _ _ hu => ?_
    exact EndAlike.of_eq hu.canonicalJson
  · intro m kind source now s
    unfold LabService.nextEvent
    refine EndAlike.bind (safePayload_same hsame hv hw) fun p p' _ _ hp => ?_
    obtain ⟨safe, bytes⟩ := p
    obtain ⟨safe', bytes'⟩ := p'
    obtain ⟨hsafe, rfl⟩ := hp
    dsimp only at hsafe ⊢
    split_ifs
    · trivial
    · have hline : SameNormal
          (EvidenceEvent.asdict ⟨s.events.length + 1, str now, kind, source,
            sha256Bytes bytes, safe⟩)
          (EvidenceEvent.asdict ⟨s.events.length + 1, str now, kind, source,
            sha256Bytes bytes, safe'⟩) := by
        have hpayload : (Value.dict safe).normal = (Value.dict safe').normal := hsafe
        simp only [SameNormal, EvidenceEvent.asdict, EvidenceEvent.items, Value.normal, normalItems]
          at hpayload ⊢
        rw [hpayload]
      refine EndAlike.bind (EndAlike.of_eq hline.canonicalJson) fun line line' _ _ hline => ?_
      exact ⟨rfl, hsafe.canonicalJson, hline⟩

/-- A payload with a set in it. -/
def colours : Value :=
  .dict [(str "colours", .set false [.str (str "red"), .int 7]), (str "cell", .int 1)]

/-- The same payload, put together and iterated over in another order. -/
def coloursReordered : Value :=
  .dict [(str "cell", .int 1), (str "colours", .set false [.int 7, .str (str "red")])]

theorem order_does_not_show_of_colours :
    EndAlike Eq (redactPayload colours >>= canonicalJson)
      (redactPayload coloursReordered >>= canonicalJson) := by
  have hset : SamePayload (.set false [.str (str "red"), .int 7])
      (.set false [.int 7, .str (str "red")]) :=
    ⟨false, _, _, rfl, ⟨_, _, rfl, rfl, _, _, rfl, rfl, rfl⟩, .swap _ _ _⟩
  have hsame : SamePayload colours coloursReordered :=
    ⟨_, _, rfl, ⟨_, _, rfl, hset, _, _, rfl, rfl, rfl⟩, .swap _ _ _⟩
  have hdistinct : DistinctKeys colours :=
    ⟨by decide, ⟨⟨trivial, trivial, trivial⟩, trivial, trivial, trivial⟩, trivial, trivial⟩
  have hdistinct' : DistinctKeys coloursReordered :=
    ⟨by decide, trivial, ⟨⟨trivial, trivial, trivial⟩, trivial, trivial, trivial⟩, trivial⟩
  exact (order_does_not_show hsame hdistinct hdistinct').1

/-- `{1: "a", "1": "b"}` keeps one entry, and which one it is depends on the order in which the two
were inserted; `{"x": 1}` and `{"x": True}` are equal in the language, and their texts are not. -/
theorem order_shows_of_one_text :
    redactPayload (.dict [(str "1", .str (str "a")), (str "1", .str (str "b"))])
        = .ok (.dict [(str "1", .str (str "b"))])
      ∧ redactPayload (.dict [(str "1", .str (str "b")), (str "1", .str (str "a"))])
        = .ok (.dict [(str "1", .str (str "a"))])
      ∧ canonicalJson (.dict [(str "1", .str (str "b"))])
        ≠ canonicalJson (.dict [(str "1", .str (str "a"))])
      ∧ (redactPayload (.dict [(str "x", .int 1)]) >>= canonicalJson)
        ≠ (redactPayload (.dict [(str "x", .bool true)]) >>= canonicalJson) := by
  have hleft : canonicalJson (.dict [(str "1", .str (str "b"))])
      = .ok (str "\x7b\"1\":\"b\"\x7d") := rfl
  have hright : canonicalJson (.dict [(str "1", .str (str "a"))])
      = .ok (str "\x7b\"1\":\"a\"\x7d") := rfl
  have hint : (redactPayload (.dict [(str "x", .int 1)]) >>= canonicalJson)
      = .ok (str "\x7b\"x\":1\x7d") := rfl
  have hbool : (redactPayload (.dict [(str "x", .bool true)]) >>= canonicalJson)
      = .ok (str "\x7b\"x\":true\x7d") := rfl
  refine ⟨rfl, rfl, ?_, ?_⟩
  · rw [hleft, hright]
    intro h
    exact absurd (Except.ok.inj h) (by decide)
  · rw [hint, hbool]
    intro h
    exact absurd (Except.ok.inj h) (by decide)

end FreebsdLaboratory
