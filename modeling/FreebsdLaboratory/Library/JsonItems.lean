import FreebsdLaboratory.Library.JsonRoundTrip

/-!
# Items of dictionaries

How `Value.lookup` reads a dictionary that was put together item by item, sorted, or read back from
its text, and that putting items together keeps values well formed.
-/

namespace Library.Json

open Unicode Value

variable {items : List (Str × Value)} {key : Str} {v : Value}

/-! ## Well-formed items -/

lemma wellFormedItems_iff : WellFormedItems items ↔ ∀ item ∈ items, item.2.WellFormed := by
  induction items with
  | nil => simp [WellFormedItems]
  | cons item items ih => rw [WellFormedItems, ih, List.forall_mem_cons]

lemma wellFormedAll_iff {xs : List Value} : WellFormedAll xs ↔ ∀ x ∈ xs, x.WellFormed := by
  induction xs with
  | nil => simp [WellFormedAll]
  | cons x xs ih => rw [WellFormedAll, ih, List.forall_mem_cons]

lemma wellFormed_dict : (dict items).WellFormed ↔
    (items.map Prod.fst).Nodup ∧ ∀ item ∈ items, item.2.WellFormed := by
  rw [Value.WellFormed, wellFormedItems_iff]

lemma mem_insertItem {item : Str × Value} (h : item ∈ insertItem key v items) :
    item = (key, v) ∨ item ∈ items := by
  induction items with
  | nil => exact .inl (by simpa [insertItem] using h)
  | cons first items ih =>
      rw [insertItem] at h
      split_ifs at h
      · rcases List.mem_cons.mp h with h | h
        · exact .inl h
        · exact .inr (List.mem_cons_of_mem _ h)
      · rcases List.mem_cons.mp h with h | h
        · exact .inr (by simp [h])
        · rcases ih h with h | h
          · exact .inl h
          · exact .inr (List.mem_cons_of_mem _ h)

/-- An old key keeps its place, a new one goes to the end. -/
lemma insertItem_keys : (insertItem key v items).map Prod.fst
    = if key ∈ items.map Prod.fst then items.map Prod.fst else items.map Prod.fst ++ [key] := by
  induction items with
  | nil => rfl
  | cons item items ih =>
      rw [insertItem]
      by_cases hkey : item.1 = key
      · simp [hkey]
      · rw [if_neg hkey, List.map_cons, ih]
        by_cases hmem : key ∈ items.map Prod.fst
        · simp only [hmem, if_true, List.map_cons, List.mem_cons, or_true]
        · have hfirst : ¬ key = item.1 := fun h => hkey h.symm
          simp only [hmem, hfirst, if_false, List.map_cons, List.mem_cons, or_self,
            List.cons_append]

lemma nodup_insertItem (h : (items.map Prod.fst).Nodup) :
    ((insertItem key v items).map Prod.fst).Nodup := by
  rw [insertItem_keys]
  split_ifs with hmem
  · exact h
  · exact List.nodup_append.mpr ⟨h, List.nodup_singleton _, fun a ha b hb => by
      rw [List.mem_singleton] at hb
      rintro rfl
      exact hmem (hb ▸ ha)⟩

lemma wellFormed_insertItem (h : (dict items).WellFormed) (hv : v.WellFormed) :
    (dict (insertItem key v items)).WellFormed := by
  rw [wellFormed_dict] at h ⊢
  refine ⟨nodup_insertItem h.1, fun item hitem => ?_⟩
  rcases mem_insertItem hitem with rfl | hitem
  · exact hv
  · exact h.2 item hitem

/-! ## Looking up -/

lemma lookup_eq_some_iff (hnodup : (items.map Prod.fst).Nodup) :
    lookup items key = some v ↔ (key, v) ∈ items := by
  rw [lookup]
  induction items with
  | nil => simp
  | cons item items ih =>
      obtain ⟨k, w⟩ := item
      rw [List.map_cons, List.nodup_cons] at hnodup
      rw [List.lookup_cons, List.mem_cons]
      by_cases hkey : key = k
      · subst hkey
        simp only [BEq.rfl, Option.some.injEq, Prod.mk.injEq, true_and]
        refine ⟨fun h => .inl h.symm, fun h => ?_⟩
        rcases h with h | h
        · exact h.symm
        · exact absurd (List.mem_map_of_mem (f := Prod.fst) h) hnodup.1
      · have hbeq : (key == k) = false := by simpa using hkey
        rw [hbeq]
        simp only [ih hnodup.2, Prod.mk.injEq, hkey, false_and, false_or]

/-- Sorting does not change what is under a key. -/
lemma lookup_sortItems (hnodup : (items.map Prod.fst).Nodup) (key : Str) :
    lookup (sortItems items) key = lookup items key := by
  have hsorted : ((sortItems items).map Prod.fst).Nodup :=
    ((sortItems_perm items).map Prod.fst).nodup_iff.mpr hnodup
  refine Option.ext fun v => ?_
  rw [lookup_eq_some_iff hsorted, lookup_eq_some_iff hnodup, (sortItems_perm items).mem_iff]

lemma lookup_normalItems (items : List (Str × Value)) (key : Str) :
    lookup (normalItems items) key = (lookup items key).map normal := by
  rw [lookup, lookup]
  induction items with
  | nil => rfl
  | cons item items ih =>
      obtain ⟨k, w⟩ := item
      rw [normalItems, List.lookup_cons, List.lookup_cons]
      cases key == k with
      | true => rfl
      | false => exact ih

/-- **What is under a key of a dictionary that was read back.** -/
lemma lookup_readBack (hnodup : (items.map Prod.fst).Nodup) (key : Str) :
    lookup (sortItems (normalItems items)) key = (lookup items key).map normal := by
  rw [lookup_sortItems (by rwa [normalItems_keys]), lookup_normalItems]

/-! ## Looking up in a dictionary that was changed -/

lemma lookup_cons {item : Str × Value} :
    lookup (item :: items) key = if key = item.1 then some item.2 else lookup items key := by
  obtain ⟨k, v⟩ := item
  rw [lookup, List.lookup_cons]
  by_cases hkey : key = k
  · simp [hkey]
  · have hbeq : (key == k) = false := by simpa using hkey
    rw [hbeq, if_neg hkey]
    rfl

lemma lookup_insertItem {k : Str} :
    lookup (insertItem k v items) key = if key = k then some v else lookup items key := by
  induction items with
  | nil => exact lookup_cons
  | cons item items ih =>
      obtain ⟨k', w⟩ := item
      rw [insertItem]
      by_cases hk : k' = k
      · subst hk
        rw [if_pos rfl, lookup_cons, lookup_cons]
        split_ifs <;> rfl
      · rw [if_neg hk, lookup_cons, lookup_cons, ih]
        by_cases hkey : key = k'
        · subst hkey
          simp [hk]
        · simp [hkey]

/-- Dictionaries with the same keys in the same order and the same value under each are equal. -/
lemma items_ext {items' : List (Str × Value)} (hkeys : items.map Prod.fst = items'.map Prod.fst)
    (hnodup : (items.map Prod.fst).Nodup) (h : ∀ key, lookup items key = lookup items' key) :
    items = items' := by
  refine List.ext_getElem (by simpa using congrArg List.length hkeys) ?_
  intro i hi hi'
  have hkey : items[i].1 = items'[i].1 := by
    have hget := List.getElem_of_eq hkeys (i := i) (by simpa using hi)
    simpa using hget
  have hleft : lookup items items[i].1 = some items[i].2 :=
    (lookup_eq_some_iff hnodup).mpr (List.getElem_mem hi)
  have hright : lookup items' items'[i].1 = some items'[i].2 :=
    (lookup_eq_some_iff (hkeys ▸ hnodup)).mpr (List.getElem_mem hi')
  rw [h, hkey, hright, Option.some.injEq] at hleft
  exact Prod.ext hkey hleft.symm

lemma mem_keys_of_lookup {k : Str}
    (h : lookup items k = some v) : k ∈ items.map Prod.fst := by
  induction items with
  | nil => cases h
  | cons item items ih =>
      rw [lookup_cons] at h
      by_cases hk : k = item.1
      · simp [hk]
      · rw [if_neg hk] at h
        exact List.mem_cons_of_mem _ (ih h)

lemma lookup_isSome_iff : (lookup items key).isSome = true ↔ key ∈ items.map Prod.fst := by
  induction items with
  | nil => simp [lookup]
  | cons item items ih =>
      rw [lookup_cons, List.map_cons, List.mem_cons, ← ih]
      by_cases hkey : key = item.1
      · simp [hkey]
      · simp [hkey]

/-- **Dictionaries have one normal form exactly if they have one under every key.** -/
theorem normal_dict_eq_iff {items' : List (Str × Value)} (hnodup : (items.map Prod.fst).Nodup)
    (hnodup' : (items'.map Prod.fst).Nodup) : (dict items).normal = (dict items').normal
      ↔ ∀ key, (lookup items key).map normal = (lookup items' key).map normal := by
  have hsorted : ∀ {items : List (Str × Value)}, (items.map Prod.fst).Nodup →
      ((sortItems (normalItems items)).map Prod.fst).Nodup := by
    intro items h
    rw [((sortItems_perm _).map Prod.fst).nodup_iff, normalItems_keys]
    exact h
  rw [normal, normal, Value.dict.injEq]
  constructor
  · intro h key
    rw [← lookup_readBack hnodup, ← lookup_readBack hnodup', h]
  · intro h
    have hlookup : ∀ key, lookup (sortItems (normalItems items)) key
        = lookup (sortItems (normalItems items')) key := by
      intro key
      rw [lookup_readBack hnodup, lookup_readBack hnodup', h]
    refine items_ext ?_ (hsorted hnodup) hlookup
    have hperm : ((sortItems (normalItems items)).map Prod.fst).Perm
        ((sortItems (normalItems items')).map Prod.fst) := by
      refine (List.perm_ext_iff_of_nodup (hsorted hnodup) (hsorted hnodup')).mpr ?_
      intro key
      rw [← lookup_isSome_iff, ← lookup_isSome_iff, hlookup]
    have hpairwise : ∀ items : List (Str × Value),
        ((sortItems items).map Prod.fst).Pairwise (· ≤ ·) := fun items =>
      List.pairwise_map.mpr (sortItems_sorted items)
    exact hperm.eq_of_pairwise (fun a b _ _ hab hba => le_antisymm hab hba) (hpairwise _)
      (hpairwise _)

end Library.Json
