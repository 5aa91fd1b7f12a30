import Mathlib.Data.List.Induction
import Mathlib.Data.List.Nodup
import Mathlib.Tactic.Common

/-!
# Grouping by a key

`group key xs` is what a dictionary of lists comes to that is filled with
`groups.setdefault(key(x), []).append(x)`: the keys in the order in which they first occur, each
with its elements in order (`group_eq`).
-/

namespace Library

variable {α κ : Type} [DecidableEq κ] {k : κ} {x : α} {key : α → κ}

/-- `groups.setdefault(k, []).append(x)` -/
def addTo (k : κ) (x : α) : List (κ × List α) → List (κ × List α)
  | [] => [(k, [x])]
  | (k', xs) :: groups => if k' = k then (k', xs ++ [x]) :: groups else (k', xs) :: addTo k x groups

def group (key : α → κ) (xs : List α) : List (κ × List α) :=
  xs.foldl (fun groups x => addTo (key x) x groups) []

/-- An element of a key that is there joins its group; another key gets a group at the end. -/
lemma addTo_map {ks : List κ} (hks : ks.Nodup) (f : κ → List α) :
    addTo k x (ks.map fun k' => (k', f k'))
      = if k ∈ ks then ks.map fun k' => (k', if k' = k then f k' ++ [x] else f k')
        else (ks.map fun k' => (k', f k')) ++ [(k, [x])] := by
  induction ks with
  | nil => rfl
  | cons k' ks ih =>
      rw [List.nodup_cons] at hks
      rw [List.map_cons, addTo]
      by_cases hk : k' = k
      · subst hk
        have htail : ∀ k ∈ ks, (k, f k) = (k, if k = k' then f k ++ [x] else f k) := by
          intro k hmem
          rw [if_neg]
          intro heq
          exact hks.1 (heq ▸ hmem)
        simp only [if_true, List.mem_cons, true_or, List.map_cons]
        rw [List.map_congr_left htail]
      · rw [if_neg hk, ih hks.2]
        by_cases hmem : k ∈ ks
        · simp [hmem, hk]
        · simp [hmem, Ne.symm hk]

/-- The keys in the order in which they first occur. -/
def firsts (ks : List κ) : List κ := ks.eraseDups

lemma firsts_concat (ks : List κ) (k : κ) :
    firsts (ks ++ [k]) = if k ∈ ks then firsts ks else firsts ks ++ [k] := by
  rw [firsts, List.eraseDups_append]
  by_cases hmem : k ∈ ks
  · simp [List.removeAll, hmem, firsts]
  · simp [List.removeAll, hmem, firsts, List.eraseDups_cons]

lemma mem_firsts {ks : List κ} : k ∈ firsts ks ↔ k ∈ ks := by
  induction ks using List.reverseRecOn with
  | nil => rfl
  | append_singleton ks k' ih =>
      rw [firsts_concat]
      by_cases hmem : k' ∈ ks
      · rw [if_pos hmem, ih, List.mem_append, List.mem_singleton]
        constructor
        · exact .inl
        · rintro (h | rfl)
          · exact h
          · exact hmem
      · rw [if_neg hmem, List.mem_append, List.mem_append, ih]

lemma nodup_firsts (ks : List κ) : (firsts ks).Nodup := by
  induction ks using List.reverseRecOn with
  | nil => exact List.nodup_nil
  | append_singleton ks k ih =>
      rw [firsts_concat]
      by_cases hmem : k ∈ ks
      · rwa [if_pos hmem]
      · rw [if_neg hmem, List.nodup_append]
        refine ⟨ih, List.nodup_singleton k, ?_⟩
        intro a ha b hb
        obtain rfl := List.mem_singleton.mp hb
        intro heq
        exact hmem (mem_firsts.mp (heq ▸ ha))

/-- What has occurred before adds nothing. -/
lemma firsts_append_of_subset {ks ks' : List κ} (h : ∀ k ∈ ks', k ∈ ks) :
    firsts (ks ++ ks') = firsts ks := by
  induction ks' using List.reverseRecOn with
  | nil => rw [List.append_nil]
  | append_singleton ks' k ih =>
      have hmem : k ∈ ks := h k (by simp)
      rw [← List.append_assoc, firsts_concat, if_pos (List.mem_append_left _ hmem),
        ih fun k' hk' => h k' (List.mem_append_left _ hk')]

/-- **Every element is in the group of its key, once and in order.** -/
theorem group_eq (key : α → κ) (xs : List α) :
    group key xs = (firsts (xs.map key)).map fun k => (k, xs.filter fun x => key x = k) := by
  induction xs using List.reverseRecOn with
  | nil => rfl
  | append_singleton xs x ih =>
      have hfold : group key (xs ++ [x]) = addTo (key x) x (group key xs) := by
        rw [group, group, List.foldl_append]
        rfl
      rw [hfold, ih, addTo_map (nodup_firsts _), List.map_append, List.map_singleton, firsts_concat]
      by_cases hmem : key x ∈ xs.map key
      · rw [if_pos (mem_firsts.mpr hmem), if_pos hmem]
        refine List.map_congr_left fun k _ => ?_
        by_cases hk : k = key x
        · simp [hk, List.filter_append]
        · simp [hk, Ne.symm hk, List.filter_append]
      · have hnone : xs.filter (fun y => key y = key x) = [] := by
          rw [List.filter_eq_nil_iff]
          intro y hy hkey
          exact hmem (List.mem_map.mpr ⟨y, hy, of_decide_eq_true hkey⟩)
        rw [if_neg (fun h => hmem (mem_firsts.mp h)), if_neg hmem, List.map_append,
          List.map_singleton]
        have hothers : ∀ k ∈ firsts (xs.map key),
            (k, xs.filter fun y => key y = k) = (k, (xs ++ [x]).filter fun y => key y = k) := by
          intro k hk
          have hne : key x ≠ k := fun heq => hmem (heq ▸ mem_firsts.mp hk)
          simp [List.filter_append, hne]
        rw [List.map_congr_left hothers, List.filter_append, hnone]
        simp

end Library
