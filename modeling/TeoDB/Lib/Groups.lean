import Mathlib

/-!
# Grouping by a key

A table of groups is an association list without repeated keys. Adding elements one by one
to the groups of their keys gives each key the elements that have it, in their order.
-/

namespace TeoDB.Lib.Groups

variable {κ ν α : Type*} [DecidableEq κ]

/-- The group of a key. -/
def find (k : κ) (groups : List (κ × ν)) : Option ν :=
  (groups.find? fun group => group.1 = k).map Prod.snd

/-- Change the group of a key, which is made first if there is none. -/
def upsert (k : κ) (new : ν) (f : ν → ν) : List (κ × ν) → List (κ × ν)
  | [] => [(k, f new)]
  | group :: rest => if group.1 = k then (k, f group.2) :: rest else group :: upsert k new f rest

@[simp] lemma find_nil (k : κ) : find k ([] : List (κ × ν)) = none := rfl

lemma find_cons (k : κ) (g : κ × ν) (rest : List (κ × ν)) :
    find k (g :: rest) = if g.1 = k then some g.2 else find k rest := by
  unfold find
  by_cases h : g.1 = k
  · rw [List.find?_cons_of_pos (by simpa using h), if_pos h]
    rfl
  · rw [List.find?_cons_of_neg (by simpa using h), if_neg h]

lemma find_upsert (k j : κ) (new : ν) (f : ν → ν) (gs : List (κ × ν)) :
    find j (upsert k new f gs) = if j = k then some (f ((find k gs).getD new)) else find j gs := by
  induction gs with
  | nil =>
    rw [upsert, find_cons]
    by_cases h : j = k
    · simp [h]
    · simp [h, Ne.symm h]
  | cons g rest ih =>
    rw [upsert, find_cons k, find_cons j]
    by_cases hg : g.1 = k
    · rw [if_pos hg, if_pos hg, find_cons]
      by_cases h : j = k
      · simp [h]
      · simp [h, Ne.symm h, hg]
    · rw [if_neg hg, if_neg hg, find_cons, ih]
      by_cases h : j = k
      · simp [h, hg]
      · simp [h]

lemma keys_upsert (k : κ) (new : ν) (f : ν → ν) (gs : List (κ × ν)) :
    (upsert k new f gs).map Prod.fst =
      if k ∈ gs.map Prod.fst then gs.map Prod.fst else gs.map Prod.fst ++ [k] := by
  induction gs with
  | nil => simp [upsert]
  | cons g rest ih =>
    rw [upsert]
    by_cases hg : g.1 = k
    · simp [hg]
    · rw [if_neg hg, List.map_cons, ih]
      have hmem : k ∈ (g :: rest).map Prod.fst ↔ k ∈ rest.map Prod.fst := by
        simp [Ne.symm hg]
      by_cases hr : k ∈ rest.map Prod.fst
      · rw [if_pos hr, if_pos (hmem.mpr hr), List.map_cons]
      · rw [if_neg hr, if_neg (mt hmem.mp hr), List.map_cons, List.cons_append]

lemma nodup_keys_upsert {gs : List (κ × ν)} (h : (gs.map Prod.fst).Nodup) (k : κ)
    (new : ν) (f : ν → ν) : ((upsert k new f gs).map Prod.fst).Nodup := by
  rw [keys_upsert]
  split_ifs with hk
  · exact h
  · exact h.append (List.nodup_singleton k) (by simpa using hk)

lemma mem_iff_find {gs : List (κ × ν)} (h : (gs.map Prod.fst).Nodup) {k : κ} {v : ν} :
    (k, v) ∈ gs ↔ find k gs = some v := by
  induction gs with
  | nil => simp
  | cons g rest ih =>
    obtain ⟨hg, hr⟩ := List.nodup_cons.mp h
    rw [find_cons, List.mem_cons]
    by_cases hk : g.1 = k
    · subst hk
      have hnot : (g.1, v) ∉ rest := fun hmem => hg (List.mem_map.mpr ⟨_, hmem, rfl⟩)
      simp [hnot, Prod.ext_iff, eq_comm]
    · have hne : (k, v) ≠ g := fun heq => hk (by rw [← heq])
      simp [hne, hk, ih hr]

/-- The elements of a key are added to its group in their order. -/
theorem find_foldl_upsert (l : List α) (key : α → κ) (new : α → ν) (f : α → ν → ν)
    (gs : List (κ × ν)) (k : κ) :
    find k (l.foldl (fun gs a => upsert (key a) (new a) (f a) gs) gs) =
      (l.filter fun a => key a = k).foldl (fun v a => some (f a (v.getD (new a)))) (find k gs) := by
  induction l generalizing gs with
  | nil => rfl
  | cons a rest ih =>
    rw [List.foldl_cons, ih, find_upsert]
    by_cases hk : k = key a
    · rw [if_pos hk, List.filter_cons_of_pos (by simpa using hk.symm), List.foldl_cons, ← hk]
    · rw [if_neg hk, List.filter_cons_of_neg (by simpa using Ne.symm hk)]

lemma nodup_keys_foldl_upsert (l : List α) (key : α → κ) (new : α → ν) (f : α → ν → ν)
    {gs : List (κ × ν)} (h : (gs.map Prod.fst).Nodup) :
    ((l.foldl (fun gs a => upsert (key a) (new a) (f a) gs) gs).map Prod.fst).Nodup := by
  induction l generalizing gs with
  | nil => exact h
  | cons a rest ih => exact ih (nodup_keys_upsert h _ _ _)

/-- A table has at most one group of a key. -/
theorem filter_key {gs : List (κ × ν)} (h : (gs.map Prod.fst).Nodup) (k : κ) :
    (gs.filter fun g => g.1 = k) = (find k gs).toList.map fun v => (k, v) := by
  induction gs with
  | nil => rfl
  | cons g rest ih =>
    obtain ⟨hg, hr⟩ := List.nodup_cons.mp h
    rw [find_cons]
    by_cases hk : g.1 = k
    · have hn : find k rest = none := by
        rw [find, Option.map_eq_none_iff, List.find?_eq_none]
        intro o hot heq
        rw [decide_eq_true_eq] at heq
        exact hg (List.mem_map.mpr ⟨o, hot, by rw [heq, hk]⟩)
      rw [List.filter_cons_of_pos (by simpa using hk), ih hr, hn, if_pos hk]
      simp [← hk]
    · rw [List.filter_cons_of_neg (by simpa using hk), ih hr, if_neg hk]

/-- A list falls into the parts of its keys. -/
theorem flatMap_filter_perm {keys : List κ} (hkeys : keys.Nodup) (key : α → κ) {l : List α}
    (h : ∀ a ∈ l, key a ∈ keys) : (keys.flatMap fun k => l.filter fun a => key a = k).Perm l := by
  induction keys generalizing l with
  | nil =>
    cases l with
    | nil => exact List.Perm.refl _
    | cons a rest => exact absurd (h a List.mem_cons_self) List.not_mem_nil
  | cons k rest ih =>
    obtain ⟨hk, hr⟩ := List.nodup_cons.mp hkeys
    have hots : ∀ a ∈ l.filter (fun a => ¬ key a = k), key a ∈ rest := by
      intro a ha
      obtain ⟨hmem, hne⟩ := List.mem_filter.mp ha
      exact (List.mem_cons.mp (h a hmem)).resolve_left (by simpa using hne)
    have hs : ∀ j ∈ rest, (l.filter fun a => key a = j) =
        (l.filter fun a => ¬ key a = k).filter fun a => key a = j := by
      intro j hj
      rw [List.filter_filter]
      apply List.filter_congr
      intro a _
      by_cases hj' : key a = j
      · have hne : j ≠ k := fun heq => hk (heq ▸ hj)
        simp [hj', hne]
      · simp [hj']
    rw [List.flatMap_cons, List.flatMap_congr hs]
    refine List.Perm.trans ((ih hr hots).append_left _) ?_
    have hsp := List.filter_append_perm (fun a => decide (key a = k)) l
    simpa using hsp

end TeoDB.Lib.Groups
