import Mathlib

/-!
# Finite maps as strictly sorted association lists

The entries are sorted by key and no key repeats, and the structure carries the proof of it.
-/

namespace TeoDB.Lib

/-- A finite map from an ordered key type. -/
structure OrdMap (κ ν : Type*) [LinearOrder κ] where
  entries : List (κ × ν)
  sorted : entries.Pairwise fun a b => a.1 < b.1

namespace OrdMap

variable {κ ν : Type*} [LinearOrder κ]

instance [DecidableEq ν] : DecidableEq (OrdMap κ ν) := fun a b =>
  match decEq a.entries b.entries with
  | .isTrue h => .isTrue (by cases a; cases b; simp_all)
  | .isFalse h => .isFalse fun he => h (by rw [he])

/-- The map without entries. -/
def empty : OrdMap κ ν := ⟨[], List.Pairwise.nil⟩

instance : Inhabited (OrdMap κ ν) := ⟨empty⟩

def keys (m : OrdMap κ ν) : List κ := m.entries.map Prod.fst

def values (m : OrdMap κ ν) : List ν := m.entries.map Prod.snd

def find? (m : OrdMap κ ν) (k : κ) : Option ν :=
  (m.entries.find? fun e => e.1 = k).map Prod.snd

/-- The least key, which is the first one in iteration order. -/
def minKey? (m : OrdMap κ ν) : Option κ := m.entries.head?.map Prod.fst

/-- Put an entry at its sorted place, replacing an entry with the same key. -/
def insertEntry (k : κ) (v : ν) : List (κ × ν) → List (κ × ν)
  | [] => [(k, v)]
  | e :: rest =>
    if k < e.1 then (k, v) :: e :: rest
    else if k = e.1 then (k, v) :: rest
    else e :: insertEntry k v rest

variable {k : κ} {v : ν} {l : List (κ × ν)}

lemma mem_insertEntry (h : l.Pairwise fun a b => a.1 < b.1) (e : κ × ν) :
    e ∈ insertEntry k v l ↔ e = (k, v) ∨ (e.1 ≠ k ∧ e ∈ l) := by
  induction l with
  | nil => simp [insertEntry]
  | cons x rest ih =>
    obtain ⟨hx, hr⟩ := List.pairwise_cons.mp h
    by_cases hlt : k < x.1
    · have hk : ∀ y ∈ x :: rest, y.1 ≠ k := by
        intro y hy
        rcases List.mem_cons.mp hy with rfl | hy
        · exact hlt.ne'
        · exact (hlt.trans (hx y hy)).ne'
      simp only [insertEntry, if_pos hlt, List.mem_cons]
      constructor
      · rintro (he | he)
        · exact Or.inl he
        · exact Or.inr ⟨hk e (List.mem_cons.mpr he), he⟩
      · rintro (he | ⟨_, he⟩)
        · exact Or.inl he
        · exact Or.inr he
    · by_cases heq : k = x.1
      · have hk : ∀ y ∈ rest, y.1 ≠ k := fun y hy => heq ▸ (hx y hy).ne'
        simp only [insertEntry, if_neg hlt, if_pos heq, List.mem_cons]
        constructor
        · rintro (he | he)
          · exact Or.inl he
          · exact Or.inr ⟨hk e he, Or.inr he⟩
        · rintro (he | ⟨hne, rfl | he⟩)
          · exact Or.inl he
          · exact absurd heq.symm hne
          · exact Or.inr he
      · simp only [insertEntry, if_neg hlt, if_neg heq, List.mem_cons, ih hr]
        constructor
        · rintro (rfl | he | ⟨hne, he⟩)
          · exact Or.inr ⟨fun hk => heq hk.symm, Or.inl rfl⟩
          · exact Or.inl he
          · exact Or.inr ⟨hne, Or.inr he⟩
        · rintro (he | ⟨hne, rfl | he⟩)
          · exact Or.inr (Or.inl he)
          · exact Or.inl rfl
          · exact Or.inr (Or.inr ⟨hne, he⟩)

lemma insertEntry_sorted (h : l.Pairwise fun a b => a.1 < b.1) :
    (insertEntry k v l).Pairwise fun a b => a.1 < b.1 := by
  induction l with
  | nil => simp [insertEntry]
  | cons x rest ih =>
    obtain ⟨hx, hr⟩ := List.pairwise_cons.mp h
    by_cases hlt : k < x.1
    · simp only [insertEntry, if_pos hlt]
      refine List.pairwise_cons.mpr ⟨?_, h⟩
      intro y hy
      rcases List.mem_cons.mp hy with rfl | hy
      · exact hlt
      · exact hlt.trans (hx y hy)
    · by_cases heq : k = x.1
      · simp only [insertEntry, if_neg hlt, if_pos heq]
        exact List.pairwise_cons.mpr ⟨fun y hy => heq ▸ hx y hy, hr⟩
      · simp only [insertEntry, if_neg hlt, if_neg heq]
        refine List.pairwise_cons.mpr ⟨?_, ih hr⟩
        intro y hy
        rcases (mem_insertEntry hr y).mp hy with rfl | ⟨_, hy⟩
        · exact lt_of_le_of_ne (not_lt.mp hlt) fun he => heq he.symm
        · exact hx y hy

def insert (m : OrdMap κ ν) (k : κ) (v : ν) : OrdMap κ ν :=
  ⟨insertEntry k v m.entries, insertEntry_sorted m.sorted⟩

def erase (m : OrdMap κ ν) (k : κ) : OrdMap κ ν :=
  ⟨m.entries.filter fun e => e.1 ≠ k, m.sorted.filter _⟩

variable (m : OrdMap κ ν)

lemma mem_entries_insert (k : κ) (v : ν) (e : κ × ν) :
    e ∈ (m.insert k v).entries ↔ e = (k, v) ∨ (e.1 ≠ k ∧ e ∈ m.entries) :=
  mem_insertEntry m.sorted e

@[simp] lemma mem_entries_erase (k : κ) (e : κ × ν) :
    e ∈ (m.erase k).entries ↔ e.1 ≠ k ∧ e ∈ m.entries := by
  simp [erase, and_comm]

lemma nodup_entries : m.entries.Nodup :=
  m.sorted.imp fun {_ _} h he => h.ne (congrArg Prod.fst he)

lemma keys_nodup : m.keys.Nodup :=
  List.pairwise_map.mpr (m.sorted.imp fun h => h.ne)

lemma eq_of_mem_entries {v w : ν} (hv : (k, v) ∈ m.entries) (hw : (k, w) ∈ m.entries) : v = w :=
  congrArg Prod.snd (List.inj_on_of_nodup_map m.keys_nodup hv hw rfl)

@[simp] lemma mem_keys (k : κ) : k ∈ m.keys ↔ ∃ v, (k, v) ∈ m.entries := by
  simp [keys]

lemma find?_eq_some_iff (k : κ) (v : ν) : m.find? k = some v ↔ (k, v) ∈ m.entries := by
  constructor
  · intro h
    obtain ⟨e, he, rfl⟩ := Option.map_eq_some_iff.mp h
    have hk : e.1 = k := by simpa using List.find?_some he
    exact hk ▸ List.mem_of_find?_eq_some he
  · intro h
    cases hf : m.entries.find? fun e => e.1 = k with
    | none => simpa using List.find?_eq_none.mp hf (k, v) h
    | some e =>
      have hk : e.1 = k := by simpa using List.find?_some hf
      have hm : (k, e.2) ∈ m.entries := hk ▸ List.mem_of_find?_eq_some hf
      simp [find?, hf, m.eq_of_mem_entries hm h]

lemma find?_eq_none_iff (k : κ) : m.find? k = none ↔ k ∉ m.keys := by
  rw [Option.eq_none_iff_forall_not_mem, mem_keys, not_exists]
  exact forall_congr' fun v => not_congr (m.find?_eq_some_iff k v)

@[simp] lemma find?_empty (k : κ) : (empty : OrdMap κ ν).find? k = none := rfl

lemma find?_insert (k : κ) (v : ν) (j : κ) :
    (m.insert k v).find? j = if j = k then some v else m.find? j := by
  ext w
  rw [find?_eq_some_iff, mem_entries_insert]
  split_ifs with h
  · simp [h, eq_comm]
  · simp [h, find?_eq_some_iff]

lemma find?_erase (k j : κ) : (m.erase k).find? j = if j = k then none else m.find? j := by
  ext w
  rw [find?_eq_some_iff, mem_entries_erase]
  split_ifs with h
  · simp [h]
  · simp [h, find?_eq_some_iff]

/-- Erasing other keys leaves a lookup as it is. -/
theorem find?_foldl_erase {removals : List κ} (h : ∀ j ∈ removals, k ≠ j) :
    (removals.foldl erase m).find? k = m.find? k := by
  induction removals generalizing m with
  | nil => rfl
  | cons j rest ih =>
    calc ((j :: rest).foldl erase m).find? k
        = (m.erase j).find? k := ih (m.erase j) fun i hi => h i (List.mem_cons_of_mem j hi)
      _ = m.find? k := by rw [find?_erase, if_neg (h j List.mem_cons_self)]

/-- A key is gone after erasing exactly if it was erased. -/
theorem find?_foldl_erase_eq_none (removals : List κ) (h : m.find? k = some v) :
    (removals.foldl erase m).find? k = none ↔ k ∈ removals := by
  by_cases hmem : k ∈ removals
  · simp only [hmem, iff_true]
    clear h
    induction removals generalizing m with
    | nil => cases hmem
    | cons j rest ih =>
      by_cases hr : k ∈ rest
      · exact ih (m.erase j) hr
      · have hkj : k = j := (List.mem_cons.mp hmem).resolve_right hr
        have hot : ∀ i ∈ rest, k ≠ i := fun i hi heq => hr (heq ▸ hi)
        rw [List.foldl_cons, find?_foldl_erase _ hot, find?_erase, if_pos hkj]
  · have hot : ∀ j ∈ removals, k ≠ j := fun j hj heq => hmem (heq ▸ hj)
    rw [find?_foldl_erase _ hot, h]
    simpa using hmem

/-- Keep the entries whose keys pass a test. -/
def retain (m : OrdMap κ ν) (keep : κ → Bool) : OrdMap κ ν :=
  ⟨m.entries.filter fun e => keep e.1, m.sorted.filter _⟩

/-- Replace each value or drop its entry. -/
def filterMap {ω : Type*} (m : OrdMap κ ν) (f : κ → ν → Option ω) : OrdMap κ ω where
  entries := m.entries.filterMap fun e => (f e.1 e.2).map fun v => (e.1, v)
  sorted := by
    refine List.pairwise_filterMap.mpr (m.sorted.imp ?_)
    intro a b hab x hx y hy
    obtain ⟨_, _, rfl⟩ := Option.map_eq_some_iff.mp hx
    obtain ⟨_, _, rfl⟩ := Option.map_eq_some_iff.mp hy
    exact hab

lemma find?_filterMap {ω : Type*} (f : κ → ν → Option ω) (k : κ) :
    (m.filterMap f).find? k = (m.find? k).bind (f k) := by
  ext w
  rw [find?_eq_some_iff, Option.bind_eq_some_iff, filterMap, List.mem_filterMap]
  constructor
  · rintro ⟨⟨j, v⟩, hmem, hw⟩
    obtain ⟨_, hf, heq⟩ := Option.map_eq_some_iff.mp hw
    cases heq
    exact ⟨v, (m.find?_eq_some_iff j v).mpr hmem, hf⟩
  · rintro ⟨v, hv, hf⟩
    exact ⟨(k, v), (m.find?_eq_some_iff k v).mp hv, by rw [hf]; rfl⟩

/-- Insert the entries of a list from the left, later ones replacing earlier ones. -/
def insertAll (m : OrdMap κ ν) (l : List (κ × ν)) : OrdMap κ ν :=
  l.foldl (fun m e => m.insert e.1 e.2) m

lemma find?_insertAll_of_notMem (h : k ∉ l.map Prod.fst) :
    (m.insertAll l).find? k = m.find? k := by
  induction l generalizing m with
  | nil => rfl
  | cons e rest ih =>
    obtain ⟨hne, hr⟩ : k ≠ e.1 ∧ k ∉ rest.map Prod.fst := by simpa using h
    calc (m.insertAll (e :: rest)).find? k = (m.insert e.1 e.2).find? k := ih (m.insert e.1 e.2) hr
      _ = m.find? k := by rw [find?_insert, if_neg hne]

/-- A list without repeated keys is found entry by entry. -/
theorem find?_insertAll_of_mem (hnd : (l.map Prod.fst).Nodup) (h : (k, v) ∈ l) :
    (m.insertAll l).find? k = some v := by
  induction l generalizing m with
  | nil => cases h
  | cons e rest ih =>
    obtain ⟨hnot, hnd⟩ := List.nodup_cons.mp hnd
    rcases List.mem_cons.mp h with rfl | hmem
    · calc (m.insertAll ((k, v) :: rest)).find? k
          = (m.insert k v).find? k := find?_insertAll_of_notMem _ hnot
        _ = some v := by rw [find?_insert, if_pos rfl]
    · exact ih (m.insert e.1 e.2) hnd hmem

/-- A map is determined by its entries. -/
theorem ext_mem {a b : OrdMap κ ν} (h : ∀ e, e ∈ a.entries ↔ e ∈ b.entries) : a = b := by
  have hp : a.entries.Perm b.entries :=
    (List.perm_ext_iff_of_nodup a.nodup_entries b.nodup_entries).mpr h
  have hens : a.entries = b.entries :=
    hp.eq_of_pairwise (fun _ _ _ _ hlt hgt => absurd hgt (not_lt_of_gt hlt)) a.sorted b.sorted
  cases a
  cases b
  subst hens
  rfl

lemma insertAll_entries : empty.insertAll m.entries = m := by
  apply ext_mem
  rintro ⟨k, v⟩
  rw [← find?_eq_some_iff, ← find?_eq_some_iff]
  by_cases hk : k ∈ m.keys
  · obtain ⟨w, hw⟩ := (m.mem_keys k).mp hk
    rw [find?_insertAll_of_mem empty m.keys_nodup hw, (m.find?_eq_some_iff k w).mpr hw]
  · rw [find?_insertAll_of_notMem empty hk, find?_empty, (m.find?_eq_none_iff k).mpr hk]

/-- A new key adds one entry. -/
theorem insert_perm (v : ν) (h : m.find? k = none) :
    (m.insert k v).entries.Perm ((k, v) :: m.entries) := by
  have hk : ∀ w, (k, w) ∉ m.entries := by
    simpa using (m.find?_eq_none_iff k).mp h
  refine (List.perm_ext_iff_of_nodup (nodup_entries _) ?_).mpr ?_
  · exact List.nodup_cons.mpr ⟨hk v, m.nodup_entries⟩
  · rintro ⟨j, w⟩
    rw [mem_entries_insert, List.mem_cons]
    constructor
    · rintro (he | ⟨_, he⟩)
      · exact Or.inl he
      · exact Or.inr he
    · rintro (he | he)
      · exact Or.inl he
      · exact Or.inr ⟨fun hj => hk w (hj ▸ he), he⟩

/-- Erasing a key that is present removes exactly its entry. -/
theorem erase_perm (h : m.find? k = some v) : m.entries.Perm ((k, v) :: (m.erase k).entries) := by
  have hm : (k, v) ∈ m.entries := (m.find?_eq_some_iff k v).mp h
  refine (List.perm_ext_iff_of_nodup m.nodup_entries ?_).mpr ?_
  · exact List.nodup_cons.mpr ⟨by simp, nodup_entries _⟩
  · rintro ⟨j, w⟩
    rw [List.mem_cons, mem_entries_erase]
    constructor
    · intro he
      by_cases hj : j = k
      · subst hj
        exact Or.inl (by rw [m.eq_of_mem_entries he hm])
      · exact Or.inr ⟨hj, he⟩
    · rintro (he | ⟨_, he⟩)
      · exact he ▸ hm
      · exact he

/-- The new entry takes the place of the old one. -/
theorem insert_perm_erase (k : κ) (v : ν) :
    (m.insert k v).entries.Perm ((k, v) :: (m.erase k).entries) := by
  refine (List.perm_ext_iff_of_nodup (nodup_entries _) ?_).mpr ?_
  · exact List.nodup_cons.mpr ⟨by simp, nodup_entries _⟩
  · intro e
    rw [mem_entries_insert, List.mem_cons, mem_entries_erase]

lemma keys_insert_perm (v : ν) (h : m.find? k = none) : (m.insert k v).keys.Perm (k :: m.keys) :=
  (m.insert_perm v h).map Prod.fst

lemma values_insert_perm (v : ν) (h : m.find? k = none) :
    (m.insert k v).values.Perm (v :: m.values) :=
  (m.insert_perm v h).map Prod.snd

lemma keys_erase_perm (h : m.find? k = some v) : m.keys.Perm (k :: (m.erase k).keys) :=
  (m.erase_perm h).map Prod.fst

lemma values_erase_perm (h : m.find? k = some v) : m.values.Perm (v :: (m.erase k).values) :=
  (m.erase_perm h).map Prod.snd

lemma minKey?_eq_none_iff : m.minKey? = none ↔ m.entries = [] := by
  simp [minKey?]

/-- The first key is present and no key is below it. -/
theorem minKey?_le (h : m.minKey? = some k) : k ∈ m.keys ∧ ∀ j ∈ m.keys, k ≤ j := by
  obtain ⟨es, so⟩ := m
  cases es with
  | nil => simp [minKey?] at h
  | cons e rest =>
    have hk : e.1 = k := by simpa [minKey?] using h
    subst hk
    refine ⟨by simp [keys], ?_⟩
    intro j hj
    obtain ⟨x, hx, rfl⟩ := List.mem_map.mp hj
    rcases List.mem_cons.mp hx with rfl | hx
    · exact le_refl _
    · exact ((List.pairwise_cons.mp so).1 x hx).le

end OrdMap

end TeoDB.Lib
