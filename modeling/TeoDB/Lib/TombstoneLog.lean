import Mathlib

/-!
# Logs of records and tombstones

A tombstone voids every earlier record with its key. Records can also be settled
on their own. What is left is live. The main rule says when a stretch of the log
can be cut out without changing what is live: its records are dead already, and
none of its tombstones has anything left to void before it.
-/

namespace TeoDB.Lib.TombstoneLog

variable {κ δ : Type*} [DecidableEq κ]

inductive Entry (κ δ : Type*) where
  | record (key : κ) (data : δ)
  | tombstone (key : κ)

def Entry.buries (k : κ) : Entry κ δ → Bool
  | .record _ _ => false
  | .tombstone key => decide (key = k)

/-- Whether some tombstone of the log has the key. -/
def buried (log : List (Entry κ δ)) (k : κ) : Bool := log.any (Entry.buries k)

/-- The records that are neither settled nor voided by a later tombstone, in
order. -/
def live (settled : κ → δ → Bool) : List (Entry κ δ) → List (κ × δ)
  | [] => []
  | .record k d :: rest =>
    if settled k d || buried rest k then live settled rest else (k, d) :: live settled rest
  | .tombstone _ :: rest => live settled rest

@[simp] lemma buried_nil (k : κ) : buried ([] : List (Entry κ δ)) k = false := rfl

@[simp] lemma buried_record (key : κ) (d : δ) (rest : List (Entry κ δ)) (k : κ) :
    buried (.record key d :: rest) k = buried rest k := by
  simp [buried, Entry.buries]

@[simp] lemma buried_tombstone (key : κ) (rest : List (Entry κ δ)) (k : κ) :
    buried (.tombstone key :: rest) k = (decide (key = k) || buried rest k) := by
  simp [buried, Entry.buries]

@[simp] lemma buried_append (a b : List (Entry κ δ)) (k : κ) :
    buried (a ++ b) k = (buried a k || buried b k) := by
  simp [buried]

lemma buried_iff {log : List (Entry κ δ)} {k : κ} :
    buried log k = true ↔ Entry.tombstone k ∈ log := by
  induction log with
  | nil => simp
  | cons e rest ih =>
    cases e with
    | record key d => simp [ih]
    | tombstone key =>
      simp only [buried_tombstone, Bool.or_eq_true, decide_eq_true_eq, ih, List.mem_cons,
        Entry.tombstone.injEq, @eq_comm _ k key]

variable {settled : κ → δ → Bool}

lemma mem_of_mem_live {log : List (Entry κ δ)} {r : κ × δ} (h : r ∈ live settled log) :
    Entry.record r.1 r.2 ∈ log := by
  induction log with
  | nil => simp [live] at h
  | cons e rest ih =>
    cases e with
    | tombstone key => exact List.mem_cons_of_mem _ (ih h)
    | record k d =>
      rw [live] at h
      split_ifs at h with hdead
      · exact List.mem_cons_of_mem _ (ih h)
      · rcases List.mem_cons.mp h with rfl | h
        · exact List.mem_cons_self
        · exact List.mem_cons_of_mem _ (ih h)

/-- Later tombstones take away from what is live in the earlier part. -/
theorem live_append (a b : List (Entry κ δ)) : live settled (a ++ b) =
      (live settled a).filter (fun r => !buried b r.1) ++ live settled b := by
  induction a with
  | nil => simp [live]
  | cons e rest ih =>
    cases e with
    | tombstone key => simpa [live] using ih
    | record k d =>
      simp only [List.cons_append, live, buried_append, ih]
      by_cases hs : settled k d = true
      · simp [hs]
      · by_cases hr : buried rest k = true
        · simp [hr]
        · by_cases hb : buried b k = true
          · simp [hs, hr, hb]
          · simp [hs, hr, hb]

/-- A record that is not settled and has no tombstone after it is live. -/
theorem mem_live_of_split {a b : List (Entry κ δ)} {k : κ} {d : δ} (hs : settled k d = false)
    (hb : buried b k = false) : (k, d) ∈ live settled (a ++ .record k d :: b) := by
  rw [live_append, live, hs, hb]
  simp

/-- What is live: the records that are not settled and have no tombstone after them. -/
theorem mem_live_iff {log : List (Entry κ δ)} {k : κ} {d : δ} : (k, d) ∈ live settled log ↔
      ∃ a b, log = a ++ .record k d :: b ∧ settled k d = false ∧ buried b k = false := by
  constructor
  · intro h
    induction log with
    | nil => exact absurd h List.not_mem_nil
    | cons e rest ih =>
      have hlat : (k, d) ∈ live settled rest →
          ∃ a b, e :: rest = a ++ .record k d :: b ∧ settled k d = false ∧ buried b k = false := by
        intro hr
        obtain ⟨a, b, rfl, hs, hb⟩ := ih hr
        exact ⟨e :: a, b, rfl, hs, hb⟩
      cases e with
      | tombstone key => exact hlat h
      | record key data =>
        rw [live] at h
        split_ifs at h with hd
        · exact hlat h
        · rcases List.mem_cons.mp h with heq | h
          · cases heq
            rw [Bool.not_eq_true, Bool.or_eq_false_iff] at hd
            exact ⟨[], rest, rfl, hd.1, hd.2⟩
          · exact hlat h
  · rintro ⟨a, b, rfl, hs, hb⟩
    exact mem_live_of_split hs hb

/-- A stretch can be removed when nothing in it is live and its tombstones void no record before it.
-/
theorem live_remove {a seg b : List (Entry κ δ)} (hd : ∀ r ∈ live settled seg, buried b r.1 = true)
    (hv : ∀ k d, Entry.record k d ∈ a → buried seg k = false) :
    live settled (a ++ seg ++ b) = live settled (a ++ b) := by
  have hseg : (live settled seg).filter (fun r => !buried b r.1) = [] := by
    apply List.filter_eq_nil_iff.mpr
    intro r hr
    simp [hd r hr]
  have ha : (live settled a).filter (fun r => !buried (seg ++ b) r.1) =
      (live settled a).filter (fun r => !buried b r.1) := by
    apply List.filter_congr
    intro r hr
    simp [hv r.1 r.2 (mem_of_mem_live hr)]
  rw [List.append_assoc, live_append, live_append, live_append, ha, hseg, List.nil_append]

/-- Removing a record that is settled or voided by what follows changes nothing in the rest. -/
theorem live_dead_cons {k : κ} {d : δ} {rest : List (Entry κ δ)} {b : List (Entry κ δ)}
    (h : settled k d = true ∨ buried (rest ++ b) k = true)
    (hre : ∀ r ∈ live settled rest, buried b r.1 = true) :
    ∀ r ∈ live settled (.record k d :: rest), buried b r.1 = true := by
  intro r hr
  rw [live] at hr
  split_ifs at hr with hd
  · exact hre r hr
  · rcases List.mem_cons.mp hr with rfl | hr
    · simp only [Bool.or_eq_true, not_or] at hd
      rcases h with h | h
      · exact absurd h hd.1
      · rw [buried_append, Bool.or_eq_true] at h
        exact h.resolve_left hd.2
    · exact hre r hr

/-- Change the data of records. -/
def Entry.map {ε : Type*} (f : δ → ε) : Entry κ δ → Entry κ ε
  | .record k d => .record k (f d)
  | .tombstone k => .tombstone k

@[simp] lemma buried_map {ε : Type*} (f : δ → ε) (log : List (Entry κ δ)) (k : κ) :
    buried (log.map (Entry.map f)) k = buried log k := by
  induction log with
  | nil => rfl
  | cons e rest ih => cases e <;> simp [Entry.map, ih]

lemma live_map {ε : Type*} (f : δ → ε) (settled' : κ → ε → Bool) (log : List (Entry κ δ))
    (h : ∀ k d, settled' k (f d) = settled k d) :
    live settled' (log.map (Entry.map f)) = (live settled log).map (Prod.map id f) := by
  induction log with
  | nil => rfl
  | cons e rest ih =>
    cases e with
    | tombstone k => simpa [Entry.map, live] using ih
    | record k d =>
      simp only [List.map_cons, Entry.map, live, buried_map, h, ih]
      split_ifs <;> simp

end TeoDB.Lib.TombstoneLog
