import TeoDB.Core.Ident

/-!
# The snapshot pins of a single node

The registry keeps the pins twice, by query and by table. A query may pin several tables,
and the same table more than once; its release takes all of its pins out of both indexes.

## Implementation notes

A map whose values are lists is a function, with `none` where the map has no entry.
-/

namespace TeoDB.Core

structure QueryPin where
  queryId : Uuid
  snapshotId : Int
deriving DecidableEq

structure PinState where
  byQuery : Uuid → Option (List TableIdent)
  byTable : TableIdent → Option (List QueryPin)

/-- The calls that change the registry. -/
inductive PinCall where
  | pin (queryId : Uuid) (table : TableIdent) (snapshotId : Int)
  | release (queryId : Uuid)
deriving DecidableEq

namespace PinState

def new : PinState := ⟨fun _ => none, fun _ => none⟩

def pin (s : PinState) (queryId : Uuid) (table : TableIdent) (snapshotId : Int) : PinState where
  byQuery := Function.update s.byQuery queryId (some ((s.byQuery queryId).getD [] ++ [table]))
  byTable := Function.update s.byTable table
    (some ((s.byTable table).getD [] ++ [⟨queryId, snapshotId⟩]))

/-- The release of a query at one of the tables that it pinned. -/
def releaseTable (queryId : Uuid) (byTable : TableIdent → Option (List QueryPin))
    (table : TableIdent) : TableIdent → Option (List QueryPin) :=
  match byTable table with
  | none => byTable
  | some pins =>
    let pins := pins.filter fun entry => entry.queryId ≠ queryId
    Function.update byTable table (if pins.isEmpty then none else some pins)

def release (s : PinState) (queryId : Uuid) : PinState :=
  match s.byQuery queryId with
  | none => s
  | some pins =>
    ⟨Function.update s.byQuery queryId none, pins.foldl (releaseTable queryId) s.byTable⟩

def activeSnapshots (s : PinState) (table : TableIdent) : List Int :=
  ((s.byTable table).getD []).map QueryPin.snapshotId

def apply (s : PinState) : PinCall → PinState
  | .pin queryId table snapshotId => s.pin queryId table snapshotId
  | .release queryId => s.release queryId

/-- The registry after a sequence of calls. -/
def after (calls : List PinCall) : PinState := calls.foldl apply new

end PinState

structure Pin where
  queryId : Uuid
  table : TableIdent
  snapshotId : Int

/-- The pins of a sequence of calls whose queries were not released since, in order. -/
def outstanding : List PinCall → List Pin
  | [] => []
  | .pin queryId table snapshotId :: later =>
    if .release queryId ∈ later then outstanding later
    else ⟨queryId, table, snapshotId⟩ :: outstanding later
  | .release _ :: later => outstanding later

def tablesOf (pins : List Pin) (queryId : Uuid) : List TableIdent :=
  (pins.filter fun p => p.queryId = queryId).map Pin.table

def pinsOn (pins : List Pin) (table : TableIdent) : List QueryPin :=
  (pins.filter fun p => p.table = table).map fun p => ⟨p.queryId, p.snapshotId⟩

/-- The entry of a map that keeps no empty list. -/
def listed {α : Type} (l : List α) : Option (List α) := if l.isEmpty then none else some l

/-- Both indexes describe the given pins and have no empty entries. -/
structure PinState.Describes (s : PinState) (pins : List Pin) : Prop where
  byQuery : ∀ queryId, s.byQuery queryId = listed (tablesOf pins queryId)
  byTable : ∀ table, s.byTable table = listed (pinsOn pins table)

@[simp] lemma getD_listed {α : Type} (l : List α) : (listed l).getD [] = l := by
  cases l <;> rfl

@[simp] lemma listed_concat {α : Type} (l : List α) (a : α) :
    listed (l ++ [a]) = some (l ++ [a]) := by
  simp [listed]

lemma outstanding_pin (calls : List PinCall) (q : Uuid) (t : TableIdent) (n : Int) :
    outstanding (calls ++ [.pin q t n]) = outstanding calls ++ [⟨q, t, n⟩] := by
  induction calls with
  | nil => simp [outstanding]
  | cons c rest ih =>
    cases c with
    | pin q' t' n' =>
      simp only [List.cons_append, outstanding, ih, List.mem_append, List.mem_singleton,
        reduceCtorEq, or_false]
      split_ifs
      · rfl
      · rfl
    | release q' => exact ih

lemma outstanding_release (calls : List PinCall) (q : Uuid) :
    outstanding (calls ++ [.release q]) = (outstanding calls).filter fun p => p.queryId ≠ q := by
  induction calls with
  | nil => rfl
  | cons c rest ih =>
    cases c with
    | pin q' t' n' =>
      simp only [List.cons_append, outstanding, ih, List.mem_append, List.mem_singleton,
        PinCall.release.injEq]
      by_cases hq : q' = q <;> split_ifs <;> simp_all
    | release q' => exact ih

namespace PinState

variable {s : PinState} {pins : List Pin} {q : Uuid}

lemma Describes.pin (h : s.Describes pins) (t : TableIdent) (n : Int) :
    (s.pin q t n).Describes (pins ++ [⟨q, t, n⟩]) := by
  constructor
  · intro q'
    by_cases hq : q' = q
    · subst hq
      simp [PinState.pin, h.byQuery, tablesOf]
    · simp [PinState.pin, h.byQuery, tablesOf, hq, Ne.symm hq]
  · intro t'
    by_cases ht : t' = t
    · subst ht
      simp [PinState.pin, h.byTable, pinsOn]
    · simp [PinState.pin, h.byTable, pinsOn, ht, Ne.symm ht]

lemma releaseTable_apply {byTable : TableIdent → Option (List QueryPin)} {first : TableIdent}
    {l : List QueryPin} (h : byTable first = listed l) (t : TableIdent) :
    releaseTable q byTable first t =
      if t = first then listed (l.filter fun e => e.queryId ≠ q) else byTable t := by
  unfold releaseTable
  rw [h]
  cases l with
  | nil =>
    change byTable t = _
    split_ifs with ht
    · rw [ht, h]
      rfl
    · rfl
  | cons e es => exact Function.update_apply ..

/-- The tables of a released query keep the pins of the others. -/
theorem foldl_releaseTable (tables : List TableIdent)
    {byTable : TableIdent → Option (List QueryPin)} {lists : TableIdent → List QueryPin}
    (h : ∀ t, byTable t = listed (lists t)) (t : TableIdent) :
    tables.foldl (releaseTable q) byTable t =
      listed (if t ∈ tables then (lists t).filter fun e => e.queryId ≠ q else lists t) := by
  induction tables generalizing byTable lists with
  | nil => simpa using h t
  | cons first rest ih =>
    have hs : ∀ t, releaseTable q byTable first t =
        listed (if t = first then (lists t).filter fun e => e.queryId ≠ q else lists t) := by
      intro t
      rw [releaseTable_apply (h first)]
      split_ifs with ht
      · rw [ht]
      · exact h t
    rw [List.foldl_cons, ih hs]
    by_cases hf : t = first <;> simp [hf]

lemma release_eq {l : List TableIdent} (h : s.byQuery q = listed l) :
    s.release q = ⟨Function.update s.byQuery q none, l.foldl (releaseTable q) s.byTable⟩ := by
  unfold PinState.release
  rw [h]
  cases l with
  | nil =>
    have hn : Function.update s.byQuery q none = s.byQuery :=
      Function.update_eq_self_iff.mpr h.symm
    rw [hn]
    rfl
  | cons t ts => rfl

lemma Describes.release (h : s.Describes pins) :
    (s.release q).Describes (pins.filter fun p => p.queryId ≠ q) := by
  rw [release_eq (h.byQuery q)]
  constructor
  · intro q'
    by_cases hq : q' = q
    · simp [hq, tablesOf, listed]
    · have hsame : tablesOf (pins.filter fun p => p.queryId ≠ q) q' = tablesOf pins q' := by
        simp only [tablesOf, List.filter_filter]
        congr 1
        apply List.filter_congr
        intro p _
        by_cases hp : p.queryId = q' <;> simp [hp, hq]
      rw [hsame]
      exact (Function.update_of_ne hq _ _).trans (h.byQuery q')
  · intro t
    have hkept : pinsOn (pins.filter fun p => p.queryId ≠ q) t =
        (pinsOn pins t).filter fun e => e.queryId ≠ q := by
      simp [pinsOn, List.filter_map, List.filter_filter, Function.comp_def, Bool.and_comm]
    refine (foldl_releaseTable _ h.byTable t).trans ?_
    rw [hkept]
    split_ifs with ht
    · rfl
    · congr 1
      symm
      apply List.filter_eq_self.mpr
      intro e he
      obtain ⟨p, hp, rfl⟩ := List.mem_map.mp he
      simp only [List.mem_filter, decide_eq_true_eq] at hp ⊢
      intro hq
      exact ht (List.mem_map.mpr ⟨p, List.mem_filter.mpr ⟨hp.1, by simpa using hq⟩, hp.2⟩)

lemma describes_after (calls : List PinCall) : (after calls).Describes (outstanding calls) := by
  induction calls using List.reverseRecOn with
  | nil => exact ⟨fun _ => rfl, fun _ => rfl⟩
  | append_singleton rest c ih =>
    rw [after, List.foldl_concat]
    cases c with
    | pin q t n =>
      rw [outstanding_pin]
      exact ih.pin t n
    | release q =>
      rw [outstanding_release]
      exact ih.release

lemma mem_activeSnapshots {calls : List PinCall} {pin : Pin} (h : pin ∈ outstanding calls) :
    pin.snapshotId ∈ (after calls).activeSnapshots pin.table := by
  rw [activeSnapshots, (describes_after calls).byTable, getD_listed, pinsOn, List.map_map]
  exact List.mem_map.mpr ⟨pin, List.mem_filter.mpr ⟨h, decide_eq_true rfl⟩, rfl⟩

/-- A table is pinned at exactly the snapshots of its outstanding pins, which both indexes describe
without empty entries. -/
theorem pin_index_exact (calls : List PinCall) :
    (∀ table, (after calls).activeSnapshots table =
      ((outstanding calls).filter fun p => p.table = table).map Pin.snapshotId) ∧
    (after calls).Describes (outstanding calls) := by
  have h := describes_after calls
  refine ⟨fun table => ?_, h⟩
  rw [activeSnapshots, h.byTable, getD_listed, pinsOn, List.map_map]
  rfl

end PinState

end TeoDB.Core
