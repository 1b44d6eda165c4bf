import TeoDB.Query.PositionDeletes

/-!
# The stream of a position-delete filter

The filter polls the scan of one data file and counts the rows that it has been given. A
batch without deleted positions is passed on as it is, another one through Arrow's filter
kernel, and one that is deleted as a whole is skipped in favour of the next. Errors of the
scan are passed on where they come up.

## Implementation notes

The scan is the list of its answers to polls. A file counts its rows in an `i64`, so the offset
does not overflow.
-/

namespace TeoDB.Query

open Lib.Rows

/-- The answer to a poll. -/
inductive Poll (α : Type) where
  | ready (answer : α)
  | pending

section

variable {E R : Type}

/-- Arrow's filter kernel, which refuses a mask of another length. -/
def filterRecordBatch (arrowError : E) (batch : List R) (mask : List Bool) : Except E (List R) :=
  if mask.length = batch.length then
    .ok (((batch.zip mask).filter Prod.snd).map Prod.fst)
  else .error arrowError

/-- The stream adapter: the scan, the positions to leave out and the running offset. -/
structure PositionDeleteStream (E R : Type) where
  inner : List (Poll (Except E (List R)))
  positions : Finset Int
  currentRowOffset : Int

def hasDeletes (positions : Finset Int) (startOffset endOffset : Int) : Prop :=
  ∃ p ∈ positions, startOffset ≤ p ∧ p < endOffset

instance (positions : Finset Int) (startOffset endOffset : Int) :
    Decidable (hasDeletes positions startOffset endOffset) :=
  inferInstanceAs (Decidable (∃ p ∈ positions, startOffset ≤ p ∧ p < endOffset))

/-- The mask of a batch: true is kept. -/
def keepMask (positions : Finset Int) (startOffset : Int) (numRows : Nat) : List Bool :=
  (List.range numRows).map fun i : Nat => !decide (startOffset + i ∈ positions)

def keptCount (keep : List Bool) : Nat := keep.length - keep.count false

namespace PositionDeleteStream

/-- The loop of a poll, which goes on to the next answer of the scan if a batch is deleted
as a whole. -/
def pollLoop (arrowError : E) (positions : Finset Int) :
    List (Poll (Except E (List R))) → Int →
      Poll (Option (Except E (List R))) × PositionDeleteStream E R
  | [], offset => (.ready none, ⟨[], positions, offset⟩)
  | .pending :: rest, offset => (.pending, ⟨rest, positions, offset⟩)
  | .ready (.error e) :: rest, offset => (.ready (some (.error e)), ⟨rest, positions, offset⟩)
  | .ready (.ok batch) :: rest, startOffset =>
    let endOffset := startOffset + batch.length
    if hasDeletes positions startOffset endOffset then
      let keep := keepMask positions startOffset batch.length
      if keptCount keep = 0 then pollLoop arrowError positions rest endOffset
      else
        (.ready (some (filterRecordBatch arrowError batch keep)), ⟨rest, positions, endOffset⟩)
    else (.ready (some (.ok batch)), ⟨rest, positions, endOffset⟩)

def pollNext (arrowError : E) (s : PositionDeleteStream E R) :
    Poll (Option (Except E (List R))) × PositionDeleteStream E R :=
  pollLoop arrowError s.positions s.inner s.currentRowOffset

/-- The items that a number of polls gives, and the stream after them. -/
def polled (arrowError : E) : Nat → PositionDeleteStream E R →
    List (Except E (List R)) × PositionDeleteStream E R
  | 0, s => ([], s)
  | n + 1, s =>
    match s.pollNext arrowError with
    | (.ready (some item), s') =>
      let after := polled arrowError n s'
      (item :: after.1, after.2)
    | (_, s') => polled arrowError n s'

/-- The stream of `execute`. -/
def execute (inner : List (Poll (Except E (List R)))) (positions : Finset Int) :
    PositionDeleteStream E R :=
  ⟨inner, positions, 0⟩

end PositionDeleteStream

/-- The items of a scan, without the polls that found nothing yet. -/
def items : List (Poll (Except E (List R))) → List (Except E (List R))
  | [] => []
  | .pending :: rest => items rest
  | .ready item :: rest => item :: items rest

/-- The rows and errors of an item. -/
def ofItem : Except E (List R) → List (Except E R)
  | .ok batch => batch.map .ok
  | .error e => [.error e]

/-- The rows and errors of a stream. -/
def rowsAndErrors (stream : List (Except E (List R))) : List (Except E R) := stream.flatMap ofItem

/-- Leave out the rows whose index is one of the positions; errors have no index. -/
def withoutDeleted (positions : Finset Int) : Nat → List (Except E R) → List (Except E R)
  | _, [] => []
  | i, .error e :: rest => .error e :: withoutDeleted positions i rest
  | i, .ok row :: rest =>
    if (i : Int) ∈ positions then withoutDeleted positions (i + 1) rest
    else .ok row :: withoutDeleted positions (i + 1) rest

@[simp] lemma rowsAndErrors_cons (item : Except E (List R)) (rest : List (Except E (List R))) :
    rowsAndErrors (item :: rest) = ofItem item ++ rowsAndErrors rest := rfl

lemma withoutDeleted_batch (ps : Finset Int) (i : Nat) (bt : List R) (rest : List (Except E R)) :
    withoutDeleted ps i (bt.map .ok ++ rest) =
      (keepFrom (fun j => decide ((j : Int) ∈ ps)) i bt).map .ok ++
        withoutDeleted ps (i + bt.length) rest := by
  induction bt generalizing i with
  | nil => rfl
  | cons row bt ih =>
    have hlen : i + (row :: bt).length = i + 1 + bt.length := by
      rw [List.length_cons]
      omega
    rw [List.map_cons, List.cons_append, withoutDeleted, keepFrom, ih, hlen]
    by_cases hi : (i : Int) ∈ ps
    · simp [hi]
    · simp [hi]

lemma keepMask_succ (ps : Finset Int) (i n : Nat) : keepMask ps i (n + 1) =
      (!decide ((i : Int) ∈ ps)) :: keepMask ps (i + 1 : Nat) n := by
  simp only [keepMask, List.range_succ_eq_map, List.map_cons, List.map_map, Nat.cast_zero,
    add_zero, List.cons.injEq, true_and]
  apply List.map_congr_left
  intro j _
  have hshift : (i : Int) + ((j + 1 : Nat) : Int) = ((i + 1 : Nat) : Int) + j := by
    push_cast
    omega
  simp only [Function.comp_apply, Nat.succ_eq_add_one, hshift]

lemma filterRecordBatch_keepMask (arrowError : E) (ps : Finset Int) (i : Nat) (bt : List R) :
    filterRecordBatch arrowError bt (keepMask ps i bt.length) =
      .ok (keepFrom (fun j => decide ((j : Int) ∈ ps)) i bt) := by
  rw [filterRecordBatch, if_pos (by simp [keepMask])]
  congr 1
  induction bt generalizing i with
  | nil => rfl
  | cons row bt ih =>
    rw [List.length_cons, keepMask_succ, List.zip_cons_cons, keepFrom, ← ih]
    by_cases hi : (i : Int) ∈ ps
    · simp [hi]
    · simp [hi]

lemma keptCount_keepMask (ps : Finset Int) (i : Nat) (bt : List R) :
    keptCount (keepMask ps i bt.length) =
      (keepFrom (fun j => decide ((j : Int) ∈ ps)) i bt).length := by
  have hct : ∀ keep : List Bool, keptCount keep = keep.count true := by
    intro keep
    have hlength := keep.count_false_add_count_true
    rw [keptCount]
    omega
  rw [hct]
  induction bt generalizing i with
  | nil => rfl
  | cons row bt ih =>
    rw [List.length_cons, keepMask_succ, List.count_cons, ih, keepFrom]
    by_cases hi : (i : Int) ∈ ps
    · simp [hi]
    · simp [hi]

/-- Without deletes in its range a batch stays as it is. -/
lemma keepFrom_of_not_hasDeletes {ps : Finset Int} {i : Nat} {bt : List R}
    (h : ¬ hasDeletes ps i (i + bt.length : Nat)) :
    keepFrom (fun j => decide ((j : Int) ∈ ps)) i bt = bt := by
  apply keepFrom_eq_self
  intro j hj hlt
  rw [decide_eq_false_iff_not]
  intro hdel
  apply h
  exact ⟨j, hdel, by omega, by omega⟩

namespace PositionDeleteStream

variable (arrowError : E)

/-- What a stream is still to give: its offset counts the rows before. -/
def Owes (positions : Finset Int) (owed : List (Except E R)) (s : PositionDeleteStream E R) :
    Prop :=
  s.positions = positions ∧ ∃ i : Nat, s.currentRowOffset = i ∧
    owed = withoutDeleted positions i (rowsAndErrors (items s.inner))

/-- The rows and errors that a poll gives. -/
def ofAnswer : Poll (Option (Except E (List R))) → List (Except E R)
  | .ready (some item) => ofItem item
  | _ => []

/-- A poll gives the first part of what is owed, and it uses up an answer of the scan. -/
lemma owes_pollLoop (ps : Finset Int) (inner : List (Poll (Except E (List R)))) (i : Nat) :
    ∃ owed, Owes ps owed (pollLoop arrowError ps inner i).2 ∧
      withoutDeleted ps i (rowsAndErrors (items inner)) =
        ofAnswer (pollLoop arrowError ps inner i).1 ++ owed ∧
      (pollLoop arrowError ps inner i).2.inner.length ≤ inner.length - 1 := by
  induction inner generalizing i with
  | nil => exact ⟨[], ⟨rfl, i, rfl, rfl⟩, rfl, le_rfl⟩
  | cons poll rest ih =>
    cases poll with
    | pending => exact ⟨_, ⟨rfl, i, rfl, rfl⟩, rfl, le_rfl⟩
    | ready item =>
      cases item with
      | error e => exact ⟨_, ⟨rfl, i, rfl, rfl⟩, rfl, le_rfl⟩
      | ok bt =>
        have hoff : (i : Int) + bt.length = (i + bt.length : Nat) := by
          push_cast
          rfl
        rw [items, rowsAndErrors_cons, ofItem, withoutDeleted_batch, pollLoop]
        simp only [hoff, keptCount_keepMask, filterRecordBatch_keepMask]
        by_cases hdels : hasDeletes ps i (i + bt.length : Nat)
        · rw [if_pos hdels]
          by_cases hk : (keepFrom (fun j => decide ((j : Int) ∈ ps)) i bt).length = 0
          · -- The batch is skipped, and the loop owes what follows it.
            obtain ⟨owed, ho, heq, hle⟩ := ih (i + bt.length)
            rw [if_pos hk, List.eq_nil_of_length_eq_zero hk]
            exact ⟨owed, ho, heq, by rw [List.length_cons]; omega⟩
          · rw [if_neg hk]
            exact ⟨_, ⟨rfl, i + bt.length, rfl, rfl⟩, rfl, le_rfl⟩
        · rw [if_neg hdels, keepFrom_of_not_hasDeletes hdels]
          exact ⟨_, ⟨rfl, i + bt.length, rfl, rfl⟩, rfl, le_rfl⟩

variable {ps : Finset Int} {owed : List (Except E R)} {s : PositionDeleteStream E R}

lemma owes_pollNext (h : Owes ps owed s) : ∃ aft, Owes ps aft (s.pollNext arrowError).2 ∧
      owed = ofAnswer (s.pollNext arrowError).1 ++ aft ∧
      (s.pollNext arrowError).2.inner.length ≤ s.inner.length - 1 := by
  obtain ⟨hpos, i, hoff, rfl⟩ := h
  rw [pollNext, hpos, hoff]
  exact owes_pollLoop arrowError ps s.inner i

/-- The polls of a run give the first part of what is owed at its start. -/
lemma owes_polled (h : Owes ps owed s) (n : Nat) : ∃ aft, Owes ps aft (s.polled arrowError n).2 ∧
      owed = rowsAndErrors (s.polled arrowError n).1 ++ aft ∧
      (s.polled arrowError n).2.inner.length ≤ s.inner.length - n := by
  induction n generalizing s owed with
  | zero => exact ⟨owed, h, rfl, le_rfl⟩
  | succ n ih =>
    obtain ⟨between, hbet, rfl, hle⟩ := owes_pollNext arrowError h
    rw [polled]
    cases hp : s.pollNext arrowError with
    | mk ans s' =>
      rw [hp] at hbet hle
      change Owes ps between s' at hbet
      obtain ⟨aft, haf, rfl, hle'⟩ := ih hbet
      have hlen : (s'.polled arrowError n).2.inner.length ≤ s.inner.length - (n + 1) := by
        simp only at hle
        omega
      cases ans with
      | pending => exact ⟨aft, haf, rfl, hlen⟩
      | ready item =>
        cases item with
        | none => exact ⟨aft, haf, rfl, hlen⟩
        | some item =>
          refine ⟨aft, haf, ?_, hlen⟩
          rw [rowsAndErrors_cons, List.append_assoc]
          rfl

lemma owes_execute (inner : List (Poll (Except E (List R)))) (ps : Finset Int) :
    Owes ps (withoutDeleted ps 0 (rowsAndErrors (items inner))) (execute inner ps) :=
  ⟨rfl, 0, rfl, rfl⟩

/-- A stream without further answers of the scan has ended and owes nothing. -/
lemma ended_of_inner_eq_nil (h : Owes ps owed s) (hin : s.inner = []) :
    owed = [] ∧ s.pollNext arrowError = (.ready none, s) := by
  obtain ⟨hpos, i, hoffset, rfl⟩ := h
  obtain ⟨inner, ps', offset⟩ := s
  cases hin
  exact ⟨rfl, rfl⟩

/-- Polled to its end, the stream gives the rows whose index is not one of the positions and the
errors of the scan, and before that a first part of them. -/
theorem polled_exact (positions : Finset Int) (inner : List (Poll (Except E (List R)))) :
    (∀ n, rowsAndErrors ((execute inner positions).polled arrowError n).1 <+:
      withoutDeleted positions 0 (rowsAndErrors (items inner))) ∧
    ∀ n, let run := (execute inner positions).polled arrowError (inner.length + n)
      rowsAndErrors run.1 = withoutDeleted positions 0 (rowsAndErrors (items inner)) ∧
        run.2.pollNext arrowError = (.ready none, run.2) := by
  have hst := owes_execute inner positions
  constructor
  · intro n
    obtain ⟨aft, -, heq, -⟩ := owes_polled arrowError hst n
    exact ⟨aft, heq.symm⟩
  · intro n
    obtain ⟨aft, haf, heq, hle⟩ := owes_polled arrowError hst (inner.length + n)
    have hlength : (execute inner positions).inner.length = inner.length := rfl
    have hin : ((execute inner positions).polled arrowError (inner.length + n)).2.inner = [] := by
      apply List.eq_nil_of_length_eq_zero
      omega
    obtain ⟨hnil, hended⟩ := ended_of_inner_eq_nil arrowError haf hin
    rw [hnil, List.append_nil] at heq
    exact ⟨heq.symm, hended⟩

end PositionDeleteStream

end

end TeoDB.Query
