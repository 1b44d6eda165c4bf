import TeoDB.Ingest.Replay.Frame

/-!
# The world of a recovery

A recovery runs alone. The catalog answers a load with a table or with an error of its own, which
the adapter maps to an error of the system. Every other answer is arbitrary.

## Implementation notes

The answers to loads, and the tombstones that recovery asks the log to append, are kept for the
statements about them.
-/

namespace TeoDB.Ingest.Replay

open TeoDB.Core Lib Lib.Async Catalog Storage.Wal Ingest.Buffer
  Ingest.Flush

variable {F α : Type}

/-- Why a table was not loaded. -/
inductive LoadError where
  | catalog (error : IcebergError)
  | conversion (error : TeoDBError)
deriving DecidableEq

namespace LoadError

/-- What the adapter makes of it. -/
def intoTeoDB : LoadError → TeoDBError
  | catalog error => mapIcebergError error
  | conversion error => error

/-- The conversion of a table that exists does not report a missing one. -/
def possible : LoadError → Bool
  | catalog _ => true
  | conversion error => !isNotFound error

end LoadError

abbrev LoadResult := Except LoadError TableMetadata

def LoadResult.possible : LoadResult → Bool
  | .ok _ => true
  | .error error => error.possible

def LoadResult.answer (result : LoadResult) : TeoDBResult TableMetadata :=
  result.mapError LoadError.intoTeoDB

structure RecoveryWorld (F α : Type) where
  recovery : RecoveryState F α
  intents : List (PreparedFlush F)
  records : List (WalRecord α)
  unread : List (WalRecord α)
  loads : List (TableIdent × LoadResult)
  tombstones : List TableIdent

inductive RecoveryChoice (F α : Type) where
  | load (result : LoadResult)
  | read (fault : Option TeoDBError)
  | reply (reply : Reply F α)

/-- The incarnations of the records of a plan. -/
def planKeys (records : List (WalRecord α)) : List WalTableKey :=
  (records.filterMap fun record => record.header.tableKey.toOption).dedup

/-- A fresh process. -/
def RecoveryState.new : RecoveryState F α := ⟨fun _ => none, fun _ => TableIndex.empty, []⟩

namespace RecoveryWorld

def here : Ref (RecoveryWorld F α) (RecoveryState F α) where
  get := recovery
  set w state := { w with recovery := state }
  get_set _ _ := rfl

/-- What the last process left. -/
def left (intents : List (PreparedFlush F)) (records : List (WalRecord α)) : RecoveryWorld F α :=
  ⟨RecoveryState.new, intents, records, records, [], []⟩

/-- Read something durable. -/
def reading {β : Type} (w : RecoveryWorld F α) (fault : Option TeoDBError) (b : β)
    (w' : RecoveryWorld F α) : Option (TeoDBResult β × RecoveryWorld F α) :=
  match fault with
  | none => some (.ok b, w')
  | some error => if (ambiguity error).isNone then some (.error error, w) else none

def respond (choice : RecoveryChoice F α) (w : RecoveryWorld F α) :
    (c : Call F α) → Option (Answer c × RecoveryWorld F α)
  | .loadTable table =>
    match choice with
    | .load result =>
      if result.possible then some (result.answer, { w with loads := w.loads ++ [(table, result)] })
      else none
    | _ => none
  | .appendDropTombstone table =>
    match choice with
    | .read fault =>
      w.reading fault () w |>.map fun r => (r.1, { w with tombstones := w.tombstones ++ [table] })
    | _ => none
  | .prepareReplayAll =>
    match choice with
    | .read fault => w.reading fault ⟨planKeys w.records, w.records.length⟩ w
    | _ => none
  | .listPrepared =>
    match choice with
    | .read fault => w.reading fault w.intents w
    | _ => none
  | .nextRecord =>
    match choice with
    | .read fault => w.reading fault w.unread.head? { w with unread := w.unread.tail }
    | _ => none
  | c =>
    match choice with
    | .reply reply => (reply.answer c).map fun a => (a, w)
    | _ => none

/-- The answers that some choice gives. -/
def answers : RecoveryWorld F α → (c : Call F α) → Answer c → RecoveryWorld F α → Prop :=
  possible (I := io F α) respond

/-- The last answer to a load of a table. -/
def lastLoad (w : RecoveryWorld F α) (table : TableIdent) : Option LoadResult :=
  ((w.loads.filter fun load => load.1 = table).map Prod.snd).getLast?

section

variable {ch : RecoveryChoice F α} {w w' : RecoveryWorld F α}

lemma reading_eq_some {β : Type} {ft : Option TeoDBError} {b : β} {w₁ : RecoveryWorld F α}
    {a : TeoDBResult β} (h : w.reading ft b w₁ = some (a, w')) :
    (a = .ok b ∧ w' = w₁) ∨ ∃ e, a = .error e ∧ ambiguity e = none ∧ w' = w := by
  cases ft with
  | none =>
    cases h
    exact Or.inl ⟨rfl, rfl⟩
  | some e =>
    rw [reading] at h
    split_ifs at h with hpl
    cases h
    exact Or.inr ⟨e, rfl, Option.isNone_iff_eq_none.mp hpl, rfl⟩

lemma respond_loadTable {tbl : TableIdent} {a : TeoDBResult TableMetadata}
    (h : respond ch w (.loadTable tbl) = some (a, w')) :
    ∃ res : LoadResult, res.possible = true ∧ a = res.answer ∧
      w' = { w with loads := w.loads ++ [(tbl, res)] } := by
  cases ch with
  | load res =>
    rw [respond] at h
    split_ifs at h with hp
    cases h
    exact ⟨res, hp, rfl, rfl⟩
  | _ => cases h

lemma respond_appendDropTombstone {tbl : TableIdent} {a : TeoDBResult Unit}
    (h : respond ch w (.appendDropTombstone tbl) = some (a, w')) :
    w' = { w with tombstones := w.tombstones ++ [tbl] } := by
  cases ch with
  | read fault =>
    obtain ⟨r, _, heq⟩ := Option.map_eq_some_iff.mp h
    cases heq
    rfl
  | _ => cases h

lemma respond_prepareReplayAll {a : TeoDBResult PlanHead}
    (h : respond ch w .prepareReplayAll = some (a, w')) :
    w' = w ∧ (a = .ok ⟨planKeys w.records, w.records.length⟩ ∨ ∃ e, a = .error e) := by
  cases ch with
  | read fault =>
    obtain ⟨rfl, rfl⟩ | ⟨e, rfl, _, rfl⟩ := reading_eq_some h
    · exact ⟨rfl, Or.inl rfl⟩
    · exact ⟨rfl, Or.inr ⟨e, rfl⟩⟩
  | _ => cases h

lemma respond_listPrepared {a : TeoDBResult (List (PreparedFlush F))}
    (h : respond ch w .listPrepared = some (a, w')) :
    w' = w ∧ (a = .ok w.intents ∨ ∃ e, a = .error e) := by
  cases ch with
  | read fault =>
    obtain ⟨rfl, rfl⟩ | ⟨e, rfl, _, rfl⟩ := reading_eq_some h
    · exact ⟨rfl, Or.inl rfl⟩
    · exact ⟨rfl, Or.inr ⟨e, rfl⟩⟩
  | _ => cases h

lemma respond_nextRecord {a : TeoDBResult (Option (WalRecord α))}
    (h : respond ch w .nextRecord = some (a, w')) :
    (a = .ok w.unread.head? ∧ w' = { w with unread := w.unread.tail }) ∨
      (w' = w ∧ ∃ e, a = .error e) := by
  cases ch with
  | read fault =>
    obtain ⟨rfl, rfl⟩ | ⟨e, rfl, _, rfl⟩ := reading_eq_some h
    · exact Or.inl ⟨rfl, rfl⟩
    · exact Or.inr ⟨rfl, e, rfl⟩
  | _ => cases h

lemma respond_routine {c : Call F α} {a : Answer c} (hc : routine c = true)
    (h : respond ch w c = some (a, w')) : w' = w ∧ Plain c a := by
  have hreply : ∀ rp : Reply F α, (rp.answer c).map (fun a => (a, w)) = some (a, w') →
      w' = w ∧ Plain c a := by
    intro rp h
    obtain ⟨b, hb, heq⟩ := Option.map_eq_some_iff.mp h
    cases heq
    exact ⟨rfl, plain_of_answer hb⟩
  cases c with
  | loadTable | appendDropTombstone | prepareReplayAll | listPrepared | nextRecord => cases hc
  | _ =>
    cases ch with
    | reply rp => exact hreply rp h
    | _ => cases h

end

end RecoveryWorld

end TeoDB.Ingest.Replay
