import TeoDB.Lib.Machine

/-!
# The status of a query

The engine keeps the last status that was reported for a query. Every report replaces the one
before, also a terminal one.

## Implementation notes

The state is that of one query identifier while its entry is retained. Calls of `prepare`
and `execute_stream` that wait are counted, so that other calls come in between. A call whose local
fallback fails reports the error twice.
-/

namespace TeoDB.Distributed

open Lib

inductive QueryStatus where
  | planning
  | running
  | completed
  | cancelled
  | failed (error : String)
deriving DecidableEq

def QueryStatus.isTerminal : QueryStatus → Bool
  | .completed | .cancelled | .failed _ => true
  | _ => false

/-- A tracked stream. After an error it ends without another report. -/
inductive TrackedStream where
  | live
  | failed
  | ended
deriving DecidableEq

structure EngineQuery where
  status : Option QueryStatus
  preparing : Nat
  handles : Nat
  executing : Nat
  failing : List String
  streams : List TrackedStream
deriving DecidableEq

/-- The calls for a query, and the answers of the parts that the engine waits for. -/
inductive QueryOp where
  | prepare
  | prepared (result : Except String Unit)
  | takeExecutionInput (limit : Except String Unit)
  | localFallback (error : String)
  | fallbackFailed (call : Nat)
  | executed (result : Except String Unit)
  | poll (stream : Nat) (item : Option (Except String Unit))
  | drop (stream : Nat)
  | cancel

namespace EngineQuery

def new : EngineQuery := ⟨none, 0, 0, 0, [], []⟩

def set (s : EngineQuery) (status : QueryStatus) : EngineQuery := { s with status := some status }

/-- A poll of a stream that `track_stream` made. -/
def pollStream (s : EngineQuery) (stream : Nat) (item : Option (Except String Unit)) :
    EngineQuery :=
  match s.streams[stream]? with
  | some .live =>
    match item with
    | none => { s with streams := s.streams.set stream .ended }.set .completed
    | some (.ok _) => s
    | some (.error error) =>
      { s with streams := s.streams.set stream .failed }.set (.failed error)
  | some .failed => { s with streams := s.streams.set stream .ended }
  | _ => s

def next (s : EngineQuery) : QueryOp → Option EngineQuery
  | .prepare => some ({ s with preparing := s.preparing + 1 }.set .planning)
  | .prepared result =>
    if s.preparing = 0 then none
    else match result with
      | .ok _ => some { s with preparing := s.preparing - 1, handles := s.handles + 1 }
      | .error error => some ({ s with preparing := s.preparing - 1 }.set (.failed error))
  | .takeExecutionInput limit =>
    if s.handles = 0 then none
    else match limit with
      | .ok _ => some { s with handles := s.handles - 1, executing := s.executing + 1 }
      | .error error => some ({ s with handles := s.handles - 1 }.set (.failed error))
  | .localFallback error =>
    if s.executing = 0 then none
    else some ({ s with
      executing := s.executing - 1, failing := error :: s.failing }.set (.failed error))
  | .fallbackFailed call => s.failing[call]?.map fun error =>
      { s with failing := s.failing.eraseIdx call }.set (.failed error)
  | .executed result =>
    if s.executing = 0 then none
    else match result with
      | .ok _ => some ({ s with
          executing := s.executing - 1, streams := s.streams ++ [TrackedStream.live] }.set .running)
      | .error error => some ({ s with executing := s.executing - 1 }.set (.failed error))
  | .poll stream item => some (s.pollStream stream item)
  | .drop stream => some { s with streams := s.streams.set stream .ended }
  | .cancel => some (s.set .cancelled)

def machine : Machine EngineQuery QueryOp := ⟨fun s => s = new, next⟩

/-- An ended query is not prepared or executed again, nor cancelled, and what still runs reports at
most the same status. -/
def Quiet (s : EngineQuery) : QueryOp → Prop
  | .prepare | .executed (.ok _) => False
  | .prepared (.error error) | .takeExecutionInput (.error error) | .executed (.error error)
  | .localFallback error => s.status = some (.failed error)
  | .fallbackFailed call => ∀ error ∈ s.failing[call]?, s.status = some (.failed error)
  | .poll stream none => s.streams[stream]? = some .live → s.status = some .completed
  | .poll stream (some (.error error)) =>
    s.streams[stream]? = some .live → s.status = some (.failed error)
  | .cancel => s.status = some .cancelled
  | _ => True

variable {s s' : EngineQuery} {st : QueryStatus}

@[simp] lemma status_set : (s.set st).status = some st := rfl

lemma pollStream_status_iff (h : s.status = some st) (stream : Nat)
    (item : Option (Except String Unit)) :
    (s.pollStream stream item).status = some st ↔ s.Quiet (.poll stream item) := by
  cases hl : s.streams[stream]? with
  | none =>
    cases item with
    | none => simp [pollStream, Quiet, hl, h]
    | some r => cases r <;> simp [pollStream, Quiet, hl, h]
  | some tracked =>
    cases item with
    | none => cases tracked <;> simp [pollStream, Quiet, hl, h, eq_comm]
    | some r => cases r <;> cases tracked <;> simp [pollStream, Quiet, hl, h, eq_comm]

/-- A step keeps a terminal status exactly if it is quiet. -/
lemma status_next_iff {op : QueryOp} (hterm : st.isTerminal = true) (h : s.status = some st)
    (hn : s.next op = some s') : s'.status = some st ↔ s.Quiet op := by
  have hp : st ≠ .planning := by
    rintro rfl
    cases hterm
  have hr : st ≠ .running := by
    rintro rfl
    cases hterm
  cases op with
  | localFallback e =>
    simp only [next, Option.ite_none_left_eq_some, Option.some.injEq] at hn
    obtain ⟨-, rfl⟩ := hn
    simp [Quiet, h, eq_comm]
  | fallbackFailed call =>
    simp only [next, Option.map_eq_some_iff] at hn
    obtain ⟨e, he, rfl⟩ := hn
    simp [Quiet, he, h, eq_comm]
  | prepared r | takeExecutionInput r | executed r =>
    cases r <;> simp only [next, Option.ite_none_left_eq_some, Option.some.injEq] at hn <;>
      obtain ⟨-, rfl⟩ := hn <;> simp [Quiet, h, hr, eq_comm]
  | poll stream item =>
    cases hn
    exact pollStream_status_iff h stream item
  | drop stream =>
    cases hn
    simpa [Quiet] using h
  | prepare | cancel =>
    cases hn
    simp [Quiet, h, hp, eq_comm]

/-- A terminal status stays in every run whose steps are quiet, and a next step keeps it
exactly if it is quiet too. -/
theorem terminal_status_final_iff {t : EngineQuery} (hterm : st.isTerminal = true)
    (h : s.status = some st) (run : machine.LeadsIf Quiet s t) :
    t.status = some st ∧
      ∀ op t', machine.next t op = some t' → (t'.status = some st ↔ t.Quiet op) := by
  have ht : t.status = some st := by
    apply run.preserves h
    intro u op u' hu hq hn
    exact (status_next_iff hterm hu hn).mpr hq
  exact ⟨ht, fun op t' hn => status_next_iff hterm ht hn⟩

/-- A query that is prepared, executed and polled to its end. -/
def completing : List QueryOp :=
  [.prepare, .prepared (.ok ()), .takeExecutionInput (.ok ()), .executed (.ok ()), .poll 0 none]

/-- One of two streams has ended. -/
def completedQuery : EngineQuery := ⟨some .completed, 0, 0, 0, [], [.ended, .live]⟩

def droppedQuery : EngineQuery := { completedQuery with streams := [.ended, .ended] }

/-- The other stream gives a batch and is dropped, and the first one is polled again. -/
theorem terminal_status_final_dropped :
    machine.Reachable completedQuery ∧ machine.LeadsIf Quiet completedQuery droppedQuery ∧
      droppedQuery.status = some .completed := by
  have hs : machine.Reachable completedQuery :=
    @Machine.reachable_of_exec _ _ _ _ _ (completing.dropLast ++ completing) (.start rfl) rfl
  have hbatch : machine.LeadsIf Quiet completedQuery completedQuery :=
    .step (a := QueryOp.poll 1 (some (.ok ()))) .refl trivial rfl
  have hdrop : machine.LeadsIf Quiet completedQuery droppedQuery :=
    .step (a := QueryOp.drop 1) hbatch trivial rfl
  have run : machine.LeadsIf Quiet completedQuery droppedQuery :=
    .step (a := QueryOp.poll 0 none) hdrop (fun _ => rfl) rfl
  exact ⟨hs, run, (terminal_status_final_iff rfl rfl run).1⟩

/-- A completed query becomes a cancelled one, and a cancelled one completes. -/
theorem terminal_status_overwritten :
    (machine.exec new completing).map status = some (some .completed) ∧
    (machine.exec new (completing ++ [.cancel])).map status = some (some .cancelled) ∧
    (machine.exec new (completing ++ [.cancel, .prepare])).map status = some (some .planning) ∧
    (machine.exec new (completing.dropLast ++ [.cancel, .poll 0 none])).map status =
      some (some .completed) :=
  ⟨rfl, rfl, rfl, rfl⟩

end EngineQuery

end TeoDB.Distributed
