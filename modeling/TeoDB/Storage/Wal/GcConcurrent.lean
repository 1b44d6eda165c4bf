import TeoDB.Lib.Machine
import TeoDB.Storage.Wal.Writer

/-!
# Collection next to the writer

A pass copies the committed map, loads the published segment number, lists the
directory, scans the listed segments one by one and deletes the dead ones. The
writer task runs in between, and several passes may run at once.

A segment that the writer opens between the load and the listing can be deleted while it is open.
When the segment that the pass leaves out is closed in between, the next one can hold a tombstone
for its records, and the pass deletes the tombstone. When neither has happened at the listing,
every deletion is safe.
-/

namespace TeoDB.Storage.Wal

open TeoDB.Core Lib

/-- A collection pass, between two of its steps. -/
inductive GcPass where
  | cloned (committed : CommittedMap)
  | loaded (committed : CommittedMap) (currentSeq : Option Nat)
  | scanning (committed : CommittedMap) (candidates : List Nat) (scanned : List (Nat × SegmentScan))
  | deleting (committed : CommittedMap) (scanned : List Nat) (retained : List TableIdent)
      (remaining : List ScannedSegment)

inductive GcStep where
  | load
  | list
  | scan (fails : Bool)
  | delete (fails : Bool)
deriving DecidableEq

namespace GcPass

/-- The open segment according to the published number. -/
def decodeCurrentSeq : Nat → Option Nat
  | 0 => none
  | value + 1 => some value

/-- Mark the scanned segments and go on to the deletions. -/
def startDeleting (committed : CommittedMap) (scanned : List (Nat × SegmentScan)) : GcPass :=
  .deleting committed (scanned.map Prod.fst) [] (Gc.markVoidedFrames scanned).1

/-- One step of a pass. A file that is gone can be neither read nor deleted. -/
def run (dir : LogDir) : GcPass → GcStep → Option (LogDir × GcPass)
  | .cloned committed, .load =>
    some (dir, .loaded committed (decodeCurrentSeq dir.writer.currentSeq))
  | .loaded committed currentSeq, .list =>
    some (dir, .scanning committed ((Gc.candidateSegments dir.disk currentSeq).map Prod.fst) [])
  | .scanning committed [] scanned, .scan _ => some (dir, startDeleting committed scanned)
  | .scanning committed (seq :: rest) scanned, .scan fails =>
    match if fails then none else dir.disk.find? seq with
    | some scan => some (dir, .scanning committed rest (scanned ++ [(seq, scan)]))
    | none => some (dir, startDeleting committed scanned)
  | .deleting committed scanned retained (segment :: rest), .delete fails =>
    if Gc.isDeletable segment committed retained && !fails &&
        (dir.disk.find? segment.seq).isSome then
      some ({ dir with disk := dir.disk.erase segment.seq },
        .deleting committed scanned retained rest)
    else
      some (dir, .deleting committed scanned (Gc.retainSegmentTables segment retained) rest)
  | _, _ => none

/-- The segment that the next step of a pass removes, when the removal succeeds. -/
def deletes (dir : LogDir) : GcPass → Option Nat
  | .deleting committed _ retained (segment :: _) =>
    if Gc.isDeletable segment committed retained && (dir.disk.find? segment.seq).isSome then
      some segment.seq
    else none
  | _ => none

/-- The segments that a deleting pass has scanned. -/
def scannedSeqs : GcPass → List Nat
  | .deleting _ scanned _ _ => scanned
  | _ => []

end GcPass

namespace LogDir

/-- The tables with an append in a segment. -/
def appendTables (dir : LogDir) (seq : Nat) : List TableIdent :=
  match dir.disk.find? seq with
  | none => []
  | some scan => scan.frames.filterMap Gc.appendTable

def dropTable? : ScanFrame → Option TableIdent
  | .append _ _ => none
  | .dropTable table => some table

/-- The tables with a tombstone in a segment. -/
def dropTables (dir : LogDir) (seq : Nat) : List TableIdent :=
  match dir.disk.find? seq with
  | none => []
  | some scan => scan.frames.filterMap dropTable?

/-- A scanned segment may go: it is not open, and no earlier one outside of the scan holds an append
of a table with a tombstone in it. -/
structure SafeDeletion (dir : LogDir) (scanned : List Nat) (seq : Nat) : Prop where
  notOpen : dir.openSeq ≠ some seq
  voidsNothing : ∀ other ∈ dir.disk.keys, other ∉ scanned → other < seq →
    ∀ table ∈ dir.appendTables other, table ∉ dir.dropTables seq

lemma safeDeletion_iff {dir : LogDir} {scanned : List Nat} {seq : Nat} :
    dir.SafeDeletion scanned seq ↔ dir.openSeq ≠ some seq ∧
      ∀ o ∈ dir.disk.keys, o ∉ scanned → o < seq →
        ∀ tb ∈ dir.appendTables o, tb ∉ dir.dropTables seq :=
  ⟨fun h => ⟨h.notOpen, h.voidsNothing⟩, fun h => ⟨h.1, h.2⟩⟩

instance (dir : LogDir) (scanned : List Nat) (seq : Nat) :
    Decidable (dir.SafeDeletion scanned seq) :=
  decidable_of_iff' _ safeDeletion_iff

end LogDir

/-- A log directory with its writer and the passes that run on it. -/
structure LogNode where
  dir : LogDir
  passes : List GcPass

inductive NodeStep where
  | writer (step : WriterStep)
  | gcBegin (committed : CommittedMap)
  | gc (index : Nat) (step : GcStep)
  | gcEnd (index : Nat)

namespace LogNode

def next (s : LogNode) : NodeStep → Option LogNode
  | .writer step => (s.dir.write step).map fun dir => { s with dir := dir }
  | .gcBegin committed => some { s with passes := s.passes ++ [.cloned committed] }
  | .gc index step =>
    match s.passes[index]? with
    | none => none
    | some pass =>
      (pass.run s.dir step).map fun (dir, pass) => ⟨dir, s.passes.set index pass⟩
  | .gcEnd index => some { s with passes := s.passes.eraseIdx index }

/-- Runs that begin with any closed segments, as after opening the log. -/
def machine : Machine LogNode NodeStep where
  start s := s.dir.Ordered ∧ s.dir.writer.phase = .idle ∧ s.dir.writer.currentSeq = 0 ∧
    s.passes = []
  next := next

/-- Whatever a pass deletes next may be deleted. -/
def GcSafe (s : LogNode) : Prop :=
  ∀ pass ∈ s.passes, ∀ seq ∈ pass.deletes s.dir, s.dir.SafeDeletion pass.scannedSeqs seq

instance (s : LogNode) : Decidable s.GcSafe :=
  inferInstanceAs (Decidable (∀ pass ∈ s.passes, ∀ seq ∈ pass.deletes s.dir, _))

/-- No listed candidate is open, and none after the segment that is left out has a tombstone for a
table of that segment. -/
def ListsQuietly (s : LogNode) : NodeStep → Prop
  | .gc index .list =>
    match s.passes[index]? with
    | some (.loaded _ currentSeq) =>
      ∀ file ∈ Gc.candidateSegments s.dir.disk currentSeq, s.dir.openSeq ≠ some file.1 ∧
        ∀ current ∈ currentSeq, current < file.1 →
          ∀ table ∈ s.dir.appendTables current, table ∉ s.dir.dropTables file.1
    | _ => True
  | _ => True

instance (s : LogNode) (step : NodeStep) : Decidable (s.ListsQuietly step) := by
  unfold ListsQuietly
  split
  · split <;> infer_instance
  · infer_instance

/-- Every listed segment may be deleted by a pass that scans the listed ones. -/
def Clear (dir : LogDir) (listed : List Nat) : Prop :=
  ∀ seq ∈ listed, seq < dir.writer.nextSeq ∧ dir.SafeDeletion listed seq

/-- What holds of a pass next to a directory. -/
def PassClear (dir : LogDir) : GcPass → Prop
  | .cloned _ => True
  | .loaded _ _ => True
  | .scanning _ candidates scanned =>
    Clear dir (scanned.map Prod.fst ++ candidates) ∧
      (scanned.map Prod.fst ++ candidates).Pairwise (· < ·)
  | .deleting _ scanned _ remaining =>
    Clear dir scanned ∧ ∀ segment ∈ remaining, segment.seq ∈ scanned

/-- A directory that evolves does not make a deletion unsafe. -/
lemma Clear.evolve {dir dir' : LogDir} {ls : List Nat} (h : Clear dir ls)
    (hs : dir.Ordered) (he : dir.Evolves dir') : Clear dir' ls := by
  intro seq hseq
  obtain ⟨hlt, hsa⟩ := h seq hseq
  have hf : ∀ scan, dir'.disk.find? seq = some scan → dir.disk.find? seq = some scan := by
    intro scan hsc
    rcases he.files seq scan hsc with hold | ho | hnew
    · exact hold
    · exact absurd ho hsa.notOpen
    · omega
  refine ⟨hlt.trans_le he.allocates, ?_, ?_⟩
  · intro ho
    rcases he.opens seq ho with hold | hnew
    · exact hsa.notOpen hold
    · omega
  · intro o hother hout hbf tb happ hd
    have hear : ∀ scan, dir'.disk.find? o = some scan → dir.disk.find? o = some scan := by
      intro scan hsc
      rcases he.files o scan hsc with hold | ho | hnew
      · exact hold
      · have hlast := hs.openLast o ho
        omega
      · omega
    cases hsc : dir'.disk.find? o with
    | none => simp [LogDir.appendTables, hsc] at happ
    | some scan =>
      cases hs' : dir'.disk.find? seq with
      | none => simp [LogDir.dropTables, hs'] at hd
      | some scan' =>
        have hkey : o ∈ dir.disk.keys :=
          (dir.disk.mem_keys o).mpr ⟨scan, (dir.disk.find?_eq_some_iff _ _).mp (hear scan hsc)⟩
        apply hsa.voidsNothing o hkey hout hbf tb
        · rwa [LogDir.appendTables, hear scan hsc, ← hsc]
        · rwa [LogDir.dropTables, hf scan' hs', ← hs']

/-- The segments scanned so far can stand for all that were listed. -/
lemma Clear.of_append {dir : LogDir} {scanned rest : List Nat} (h : Clear dir (scanned ++ rest))
    (hsrt : (scanned ++ rest).Pairwise (· < ·)) : Clear dir scanned := by
  intro seq hseq
  obtain ⟨hlt, hs⟩ := h seq (List.mem_append_left _ hseq)
  refine ⟨hlt, hs.notOpen, ?_⟩
  intro o hot hout hbf
  apply hs.voidsNothing o hot _ hbf
  intro hmem
  rcases List.mem_append.mp hmem with hmem | hmem
  · exact hout hmem
  · have hafter := (List.pairwise_append.mp hsrt).2.2 seq hseq o hmem
    omega

lemma PassClear.evolve {dir dir' : LogDir} {pass : GcPass} (h : PassClear dir pass)
    (hs : dir.Ordered) (he : dir.Evolves dir') : PassClear dir' pass := by
  cases pass with
  | cloned cm => trivial
  | loaded cm currentSeq => trivial
  | scanning cm candidates scanned => exact ⟨h.1.evolve hs he, h.2⟩
  | deleting cm scanned ret rem => exact ⟨h.1.evolve hs he, h.2⟩

lemma PassClear.startDeleting {dir : LogDir} {cm : CommittedMap} {candidates : List Nat}
    {scanned : List (Nat × SegmentScan)} (h : PassClear dir (.scanning cm candidates scanned)) :
    PassClear dir (GcPass.startDeleting cm scanned) := by
  refine ⟨h.1.of_append h.2, ?_⟩
  intro sg hseg
  exact List.mem_map.mpr ⟨_, Gc.mem_markVoidedFrames hseg, rfl⟩

/-- A quiet listing: only the segment left out is missing from it. -/
lemma PassClear.list {dir : LogDir} {cm : CommittedMap} {currentSeq : Option Nat}
    (hs : dir.Ordered)
    (hquiet : ∀ file ∈ Gc.candidateSegments dir.disk currentSeq, dir.openSeq ≠ some file.1 ∧
      ∀ cur ∈ currentSeq, cur < file.1 → ∀ tb ∈ dir.appendTables cur, tb ∉ dir.dropTables file.1) :
    PassClear dir (.scanning cm ((Gc.candidateSegments dir.disk currentSeq).map Prod.fst) []) := by
  constructor
  · intro seq hseq
    obtain ⟨file, hf, rfl⟩ := List.mem_map.mp hseq
    obtain ⟨ho, hv⟩ := hquiet file hf
    have hmem : file ∈ dir.disk.entries := (List.mem_filter.mp hf).1
    refine ⟨hs.allocated _ _ ((dir.disk.find?_eq_some_iff _ _).mpr hmem), ho, ?_⟩
    intro o hot hout hbf
    apply hv o _ hbf
    by_contra hcurrent
    obtain ⟨scan, hscan⟩ := (dir.disk.mem_keys o).mp hot
    apply hout
    refine List.mem_map.mpr ⟨(o, scan), List.mem_filter.mpr ⟨hscan, ?_⟩, rfl⟩
    simpa using hcurrent
  · rw [List.map_nil, List.nil_append, List.pairwise_map]
    exact dir.disk.sorted.filter _

/-- Every step of a pass keeps what holds of it. -/
lemma PassClear.run {dir dir' : LogDir} {pass pass' : GcPass} {step : GcStep}
    (h : PassClear dir pass) (hs : dir.Ordered)
    (hquiet : ∀ cm currentSeq, step = .list → pass = .loaded cm currentSeq →
      ∀ file ∈ Gc.candidateSegments dir.disk currentSeq, dir.openSeq ≠ some file.1 ∧
        ∀ cur ∈ currentSeq, cur < file.1 → ∀ tb ∈ dir.appendTables cur, tb ∉ dir.dropTables file.1)
    (hrun : pass.run dir step = some (dir', pass')) :
    dir.Evolves dir' ∧ dir'.Ordered ∧ PassClear dir' pass' := by
  have hst : dir.Evolves dir :=
    ⟨le_refl _, fun _ h => Or.inl h, fun _ _ h => Or.inl h⟩
  cases pass with
  | cloned cm =>
    cases step <;> simp only [GcPass.run, reduceCtorEq, Option.some.injEq, Prod.mk.injEq] at hrun
    obtain ⟨rfl, rfl⟩ := hrun
    exact ⟨hst, hs, trivial⟩
  | loaded cm currentSeq =>
    cases step <;> simp only [GcPass.run, reduceCtorEq, Option.some.injEq, Prod.mk.injEq] at hrun
    obtain ⟨rfl, rfl⟩ := hrun
    exact ⟨hst, hs, PassClear.list hs (hquiet cm currentSeq rfl rfl)⟩
  | scanning cm candidates scanned =>
    cases step with
    | load => simp [GcPass.run] at hrun
    | list => simp [GcPass.run] at hrun
    | delete fails => simp [GcPass.run] at hrun
    | scan fails =>
      cases candidates with
      | nil =>
        cases hrun
        exact ⟨hst, hs, h.startDeleting⟩
      | cons seq rest =>
        simp only [GcPass.run] at hrun
        split at hrun
        · cases hrun
          refine ⟨hst, hs, ?_⟩
          simpa [PassClear] using h
        · cases hrun
          exact ⟨hst, hs, h.startDeleting⟩
  | deleting cm scanned ret rem =>
    cases step with
    | load => cases rem <;> simp [GcPass.run] at hrun
    | list => cases rem <;> simp [GcPass.run] at hrun
    | scan fails => cases rem <;> simp [GcPass.run] at hrun
    | delete fails =>
      cases rem with
      | nil => simp [GcPass.run] at hrun
      | cons seg rest =>
        have hr : ∀ o ∈ rest, o.seq ∈ scanned :=
          fun o hot => h.2 o (List.mem_cons_of_mem _ hot)
        simp only [GcPass.run] at hrun
        split_ifs at hrun
        · cases hrun
          obtain ⟨he, hs'⟩ := LogDir.evolves_of_erase hs seg.seq
          exact ⟨he, hs', h.1.evolve hs he, hr⟩
        · cases hrun
          exact ⟨hst, hs, h.1, hr⟩

/-- The invariant of the node. -/
structure Tidy (s : LogNode) : Prop where
  ordered : s.dir.Ordered
  passes : ∀ pass ∈ s.passes, PassClear s.dir pass

lemma Tidy.next {s s' : LogNode} {step : NodeStep} (h : s.Tidy) (hquiet : s.ListsQuietly step)
    (hn : s.next step = some s') : s'.Tidy := by
  cases step with
  | writer step =>
    obtain ⟨dir, hw, rfl⟩ := Option.map_eq_some_iff.mp hn
    obtain ⟨he, hs⟩ := LogDir.write_spec hw h.ordered
    exact ⟨hs, fun pass hp => (h.passes pass hp).evolve h.ordered he⟩
  | gcBegin cm =>
    cases hn
    refine ⟨h.ordered, ?_⟩
    intro pass hp
    rcases mem_concat_iff.mp hp with hp | rfl
    · exact h.passes pass hp
    · trivial
  | gcEnd i =>
    cases hn
    exact ⟨h.ordered, fun pass hp => h.passes pass (List.mem_of_mem_eraseIdx hp)⟩
  | gc i step =>
    cases hi : s.passes[i]? with
    | none => simp [LogNode.next, hi] at hn
    | some pass =>
      simp only [LogNode.next, hi, Option.map_eq_some_iff] at hn
      obtain ⟨⟨dir, pass'⟩, hrun, rfl⟩ := hn
      obtain ⟨he, hs, hclear⟩ := (h.passes pass (List.mem_of_getElem? hi)).run h.ordered (by
          rintro cm currentSeq rfl rfl
          simpa [ListsQuietly, hi] using hquiet) hrun
      refine ⟨hs, ?_⟩
      intro o hot
      rcases List.mem_or_eq_of_mem_set hot with hot | rfl
      · exact (h.passes o hot).evolve h.ordered he
      · exact hclear

lemma Tidy.gcSafe {s : LogNode} (h : s.Tidy) : s.GcSafe := by
  intro pass hp seq hseq
  have hcle := h.passes pass hp
  cases pass with
  | cloned cm => simp [GcPass.deletes] at hseq
  | loaded cm currentSeq => simp [GcPass.deletes] at hseq
  | scanning cm candidates scanned => simp [GcPass.deletes] at hseq
  | deleting cm scanned ret rem =>
    cases rem with
    | nil => simp [GcPass.deletes] at hseq
    | cons seg rest =>
      simp only [GcPass.deletes] at hseq
      split_ifs at hseq
      · cases hseq
        exact (hcle.1 _ (hcle.2 seg List.mem_cons_self)).2
      · cases hseq

/-- When listings are quiet, a deletion never hits the open segment or takes a tombstone away from
records that the pass did not scan. -/
theorem gcSafe_of_listsQuietly {s : LogNode} (h : machine.ReachableIf ListsQuietly s) :
    s.GcSafe := by
  apply Tidy.gcSafe
  apply h.invariant
  · rintro s ⟨hord, _, _, hpas⟩
    exact ⟨hord, by simp [hpas]⟩
  · intro s step s' hi hquiet hn
    exact hi.next hquiet hn

section

def eventsTable : TableIdent := ⟨"analytics", "events"⟩

def emptyLog : LogNode := ⟨⟨OrdMap.empty, ⟨1, .idle, 0⟩⟩, []⟩

lemma emptyLog_start : machine.start emptyLog :=
  ⟨⟨by simp [emptyLog], by simp [emptyLog, LogDir.openSeq]⟩, rfl, rfl, rfl⟩

/-- Open a segment and write one group with one frame. -/
def openAndWrite (frame : ScanFrame) : List NodeStep :=
  [.writer .createSegment, .writer .publish, .writer (.writeFrame frame), .writer .finishGroup]

/-- The rest of a pass over one listed segment, up to its first deletion. -/
def listAndScan : List NodeStep := [.gc 0 .list, .gc 0 (.scan false), .gc 0 (.scan false)]

/-- What can be seen of a node. -/
def observe (s : LogNode) :
    Option Nat × List (Option Nat × List Nat) × List (Nat × List TableIdent × List TableIdent) :=
  (s.dir.openSeq, s.passes.map fun pass => (pass.deletes s.dir, pass.scannedSeqs),
    s.dir.disk.keys.map fun seq => (seq, s.dir.appendTables seq, s.dir.dropTables seq))

/-- A pass lists while the first segment is open, and deletes it after it was closed. -/
theorem gcSafe_droppedTable : ∃ s, machine.ReachableIf ListsQuietly s ∧
      observe s = (some 2, [(some 1, [1])], [(1, [], [eventsTable]), (2, [], [])]) ∧
      s.GcSafe := by
  have hrun : ((machine.guarded ListsQuietly).exec emptyLog
      (openAndWrite (.dropTable eventsTable) ++ [.writer .closeCurrent, .writer .createSegment,
        .writer .publish, .gcBegin fun _ => none, .gc 0 .load] ++ listAndScan)).map observe =
      some (some 2, [(some 1, [1])], [(1, [], [eventsTable]), (2, [], [])]) := rfl
  obtain ⟨s, hs, hobs⟩ := Machine.existsIf_of_exec emptyLog_start hrun
  exact ⟨s, hs, hobs, gcSafe_of_listsQuietly hs⟩

/-- The number is loaded before the writer opens its segment. -/
def openedAfterLoad : List NodeStep :=
  [.gcBegin fun _ => none, .gc 0 .load] ++ openAndWrite (.dropTable eventsTable) ++ listAndScan

/-- The segment that is left out is closed, and the next one gets the tombstone. -/
def rotatedAfterLoad : List NodeStep :=
  openAndWrite (.append ⟨Uuid.ofNat 7, eventsTable⟩ 1) ++
    [.gcBegin fun _ => none, .gc 0 .load, .writer .closeCurrent] ++
    openAndWrite (.dropTable eventsTable) ++ [.writer .closeCurrent] ++ listAndScan

lemma exists_notGcSafe_of_exec {steps : List NodeStep} {seen}
    (hrun : (machine.exec emptyLog steps).map (fun s => (observe s, decide s.GcSafe)) =
      some (seen, false)) : ∃ s, machine.Reachable s ∧ observe s = seen ∧ ¬ s.GcSafe := by
  obtain ⟨s, hs, hse⟩ := Machine.exists_of_exec emptyLog_start hrun
  exact ⟨s, hs, congrArg Prod.fst hse, of_decide_eq_false (congrArg Prod.snd hse)⟩

/-- A pass deletes the open segment, or a tombstone whose table has a record in a segment not
scanned. -/
theorem gc_deletes_openSegment_and_neededTombstone : (∃ s, machine.Reachable s ∧
      observe s = (some 1, [(some 1, [1])], [(1, [], [eventsTable])]) ∧ ¬ s.GcSafe) ∧
    ∃ s, machine.Reachable s ∧
      observe s = (none, [(some 2, [2])], [(1, [eventsTable], []), (2, [], [eventsTable])]) ∧
      ¬ s.GcSafe := by
  constructor
  · apply exists_notGcSafe_of_exec
    exact (rfl : (machine.exec emptyLog openedAfterLoad).map _ = _)
  · apply exists_notGcSafe_of_exec
    exact (rfl : (machine.exec emptyLog rotatedAfterLoad).map _ = _)

end

end LogNode

end TeoDB.Storage.Wal
