import TeoDB.Lib.AppendedFile
import TeoDB.Lib.Machine
import TeoDB.Storage.Wal.GcReplay
import TeoDB.Storage.Wal.Salvage

/-!
# Acknowledged records and power loss

One task writes the frames of the queue in groups. A group is acknowledged after its bytes were
written to the open segment and the file was synced. The writer does not sync the directory of a
new segment; other parts do when they persist a file of their own. A power loss before that takes
the segment with its records. A collection between two steps of the writer takes nothing that is to
be replayed.

## Implementation notes

`acked` has the acknowledged records of each segment; no step reads it. A write may reach the file
in part, and cutting a failed group off may fail.
-/

namespace TeoDB.Storage.Wal.Durability

open TeoDB.Core Lib Lib.MachineInt

variable {α : Type}

/-- The number of commands the queue holds. -/
def writeQueueDepth : Nat := 1024

/-- The number of frames that are written under one sync. -/
def maxGroupFrames : Nat := 128

structure WriteRequest (α : Type) where
  record : WalRecord α
  frame : List UInt8

inductive WriterCommand (α : Type) where
  | write (request : WriteRequest α)
  | rotate

structure OpenSegment where
  seq : Nat
  bytesWritten : Nat

/-- Requests that are written together, and whether a rotation was queued behind them. -/
structure Group (α : Type) where
  requests : List (WriteRequest α)
  rotateAfter : Bool

namespace Group

def frames (group : Group α) : List (List UInt8) := group.requests.map WriteRequest.frame

def records (group : Group α) : List (WalRecord α) := group.requests.map WriteRequest.record

/-- The number of bytes of a group. -/
def total (group : Group α) : Nat := (group.frames.map List.length).sum

lemma total_eq (group : Group α) : group.total = group.frames.flatten.length :=
  List.length_flatten.symm

end Group

/-- Take requests from the queue until a rotation or the given number. -/
def drain : Nat → List (WriterCommand α) → Group α × List (WriterCommand α)
  | 0, queue => (⟨[], false⟩, queue)
  | _ + 1, [] => (⟨[], false⟩, [])
  | _ + 1, .rotate :: queue => (⟨[], true⟩, queue)
  | n + 1, .write request :: queue =>
    let (group, rest) := drain n queue
    (⟨request :: group.requests, group.rotateAfter⟩, rest)

/-- What the writer task is doing. A group is written in parts. -/
inductive Phase (α : Type) where
  | receiving
  | grouped (group : Group α)
  | writing (group : Group α) (done : Nat)

structure WalConfig where
  maxSegmentBytes : Nat
  fsyncOnAppend : Bool

abbrev Disk := OrdMap Nat (AppendedFile UInt8)

/-- The log directory, the writer task with its queue, and what it has acknowledged. -/
structure State (α : Type) where
  disk : Disk
  nextSeq : Nat
  current : Option OpenSegment
  queue : List (WriterCommand α)
  phase : Phase α
  acked : Nat → List (WalRecord α)

/-- A record whose numbers have the widths of their types. -/
abbrev TypedRecord (α : Type) := { record : WalRecord α // record.header.InRange }

inductive Label (α : Type) where
  | append (record : TypedRecord α)
  | rotate
  | receive
  | startGroup (opens : Bool)
  | write (count : Nat)
  | finishGroup
  | failGroup (cut : Bool)
  | syncDirectory
  | reopen
  | powerLoss (left : Nat → Option Nat)

/-- Open a file for appending; a file that exists keeps its content. -/
def openFile (disk : Disk) (seq : Nat) : Disk :=
  match disk.find? seq with
  | some _ => disk
  | none => disk.insert seq .create

/-- Change a file through its handle. -/
def updateFile (disk : Disk) (seq : Nat)
    (change : AppendedFile UInt8 → AppendedFile UInt8) : Disk :=
  match disk.find? seq with
  | some file => disk.insert seq (change file)
  | none => disk

/-- The segments as a replay reads them. -/
def dirOf (disk : Disk) : WalDir := disk.filterMap fun _ file => some ⟨file.written, none⟩

def scanNextSeq (disk : Disk) : Nat := WalDisk.scanNextSeq ⟨dirOf disk, OrdMap.empty⟩

namespace State

variable (s : State α)

def closeCurrent : State α := { s with current := none }

def enqueue (command : WriterCommand α) : Option (State α) :=
  if s.queue.length < writeQueueDepth then some { s with queue := s.queue ++ [command] } else none

/-- Submit a record. One that cannot be encoded is rejected. -/
def append (lib : FrameLib α) (s : State α) (record : WalRecord α) : Option (State α) :=
  match encodeFrame lib record with
  | .ok frame => s.enqueue (.write ⟨record, frame⟩)
  | .error _ => some s

/-- Take the next command, and the requests behind it. -/
def receive : Option (State α) :=
  match s.queue with
  | [] => none
  | .rotate :: queue => some { s.closeCurrent with queue := queue }
  | .write first :: queue =>
    let (group, rest) := drain (maxGroupFrames - 1) queue
    some { s with
      queue := rest
      phase := .grouped ⟨first :: group.requests, group.rotateAfter⟩ }

/-- The open segment, unless the group would overflow it. -/
def segmentFor (cfg : WalConfig) (s : State α) (group : Group α) : Option OpenSegment :=
  s.current.filter fun segment => segment.bytesWritten + group.total ≤ cfg.maxSegmentBytes

/-- Choose the segment of a group, and open a new one if there is none. -/
def startGroup (cfg : WalConfig) (s : State α) (group : Group α) (opens : Bool) : State α :=
  match s.segmentFor cfg group with
  | some segment => { s with current := some segment, phase := .writing group 0 }
  | none =>
    if opens then
      { s with
        disk := openFile s.disk s.nextSeq
        nextSeq := wrappingAdd s.nextSeq 1
        current := some ⟨s.nextSeq, 0⟩
        phase := .writing group 0 }
    else { s with nextSeq := wrappingAdd s.nextSeq 1, current := none, phase := .receiving }

def write (segment : OpenSegment) (group : Group α) (done count : Nat) : State α :=
  { s with
    disk := updateFile s.disk segment.seq
      (·.append ((group.frames.flatten.drop done).take count))
    phase := .writing group (done + count) }

/-- All frames are written: sync the file, acknowledge the requests and honor a rotation. -/
def finishGroup (cfg : WalConfig) (s : State α) (segment : OpenSegment) (group : Group α) :
    State α :=
  { s with
    disk := if cfg.fsyncOnAppend then updateFile s.disk segment.seq (·.sync) else s.disk
    current := if group.rotateAfter then none
      else some { segment with bytesWritten := segment.bytesWritten + group.total }
    phase := .receiving
    acked := Function.update s.acked segment.seq (s.acked segment.seq ++ group.records) }

/-- A write or the sync fails: cut the group off if that succeeds, and drop the segment. -/
def failGroup (segment : OpenSegment) (cut : Bool) : State α :=
  { s with
    disk := if cut then updateFile s.disk segment.seq (·.truncate segment.bytesWritten) else s.disk
    current := none
    phase := .receiving }

def reopen (disk : Disk) : State α :=
  ⟨disk, scanNextSeq disk, none, [], .receiving, s.acked⟩

def step (lib : FrameLib α) (cfg : WalConfig) (s : State α) : Label α → Option (State α)
  | .append record => s.append lib record.1
  | .rotate => s.enqueue .rotate
  | .receive =>
    match s.phase with
    | .receiving => s.receive
    | _ => none
  | .startGroup opens =>
    match s.phase with
    | .grouped group => some (s.startGroup cfg group opens)
    | _ => none
  | .write count =>
    match s.phase, s.current with
    | .writing group done, some segment => some (s.write segment group done count)
    | _, _ => none
  | .finishGroup =>
    match s.phase, s.current with
    | .writing group done, some segment =>
      if group.total ≤ done then some (s.finishGroup cfg segment group) else none
    | _, _ => none
  | .failGroup cut =>
    match s.phase, s.current with
    | .writing _ _, some segment => some (s.failGroup segment cut)
    | _, _ => none
  | .syncDirectory => some { s with disk := s.disk.filterMap fun _ file => some file.link }
  | .reopen => some (s.reopen s.disk)
  | .powerLoss left =>
    if ∀ segment ∈ s.disk.entries, segment.2.CanLeave (left segment.1) then
      some (s.reopen (s.disk.filterMap fun seq file => file.left (left seq)))
    else none

end State

variable (lib : FrameLib α)

/-- The writer on a new directory, with restarts and power losses. -/
def machine (cfg : WalConfig) : Machine (State α) (Label α) where
  start s := s = ⟨OrdMap.empty, 1, none, [], .receiving, fun _ => []⟩
  next := State.step lib cfg

/-- A replay succeeds, finds every acknowledged record in its segment, and yields those that are to
be replayed. -/
def Recovers (s : State α) : Prop :=
  ∀ committed mode env, ∃ records,
    Replay.replay lib.codec committed mode env (dirOf s.disk) = .ok records ∧
      ∀ seq, ∀ record ∈ s.acked seq,
        ∃ frame ∈ Replay.locateAll lib.codec 0 (dirOf s.disk).entries,
          ((dirOf s.disk).entries[frame.1.segment]?).map Prod.fst = some seq ∧
            frame.2 = record.stored ∧
            (Replay.Replayed committed (Replay.locateAll lib.codec 0 (dirOf s.disk).entries)
              frame → record.stored ∈ records)

/-- The name of every segment with acknowledged records is safe. -/
def AckedLinked (s : State α) : Prop :=
  ∀ segment ∈ s.disk.entries, s.acked segment.1 ≠ [] → segment.2.linked = true

/-- A record whose payload the reader takes, if it can be encoded at all. -/
def WithinLimit (record : WalRecord α) : Prop :=
  ∀ payload ∈ (encodePayload lib record).toOption, payload.length ≤ maxPayloadBytes

/-- Payloads are within the reader's limit, the counter does not wrap around, and the power is lost
only while the names of acknowledged segments are safe. -/
def Sound (s : State α) : Label α → Prop
  | .append record => WithinLimit lib record.1
  | .startGroup _ => s.nextSeq < u64Max
  | .powerLoss _ => AckedLinked s
  | _ => True

instance (lib : FrameLib α) (s : State α) : (label : Label α) → Decidable (Sound lib s label)
  | .append record => inferInstanceAs (Decidable
      (∀ payload ∈ (encodePayload lib record.1).toOption, payload.length ≤ maxPayloadBytes))
  | .startGroup _ => inferInstanceAs (Decidable (s.nextSeq < u64Max))
  | .powerLoss _ => inferInstanceAs (Decidable
      (∀ segment ∈ s.disk.entries, s.acked segment.1 ≠ [] → segment.2.linked = true))
  | .rotate | .receive | .write _ | .finishGroup | .failGroup _ | .syncDirectory | .reopen =>
    inferInstanceAs (Decidable True)

/-- A file begins with the frames of acknowledged records, which no power loss takes from
it, and goes on with some bytes of other frames, of which the last may be cut off. -/
def Holds (acked : List (WalRecord α)) (file : AppendedFile UInt8) : Prop :=
  ∃ frames more rest n, List.Forall₂ (Accepted lib) acked frames ∧
    List.Forall₂ (Accepted lib) more rest ∧
    file.written ++ file.cut = frames.flatten ++ rest.flatten.take n ∧ file.Keeps frames.flatten

/-- An open file has nothing but acknowledged records and the bytes that are in flight. -/
def OpenAt (acked : List (WalRecord α)) (inFlight : List UInt8) (bytesWritten : Nat)
    (file : AppendedFile UInt8) : Prop :=
  ∃ frames, List.Forall₂ (Accepted lib) acked frames ∧
    file.written = frames.flatten ++ inFlight ∧ file.cut = [] ∧ file.Keeps frames.flatten ∧
    bytesWritten = frames.flatten.length

section

variable {lib : FrameLib α} {acked : List (WalRecord α)} {file : AppendedFile UInt8}

lemma Holds.create (lib : FrameLib α) : Holds lib [] .create :=
  ⟨[], [], [], 0, .nil, .nil, rfl, List.prefix_refl _, le_refl _⟩

lemma Holds.link (h : Holds lib acked file) : Holds lib acked file.link := by
  obtain ⟨frs, more, rest, n, hfrs, hr, hwr, hkeeps⟩ := h
  exact ⟨frs, more, rest, n, hfrs, hr, hwr, hkeeps.link⟩

lemma Holds.left (h : Holds lib acked file) {len : Nat}
    (hl : file.CanLeave (some len)) {aft : AppendedFile UInt8}
    (haf : file.left (some len) = some aft) : Holds lib acked aft := by
  obtain ⟨frs, more, rest, n, hfrs, hr, hwr, hkee⟩ := h
  have hlen : frs.flatten.length ≤ len := hkee.synced.trans hl
  refine ⟨frs, more, rest, min (len - frs.flatten.length) n, hfrs, hr, ?_, hkee.left hl haf⟩
  cases haf
  dsimp only
  rw [List.append_nil, hwr, List.take_append, List.take_of_length_le hlen, List.take_take]

lemma OpenAt.create (lib : FrameLib α) : OpenAt lib [] [] 0 .create :=
  ⟨[], .nil, rfl, rfl, ⟨List.prefix_refl _, le_refl _⟩, rfl⟩

lemma OpenAt.link {inFlight : List UInt8} {bytesWritten : Nat}
    (h : OpenAt lib acked inFlight bytesWritten file) :
    OpenAt lib acked inFlight bytesWritten file.link := by
  obtain ⟨frs, hfrs, hwr, hcut, hkeeps, hby⟩ := h
  exact ⟨frs, hfrs, hwr, hcut, hkeeps.link, hby⟩

variable {g : Group α} {wrt done : Nat}

lemma forall₂_accepted (h : ∀ req ∈ g.requests, Accepted lib req.record req.frame) :
    List.Forall₂ (Accepted lib) g.records g.frames := by
  rw [Group.records, Group.frames, List.forall₂_map_left_iff, List.forall₂_map_right_iff]
  exact List.forall₂_same.mpr h

section

variable (h : OpenAt lib acked (g.frames.flatten.take done) wrt file)

include h

lemma OpenAt.holds (hg : ∀ req ∈ g.requests, Accepted lib req.record req.frame) :
    Holds lib acked file := by
  obtain ⟨frs, hfrs, hwr, hcut, hkeeps, _⟩ := h
  refine ⟨frs, g.records, g.frames, done, hfrs, forall₂_accepted hg, ?_, hkeeps⟩
  rw [hcut, List.append_nil, hwr]

lemma OpenAt.append (n : Nat) : OpenAt lib acked (g.frames.flatten.take (done + n)) wrt
      (file.append ((g.frames.flatten.drop done).take n)) := by
  obtain ⟨frs, hfrs, hwr, hcut, hkeeps, hby⟩ := h
  refine ⟨frs, hfrs, ?_, hcut, hkeeps.append _, hby⟩
  rw [AppendedFile.append, hwr, List.append_assoc, List.take_add]

/-- The bytes of a group that is cut off can come back with a power loss. -/
theorem OpenAt.truncate (hg : ∀ req ∈ g.requests, Accepted lib req.record req.frame) :
    Holds lib acked (file.truncate wrt) := by
  obtain ⟨frs, hfrs, hwr, hcut, hkeeps, hby⟩ := h
  refine ⟨frs, g.records, g.frames, done, hfrs, forall₂_accepted hg, ?_,
    hkeeps.truncate hby.ge⟩
  rw [AppendedFile.truncate, hcut, List.append_nil, List.take_append_drop, hwr]

lemma OpenAt.sync (hg : ∀ req ∈ g.requests, Accepted lib req.record req.frame)
    (hd : g.total ≤ done) : OpenAt lib (acked ++ g.records) [] (wrt + g.total) file.sync := by
  obtain ⟨frs, hfrs, hwr, _, _, hby⟩ := h
  rw [List.take_of_length_le (g.total_eq ▸ hd), ← List.flatten_append] at hwr
  refine ⟨frs ++ g.frames, List.rel_append hfrs (forall₂_accepted hg), ?_, rfl, ?_, ?_⟩
  · rw [List.append_nil]
    exact hwr
  · rw [← hwr]
    exact AppendedFile.Keeps.sync file
  · rw [hby, g.total_eq, List.flatten_append, List.length_append]

end

end

/-- Every segment holds its acknowledged records, and the next number is new. -/
structure Stored (lib : FrameLib α) (disk : Disk) (acked : Nat → List (WalRecord α))
    (nextSeq : Nat) : Prop where
  files : ∀ seq file, disk.find? seq = some file → Holds lib (acked seq) file
  present : ∀ seq, acked seq ≠ [] → ∃ file, disk.find? seq = some file
  numbers : ∀ seq file, disk.find? seq = some file → seq < nextSeq
  counter : nextSeq ≤ u64Max

section

variable {lib : FrameLib α} {disk : Disk} {acked : Nat → List (WalRecord α)} {nxt : Nat}

section

variable (h : Stored lib disk acked nxt)

include h

lemma Stored.fresh : disk.find? nxt = none := by
  cases hf : disk.find? nxt with
  | none => rfl
  | some file => exact absurd (h.numbers nxt file hf) (lt_irrefl _)

lemma Stored.acked_fresh : acked nxt = [] := by
  by_contra hne
  obtain ⟨file, hf⟩ := h.present nxt hne
  rw [h.fresh] at hf
  cases hf

lemma Stored.allocate (hlt : nxt < u64Max) : Stored lib disk acked (wrappingAdd nxt 1) := by
  rw [wrappingAdd_of_le hlt]
  exact ⟨h.files, h.present, fun seq file hf => (h.numbers seq file hf).trans (by omega), hlt⟩

lemma Stored.openFile (hlt : nxt < u64Max) :
    Stored lib (openFile disk nxt) acked (wrappingAdd nxt 1) ∧
      (Durability.openFile disk nxt).find? nxt = some .create := by
  have ho : Durability.openFile disk nxt = disk.insert nxt .create := by
    rw [Durability.openFile, h.fresh]
  rw [ho, wrappingAdd_of_le hlt]
  constructor
  · constructor
    · intro seq file hf
      rw [OrdMap.find?_insert] at hf
      split_ifs at hf with hseq
      · cases hf
        rw [hseq, h.acked_fresh]
        exact .create lib
      · exact h.files seq file hf
    · intro seq hne
      rw [OrdMap.find?_insert]
      split_ifs
      · exact ⟨_, rfl⟩
      · exact h.present seq hne
    · intro seq file hf
      rw [OrdMap.find?_insert] at hf
      split_ifs at hf with hseq
      · omega
      · exact (h.numbers seq file hf).trans (by omega)
    · exact hlt
  · rw [OrdMap.find?_insert, if_pos rfl]

lemma Stored.insert {seq : Nat} {file changed : AppendedFile UInt8}
    (hf : disk.find? seq = some file) {rs : List (WalRecord α)} (hhd : Holds lib rs changed) :
    Stored lib (disk.insert seq changed) (Function.update acked seq rs) nxt := by
  constructor
  · intro o fd hfnd
    rw [OrdMap.find?_insert] at hfnd
    split_ifs at hfnd with hot
    · cases hfnd
      rw [hot, Function.update_self]
      exact hhd
    · rw [Function.update_of_ne hot]
      exact h.files o fd hfnd
  · intro o hne
    rw [OrdMap.find?_insert]
    split_ifs with hot
    · exact ⟨_, rfl⟩
    · rw [Function.update_of_ne hot] at hne
      exact h.present o hne
  · intro o fd hfnd
    rw [OrdMap.find?_insert] at hfnd
    split_ifs at hfnd with hot
    · rw [hot]
      exact h.numbers seq file hf
    · exact h.numbers o fd hfnd
  · exact h.counter

lemma Stored.link : Stored lib (disk.filterMap fun _ file => some file.link) acked nxt := by
  have hfi : ∀ seq, (disk.filterMap fun _ file => some file.link).find? seq =
      (disk.find? seq).map AppendedFile.link := by
    intro seq
    rw [OrdMap.find?_filterMap, Option.map_eq_bind]
    rfl
  constructor
  · intro seq file hf
    rw [hfi, Option.map_eq_some_iff] at hf
    obtain ⟨old, hold, rfl⟩ := hf
    exact (h.files seq old hold).link
  · intro seq hne
    obtain ⟨file, hf⟩ := h.present seq hne
    exact ⟨file.link, by rw [hfi, hf]; rfl⟩
  · intro seq file hf
    rw [hfi, Option.map_eq_some_iff] at hf
    obtain ⟨old, hold, _⟩ := hf
    exact h.numbers seq old hold
  · exact h.counter

end

lemma find?_dirOf (disk : Disk) (seq : Nat) :
    (dirOf disk).find? seq = (disk.find? seq).map fun file => ⟨file.written, none⟩ := by
  rw [dirOf, OrdMap.find?_filterMap, Option.map_eq_bind]
  rfl

lemma scanNextSeq_eq (disk : Disk) : scanNextSeq disk = (dirOf disk).keys.foldr max ⊥ + 1 := by
  rw [scanNextSeq, WalDisk.scanNextSeq, List.foldl_eq_foldr]
  rfl

lemma lt_scanNextSeq {seq : Nat} {file : AppendedFile UInt8} (h : disk.find? seq = some file) :
    seq < scanNextSeq disk := by
  have hkey : seq ∈ (dirOf disk).keys := by
    rw [OrdMap.mem_keys]
    refine ⟨⟨file.written, none⟩, ?_⟩
    rw [← OrdMap.find?_eq_some_iff, find?_dirOf, h]
    rfl
  rw [scanNextSeq_eq]
  exact Nat.lt_succ_of_le (List.le_max_of_le hkey (le_refl _))

lemma scanNextSeq_le {bound : Nat} (hpos : 0 < bound)
    (h : ∀ seq file, disk.find? seq = some file → seq < bound) : scanNextSeq disk ≤ bound := by
  have hmax : (dirOf disk).keys.foldr max ⊥ ≤ bound - 1 := by
    apply List.max_le_of_forall_le
    intro seq hseq
    obtain ⟨file, hf⟩ := (OrdMap.mem_keys _ _).mp hseq
    rw [← OrdMap.find?_eq_some_iff, find?_dirOf, Option.map_eq_some_iff] at hf
    obtain ⟨old, hold, _⟩ := hf
    have hlt := h seq old hold
    omega
  rw [scanNextSeq_eq]
  omega

lemma Stored.rescan (h : Stored lib disk acked nxt) :
    Stored lib disk acked (scanNextSeq disk) := by
  refine ⟨h.files, h.present, fun seq file hf => lt_scanNextSeq hf, ?_⟩
  apply scanNextSeq_le (by decide)
  intro seq file hf
  exact (h.numbers seq file hf).trans_le h.counter

lemma Stored.left (h : Stored lib disk acked nxt) {left : Nat → Option Nat}
    (hl : ∀ segment ∈ disk.entries, segment.2.CanLeave (left segment.1))
    (hlin : ∀ segment ∈ disk.entries, acked segment.1 ≠ [] → segment.2.linked = true) :
    Stored lib (disk.filterMap fun seq file => file.left (left seq)) acked nxt := by
  have hfnd : ∀ seq aft,
      (disk.filterMap fun seq file => file.left (left seq)).find? seq = some aft →
        ∃ file len, disk.find? seq = some file ∧ file.CanLeave (some len) ∧
          file.left (some len) = some aft := by
    intro seq aft haf
    rw [OrdMap.find?_filterMap, Option.bind_eq_some_iff] at haf
    obtain ⟨file, hf, haf⟩ := haf
    have hcan := hl (seq, file) ((OrdMap.find?_eq_some_iff _ _ _).mp hf)
    dsimp only at hcan
    cases hseq : left seq with
    | none =>
      rw [hseq] at haf
      cases haf
    | some len =>
      rw [hseq] at haf hcan
      exact ⟨file, len, hf, hcan, haf⟩
  constructor
  · intro seq aft haf
    obtain ⟨file, len, hf, hcan, haf⟩ := hfnd seq aft haf
    exact (h.files seq file hf).left hcan haf
  · intro seq hne
    obtain ⟨file, hf⟩ := h.present seq hne
    have hmem := (OrdMap.find?_eq_some_iff _ _ _).mp hf
    have hcan := hl (seq, file) hmem
    have hs := hlin (seq, file) hmem hne
    dsimp only at hcan hs
    cases hseq : left seq with
    | none =>
      rw [hseq, AppendedFile.CanLeave, hs] at hcan
      cases hcan
    | some len =>
      rw [OrdMap.find?_filterMap, hf, Option.bind_some, hseq]
      exact ⟨_, rfl⟩
  · intro seq aft haf
    obtain ⟨file, _, hf, _⟩ := hfnd seq aft haf
    exact h.numbers seq file hf
  · exact h.counter

end

namespace Phase

/-- The bytes of the group that have been written. -/
def inFlight : Phase α → List UInt8
  | .writing group done => group.frames.flatten.take done
  | _ => []

/-- The requests that have been taken from the queue. -/
def requests : Phase α → List (WriteRequest α)
  | .receiving => []
  | .grouped group | .writing group _ => group.requests

end Phase

/-- The directory holds what was acknowledged, the open file is in order, and the requests are
readable. -/
structure Inv (lib : FrameLib α) (s : State α) : Prop where
  stored : Stored lib s.disk s.acked s.nextSeq
  opened : ∀ segment, s.current = some segment → ∃ file,
    s.disk.find? segment.seq = some file ∧
      OpenAt lib (s.acked segment.seq) s.phase.inFlight segment.bytesWritten file
  queued : ∀ request, .write request ∈ s.queue → Accepted lib request.record request.frame
  taken : ∀ request ∈ s.phase.requests, Accepted lib request.record request.frame

lemma mem_drain {n : Nat} {queue : List (WriterCommand α)} :
    (∀ req ∈ (drain n queue).1.requests, .write req ∈ queue) ∧
      ∀ command ∈ (drain n queue).2, command ∈ queue := by
  fun_induction drain n queue with
  | case1 => exact ⟨by simp, fun _ h => h⟩
  | case2 => exact ⟨by simp, fun _ h => h⟩
  | case3 n queue => exact ⟨by simp, fun _ h => List.mem_cons_of_mem _ h⟩
  | case4 n req queue group rest hdrain ih =>
    rw [hdrain] at ih
    constructor
    · intro o hot
      rcases List.mem_cons.mp hot with rfl | hot
      · exact List.mem_cons_self
      · exact List.mem_cons_of_mem _ (ih.1 o hot)
    · exact fun command hcom => List.mem_cons_of_mem _ (ih.2 command hcom)

namespace Inv

variable {lib : FrameLib α} {cfg : WalConfig} {s s' : State α}

lemma enqueue (h : Inv lib s) {command : WriterCommand α}
    (hcom : ∀ req, .write req = command → Accepted lib req.record req.frame)
    (hs : s.enqueue command = some s') : Inv lib s' := by
  unfold State.enqueue at hs
  split_ifs at hs
  cases hs
  refine ⟨h.stored, h.opened, ?_, h.taken⟩
  intro req hreq
  rcases mem_concat_iff.mp hreq with hreq | hreq
  · exact h.queued req hreq
  · exact hcom req hreq

lemma append (h : Inv lib s) {rc : TypedRecord α} (hlimit : WithinLimit lib rc.1)
    (hs : s.append lib rc.1 = some s') : Inv lib s' := by
  unfold State.append at hs
  cases hfr : encodeFrame lib rc.1 with
  | error e =>
    rw [hfr] at hs
    cases hs
    exact h
  | ok frame =>
    rw [hfr] at hs
    apply h.enqueue _ hs
    rintro rq hreq
    cases hreq
    obtain ⟨pl, hpay, _⟩ := encodeFrame_eq_ok.mp hfr
    exact ⟨rc.2, hfr, pl, hpay, hlimit pl (by rw [hpay]; rfl)⟩

lemma receive (h : Inv lib s) (hph : s.phase = .receiving)
    (hs : s.receive = some s') : Inv lib s' := by
  unfold State.receive at hs
  have hque := h.queued
  cases hquu : s.queue with
  | nil =>
    rw [hquu] at hs
    cases hs
  | cons command queue =>
    rw [hquu] at hs hque
    cases command with
    | rotate =>
      cases hs
      refine ⟨h.stored, fun _ hn => absurd hn (Option.some_ne_none _).symm, ?_, h.taken⟩
      exact fun req hreq => hque req (List.mem_cons_of_mem _ hreq)
    | write first =>
      cases hs
      obtain ⟨hg, hr⟩ := @mem_drain _ (maxGroupFrames - 1) queue
      constructor
      · exact h.stored
      · intro segment hseg
        have hope := h.opened segment hseg
        rw [hph] at hope
        exact hope
      · exact fun req hreq =>
          hque req (List.mem_cons_of_mem _ (hr _ hreq))
      · intro req hreq
        rcases List.mem_cons.mp hreq with rfl | hreq
        · exact hque req List.mem_cons_self
        · exact hque req (List.mem_cons_of_mem _ (hg req hreq))

lemma startGroup (h : Inv lib s) {group : Group α} (hph : s.phase = .grouped group)
    (hlt : s.nextSeq < u64Max) (opens : Bool) : Inv lib (s.startGroup cfg group opens) := by
  have htak : ∀ req ∈ group.requests, Accepted lib req.record req.frame := by
    have htak := h.taken
    rw [hph] at htak
    exact htak
  unfold State.startGroup
  cases hseg : s.segmentFor cfg group with
  | some segment =>
    have hcur : s.current = some segment := (Option.filter_eq_some_iff.mp hseg).1
    refine ⟨h.stored, ?_, h.queued, htak⟩
    intro other hot
    cases hot
    have hope := h.opened segment hcur
    rw [hph] at hope
    exact hope
  | none =>
    cases opens with
    | false =>
      exact ⟨h.stored.allocate hlt, fun _ hn => absurd hn (Option.some_ne_none _).symm,
        h.queued, fun _ hn => absurd hn List.not_mem_nil⟩
    | true =>
      obtain ⟨hstd, hcr⟩ := h.stored.openFile hlt
      have ho : OpenAt lib (s.acked s.nextSeq) [] 0 .create := by
        rw [h.stored.acked_fresh]
        exact .create lib
      refine ⟨hstd, ?_, h.queued, htak⟩
      intro segment hseg
      cases hseg
      exact ⟨_, hcr, ho⟩

section

variable {g : Group α} {done : Nat} {seg : OpenSegment}

lemma openFile (h : Inv lib s) (hph : s.phase = .writing g done) (hcur : s.current = some seg) :
    ∃ file, s.disk.find? seg.seq = some file ∧
      OpenAt lib (s.acked seg.seq) (g.frames.flatten.take done) seg.bytesWritten file ∧
      ∀ req ∈ g.requests, Accepted lib req.record req.frame := by
  obtain ⟨file, hf, ho⟩ := h.opened seg hcur
  have htak := h.taken
  rw [hph] at ho htak
  exact ⟨file, hf, ho, htak⟩

lemma updateFile_eq {disk : Disk} {seq : Nat} {file : AppendedFile UInt8}
    (h : disk.find? seq = some file) (change : AppendedFile UInt8 → AppendedFile UInt8) :
    updateFile disk seq change = disk.insert seq (change file) := by
  rw [updateFile, h]

lemma write (h : Inv lib s) (hph : s.phase = .writing g done)
    (hcur : s.current = some seg) (n : Nat) : Inv lib (s.write seg g done n) := by
  obtain ⟨file, hf, ho, htak⟩ := h.openFile hph hcur
  have hwr := ho.append n
  have hstd := h.stored.insert hf (hwr.holds htak)
  rw [Function.update_eq_self] at hstd
  rw [State.write, updateFile_eq hf]
  refine ⟨hstd, ?_, h.queued, htak⟩
  intro other hot
  cases hcur.symm.trans hot
  exact ⟨_, by rw [OrdMap.find?_insert, if_pos rfl], hwr⟩

lemma finishGroup (h : Inv lib s) (hs : cfg.fsyncOnAppend = true)
    (hph : s.phase = .writing g done) (hcur : s.current = some seg)
    (hd : g.total ≤ done) : Inv lib (s.finishGroup cfg seg g) := by
  obtain ⟨file, hf, ho, htaken⟩ := h.openFile hph hcur
  have hsyn := ho.sync htaken hd
  have hhd : Holds lib (s.acked seg.seq ++ g.records) file.sync :=
    @OpenAt.holds _ lib _ _ ⟨[], false⟩ _ 0 hsyn fun _ hn => absurd hn List.not_mem_nil
  rw [State.finishGroup, if_pos hs, updateFile_eq hf]
  refine ⟨h.stored.insert hf hhd, ?_, h.queued, fun _ hn => absurd hn List.not_mem_nil⟩
  intro other hot
  dsimp only at hot
  split_ifs at hot
  cases hot
  refine ⟨_, by rw [OrdMap.find?_insert, if_pos rfl], ?_⟩
  dsimp only
  rw [Function.update_self]
  exact hsyn

lemma failGroup (h : Inv lib s) (hph : s.phase = .writing g done)
    (hcur : s.current = some seg) (cut : Bool) : Inv lib (s.failGroup seg cut) := by
  obtain ⟨file, hf, ho, htaken⟩ := h.openFile hph hcur
  refine ⟨?_, fun _ hn => absurd hn (Option.some_ne_none _).symm, h.queued,
    fun _ hn => absurd hn List.not_mem_nil⟩
  cases cut with
  | false => exact h.stored
  | true =>
    have hstd := h.stored.insert hf (ho.truncate htaken)
    rw [Function.update_eq_self] at hstd
    rw [State.failGroup, if_pos rfl, updateFile_eq hf]
    exact hstd

end

lemma syncDirectory (h : Inv lib s) :
    Inv lib { s with disk := s.disk.filterMap fun _ file => some file.link } := by
  refine ⟨h.stored.link, ?_, h.queued, h.taken⟩
  intro segment hseg
  obtain ⟨file, hf, ho⟩ := h.opened segment hseg
  refine ⟨file.link, ?_, ho.link⟩
  rw [OrdMap.find?_filterMap, hf]
  rfl

lemma reopen {disk : Disk} {nextSeq : Nat} (h : Stored lib disk s.acked nextSeq) :
    Inv lib (s.reopen disk) :=
  ⟨h.rescan, fun _ hn => absurd hn (Option.some_ne_none _).symm,
    fun _ hn => absurd hn List.not_mem_nil, fun _ hn => absurd hn List.not_mem_nil⟩

lemma start (lib : FrameLib α) : Inv lib ⟨OrdMap.empty, 1, none, [], .receiving, fun _ => []⟩ :=
  ⟨⟨fun _ _ hn => absurd hn (Option.some_ne_none _).symm, fun _ hne => absurd rfl hne,
      fun _ _ hn => absurd hn (Option.some_ne_none _).symm, (by decide : 1 ≤ u64Max)⟩,
    fun _ hn => absurd hn (Option.some_ne_none _).symm,
    fun _ hn => absurd hn List.not_mem_nil, fun _ hn => absurd hn List.not_mem_nil⟩

lemma step (hsync : cfg.fsyncOnAppend = true) (h : Inv lib s) {label : Label α}
    (hsou : Sound lib s label) (hs : s.step lib cfg label = some s') : Inv lib s' := by
  cases label with
  | append record => exact h.append hsou hs
  | rotate => exact h.enqueue (fun _ hw => by cases hw) hs
  | receive =>
    cases hph : s.phase <;> simp only [State.step, hph, reduceCtorEq] at hs
    exact h.receive hph hs
  | startGroup opens =>
    cases hph : s.phase <;> simp only [State.step, hph, reduceCtorEq] at hs
    cases hs
    exact h.startGroup hph hsou opens
  | write n =>
    cases hph : s.phase <;> cases hcur : s.current <;>
      simp only [State.step, hph, hcur, reduceCtorEq] at hs
    cases hs
    exact h.write hph hcur n
  | finishGroup =>
    cases hph : s.phase <;> cases hcur : s.current <;>
      simp only [State.step, hph, hcur, reduceCtorEq] at hs
    split_ifs at hs with hd
    cases hs
    exact h.finishGroup hsync hph hcur hd
  | failGroup cut =>
    cases hph : s.phase <;> cases hcur : s.current <;>
      simp only [State.step, hph, hcur, reduceCtorEq] at hs
    cases hs
    exact h.failGroup hph hcur cut
  | syncDirectory =>
    cases hs
    exact h.syncDirectory
  | reopen =>
    cases hs
    exact reopen h.stored
  | powerLoss left =>
    simp only [State.step] at hs
    split_ifs at hs with hl
    cases hs
    exact reopen (h.stored.left hl hsou)

end Inv

section

variable {lib : FrameLib α} {cfg : WalConfig} {s : State α}

lemma mem_dirOf {disk : Disk} {segment : Nat × SegmentFile} : segment ∈ (dirOf disk).entries ↔
      ∃ file, disk.find? segment.1 = some file ∧ segment.2 = ⟨file.written, none⟩ := by
  rw [← Prod.eta segment, ← OrdMap.find?_eq_some_iff, find?_dirOf, Option.map_eq_some_iff]
  simp only [eq_comm]

lemma Holds.replayFrames (hlib : lib.Lawful) {acked : List (WalRecord α)}
    {file : AppendedFile UInt8} (h : Holds lib acked file) :
    acked.map WalRecord.stored <+: (Wal.replayFrames lib.codec file.written).1.map Prod.snd ∧
      (Wal.replayFrames lib.codec file.written).2.isCorrupt = false := by
  obtain ⟨frames, more, rest, n, hfrs, hr, hwr, hkeeps⟩ := h
  have hlen := hkeeps.written.length_le
  have hpart := congrArg (List.take file.written.length) hwr
  rw [List.take_left, List.take_append, List.take_of_length_le hlen, List.take_take] at hpart
  rw [hpart]
  exact replayFrames_cut hlib hfrs hr _

lemma Stored.uncorrupted (hlib : lib.Lawful) (h : Stored lib s.disk s.acked s.nextSeq) :
    Replay.Uncorrupted lib.codec (dirOf s.disk) := by
  rintro ⟨seq, ct⟩ hseg
  obtain ⟨file, hf, rfl⟩ := mem_dirOf.mp hseg
  exact ⟨rfl, ((h.files seq file hf).replayFrames hlib).2⟩

/-- An acknowledged record is among the frames of the directory. -/
theorem Stored.located (hlib : lib.Lawful) (h : Stored lib s.disk s.acked s.nextSeq) {seq : Nat}
    {rc : WalRecord α} (hrec : rc ∈ s.acked seq) :
    ∃ fr ∈ Replay.locateAll lib.codec 0 (dirOf s.disk).entries,
      ((dirOf s.disk).entries[fr.1.segment]?).map Prod.fst = some seq ∧ fr.2 = rc.stored := by
  obtain ⟨file, hf⟩ := h.present seq (List.ne_nil_of_mem hrec)
  have hr : rc.stored ∈ (Wal.replayFrames lib.codec file.written).1.map Prod.snd :=
    ((h.files seq file hf).replayFrames hlib).1.subset (List.mem_map_of_mem hrec)
  obtain ⟨⟨offset, read⟩, hfr, heq⟩ := List.mem_map.mp hr
  dsimp only at heq
  rw [heq] at hfr
  have hseg : (seq, (⟨file.written, none⟩ : SegmentFile)) ∈ (dirOf s.disk).entries :=
    mem_dirOf.mpr ⟨file, hf, rfl⟩
  obtain ⟨n, hn⟩ := List.mem_iff_getElem?.mp hseg
  refine ⟨_, Replay.mem_locateAll_of_getElem? hn hfr, ?_, rfl⟩
  rw [Nat.zero_add, hn]
  rfl

lemma Inv.seq_lt (h : Inv lib s) : ∀ seq ∈ (dirOf s.disk).keys, seq < s.nextSeq := by
  intro seq hseq
  obtain ⟨ct, hct⟩ := (OrdMap.mem_keys _ _).mp hseq
  obtain ⟨file, hf, _⟩ := mem_dirOf.mp hct
  exact h.stored.numbers seq file hf

lemma Inv.recovers (hlib : lib.Lawful) (h : Inv lib s) : Recovers lib s := by
  intro cm mode env
  refine ⟨_, (h.stored.uncorrupted hlib).replay_eq fun seq hseq =>
    (h.seq_lt seq hseq).le.trans h.stored.counter, ?_⟩
  intro seq record hrec
  obtain ⟨fr, hfr, hseg, hstd⟩ := h.stored.located hlib hrec
  refine ⟨fr, hfr, hseg, hstd, ?_⟩
  intro hrep
  rw [List.mem_insertionSort, ← Replay.liveFrames_records 0, ← hstd]
  exact List.mem_map.mpr ⟨_, (Replay.mem_liveFrames_iff (Replay.locateAll_sorted ..)).mpr
    ⟨rfl, hrep⟩, rfl⟩

/-- A power loss that takes one segment and nothing else. -/
def loseSegment (s : State α) (seq : Nat) : Nat → Option Nat := fun other =>
  if other = seq then none
  else (s.disk.find? other).map fun file => max file.synced file.written.length

lemma step_loseSegment {seq : Nat} {file : AppendedFile UInt8}
    (hf : s.disk.find? seq = some file) (hunl : file.linked = false) :
    s.step lib cfg (.powerLoss (loseSegment s seq)) =
      some (s.reopen (s.disk.filterMap fun o file => file.left (loseSegment s seq o))) := by
  apply if_pos
  rintro ⟨o, found⟩ hfnd
  rw [← OrdMap.find?_eq_some_iff] at hfnd
  by_cases hot : o = seq
  · rw [hot, hf] at hfnd
    cases hfnd
    rw [loseSegment, if_pos hot]
    exact hunl
  · rw [loseSegment, if_neg hot, hfnd]
    exact le_max_left _ _

/-- Without its segment a record is not found. -/
theorem not_recovers {seq : Nat} (hl : s.disk.find? seq = none) (hak : s.acked seq ≠ []) :
    ¬ Recovers lib s := by
  intro h
  obtain ⟨_, _, hfound⟩ := h (fun _ => none) .fail ⟨"", fun _ => none⟩
  obtain ⟨rc, hrec⟩ := List.exists_mem_of_ne_nil _ hak
  obtain ⟨frame, _, hseg, _⟩ := hfound seq rc hrec
  obtain ⟨segment, hget, hseq⟩ := Option.map_eq_some_iff.mp hseg
  obtain ⟨file, hf, _⟩ := mem_dirOf.mp (List.mem_of_getElem? hget)
  rw [hseq, hl] at hf
  cases hf

/-- With a sync after every group, a replay after any power loss finds every acknowledged record
exactly if the names of their segments were safe. -/
theorem powerLoss_recovers_iff (hlib : lib.Lawful) (hsync : cfg.fsyncOnAppend = true)
    (run : (machine lib cfg).ReachableIf (Sound lib) s) :
    (∀ left s', s.step lib cfg (.powerLoss left) = some s' → Recovers lib s') ↔ AckedLinked s := by
  have hinv : Inv lib s := by
    apply run.invariant
    · rintro s rfl
      exact .start lib
    · exact fun s label s' h hsou hs => h.step hsync hsou hs
  constructor
  · rintro h ⟨seq, file⟩ hseg hak
    by_contra hunlinked
    have hf := (OrdMap.find?_eq_some_iff _ _ _).mpr hseg
    have hs := @step_loseSegment _ lib cfg s seq file hf (eq_false_of_ne_true hunlinked)
    refine @not_recovers _ lib (s.reopen _) seq ?_ hak (h _ _ hs)
    dsimp only [State.reopen]
    rw [OrdMap.find?_filterMap, hf, Option.bind_some, loseSegment, if_pos rfl]
    rfl
  · intro hlin left s' hs
    have hsou : Sound lib s (.powerLoss left) := hlin
    exact (hinv.step hsync hsou hs).recovers hlib

/-- The open segment has the last number that was given out. -/
def State.CurrentLast (s : State α) : Prop :=
  ∀ segment ∈ s.current, segment.seq + 1 = s.nextSeq

lemma State.CurrentLast.step (h : s.CurrentLast) {s' : State α} {label : Label α}
    (hsou : Sound lib s label) (hs : s.step lib cfg label = some s') : s'.CurrentLast := by
  cases label with
  | startGroup opens =>
    have hadd : wrappingAdd s.nextSeq 1 = s.nextSeq + 1 := wrappingAdd_of_le hsou
    grind [State.step, State.startGroup, State.segmentFor, State.CurrentLast]
  -- no other step opens a segment or takes a number while one is open
  | _ => grind [State.step, State.append, State.enqueue, State.receive, State.closeCurrent,
      State.write, State.finishGroup, State.failGroup, State.reopen, State.CurrentLast]

/-- The log between two steps of the writer. -/
def quietLog (h : Inv lib s) (hl : s.CurrentLast) : QuietLog where
  files := dirOf s.disk
  current := s.current.map OpenSegment.seq
  seqBound seq hseq := (h.seq_lt seq hseq).le.trans h.stored.counter
  currentLast seq hseq c hc := by
    obtain ⟨seg, hseg, rfl⟩ := Option.map_eq_some_iff.mp hc
    exact Nat.le_of_lt_succ ((h.seq_lt seq hseq).trans_eq (hl seg hseg).symm)

/-- A replay yields every acknowledged record that is to be replayed, and still does after any part
of a collection. -/
theorem collection_keeps_acknowledged (hlib : lib.Lawful) (hsync : cfg.fsyncOnAppend = true)
    (run : (machine lib cfg).ReachableIf (Sound lib) s) : Recovers lib s ∧
      ∀ committed mode env removeFails count, Replay.replay lib.codec committed mode env
          ((dirOf s.disk).without ((Gc.collectGarbage lib.codec (dirOf s.disk)
            (s.current.map OpenSegment.seq) committed removeFails).take count)) =
        Replay.replay lib.codec committed mode env (dirOf s.disk) := by
  obtain ⟨h, hl⟩ : Inv lib s ∧ s.CurrentLast := by
    apply run.invariant
    · rintro s rfl
      exact ⟨.start lib, fun _ hn => absurd hn (Option.some_ne_none _).symm⟩
    · exact fun s label s' h hsou hs => ⟨h.1.step hsync hsou hs, h.2.step hsou hs⟩
  refine ⟨h.recovers hlib, ?_⟩
  intro cm mode env rf n
  have hclean := h.stored.uncorrupted hlib
  have hb : ∀ seq ∈ (dirOf s.disk).keys, seq ≤ u64Max := (quietLog h hl).seqBound
  rw [hclean.replay_eq hb, Replay.Uncorrupted.replay_eq]
  · congr 2
    exact Gc.liveRecords_without (quietLog h hl) cm rf n
  · exact fun seq hseq => hb seq ((List.filter_sublist.map _).subset hseq)
  · exact fun seg hseg => hclean seg (List.mem_filter.mp hseg).1

end

/-- Segments of 64 bytes, with a sync after every group. -/
def ordersConfig : WalConfig := ⟨64, true⟩

/-- One append, written in two parts and acknowledged. -/
def acknowledgedAppend : List (Label Nat) :=
  [.append ⟨oneRow, oneRow_inRange⟩, .receive, .startGroup true, .write 7, .write 9, .finishGroup]

/-- The acknowledged records of the first segment, and the files of the directory. -/
def observed (s : State Nat) : List (WalRecord Nat) × List (Nat × Nat × Bool) :=
  (s.acked 1, s.disk.entries.map fun segment => (segment.1, segment.2.synced, segment.2.linked))

lemma new_directory : (machine (ordersLib [0]) ordersConfig).start
    ⟨OrdMap.empty, 1, none, [], .receiving, fun _ => []⟩ := rfl

/-- A checkpoint is persisted after the append. -/
theorem checkpointed_recovers : ∃ s : State Nat, observed s = ([oneRow], [(1, 16, true)]) ∧
      ∀ left s', s.step (ordersLib [0]) ordersConfig (.powerLoss left) = some s' →
        Recovers (ordersLib [0]) s' := by
  have hrun : (((machine (ordersLib [0]) ordersConfig).guarded (Sound (ordersLib [0]))).exec
      ⟨OrdMap.empty, 1, none, [], .receiving, fun _ => []⟩
      (acknowledgedAppend ++ [.syncDirectory])).map observed =
        some ([oneRow], [(1, 16, true)]) := by
    decide +kernel
  obtain ⟨s, run, hs⟩ := Machine.existsIf_of_exec new_directory hrun
  refine ⟨s, hs, (powerLoss_recovers_iff (ordersLib_lawful [0]) rfl run).mpr ?_⟩
  intro segment hseg _
  have hfs := congrArg Prod.snd hs
  have hmem := List.mem_map_of_mem (f := fun segment : Nat × AppendedFile UInt8 =>
    (segment.1, segment.2.synced, segment.2.linked)) hseg
  rw [show s.disk.entries.map _ = _ from hfs, List.mem_singleton] at hmem
  exact congrArg (fun e => e.2.2) hmem

/-- The power is lost right after the append, and the file with it. -/
theorem acknowledged_append_is_lost :
    ∃ s, (machine (ordersLib [0]) ordersConfig).Reachable s ∧ observed s = ([oneRow], []) ∧
      ¬ Recovers (ordersLib [0]) s := by
  have hrun : ((machine (ordersLib [0]) ordersConfig).exec
      ⟨OrdMap.empty, 1, none, [], .receiving, fun _ => []⟩
      (acknowledgedAppend ++ [.powerLoss fun _ => none])).map observed = some ([oneRow], []) := by
    decide +kernel
  obtain ⟨s, run, hs⟩ := Machine.exists_of_exec new_directory hrun
  obtain ⟨hak, hfs⟩ := Prod.ext_iff.mp hs
  refine ⟨s, run, hs, @not_recovers _ _ s 1 ?_ ?_⟩
  · have hem : s.disk.entries = [] := List.map_eq_nil_iff.mp hfs
    rw [OrdMap.find?, hem]
    rfl
  · rw [show s.acked 1 = [oneRow] from hak]
    exact List.cons_ne_nil _ _

/-- What a collection deletes once the generation of the append is committed. -/
def collected (s : State Nat) : List Nat :=
  Gc.collectGarbage (ordersLib [0]).codec (dirOf s.disk) (s.current.map OpenSegment.seq)
    (fun _ => some 9) fun _ => false

/-- A second append that fails after seven bytes and is cut off. -/
def failedAppend : List (Label Nat) :=
  [.append ⟨oneRow, oneRow_inRange⟩, .receive, .startGroup true, .write 7, .failGroup true]

/-- How much each file has, and how much of it a power loss may bring back. -/
def lengths (s : State Nat) : List (Nat × Nat) :=
  s.disk.entries.map fun segment => (segment.2.written.length, segment.2.cut.length)

theorem collection_keeps_acknowledged_orders : ∃ s : State Nat, s.acked 1 = [oneRow] ∧
    lengths s = [(16, 7)] ∧ collected s = [1] ∧ Recovers (ordersLib [0]) s := by
  have hrun : (((machine (ordersLib [0]) ordersConfig).guarded (Sound (ordersLib [0]))).exec
      ⟨OrdMap.empty, 1, none, [], .receiving, fun _ => []⟩
      (acknowledgedAppend ++ failedAppend)).map (fun s => (s.acked 1, lengths s, collected s)) =
        some ([oneRow], [(16, 7)], [1]) := by
    decide +kernel
  obtain ⟨s, run, hs⟩ := Machine.existsIf_of_exec new_directory hrun
  obtain ⟨hak, hrest⟩ := Prod.ext_iff.mp hs
  obtain ⟨hlen, hcol⟩ := Prod.ext_iff.mp hrest
  exact ⟨s, hak, hlen, hcol, (collection_keeps_acknowledged (ordersLib_lawful [0]) rfl run).1⟩

end TeoDB.Storage.Wal.Durability
