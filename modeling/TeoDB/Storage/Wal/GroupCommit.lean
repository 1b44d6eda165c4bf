import TeoDB.Storage.Wal.Durability

/-!
# Group commit is atomic

The writer task takes the requests that have queued up, writes their frames to one segment and
answers all of them alike. A group that fails is cut off again and the segment is dropped. The
segments always hold the acknowledged frames in the order of the commands, and nothing else.

## Implementation notes

One step is one turn of the loop of the task: nobody else touches its segment. A failure leaves any
number of bytes of the group in the file, and cutting them off succeeds.
-/

namespace TeoDB.Storage.Wal.GroupCommit

open TeoDB.Core Lib Storage.Wal.Durability

variable {α : Type}

structure SegmentFile where
  seq : Nat
  content : List UInt8

/-- How the write of a group ends. Failures carry the text of the error. -/
inductive Outcome where
  | openFails (error : String)
  | writeFails (written : Nat) (error : String)
  | flushFails (written : Nat) (error : String)
  | fsyncFails (error : String)
  | done

abbrev GroupAnswer (α : Type) := WriteRequest α × TeoDBResult Nat

/-- What the task has handled: a group with the answer to each request, or a rotation. -/
inductive Handled (α : Type) where
  | group (answers : List (GroupAnswer α))
  | rotated

structure State (α : Type) where
  files : List SegmentFile
  nextSeq : Nat
  current : Option OpenSegment
  queue : List (WriterCommand α)
  sent : List (WriterCommand α)
  handled : List (Handled α)

inductive Label (α : Type) where
  | send (command : WriterCommand α)
  | receive (outcome : Outcome)

/-- Change a file through its handle. -/
def updateFile (files : List SegmentFile) (seq : Nat) (change : List UInt8 → List UInt8) :
    List SegmentFile :=
  files.map fun file =>
    if file.seq = seq then { file with content := change file.content } else file

namespace State

/-- The group failed: cut the file off where the group began, and drop the segment. -/
def cutOff (s : State α) (segment : OpenSegment) (group : Durability.Group α) (written : Nat) :
    State α :=
  { s with
    files := updateFile (updateFile s.files segment.seq (· ++ group.frames.flatten.take written))
      segment.seq (·.take segment.bytesWritten)
    current := none }

def writeFrames (cfg : WalConfig) (s : State α) (segment : OpenSegment)
    (group : Durability.Group α) :
    Outcome → Option (State α × Except String Nat)
  | .openFails _ => none
  | .writeFails written error =>
    some (s.cutOff segment group written, .error s!"write failed: {error}")
  | .flushFails written error =>
    some (s.cutOff segment group written, .error s!"flush failed: {error}")
  | .fsyncFails error =>
    if cfg.fsyncOnAppend then
      some (s.cutOff segment group group.total, .error s!"fsync failed: {error}")
    else none
  | .done =>
    some ({ s with
      files := updateFile s.files segment.seq (· ++ group.frames.flatten)
      current := some { segment with bytesWritten := segment.bytesWritten + group.total } },
      .ok segment.seq)

/-- Write to the open segment, or to a new one if the group would overflow it. -/
def writeGroup (cfg : WalConfig) (s : State α) (group : Durability.Group α) (outcome : Outcome) :
    Option (State α × Except String Nat) :=
  match s.current.filter fun segment =>
    segment.bytesWritten + group.total ≤ cfg.maxSegmentBytes with
  | some segment => s.writeFrames cfg segment group outcome
  | none =>
    match outcome with
    | .openFails error =>
      some ({ s with nextSeq := s.nextSeq + 1, current := none },
        .error s!"failed to open segment: {error}")
    | _ =>
      writeFrames cfg
        { s with files := s.files ++ [⟨s.nextSeq, []⟩], nextSeq := s.nextSeq + 1 }
        ⟨s.nextSeq, 0⟩ group outcome

def groupError (message : String) : TeoDBError :=
  .wal s!"group write failed: wal: {message}" none

/-- One turn of the loop of the task. -/
def receive (cfg : WalConfig) (s : State α) (outcome : Outcome) : Option (State α) :=
  match s.queue with
  | [] => none
  | .rotate :: queue =>
    some { s with queue := queue, current := none, handled := s.handled ++ [.rotated] }
  | .write first :: queue =>
    let (more, rest) := drain (maxGroupFrames - 1) queue
    let group : Durability.Group α := ⟨first :: more.requests, more.rotateAfter⟩
    (s.writeGroup cfg group outcome).map fun (after, result) =>
      { after with
        current := if group.rotateAfter then none else after.current
        queue := rest
        handled := s.handled ++
          .group (group.requests.map fun request => (request, result.mapError groupError)) ::
            if group.rotateAfter then [.rotated] else [] }

def step (cfg : WalConfig) (s : State α) : Label α → Option (State α)
  | .send command =>
    if s.queue.length < writeQueueDepth then
      some { s with queue := s.queue ++ [command], sent := s.sent ++ [command] }
    else none
  | .receive outcome => s.receive cfg outcome

end State

/-- The writer task on a directory without segments, with any first sequence number. -/
def machine (cfg : WalConfig) (α : Type) : Machine (State α) (Label α) where
  start s := ∃ nextSeq, s = ⟨[], nextSeq, none, [], [], []⟩
  next := State.step cfg

def Handled.commands : Handled α → List (WriterCommand α)
  | .group answers => answers.map fun answer => .write answer.1
  | .rotated => [.rotate]

/-- The segment and the frame of each acknowledged request. -/
def Handled.placed : Handled α → List (Nat × List UInt8)
  | .group answers =>
    answers.filterMap fun answer => answer.2.toOption.map fun seq => (seq, answer.1.frame)
  | .rotated => []

/-- The frames that were acknowledged, with their segments, in the order of the commands. -/
def placed (handled : List (Handled α)) : List (Nat × List UInt8) := handled.flatMap Handled.placed

/-- Requests that are all answered alike. -/
def AnsweredAlike (answers : List (GroupAnswer α)) : Prop :=
  (∃ seq, ∀ answer ∈ answers, answer.2 = .ok seq) ∨
    ∃ error, ∀ answer ∈ answers, answer.2 = .error error

/-- The requests of a group are answered alike, the segments hold the acknowledged frames in the
order of the commands, and a rotation separates segments. -/
structure Atomic (files : List SegmentFile) (handled : List (Handled α)) : Prop where
  alike : ∀ answers, .group answers ∈ handled → AnsweredAlike answers
  sequence : files.Pairwise fun a b => a.seq < b.seq
  contents : files.flatMap SegmentFile.content = ((placed handled).map Prod.snd).flatten
  stored : ∀ file ∈ files,
    file.content = (((placed handled).filter (·.1 = file.seq)).map Prod.snd).flatten
  rotation : ∀ before after, handled = before ++ .rotated :: after →
    ∀ a ∈ placed before, ∀ b ∈ placed after, a.1 < b.1

/-- All frames before some rotation lie in earlier segments. -/
def Above (handled : List (Handled α)) (seq : Nat) : Prop :=
  ∀ before after, handled = before ++ .rotated :: after → ∀ a ∈ placed before, a.1 < seq

/-- The open segment is the last file, with as many bytes as the task has counted. -/
def Ready (files : List SegmentFile) (handled : List (Handled α)) (segment : OpenSegment) : Prop :=
  Above handled segment.seq ∧ ∃ init content,
    files = init ++ [⟨segment.seq, content⟩] ∧ content.length = segment.bytesWritten

structure Kept (files : List SegmentFile) (nextSeq : Nat) (current : Option OpenSegment)
    (handled : List (Handled α)) : Prop extends Atomic files handled where
  allocated : ∀ file ∈ files, file.seq < nextSeq
  placed_lt : ∀ a ∈ placed handled, a.1 < nextSeq
  ready : ∀ segment ∈ current, Ready files handled segment

section

variable {fs : List SegmentFile} {nxt : Nat} {cur : Option OpenSegment}
  {handled : List (Handled α)} {seg : OpenSegment} {g : Durability.Group α}

@[simp] lemma placed_append (a b : List (Handled α)) : placed (a ++ b) = placed a ++ placed b :=
  List.flatMap_append

lemma placed_error (reqs : List (WriteRequest α)) (e : TeoDBError) :
    placed [.group (reqs.map fun req => (req, .error e))] = [] := by
  simp [placed, Handled.placed, Except.toOption]

lemma placed_ok (g : Durability.Group α) (seq : Nat) :
    placed [.group (g.requests.map fun req => (req, .ok seq))] =
      g.frames.map fun fr => (seq, fr) := by
  simp [placed, Handled.placed, Except.toOption, Group.frames, Function.comp_def]

/-- A rotation in a longer list is the last element or stands in the list before. -/
lemma split_snoc {last : Handled α} {bef after : List (Handled α)}
    (h : handled ++ [last] = bef ++ .rotated :: after) : (after = [] ∧ last = .rotated) ∨
      ∃ rest, after = rest ++ [last] ∧ handled = bef ++ .rotated :: rest := by
  rcases List.eq_nil_or_concat after with rfl | ⟨rest, x, rfl⟩
  · exact .inl ⟨rfl, (List.append_inj' h rfl).2 |> List.cons.inj |>.1⟩
  · have hsp : handled ++ [last] = (bef ++ .rotated :: rest) ++ [x] := by simpa using h
    obtain ⟨hhan, hl⟩ := List.append_inj' hsp rfl
    exact .inr ⟨rest, by rw [(List.cons.inj hl).1, List.concat_eq_append], hhan⟩

lemma rotation_snoc (hrot : ∀ bef after, handled = bef ++ .rotated :: after →
      ∀ a ∈ placed bef, ∀ b ∈ placed after, a.1 < b.1) {last : Handled α}
    (hl : ∀ b ∈ placed [last], Above handled b.1) :
    ∀ bef after, handled ++ [last] = bef ++ .rotated :: after →
      ∀ a ∈ placed bef, ∀ b ∈ placed after, a.1 < b.1 := by
  intro bef after hsp a ha b hb
  rcases split_snoc hsp with ⟨rfl, _⟩ | ⟨rest, rfl, hhan⟩
  · cases hb
  · rcases List.mem_append.mp (placed_append rest [last] ▸ hb) with hb | hb
    · exact hrot bef rest hhan a ha b hb
    · exact hl b hb bef rest hhan a ha

lemma answeredAlike_map (reqs : List (WriteRequest α)) (result : TeoDBResult Nat) :
    AnsweredAlike (reqs.map fun req => (req, result)) := by
  cases result with
  | ok seq => exact .inl ⟨seq, by simp⟩
  | error e => exact .inr ⟨e, by simp⟩

/-- Something is handled without writing: the segment is dropped and the files stay. -/
lemma Kept.unwritten (h : Kept fs nxt cur handled) {next : Nat}
    (hn : nxt ≤ next) {last : Handled α}
    (halike : ∀ answers, last = .group answers → AnsweredAlike answers)
    (hpla : placed [last] = []) : Kept fs next none (handled ++ [last]) := by
  have hs : placed (handled ++ [last]) = placed handled := by
    rw [placed_append, hpla, List.append_nil]
  refine ⟨⟨?_, h.sequence, ?_, ?_, ?_⟩, ?_, ?_, by simp⟩
  · intro answers hmem
    rcases mem_concat_iff.mp hmem with hmem | hmem
    · exact h.alike answers hmem
    · exact halike answers hmem.symm
  · rw [hs]
    exact h.contents
  · rw [hs]
    exact h.stored
  · apply rotation_snoc h.rotation
    simp [hpla]
  · exact fun file hf => (h.allocated file hf).trans_le hn
  · rw [hs]
    exact fun a ha => (h.placed_lt a ha).trans_le hn

lemma Kept.failed (h : Kept fs nxt cur handled) {next : Nat} (hn : nxt ≤ next)
    (reqs : List (WriteRequest α)) (e : TeoDBError) :
    Kept fs next none (handled ++ [.group (reqs.map fun req => (req, .error e))]) := by
  apply h.unwritten hn _ (placed_error _ _)
  rintro answers hans
  obtain rfl := Handled.group.inj hans
  exact answeredAlike_map _ _

lemma Kept.opened (h : Kept fs nxt cur handled) :
    Kept (fs ++ [⟨nxt, []⟩]) (nxt + 1) (some ⟨nxt, 0⟩) handled := by
  refine ⟨⟨h.alike, ?_, ?_, ?_, h.rotation⟩, ?_, ?_, ?_⟩
  · rw [List.pairwise_append]
    exact ⟨h.sequence, List.pairwise_singleton _ _, by simpa using h.allocated⟩
  · rw [List.flatMap_append, h.contents]
    simp
  · intro file hf
    rcases mem_concat_iff.mp hf with hf | rfl
    · exact h.stored file hf
    · have hn : (placed handled).filter (·.1 = nxt) = [] := by
        apply List.filter_eq_nil_iff.mpr
        intro a ha
        simpa using (h.placed_lt a ha).ne
      rw [hn]
      rfl
  · intro file hf
    rcases mem_concat_iff.mp hf with hf | rfl
    · exact (h.allocated file hf).trans (Nat.lt_succ_self _)
    · exact Nat.lt_succ_self _
  · exact fun a ha => (h.placed_lt a ha).trans (Nat.lt_succ_self _)
  · rintro seg hseg
    obtain rfl := Option.mem_some_iff.mp hseg
    refine ⟨fun before after hsp a ha => ?_, fs, [], rfl, rfl⟩
    apply h.placed_lt a
    rw [hsp, placed_append]
    exact List.mem_append_left _ ha

/-- Only the last file has the number of the open segment. -/
lemma updateFile_last {init : List SegmentFile} {seq : Nat} {ct : List UInt8}
    (h : List.Pairwise (fun a b : SegmentFile => a.seq < b.seq) (init ++ [⟨seq, ct⟩]))
    (change : List UInt8 → List UInt8) :
    updateFile (init ++ [⟨seq, ct⟩]) seq change = init ++ [⟨seq, change ct⟩] := by
  have hi : ∀ file ∈ init, file.seq ≠ seq := by
    intro file hf
    exact ((List.pairwise_append.mp h).2.2 file hf _ List.mem_cons_self).ne
  rw [updateFile, List.map_append, List.map_singleton, if_pos rfl]
  congr 1
  calc
    _ = init.map id := List.map_congr_left fun file hf => if_neg (hi file hf)
    _ = init := List.map_id _

lemma Kept.written (h : Kept fs nxt (some seg) handled) (g : Durability.Group α) :
    Kept (updateFile fs seg.seq (· ++ g.frames.flatten)) nxt
      (some { seg with bytesWritten := seg.bytesWritten + g.total })
      (handled ++ [.group (g.requests.map fun req => (req, .ok seg.seq))]) := by
  obtain ⟨hab, init, ct, rfl, hlen⟩ := h.ready seg rfl
  rw [updateFile_last h.sequence]
  have hpla : placed (handled ++ [.group (g.requests.map fun req =>
      (req, .ok seg.seq))]) =
        placed handled ++ g.frames.map fun fr => (seg.seq, fr) := by
    rw [placed_append, placed_ok]
  have hl : seg.seq < nxt := h.allocated ⟨seg.seq, ct⟩ (by simp)
  have hnew : ∀ a ∈ g.frames.map fun fr => (seg.seq, fr), a.1 = seg.seq := by
    simp
  refine ⟨⟨?_, ?_, ?_, ?_, ?_⟩, ?_, ?_, ?_⟩
  · intro answers hmem
    rcases mem_concat_iff.mp hmem with hmem | hmem
    · exact h.alike answers hmem
    · obtain rfl := Handled.group.inj hmem
      exact answeredAlike_map _ _
  · have hseq := h.sequence
    simp only [List.pairwise_append, List.mem_singleton, forall_eq] at hseq ⊢
    exact ⟨hseq.1, List.pairwise_singleton _ _, hseq.2.2⟩
  · have hcts := h.contents
    simp only [List.flatMap_append, List.flatMap_singleton] at hcts ⊢
    rw [hpla, List.map_append, List.flatten_append, ← hcts]
    simp [Function.comp_def]
  · intro file hf
    rw [hpla, List.filter_append, List.map_append, List.flatten_append]
    rcases mem_concat_iff.mp hf with hf | rfl
    · have hlt : file.seq < seg.seq :=
        (List.pairwise_append.mp h.sequence).2.2 file hf _ List.mem_cons_self
      have hn : (g.frames.map fun fr => (seg.seq, fr)).filter (·.1 = file.seq) = [] :=
        List.filter_eq_nil_iff.mpr fun a ha => by simp [hnew a ha, hlt.ne']
      rw [hn, ← h.stored file (List.mem_append_left _ hf)]
      simp
    · have hall : (g.frames.map fun fr => (seg.seq, fr)).filter
          (·.1 = seg.seq) = g.frames.map fun fr => (seg.seq, fr) :=
        List.filter_eq_self.mpr fun a ha => by simp [hnew a ha]
      rw [hall, ← h.stored ⟨seg.seq, ct⟩ (by simp)]
      simp [Function.comp_def]
  · apply rotation_snoc h.rotation
    rw [placed_ok]
    intro a ha
    rw [hnew a ha]
    exact hab
  · intro file hf
    rcases mem_concat_iff.mp hf with hf | rfl
    · exact h.allocated file (List.mem_append_left _ hf)
    · exact hl
  · rw [hpla]
    intro a ha
    rcases List.mem_append.mp ha with ha | ha
    · exact h.placed_lt a ha
    · exact (hnew a ha).trans_lt hl
  · intro after haf
    obtain rfl := Option.mem_some_iff.mp haf
    refine ⟨?_, init, _, rfl, by simp [hlen, Group.total_eq]⟩
    intro bef after hsp
    rcases split_snoc hsp with ⟨_, hrot⟩ | ⟨rest, _, hhan⟩
    · cases hrot
    · exact hab bef rest hhan

/-- A group that was cut off has left the files as they were. -/
lemma Kept.cutOff_files (h : Kept fs nxt (some seg) handled) (wr : Nat) :
    updateFile (updateFile fs seg.seq (· ++ g.frames.flatten.take wr)) seg.seq
      (·.take seg.bytesWritten) = fs := by
  obtain ⟨_, init, ct, rfl, hlen⟩ := h.ready seg rfl
  have hpai := h.sequence
  rw [updateFile_last hpai, updateFile_last]
  · rw [← hlen, List.take_left']
    rfl
  · simp only [List.pairwise_append, List.mem_singleton, forall_eq] at hpai ⊢
    exact ⟨hpai.1, List.pairwise_singleton _ _, hpai.2.2⟩

end

section

variable {cfg : WalConfig} {s s' aft : State α} {seg : OpenSegment}
  {g : Durability.Group α} {out : Outcome} {res : Except String Nat}

section

variable (h : Kept s.files s.nextSeq (some seg) s.handled)
  (hw : s.writeFrames cfg seg g out = some (aft, res))

include h hw

/-- A group is written as a whole, or nothing is left of it. -/
lemma writeFrames_cases :
    (∃ msg, res = .error msg ∧ aft = { s with current := none }) ∨
      res = .ok seg.seq ∧ aft = { s with
        files := updateFile s.files seg.seq (· ++ g.frames.flatten)
        current := some { seg with bytesWritten := seg.bytesWritten + g.total } } := by
  have hcut : ∀ wr, s.cutOff seg g wr = { s with current := none } := by
    intro wr
    rw [State.cutOff, h.cutOff_files]
  cases out <;> simp only [State.writeFrames, hcut, reduceCtorEq] at hw
  case fsyncFails =>
      split_ifs at hw
      cases hw
      exact .inl ⟨_, rfl, rfl⟩
  all_goals cases hw
  case done => exact .inr ⟨rfl, rfl⟩
  all_goals exact .inl ⟨_, rfl, rfl⟩

lemma writeFrames_kept : aft.sent = s.sent ∧ Kept aft.files aft.nextSeq aft.current (s.handled ++
      [.group (g.requests.map fun req =>
        (req, res.mapError State.groupError))]) := by
  rcases writeFrames_cases h hw with ⟨message, rfl, rfl⟩ | ⟨rfl, rfl⟩
  · exact ⟨rfl, h.failed le_rfl _ _⟩
  · exact ⟨rfl, h.written g⟩

end

lemma writeGroup_kept (h : Kept s.files s.nextSeq s.current s.handled)
    (hw : s.writeGroup cfg g out = some (aft, res)) :
    aft.sent = s.sent ∧ Kept aft.files aft.nextSeq aft.current (s.handled ++
      [.group (g.requests.map fun req =>
        (req, res.mapError State.groupError))]) := by
  unfold State.writeGroup at hw
  split at hw
  · rename_i seg hseg
    have hcur : s.current = some seg := (Option.filter_eq_some_iff.mp hseg).1
    exact writeFrames_kept (hcur ▸ h) hw
  · split at hw
    · cases hw
      exact ⟨rfl, h.failed (Nat.le_succ _) _ _⟩
    · exact writeFrames_kept
        (s := { s with files := s.files ++ [⟨s.nextSeq, []⟩], nextSeq := s.nextSeq + 1 })
        h.opened hw

lemma drain_commands (n : Nat) (queue : List (WriterCommand α)) :
    queue = (drain n queue).1.requests.map WriterCommand.write ++
      ((if (drain n queue).1.rotateAfter then [.rotate] else []) ++ (drain n queue).2) := by
  fun_induction drain n queue with
  | case1 => rfl
  | case2 => rfl
  | case3 => rfl
  | case4 n rq queue g rest hdrain ih =>
    rw [hdrain] at ih
    simpa using ih

lemma step_kept {label : Label α} (h : s.step cfg label = some s')
    (hord : s.handled.flatMap Handled.commands ++ s.queue = s.sent)
    (hk : Kept s.files s.nextSeq s.current s.handled) :
    s'.handled.flatMap Handled.commands ++ s'.queue = s'.sent ∧
      Kept s'.files s'.nextSeq s'.current s'.handled := by
  cases label with
  | send command =>
    simp only [State.step] at h
    split_ifs at h
    cases h
    refine ⟨?_, hk⟩
    rw [← hord, List.append_assoc]
  | receive out =>
    simp only [State.step, State.receive] at h
    split at h
    · cases h
    · rename_i queue hque
      cases h
      refine ⟨?_, hk.unwritten le_rfl (by simp) rfl⟩
      rw [← hord, hque]
      simp [Handled.commands]
    · rename_i first queue hque
      obtain ⟨⟨aft, res⟩, hw, rfl⟩ := Option.map_eq_some_iff.mp h
      obtain ⟨hs, haf⟩ := writeGroup_kept hk hw
      constructor
      · rw [hs, ← hord, hque, List.flatMap_append, List.append_assoc]
        congr 1
        conv_rhs => rw [drain_commands (maxGroupFrames - 1) queue]
        cases (drain (maxGroupFrames - 1) queue).1.rotateAfter <;>
          simp [Handled.commands, Function.comp_def]
      · dsimp only
        split_ifs with hrotate
        · have hrot := @Kept.unwritten _ _ _ _ _ haf _ le_rfl .rotated (by simp) rfl
          simpa using hrot
        · exact haf

end

/-- After every turn the commands were handled in order, and every group was written and
acknowledged as a whole or not at all. -/
theorem group_commit_atomic (cfg : WalConfig) (s : State α) (h : (machine cfg α).Reachable s) :
    s.handled.flatMap Handled.commands ++ s.queue = s.sent ∧ Atomic s.files s.handled := by
  have hinv : s.handled.flatMap Handled.commands ++ s.queue = s.sent ∧
      Kept s.files s.nextSeq s.current s.handled := by
    apply h.invariant
    · rintro s ⟨nextSeq, rfl⟩
      refine ⟨rfl, ⟨by simp, by simp, rfl, by simp, by simp⟩, by simp, by simp [placed], by simp⟩
    · intro s label s' hs hstep
      exact step_kept hstep hs.1 hs.2
  exact ⟨hinv.1, hinv.2.toAtomic⟩

section

def request (frame : List UInt8) : WriteRequest Unit :=
  ⟨.dropTombstone ⟨"db", "t"⟩ ⟨0⟩ 0, frame⟩

/-- A group of two whose second frame is written in part, a rotation, and another group. -/
def failedWrite : List (Label Unit) :=
  [.send (.write (request [1, 1])), .send (.write (request [2, 2])), .send .rotate,
    .receive (.writeFails 3 "disk full"), .send (.write (request [3])), .receive .done]

theorem group_commit_atomic_failedWrite : ∃ s : State Unit,
    (machine ⟨100, true⟩ Unit).Reachable s ∧ s.files.map SegmentFile.content = [[], [3]] ∧
      s.handled.flatMap Handled.commands ++ s.queue = s.sent ∧ Atomic s.files s.handled := by
  have hst : (machine ⟨100, true⟩ Unit).start ⟨[], 1, none, [], [], []⟩ := ⟨1, rfl⟩
  have hrun : ((machine ⟨100, true⟩ Unit).exec ⟨[], 1, none, [], [], []⟩ failedWrite).map
      (fun s => s.files.map SegmentFile.content) = some [[], [3]] := by decide +kernel
  obtain ⟨s, hs, hct⟩ := Machine.exists_of_exec hst hrun
  exact ⟨s, hs, hct, group_commit_atomic _ s hs⟩

end

end TeoDB.Storage.Wal.GroupCommit
