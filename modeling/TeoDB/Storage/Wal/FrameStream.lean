import TeoDB.Storage.Wal.ReplayPlan

/-!
# The two scanners of a segment

Replay reads a segment as a stream, one frame at a time, with its own treatment of the
header, of a zero tail and of padding that is cut off; the collector decodes the bytes of
the whole file in memory. Both give the records before the first frame that is not
complete, the offset where they stop and the reason for it.

## Implementation notes

The loops run on fuel for every byte. The collector does not cap its offset: the last frame can end
beyond a file that lacks its padding.
-/

namespace TeoDB.Storage.Wal

open TeoDB.Core Lib.MachineInt

variable {α : Type}

/-- The bytes of a segment file. -/
structure StoredSegment where
  bytes : List UInt8
  fits : bytes.length ≤ u64Max

/-- An open segment: the bytes that have not been read. -/
structure SegmentReader where
  unread : List UInt8

namespace SegmentReader

def readExact (file : SegmentReader) (n : Nat) (context : String) :
    TeoDBResult (List UInt8 × SegmentReader) :=
  if file.unread.length < n then .error (.wal context (some "early eof"))
  else .ok (file.unread.take n, ⟨file.unread.drop n⟩)

/-- The buffer for the tail of a segment. -/
def chunkLen : Nat := 8192

/-- Read the tail of a segment in chunks, and say whether it is zero. -/
def readZeroTail (path : String) (file : SegmentReader) (left : Nat) (allZero : Bool) :
    TeoDBResult (Bool × SegmentReader) :=
  if left = 0 then .ok (allZero, file)
  else
    match file.readExact (min left chunkLen) s!"read zero WAL tail in {path}" with
    | .error error => .error error
    | .ok (chunk, file) =>
      readZeroTail path file (left - min left chunkLen) (allZero && chunk.all (· == 0))
termination_by left
decreasing_by
  simp only [chunkLen]
  omega

/-- Read the frame at the file's position, which is the offset, not beyond a limit. -/
def readFrame (codec : FrameCodec α) (path : String) (file : SegmentReader) (offset limit : Nat) :
    TeoDBResult (FrameDecode α × SegmentReader) :=
  let remaining := limit - offset
  if remaining < frameHeaderSize then .ok (.incomplete, file)
  else
    match file.readExact frameHeaderSize s!"read WAL frame header in {path}" with
    | .error error => .error error
    | .ok (header, file) =>
      let length := payloadLen header
      if length = 0 then
        (file.readZeroTail path (remaining - frameHeaderSize) (header.all (· == 0))).map
          fun tail => (if tail.1 then .incomplete else .corrupt zeroLengthReason, tail.2)
      else if length > maxPayloadBytes then .ok (.corrupt (implausibleReason length), file)
      else
        let totalContent := frameHeaderSize + length
        if remaining < totalContent then .ok (.incomplete, file)
        else
          let availablePadding := min (padding totalContent) (remaining - totalContent)
          (file.readExact (totalContent + availablePadding - frameHeaderSize)
            s!"read WAL frame in {path}").map
            fun rest => (decodeFrame codec (header ++ rest.1), rest.2)

lemma readExact_eq {file : SegmentReader} {n : Nat} (context : String)
    (h : n ≤ file.unread.length) :
    file.readExact n context = .ok (file.unread.take n, ⟨file.unread.drop n⟩) :=
  if_neg (not_lt.mpr h)

lemma readZeroTail_eq (path : String) (file : SegmentReader) (left : Nat) (allZero : Bool)
    (h : left ≤ file.unread.length) : file.readZeroTail path left allZero =
      .ok (allZero && (file.unread.take left).all (· == 0), ⟨file.unread.drop left⟩) := by
  induction left using Nat.strong_induction_on generalizing file allZero with
  | _ left ih =>
    rw [readZeroTail]
    by_cases hl : left = 0
    · simp [hl]
    · have hchunk : 0 < min left chunkLen := by
        simp only [chunkLen]
        omega
      have ht : left = min left chunkLen + (left - min left chunkLen) := by omega
      have hall : (file.unread.take left).all (· == 0) =
          ((file.unread.take (min left chunkLen)).all (· == 0) &&
            ((file.unread.drop (min left chunkLen)).take
              (left - min left chunkLen)).all (· == 0)) := by
        rw [← List.all_append, ← List.take_add, ← ht]
      rw [if_neg hl, readExact_eq _ (by omega)]
      simp only
      rw [ih _ (by omega), List.drop_drop, ← ht, hall, Bool.and_assoc]
      simp only [List.length_drop]
      omega

lemma consumed_of_complete {codec : FrameCodec α} {data : List UInt8} {rc : WalRecord α}
    {used : Nat} (h : decodeFrame codec data = .complete rc used) :
    used = frameHeaderSize + payloadLen data + padding (frameHeaderSize + payloadLen data) := by
  simp only [decodeFrame] at h
  split_ifs at h
  exact (decodePayload_complete h).1

/-- The streaming reader sees the frame that the rest of the file begins with, and then stands
behind it or at the end. -/
lemma readFrame_rest (codec : FrameCodec α) (path : String) {rest : List UInt8}
    {off lim : Nat} (hlimit : lim - off = rest.length) :
    ∃ aft, readFrame codec path ⟨rest⟩ off lim = .ok (decodeFrame codec rest, aft) ∧
      ∀ rc used, decodeFrame codec rest = .complete rc used →
        aft.unread = rest.drop (min used rest.length) := by
  simp only [readFrame, hlimit]
  by_cases hsho : rest.length < frameHeaderSize
  · refine ⟨⟨rest⟩, by simp [hsho, decodeFrame], ?_⟩
    intro rc used hcom
    obtain ⟨-, hct, -⟩ := decodeFrame_complete hcom
    omega
  · have hp : payloadLen (rest.take frameHeaderSize) = payloadLen rest :=
      payloadLen_take (by decide)
    rw [if_neg hsho, readExact_eq _ (not_lt.mp hsho)]
    simp only [hp]
    by_cases hz : payloadLen rest = 0
    · -- The header and the chunks of the tail are the rest of the file.
      have hall : ((rest.take frameHeaderSize).all (· == 0) &&
          ((rest.drop frameHeaderSize).take (rest.length - frameHeaderSize)).all (· == 0)) =
          rest.all (· == 0) := by
        rw [← List.all_append, ← List.take_add, Nat.add_sub_cancel' (not_lt.mp hsho),
          List.take_length]
      rw [if_pos hz, readZeroTail_eq _ _ _ _ (by simp), hall]
      refine ⟨_, by simp only [decodeFrame, if_neg hsho, if_pos hz]; rfl, ?_⟩
      intro rc used hcom
      exact absurd hz (decodeFrame_complete hcom).1
    · rw [if_neg hz]
      by_cases hmax : payloadLen rest > maxPayloadBytes
      · have hcor : decodeFrame codec rest = .corrupt (implausibleReason (payloadLen rest)) := by
          simp only [decodeFrame, if_neg hsho, if_neg hz, if_pos hmax]
        rw [if_pos hmax, hcor]
        refine ⟨_, rfl, ?_⟩
        intro rc used hcom
        cases hcom
      · rw [if_neg hmax]
        by_cases hcut : rest.length < frameHeaderSize + payloadLen rest
        · have hinc : decodeFrame codec rest = .incomplete := by
            simp only [decodeFrame, if_neg hsho, if_neg hz, if_neg hmax, if_pos hcut]
          rw [if_pos hcut, hinc]
          refine ⟨_, rfl, ?_⟩
          intro rc used hcom
          cases hcom
        · -- The frame with as much of its padding as the file has.
          generalize hsize : frameHeaderSize + payloadLen rest +
            min (padding (frameHeaderSize + payloadLen rest))
              (rest.length - (frameHeaderSize + payloadLen rest)) = size
          have hbou : frameHeaderSize + payloadLen rest ≤ size ∧ size ≤ rest.length := by omega
          have hfr : rest.take frameHeaderSize ++
              (rest.drop frameHeaderSize).take (size - frameHeaderSize) = rest.take size := by
            rw [← List.take_add, Nat.add_sub_cancel' (by omega)]
          rw [if_neg hcut, readExact_eq _ (by simp only [List.length_drop]; omega)]
          simp only [Except.map, hfr, List.drop_drop]
          rw [decodeFrame_take codec hz hbou.1 hbou.2]
          refine ⟨_, rfl, ?_⟩
          intro rc used hcom
          have hcon := consumed_of_complete hcom
          have hend : frameHeaderSize + (size - frameHeaderSize) = min used rest.length := by
            omega
          rw [hend]

lemma readFrame_eq (codec : FrameCodec α) (path : String) {data : List UInt8} {off : Nat}
    (ho : off ≤ data.length) : ∃ aft, readFrame codec path ⟨data.drop off⟩ off data.length =
        .ok (decodeFrame codec (data.drop off), aft) ∧
      ∀ rc used, decodeFrame codec (data.drop off) = .complete rc used →
        aft = ⟨data.drop (min (off + used) data.length)⟩ := by
  have hlen : data.length - off = (data.drop off).length := by simp
  obtain ⟨⟨unread⟩, hr, haf⟩ := readFrame_rest codec path hlen
  refine ⟨_, hr, ?_⟩
  intro rc used hcom
  have hunr : unread = _ := haf rc used hcom
  rw [hunr, List.drop_drop]
  congr 2
  omega

end SegmentReader

/-- Why a scan stops. -/
inductive ScanStop where
  | endOfFile
  | incomplete
  | corrupt (reason : String)
deriving DecidableEq

/-- What a scan finds: the complete records, the offset where it stops and the reason. -/
structure ScanOutcome (α : Type) where
  records : List (WalRecord α)
  offset : Nat
  stop : ScanStop

namespace ScanOutcome

def cons (record : WalRecord α) (outcome : ScanOutcome α) : ScanOutcome α :=
  { outcome with records := record :: outcome.records }

/-- The outcome with the offset capped at the length of the file. -/
def capped (len : Nat) (outcome : ScanOutcome α) : ScanOutcome α :=
  { outcome with offset := min outcome.offset len }

end ScanOutcome

/-- The loop of replay over one segment. -/
def replayLoop (codec : FrameCodec α) (path : String) (len : Nat) :
    Nat → SegmentReader → Nat → TeoDBResult (ScanOutcome α)
  | 0, _, offset => .ok ⟨[], offset, .endOfFile⟩
  | fuel + 1, file, offset =>
    if offset < len then
      match file.readFrame codec path offset len with
      | .error error => .error error
      | .ok (.complete record consumed, file) =>
        match scanFrame record with
        | .error error => .error error
        | .ok _ =>
          (replayLoop codec path len fuel file (min (saturatingAdd offset consumed) len)).map
            (.cons record)
      | .ok (.incomplete, _) => .ok ⟨[], offset, .incomplete⟩
      | .ok (.corrupt reason, _) => .ok ⟨[], offset, .corrupt reason⟩
    else .ok ⟨[], offset, .endOfFile⟩

variable (codec : FrameCodec α)

def replayScan (path : String) (segment : StoredSegment) :
    TeoDBResult (ScanOutcome α) :=
  replayLoop codec path segment.bytes.length segment.bytes.length ⟨segment.bytes⟩ 0

/-- The loop of the collector over one segment. -/
def gcLoop (codec : FrameCodec α) (data : List UInt8) : Nat → Nat → TeoDBResult (ScanOutcome α)
  | 0, offset => .ok ⟨[], offset, .endOfFile⟩
  | fuel + 1, offset =>
    if offset < data.length then
      match decodeFrame codec (data.drop offset) with
      | .complete record consumed =>
        match scanFrame record with
        | .error error => .error error
        | .ok _ => (gcLoop codec data fuel (offset + consumed)).map (.cons record)
      | .incomplete => .ok ⟨[], offset, .incomplete⟩
      | .corrupt reason => .ok ⟨[], offset, .corrupt reason⟩
    else .ok ⟨[], offset, .endOfFile⟩

def gcScan (segment : StoredSegment) : TeoDBResult (ScanOutcome α) :=
  gcLoop codec segment.bytes segment.bytes.length 0

lemma min_saturatingAdd {a b len : Nat} (h : len ≤ u64Max) :
    min (saturatingAdd a b) len = min (a + b) len := by
  rw [saturatingAdd]
  omega

/-- From the same place of a segment the loops go on alike. -/
lemma replayLoop_eq (path : String) {data : List UInt8} (hf : data.length ≤ u64Max)
    (fuel off : Nat) :
    replayLoop codec path data.length fuel ⟨data.drop (min off data.length)⟩ (min off data.length) =
      (gcLoop codec data fuel off).map (.capped data.length) := by
  induction fuel generalizing off with
  | zero => rfl
  | succ fuel ih =>
    rw [replayLoop, gcLoop]
    by_cases hlt : off < data.length
    · have hmin : min off data.length = off := min_eq_left hlt.le
      obtain ⟨after, hr, haf⟩ := SegmentReader.readFrame_eq codec path hlt.le
      simp only [hmin, if_pos hlt, hr]
      cases hfr : decodeFrame codec (data.drop off) with
      | incomplete => simp [Except.map, ScanOutcome.capped, hmin]
      | corrupt reason => simp [Except.map, ScanOutcome.capped, hmin]
      | complete rc used =>
        obtain ⟨-, -, -, hvd⟩ := decodeFrame_complete hfr
        simp only [haf rc used hfr, scanFrame_eq hvd, min_saturatingAdd hf, ih]
        cases gcLoop codec data fuel (off + used) with
        | error e => rfl
        | ok outcome => rfl
    · have hmin : min off data.length = data.length := min_eq_right (not_lt.mp hlt)
      simp only [hmin, lt_irrefl, if_false, if_neg hlt, Except.map, ScanOutcome.capped]

/-- The stop of the loop over frame offsets. -/
def FrameEnd.scanStop : FrameEnd → ScanStop
  | .clean => .endOfFile
  | .torn _ => .incomplete
  | .corrupt _ reason => .corrupt reason

/-- With enough fuel the collector's loop yields the frames of the file, and its offset is where
they end. -/
lemma gcLoop_eq (data : List UInt8) (fuel off : Nat) (h : data.length ≤ off + fuel) :
    ∃ out, gcLoop codec data fuel off = .ok out ∧
      let read := frameLoop (fun off => decodeFrame codec (data.drop off)) data.length fuel off
      out.records = read.1.map Prod.snd ∧ out.stop = read.2.scanStop ∧
        min out.offset data.length = read.2.replayLen data.length := by
  induction fuel generalizing off with
  | zero => exact ⟨_, rfl, rfl, rfl, min_eq_right h⟩
  | succ fuel ih =>
    rw [gcLoop, frameLoop]
    by_cases hlt : off < data.length
    · simp only [if_pos hlt]
      cases hfr : decodeFrame codec (data.drop off) with
      | incomplete => exact ⟨_, rfl, rfl, rfl, min_eq_left hlt.le⟩
      | corrupt reason => exact ⟨_, rfl, rfl, rfl, min_eq_left hlt.le⟩
      | complete rc used =>
        obtain ⟨hlength, -, hcon, hvd⟩ := decodeFrame_complete hfr
        obtain ⟨out, hok, hrecs, hstop, hoff⟩ :=
          ih (off + used) (by omega)
        simp only [scanFrame_eq hvd, hok]
        exact ⟨_, rfl, congrArg (rc :: ·) hrecs, hstop, hoff⟩
    · simp only [if_neg hlt]
      exact ⟨_, rfl, rfl, rfl, min_eq_right (not_lt.mp hlt)⟩

/-- Both scanners find the same records and stop for the same reason at the same offset, capped at
the length of the file. -/
theorem replayScan_eq_gcScan (codec : FrameCodec α) (path : String) (segment : StoredSegment) :
    ∃ outcome, gcScan codec segment = .ok outcome ∧
      replayScan codec path segment = .ok (outcome.capped segment.bytes.length) ∧
      (outcome.stop = .endOfFile → segment.bytes.length ≤ outcome.offset) := by
  obtain ⟨outcome, hok, hrecords, hsp, hoff⟩ := gcLoop_eq codec segment.bytes
    segment.bytes.length 0 (by omega)
  have hrep := replayLoop_eq codec path segment.fits segment.bytes.length 0
  rw [Nat.zero_min, List.drop_zero, hok] at hrep
  refine ⟨outcome, hok, hrep, ?_⟩
  intro hend
  rw [hend] at hsp
  cases hr : (frameLoop (fun offset => decodeFrame codec (segment.bytes.drop offset))
      segment.bytes.length segment.bytes.length 0).2 with
  | clean =>
    rw [hr, FrameEnd.replayLen] at hoff
    omega
  | torn offset => simp [hr, FrameEnd.scanStop] at hsp
  | corrupt offset reason => simp [hr, FrameEnd.scanStop] at hsp

/-- A frame and the first bytes of another. -/
def tornSegment : StoredSegment :=
  ⟨Replay.ordersFrame oneRow ++ (Replay.ordersFrame oneRow).take 11, by decide +kernel⟩

theorem replayScan_eq_gcScan_torn :
    gcScan (ordersLib [0]).codec tornSegment = .ok ⟨[oneRow], 16, .incomplete⟩ ∧
      replayScan (ordersLib [0]).codec "wal" tornSegment = .ok ⟨[oneRow], 16, .incomplete⟩ := by
  have hrun : gcScan (ordersLib [0]).codec tornSegment = .ok ⟨[oneRow], 16, .incomplete⟩ := by rfl
  obtain ⟨out, hgc, hreplay, _⟩ := replayScan_eq_gcScan (ordersLib [0]).codec "wal" tornSegment
  cases hrun.symm.trans hgc
  exact ⟨hrun, hreplay⟩

end TeoDB.Storage.Wal
