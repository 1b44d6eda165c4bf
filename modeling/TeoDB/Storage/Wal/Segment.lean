import TeoDB.Storage.Wal.Record

/-!
# Frames of a log segment

A frame is a little-endian length, a checksum, the payload and padding to eight bytes. The payload
is the header as JSON, a newline and the batch as an Arrow stream.

## Implementation notes

`FrameCodec` carries the checksum, the JSON parser and the Arrow reader without any assumption.
`readFrame_eq` says that collector and replay see the same frames.
-/

namespace TeoDB.Storage.Wal

open TeoDB.Core

variable {α : Type}

/-- Decoders that the frame format relies on. -/
structure FrameCodec (α : Type) where
  crc32 : List UInt8 → Nat
  headerFromJson : List UInt8 → Except String WalHeader
  batchFromIpc : List UInt8 → Except String (RecordBatch α)
  errorText : TeoDBError → String

def frameHeaderSize : Nat := 8

def alignment : Nat := 8

def maxPayloadBytes : Nat := 2 ^ 30

/-- Result of decoding one frame. -/
inductive FrameDecode (α : Type) where
  | complete (record : WalRecord α) (consumed : Nat)
  | incomplete
  | corrupt (reason : String)

/-- A little-endian number. -/
def fromLeBytes : List UInt8 → Nat
  | [] => 0
  | b :: rest => b.toNat + 256 * fromLeBytes rest

def hexText (n : Nat) : String := "0x" ++ String.ofList (Nat.toDigits 16 n)

def payloadLen (data : List UInt8) : Nat := fromLeBytes (data.take 4)

def expectedCrc (data : List UInt8) : Nat := fromLeBytes ((data.drop 4).take 4)

/-- Padding after the given number of bytes. -/
def padding (content : Nat) : Nat := (alignment - content % alignment) % alignment

def zeroLengthReason : String := "zero payload length with non-zero trailing bytes"

def implausibleReason (length : Nat) : String :=
  s!"implausible payload length {length} (corrupt length field)"

variable (codec : FrameCodec α)

/-- Decode a payload whose checksum has been verified. -/
def decodePayload (payload : List UInt8) (frameSize : Nat) :
    FrameDecode α :=
  match payload.findIdx? (· == 10) with
  | none => .corrupt "no newline in WAL payload"
  | some newlinePos =>
    match codec.headerFromJson (payload.take newlinePos) with
    | .error error => .corrupt s!"header json parse: {error}"
    | .ok header =>
      match header.validate with
      | .error error => .corrupt s!"invalid WAL header: {codec.errorText error}"
      | .ok _ =>
        match header.op with
        | .dropTable => .complete ⟨header, RecordBatch.newEmpty⟩ frameSize
        | .append =>
          match codec.batchFromIpc (payload.drop (newlinePos + 1)) with
          | .error error => .corrupt error
          | .ok batch => .complete ⟨header, batch⟩ frameSize

def decodeFrame (data : List UInt8) : FrameDecode α :=
  if data.length < frameHeaderSize then .incomplete
  else
    let length := payloadLen data
    if length = 0 then
      if data.all (· == 0) then .incomplete else .corrupt zeroLengthReason
    else if length > maxPayloadBytes then .corrupt (implausibleReason length)
    else
      let totalContent := frameHeaderSize + length
      if data.length < totalContent then .incomplete
      else
        let payload := (data.take totalContent).drop frameHeaderSize
        let actualCrc := codec.crc32 payload
        if actualCrc ≠ expectedCrc data then
          .corrupt
            s!"CRC mismatch: expected {hexText (expectedCrc data)}, got {hexText actualCrc}"
        else decodePayload codec payload (totalContent + padding totalContent)

/-- Read one frame of a file from an offset, not beyond a limit. -/
def readFrame (data : List UInt8) (offset limit : Nat) :
    FrameDecode α :=
  let remaining := limit - offset
  if remaining < frameHeaderSize then .incomplete
  else
    let rest := data.drop offset
    let header := rest.take frameHeaderSize
    let length := payloadLen header
    if length = 0 then
      let tail := (rest.drop frameHeaderSize).take (remaining - frameHeaderSize)
      if header.all (· == 0) && tail.all (· == 0) then .incomplete else .corrupt zeroLengthReason
    else if length > maxPayloadBytes then .corrupt (implausibleReason length)
    else
      let totalContent := frameHeaderSize + length
      if remaining < totalContent then .incomplete
      else
        let availablePadding := min (padding totalContent) (remaining - totalContent)
        decodeFrame codec (rest.take (totalContent + availablePadding))

variable {data : List UInt8} {n : Nat}

lemma payloadLen_take (h : 4 ≤ n) : payloadLen (data.take n) = payloadLen data := by
  simp [payloadLen, List.take_take, min_eq_left h]

lemma expectedCrc_take (h : 8 ≤ n) : expectedCrc (data.take n) = expectedCrc data := by
  rw [expectedCrc, expectedCrc, List.drop_take, List.take_take, min_eq_left (by omega)]

/-- A frame is decoded from its own bytes: what follows it is not looked at. -/
theorem decodeFrame_take (hlen : payloadLen data ≠ 0)
    (hct : frameHeaderSize + payloadLen data ≤ n) (hn : n ≤ data.length) : decodeFrame codec
    (data.take n) = decodeFrame codec data := by
  have h8 : 8 ≤ n := le_trans (Nat.le_add_right 8 _) hct
  have hp : payloadLen (data.take n) = payloadLen data := payloadLen_take (by omega)
  have hl : (data.take n).length = n := by simp [hn]
  have ht : (data.take n).take (frameHeaderSize + payloadLen data) =
      data.take (frameHeaderSize + payloadLen data) := by
    rw [List.take_take, min_eq_left hct]
  have h1 : ¬ n < frameHeaderSize := not_lt.mpr h8
  have h2 : ¬ data.length < frameHeaderSize := not_lt.mpr (h8.trans hn)
  have h3 : ¬ n < frameHeaderSize + payloadLen data := not_lt.mpr hct
  have h4 : ¬ data.length < frameHeaderSize + payloadLen data := not_lt.mpr (hct.trans hn)
  simp only [decodeFrame, hl, hp, ht, expectedCrc_take h8, if_neg h1, if_neg h2, if_neg h3,
    if_neg h4, if_neg hlen]

/-- Reading a frame from a file up to a limit is decoding it from those bytes. -/
theorem readFrame_eq {off lim : Nat} (hl : lim ≤ data.length) :
    readFrame codec data off lim = decodeFrame codec ((data.take lim).drop off) := by
  have hd : lim - off ≤ (data.drop off).length := by
    simp
    omega
  rw [List.drop_take]
  unfold readFrame
  generalize data.drop off = d at hd ⊢
  generalize lim - off = n at hd ⊢
  have hlen : (d.take n).length = n := by simp [hd]
  by_cases hsho : n < frameHeaderSize
  · simp [decodeFrame, hlen, hsho]
  · have h8 : frameHeaderSize ≤ n := not_lt.mp hsho
    have hp : payloadLen (d.take frameHeaderSize) = payloadLen (d.take n) := by
      rw [payloadLen_take (by decide), payloadLen_take (le_trans (by decide) h8)]
    simp only [hp, if_neg hsho]
    by_cases hz : payloadLen (d.take n) = 0
    · have hall : ((d.take frameHeaderSize).all (· == 0) &&
          ((d.drop frameHeaderSize).take (n - frameHeaderSize)).all (· == 0)) =
          (d.take n).all (· == 0) := by
        rw [← List.all_append, ← List.take_add, Nat.add_sub_cancel' h8]
      simp only [hz, if_true, decodeFrame, hlen, hall, if_neg hsho]
    · by_cases hmax : payloadLen (d.take n) > maxPayloadBytes
      · simp [decodeFrame, hlen, hsho, hz, hmax]
      · by_cases hfit : n < frameHeaderSize + payloadLen (d.take n)
        · simp [decodeFrame, hlen, hsho, hz, hmax, hfit]
        · have hct := not_lt.mp hfit
          have hend : frameHeaderSize + payloadLen (d.take n) +
              min (padding (frameHeaderSize + payloadLen (d.take n)))
                (n - (frameHeaderSize + payloadLen (d.take n))) ≤ n := by
            omega
          simp only [if_neg hz, if_neg hmax, if_neg hfit]
          rw [← decodeFrame_take codec hz (Nat.le_add_right _ _) (hend.trans_eq hlen.symm),
            List.take_take, min_eq_left hend]

/-- Where the loop over the frames of a segment stops. -/
inductive FrameEnd where
  | clean
  | torn (offset : Nat)
  | corrupt (offset : Nat) (reason : String)
deriving DecidableEq

/-- The loop over the frames of a segment, from an offset. -/
def frameLoop (read : Nat → FrameDecode α) (len : Nat) :
    Nat → Nat → List (Nat × WalRecord α) × FrameEnd
  | 0, _ => ([], .clean)
  | fuel + 1, offset =>
    if offset < len then
      match read offset with
      | .complete record consumed =>
        let (frames, stop) := frameLoop read len fuel (offset + consumed)
        ((offset, record) :: frames, stop)
      | .incomplete => ([], .torn offset)
      | .corrupt reason => ([], .corrupt offset reason)
    else ([], .clean)

lemma decodePayload_complete {codec : FrameCodec α} {pl : List UInt8} {frameSize : Nat}
    {rc : WalRecord α} {used : Nat} (h : decodePayload codec pl frameSize = .complete rc used) :
    used = frameSize ∧ rc.header.validate = .ok () := by
  unfold decodePayload at h
  split at h
  · cases h
  · split at h
    · cases h
    · split at h
      · cases h
      · rename_i header _ _ hv
        split at h
        · cases h
          exact ⟨rfl, hv⟩
        · split at h
          · cases h
          · cases h
            exact ⟨rfl, hv⟩

/-- A complete frame has all of its content in the data, has a valid header, and
consumes its padded size. -/
theorem decodeFrame_complete {codec : FrameCodec α} {rc : WalRecord α} {used : Nat}
    (h : decodeFrame codec data = .complete rc used) :
    payloadLen data ≠ 0 ∧ frameHeaderSize + payloadLen data ≤ data.length ∧
      frameHeaderSize + payloadLen data ≤ used ∧ rc.header.validate = .ok () := by
  simp only [decodeFrame] at h
  split_ifs at h with h1 h2 h3 h4 h5 h6
  obtain ⟨rfl, hv⟩ := decodePayload_complete h
  exact ⟨h2, not_lt.mp h5, Nat.le_add_right _ _, hv⟩

namespace FrameEnd

/-- The length of the complete, validated beginning of a segment. -/
def replayLen (len : Nat) : FrameEnd → Nat
  | .clean => len
  | .torn offset => offset
  | .corrupt offset _ => offset

end FrameEnd

section

variable {read : Nat → FrameDecode α} {len : Nat}

lemma frameLoop_replayLen (fuel off : Nat) :
    min off len ≤ (frameLoop read len fuel off).2.replayLen len ∧
      (frameLoop read len fuel off).2.replayLen len ≤ len := by
  induction fuel generalizing off with
  | zero => exact ⟨min_le_right _ _, le_refl _⟩
  | succ fuel ih =>
    rw [frameLoop]
    split_ifs with hlt
    · cases hr : read off with
      | complete record used =>
        have h := ih (off + used)
        dsimp only
        omega
      | incomplete =>
        simp only [FrameEnd.replayLen]
        omega
      | corrupt reason =>
        simp only [FrameEnd.replayLen]
        omega
    · exact ⟨min_le_right _ _, le_refl _⟩

/-- Every frame the loop yields was read at its offset and lies in the validated
beginning. -/
theorem frameLoop_mem {fuel off : Nat} {fr : Nat × WalRecord α}
    (h : fr ∈ (frameLoop read len fuel off).1) :
    off ≤ fr.1 ∧ fr.1 < len ∧ ∃ used, read fr.1 = .complete fr.2 used ∧
      min (fr.1 + used) len ≤ (frameLoop read len fuel off).2.replayLen len := by
  induction fuel generalizing off with
  | zero => simp [frameLoop] at h
  | succ fuel ih =>
    rw [frameLoop] at h ⊢
    split_ifs at h ⊢ with hlt
    · cases hr : read off with
      | incomplete => simp [hr] at h
      | corrupt reason => simp [hr] at h
      | complete record used =>
        simp only [hr, List.mem_cons] at h ⊢
        rcases h with rfl | h
        · exact ⟨le_refl _, hlt, used, hr, (frameLoop_replayLen _ _).1⟩
        · obtain ⟨ho, hl, c, hc, hstop⟩ := ih h
          exact ⟨by omega, hl, c, hc, hstop⟩
    · simp at h

lemma frameLoop_sorted (hread : ∀ o r c, read o = .complete r c → 0 < c) (fuel off : Nat) :
    ((frameLoop read len fuel off).1.map Prod.fst).Pairwise (· < ·) := by
  induction fuel generalizing off with
  | zero => simp [frameLoop]
  | succ fuel ih =>
    rw [frameLoop]
    split_ifs with hlt
    · cases hr : read off with
      | incomplete => simp
      | corrupt reason => simp
      | complete rc used =>
        simp only [List.map_cons, List.pairwise_cons]
        refine ⟨?_, ih (off + used)⟩
        intro o ho
        obtain ⟨frame, hfr, rfl⟩ := List.mem_map.mp ho
        have hc := hread off rc used hr
        have hge := (frameLoop_mem hfr).1
        omega
    · simp

end

/-- The frames of a whole segment as the collector reads them. -/
def segmentFrames (data : List UInt8) :
    List (Nat × WalRecord α) × FrameEnd :=
  frameLoop (fun offset => decodeFrame codec (data.drop offset)) data.length data.length 0

/-- The frames of a whole segment as replay reads them, one at a time. -/
def replayFrames (data : List UInt8) :
    List (Nat × WalRecord α) × FrameEnd :=
  frameLoop (fun offset => readFrame codec data offset data.length) data.length data.length 0

/-- Both readers see the same frames and stop for the same reason. -/
theorem replayFrames_eq (data : List UInt8) :
    replayFrames codec data = segmentFrames codec data := by
  have hr : (fun off => readFrame codec data off data.length) =
      fun off => decodeFrame codec (data.drop off) := by
    funext off
    rw [readFrame_eq codec (le_refl _), List.take_length]
  rw [replayFrames, segmentFrames, hr]

/-- One frame seen while scanning a segment, in append order. -/
inductive ScanFrame where
  | append (key : WalTableKey) (generation : Nat)
  | dropTable (table : TableIdent)
deriving DecidableEq

structure SegmentScan where
  frames : List ScanFrame
  corrupt : Bool
deriving DecidableEq

def scanFrame (record : WalRecord α) : TeoDBResult ScanFrame :=
  match record.header.op with
  | .append => record.header.tableKey.map fun key => .append key record.header.generation
  | .dropTable => .ok (.dropTable record.header.table)

def FrameEnd.isCorrupt : FrameEnd → Bool
  | .corrupt _ _ => true
  | _ => false

/-- Scan the bytes of a segment for the collector. -/
def scanSegment (data : List UInt8) : TeoDBResult SegmentScan :=
  let (frames, stop) := segmentFrames codec data
  (frames.mapM fun frame => scanFrame frame.2).map fun scanned => ⟨scanned, stop.isCorrupt⟩

/-- What the collector sees of a record with a valid header. -/
def toScanFrame (record : WalRecord α) : ScanFrame :=
  match record.header.op with
  | .append =>
    .append ⟨record.header.tableUuid.getD .nil, record.header.table⟩ record.header.generation
  | .dropTable => .dropTable record.header.table

lemma scanFrame_eq {rc : WalRecord α} (hv : rc.header.validate = .ok ()) :
    scanFrame rc = .ok (toScanFrame rc) := by
  cases hop : rc.header.op with
  | append =>
    obtain ⟨uuid, hu, hkey⟩ := WalHeader.tableKey_of_append hv hop
    simp [scanFrame, toScanFrame, hop, hkey, hu, Except.map]
  | dropTable => simp [scanFrame, toScanFrame, hop]

lemma segmentFrames_valid {codec : FrameCodec α} {fr : Nat × WalRecord α}
    (h : fr ∈ (segmentFrames codec data).1) : fr.2.header.validate = .ok () := by
  obtain ⟨_, _, consumed, hr, _⟩ := frameLoop_mem h
  exact (decodeFrame_complete hr).2.2.2

lemma scanSegment_eq (data : List UInt8) : scanSegment codec data =
      .ok ⟨(segmentFrames codec data).1.map fun fr => toScanFrame fr.2,
        (segmentFrames codec data).2.isCorrupt⟩ := by
  have hmap : ∀ frs : List (Nat × WalRecord α), (∀ fr ∈ frs, fr.2.header.validate = .ok ()) →
      (frs.mapM fun fr => scanFrame fr.2) = .ok (frs.map fun fr => toScanFrame fr.2) := by
    intro frs hv
    induction frs with
    | nil => rfl
    | cons fr rest ih =>
      rw [List.mapM_cons, scanFrame_eq (hv fr List.mem_cons_self),
        ih fun f hf => hv f (List.mem_cons_of_mem _ hf)]
      rfl
  simp only [scanSegment, hmap _ fun fr hf => segmentFrames_valid hf, Except.map]

end TeoDB.Storage.Wal
