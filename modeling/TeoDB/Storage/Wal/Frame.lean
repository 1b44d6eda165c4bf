import TeoDB.Storage.Wal.Segment
import TeoDB.Storage.Wal.PreparedJson

/-!
# Writing frames

A record is written as one frame, and reading the frame back gives the record as long as its
payload is within the limit of the reader. The writer does not know that limit.

## Implementation notes

`FrameLib` carries the checksum, the JSON library and the Arrow writer and reader, and
`FrameLib.Lawful` says that what they write they read back and that compact JSON has no line break.
-/

namespace TeoDB.Storage.Wal

open TeoDB.Core Lib Lib.MachineInt

variable {α : Type}

namespace Wire

open Storage.Wire

def walOp : Serde WalOp :=
  .units (fun
    | .append => "append"
    | .dropTable => "drop_table") [.append, .dropTable]
    (fun a => by cases a <;> decide) (by decide)

/-- Signed numbers of 32 bits that are kept as integers. -/
def i32 : Serde Int := .intIn (-2 ^ 31) (2 ^ 31 - 1)

def walHeader : Serde WalHeader :=
  .record
    (.cons "protocol_version" (.natTo 65535) <|
      .cons "table_uuid" (.option uuid (by simp [uuid])) <| .cons "batch_id" uuid <|
      .cons "table" tableIdent <| .cons "schema_id" i32 <| .cons "generation" (.natTo u64Max) <|
      .cons "created_at_ms" i64 <| .cons "idempotency_key" optionalString <|
      .cons "row_count" (.natTo u64Max) <| .cons "byte_count" (.natTo u64Max) <|
      .cons "op" walOp .nil)
    (by simp) true
    { toFun := fun h => (h.protocolVersion, h.tableUuid, h.batchId, h.table, h.schemaId,
        h.generation, h.createdAtMs, h.idempotencyKey, h.rowCount, h.byteCount, h.op, ())
      invFun := fun (protocolVersion, tableUuid, batchId, table, schemaId, generation, createdAtMs,
          idempotencyKey, rowCount, byteCount, op, _) =>
        ⟨protocolVersion, tableUuid, batchId, table, schemaId, generation, createdAtMs,
          idempotencyKey, rowCount, byteCount, op⟩ }

end Wire

/-- The numbers of a header are in the ranges of their machine types. -/
structure WalHeader.InRange (h : WalHeader) : Prop where
  protocolVersion : h.protocolVersion ≤ 65535
  schemaId : -2 ^ 31 ≤ h.schemaId ∧ h.schemaId ≤ 2 ^ 31 - 1
  generation : h.generation ≤ u64Max
  createdAtMs : -2 ^ 63 ≤ h.createdAtMs ∧ h.createdAtMs ≤ 2 ^ 63 - 1
  rowCount : h.rowCount ≤ u64Max
  byteCount : h.byteCount ≤ u64Max

lemma WalHeader.InRange.de_ser {h : WalHeader} (hr : h.InRange) :
    Wire.walHeader.de (Wire.walHeader.ser h) = .ok h := by
  rw [Wire.walHeader.de_ser_iff]
  exact ⟨hr.protocolVersion, fun _ _ => trivial, trivial, ⟨trivial, trivial, trivial⟩,
    hr.schemaId, hr.generation, hr.createdAtMs, fun _ _ => trivial, hr.rowCount, hr.byteCount,
    trivial, trivial⟩

/-- A failure of the Arrow stream writer. -/
inductive IpcWriteError where
  | init (error : String)
  | write (error : String)
  | finish (error : String)
deriving DecidableEq

def IpcWriteError.toError : IpcWriteError → TeoDBError
  | .init error => .arrow s!"IPC writer init: {error}"
  | .write error => .arrow s!"IPC write: {error}"
  | .finish error => .arrow s!"IPC finish: {error}"

/-- A failure of the Arrow stream reader. -/
inductive IpcReadError where
  | init (error : String)
  | batch (error : String)
  | noBatch
deriving DecidableEq

def IpcReadError.reason : IpcReadError → String
  | .init error => s!"IPC read init: {error}"
  | .batch error => s!"IPC read batch: {error}"
  | .noBatch => "no batch in IPC stream"

/-- What frames are written and read with. -/
structure FrameLib (α : Type) where
  crc32 : List UInt8 → UInt32
  jsonToVec : Json → Except String (List UInt8)
  jsonFromSlice : List UInt8 → Except String Json
  ipcWrite : RecordBatch α → Except IpcWriteError (List UInt8)
  ipcRead : List UInt8 → Except IpcReadError (RecordBatch α)

namespace FrameLib

/-- What was written is read back, and the JSON of a header stands on one line. -/
structure Lawful (lib : FrameLib α) : Prop where
  json : ∀ (header : WalHeader) bytes, header.InRange →
    lib.jsonToVec (Wire.walHeader.ser header) = .ok bytes →
      lib.jsonFromSlice bytes = .ok (Wire.walHeader.ser header)
  oneLine : ∀ (header : WalHeader) bytes, header.InRange →
    lib.jsonToVec (Wire.walHeader.ser header) = .ok bytes → 10 ∉ bytes
  ipc : ∀ batch bytes, lib.ipcWrite batch = .ok bytes → lib.ipcRead bytes = .ok batch

/-- The decoders of the library. -/
def codec (lib : FrameLib α) : FrameCodec α where
  crc32 bytes := (lib.crc32 bytes).toNat
  headerFromJson bytes := lib.jsonFromSlice bytes >>= Wire.walHeader.de
  batchFromIpc bytes := (lib.ipcRead bytes).mapError IpcReadError.reason
  errorText := TeoDBError.display fun u => String.ofList (PlainText.uuidChars u)

end FrameLib

namespace FrameLib

variable [DecidableEq α]

/-- Write each header and each batch of a table as the bytes beside it. -/
def ofTables (headers : List (WalHeader × List UInt8))
    (batches : List (RecordBatch α × List UInt8)) : FrameLib α where
  crc32 bytes := UInt32.ofNat bytes.length
  jsonToVec json := do
    let header ← Wire.walHeader.de json
    match headers.find? fun e => e.1 = header with
    | some e => .ok e.2
    | none => .error "unknown header"
  jsonFromSlice bytes :=
    match headers.find? fun e => e.2 = bytes with
    | some e => .ok (Wire.walHeader.ser e.1)
    | none => .error "expected value"
  ipcWrite batch :=
    match batches.find? fun e => e.1 = batch with
    | some e => .ok e.2
    | none => .error (.write "unknown batch")
  ipcRead bytes :=
    match batches.find? fun e => e.2 = bytes with
    | some e => .ok e.1
    | none => .error .noBatch

/-- An entry is found by its second part if these differ. -/
theorem find?_snd {κ β : Type} [DecidableEq β] {tbl : List (κ × β)}
    (h : (tbl.map Prod.snd).Nodup) {e : κ × β} (he : e ∈ tbl) :
    tbl.find? (fun o => o.2 = e.2) = some e := by
  induction tbl with
  | nil => exact absurd he List.not_mem_nil
  | cons first rest ih =>
    obtain ⟨hfirst, hr⟩ := List.nodup_cons.mp h
    rw [List.find?_cons]
    rcases List.mem_cons.mp he with rfl | he
    · simp
    · have hne : first.2 ≠ e.2 := fun heq => hfirst (heq ▸ List.mem_map_of_mem he)
      simp only [hne, decide_false, ih hr he]

lemma ofTables_lawful {heae : List (WalHeader × List UInt8)}
    {bts : List (RecordBatch α × List UInt8)} (hhea : (heae.map Prod.snd).Nodup)
    (hlines : ∀ e ∈ heae, 10 ∉ e.2) (hbts : (bts.map Prod.snd).Nodup) :
    (ofTables heae bts).Lawful := by
  have hfnd : ∀ (head : WalHeader) bs, head.InRange →
      (ofTables heae bts).jsonToVec (Wire.walHeader.ser head) = .ok bs → (head, bs) ∈ heae := by
    intro head bs hrg h
    simp only [ofTables, hrg.de_ser, bind, Except.bind] at h
    split at h
    · rename_i e he
      have hkey : e.1 = head := by simpa using List.find?_some he
      cases h
      cases hkey
      exact List.mem_of_find?_eq_some he
    · cases h
  constructor
  · intro head bs hrg h
    simp only [ofTables, find?_snd hhea (hfnd head bs hrg h)]
  · intro head bs hrg h
    exact hlines _ (hfnd head bs hrg h)
  · intro bt bs h
    simp only [ofTables] at h ⊢
    split at h
    · rename_i e he
      have hkey : e.1 = bt := by simpa using List.find?_some he
      cases h
      rw [find?_snd hbts (List.mem_of_find?_eq_some he), ← hkey]
    · cases h

end FrameLib

/-- A number as little-endian bytes of the given count. -/
def toLeBytes : Nat → Nat → List UInt8
  | 0, _ => []
  | width + 1, n => UInt8.ofNat n :: toLeBytes width (n / 256)

@[simp] lemma length_toLeBytes (w n : Nat) : (toLeBytes w n).length = w := by
  induction w generalizing n with
  | zero => rfl
  | succ w ih => rw [toLeBytes, List.length_cons, ih]

/-- The bytes of a number are read back up to the width. -/
@[simp] theorem fromLeBytes_toLeBytes (w n : Nat) : fromLeBytes (toLeBytes w n) = n % 256 ^ w := by
  induction w generalizing n with
  | zero => simp [toLeBytes, fromLeBytes, Nat.mod_one]
  | succ w ih =>
    calc fromLeBytes (toLeBytes (w + 1) n) = n % 256 + 256 * (n / 256 % 256 ^ w) := by
          simp [toLeBytes, fromLeBytes, ih]
      _ = n % 256 ^ (w + 1) := by rw [Nat.pow_succ', Nat.mod_mul]

/-- The bytes of the batch. A tombstone has none. -/
def encodeBatch (lib : FrameLib α) (record : WalRecord α) : TeoDBResult (List UInt8) :=
  match record.header.op with
  | .append => (lib.ipcWrite record.batch).mapError IpcWriteError.toError
  | .dropTable => .ok []

/-- The header as JSON, a line break and the batch. -/
def encodePayload (lib : FrameLib α) (record : WalRecord α) : TeoDBResult (List UInt8) := do
  record.header.validate
  let headerJson ← (lib.jsonToVec (Wire.walHeader.ser record.header)).mapError
    fun error => walError s!"header json: {error}"
  let ipc ← encodeBatch lib record
  pure (headerJson ++ 10 :: ipc)

/-- The first bytes of a frame: the length in 32 bits, the checksum and the payload. -/
def frameContent (lib : FrameLib α) (payload : List UInt8) : List UInt8 :=
  toLeBytes 4 (UInt32.ofNat payload.length).toNat ++ toLeBytes 4 (lib.crc32 payload).toNat ++
    payload

def encodeFrame (lib : FrameLib α) (record : WalRecord α) : TeoDBResult (List UInt8) := do
  let payload ← encodePayload lib record
  let totalContent := frameHeaderSize + payload.length
  pure (frameContent lib payload ++ List.replicate (padding totalContent) 0)

section

variable {lib : FrameLib α} {pl : List UInt8}

lemma length_frameContent : (frameContent lib pl).length = frameHeaderSize + pl.length := by
  simp only [frameContent, List.length_append, length_toLeBytes]
  rfl

lemma payloadLen_frameContent (rest : List UInt8) :
    payloadLen (frameContent lib pl ++ rest) = pl.length % 2 ^ 32 := by
  have ht : (frameContent lib pl ++ rest).take 4 =
      toLeBytes 4 (UInt32.ofNat pl.length).toNat := by
    simp [frameContent]
  rw [payloadLen, ht, fromLeBytes_toLeBytes]
  simp

lemma expectedCrc_frameContent (rest : List UInt8) :
    expectedCrc (frameContent lib pl ++ rest) = (lib.crc32 pl).toNat := by
  have hd : ((frameContent lib pl ++ rest).drop 4).take 4 =
      toLeBytes 4 (lib.crc32 pl).toNat := by
    simp [frameContent]
  rw [expectedCrc, hd, fromLeBytes_toLeBytes]
  exact Nat.mod_eq_of_lt (lib.crc32 pl).toNat_lt

lemma payload_frameContent (rest : List UInt8) :
    ((frameContent lib pl ++ rest).take (frameHeaderSize + pl.length)).drop
      frameHeaderSize = pl := by
  rw [← @length_frameContent α lib, List.take_left, frameContent]
  exact List.drop_left' (by simp [frameHeaderSize])

end

/-- What is kept of a record: a tombstone has no batch. -/
def WalRecord.stored (record : WalRecord α) : WalRecord α :=
  match record.header.op with
  | .append => record
  | .dropTable => ⟨record.header, RecordBatch.newEmpty⟩

@[simp] lemma WalRecord.stored_header (record : WalRecord α) :
    record.stored.header = record.header := by
  unfold stored
  split <;> rfl

lemma findIdx?_newline {line rest : List UInt8} (h : 10 ∉ line) :
    (line ++ 10 :: rest).findIdx? (· == 10) = some line.length := by
  induction line with
  | nil => rfl
  | cons b line ih =>
    rw [List.mem_cons, not_or] at h
    obtain ⟨hb, hl⟩ := h
    have hne : (b == 10) = false := beq_false_of_ne (Ne.symm hb)
    rw [List.cons_append, List.findIdx?_cons, hne, ih hl]
    rfl

section

variable {lib : FrameLib α} {rc : WalRecord α} {pl : List UInt8}

lemma encodePayload_eq_ok : encodePayload lib rc = .ok pl ↔ rc.header.validate = .ok () ∧ ∃ head,
        lib.jsonToVec (Wire.walHeader.ser rc.header) = .ok head ∧
          ∃ ipc, encodeBatch lib rc = .ok ipc ∧ head ++ 10 :: ipc = pl := by
  simp only [encodePayload, bind_eq_ok_iff, mapError_eq_ok_iff, Unique.exists_iff, pure,
    Except.pure, Except.ok.injEq]

lemma encodePayload_pos (h : encodePayload lib rc = .ok pl) : 0 < pl.length := by
  obtain ⟨_, head, _, ipc, _, rfl⟩ := encodePayload_eq_ok.mp h
  simp

lemma decodePayload_encoded (hlib : lib.Lawful) (hrg : rc.header.InRange)
    (h : encodePayload lib rc = .ok pl) (frameSize : Nat) :
    decodePayload lib.codec pl frameSize = .complete rc.stored frameSize := by
  obtain ⟨hvd, head, hj, ipc, hipc, rfl⟩ := encodePayload_eq_ok.mp h
  have hhea : lib.codec.headerFromJson head = .ok rc.header := by
    simp only [FrameLib.codec, hlib.json _ _ hrg hj]
    exact hrg.de_ser
  rw [decodePayload, findIdx?_newline (hlib.oneLine _ _ hrg hj)]
  cases hop : rc.header.op with
  | dropTable => simp [hhea, hvd, hop, WalRecord.stored]
  | append =>
    have hbt : lib.codec.batchFromIpc ipc = .ok rc.batch := by
      rw [encodeBatch, hop] at hipc
      exact mapError_eq_ok_iff.mpr (hlib.ipc _ _ (mapError_eq_ok_iff.mp hipc))
    have hd : (head ++ 10 :: ipc).drop (head.length + 1) = ipc := by
      simp
    simp [hhea, hvd, hop, hbt, hd, WalRecord.stored]

/-- The content of a frame within the limit is read, whatever follows it. -/
theorem decodeFrame_encoded (hlib : lib.Lawful) (hrg : rc.header.InRange)
    (h : encodePayload lib rc = .ok pl) (hmax : pl.length ≤ maxPayloadBytes) (rest : List UInt8) :
    decodeFrame lib.codec (frameContent lib pl ++ rest) =
      .complete rc.stored (frameHeaderSize + pl.length +
        padding (frameHeaderSize + pl.length)) := by
  have hpos := encodePayload_pos h
  have hlen : payloadLen (frameContent lib pl ++ rest) = pl.length := by
    rw [payloadLen_frameContent, Nat.mod_eq_of_lt (lt_of_le_of_lt hmax (by decide))]
  have hfit : frameHeaderSize + pl.length ≤ (frameContent lib pl ++ rest).length := by
    rw [List.length_append, length_frameContent]
    exact Nat.le_add_right _ _
  have hcrc : lib.codec.crc32 pl = (lib.crc32 pl).toNat := rfl
  rw [decodeFrame, if_neg (not_lt.mpr ((Nat.le_add_right _ _).trans hfit))]
  simp only [hlen, expectedCrc_frameContent, payload_frameContent, hcrc, ne_eq, not_true_eq_false,
    if_false]
  rw [if_neg hpos.ne', if_neg (not_lt.mpr hmax), if_neg (not_lt.mpr hfit)]
  exact decodePayload_encoded hlib hrg h _

end

/-- A record of one batch of a table. -/
def oneRow : WalRecord Nat :=
  ⟨⟨writeProtocolVersion, some (Uuid.ofNat 1), Uuid.ofNat 2, ⟨"sales", "orders"⟩, 0, 1, 0, none, 1,
    8, .append⟩, ⟨[], 1, 8⟩⟩

/-- The tombstone of the same table. -/
def ordersDropped : WalRecord Nat := .dropTombstone ⟨"sales", "orders"⟩ (Uuid.ofNat 3) 1

lemma oneRow_inRange : oneRow.header.InRange := by
  constructor <;> decide

lemma ordersDropped_inRange : ordersDropped.header.InRange := by
  constructor <;> decide

/-- A library for both records, with the given bytes for the batch. -/
def ordersLib (ipc : List UInt8) : FrameLib Nat :=
  .ofTables [(oneRow.header, [123, 125]), (ordersDropped.header, [91, 93])] [(oneRow.batch, ipc)]

lemma ordersLib_lawful (ipc : List UInt8) : (ordersLib ipc).Lawful :=
  FrameLib.ofTables_lawful (by decide) (by decide) (List.nodup_singleton _)

lemma ordersLib_payload (ipc : List UInt8) :
    encodePayload (ordersLib ipc) oneRow = .ok (123 :: 125 :: 10 :: ipc) := by
  have hvd : oneRow.header.validate = .ok () := by decide
  have hj : (ordersLib ipc).jsonToVec (Wire.walHeader.ser oneRow.header) = .ok [123, 125] := by
    simp only [ordersLib, FrameLib.ofTables, oneRow_inRange.de_ser, bind, Except.bind]
    rfl
  apply encodePayload_eq_ok.mpr
  exact ⟨hvd, [123, 125], hj, ipc, rfl, rfl⟩

lemma ordersLib_tombstone (ipc : List UInt8) :
    encodePayload (ordersLib ipc) ordersDropped = .ok [91, 93, 10] := by
  have hvd : ordersDropped.header.validate = .ok () := by decide
  have hj : (ordersLib ipc).jsonToVec (Wire.walHeader.ser ordersDropped.header) = .ok [91, 93] := by
    simp only [ordersLib, FrameLib.ofTables, ordersDropped_inRange.de_ser, bind, Except.bind]
    rfl
  apply encodePayload_eq_ok.mpr
  exact ⟨hvd, [91, 93], hj, [], rfl, rfl⟩

section

variable {lib : FrameLib α} {record : WalRecord α} {payload frame : List UInt8}

lemma encodeFrame_eq_ok :
    encodeFrame lib record = .ok frame ↔ ∃ payload, encodePayload lib record = .ok payload ∧
      frameContent lib payload ++
        List.replicate (padding (frameHeaderSize + payload.length)) 0 = frame := by
  simp only [encodeFrame, bind_eq_ok_iff, pure, Except.pure, Except.ok.injEq]

lemma length_encodeFrame (hpay : encodePayload lib record = .ok payload)
    (h : encodeFrame lib record = .ok frame) : frame.length = frameHeaderSize + payload.length +
      padding (frameHeaderSize + payload.length) := by
  obtain ⟨other, hot, rfl⟩ := encodeFrame_eq_ok.mp h
  cases hpay.symm.trans hot
  rw [List.length_append, length_frameContent, List.length_replicate]

/-- Whatever follows the frame, it is read as the record and consumed as a whole. -/
def ReadBack (lib : FrameLib α) (record : WalRecord α) (frame : List UInt8) : Prop :=
  ∀ rest, decodeFrame lib.codec (frame ++ rest) = .complete record frame.length

/-- A frame within the limit is read back as what is kept of its record. -/
theorem readBack_stored (hlib : lib.Lawful) (hrg : record.header.InRange)
    (hpay : encodePayload lib record = .ok payload) (hmax : payload.length ≤ maxPayloadBytes)
    (h : encodeFrame lib record = .ok frame) : ReadBack lib record.stored frame := by
  intro rest
  obtain ⟨other, hot, hfr⟩ := encodeFrame_eq_ok.mp h
  cases hpay.symm.trans hot
  rw [length_encodeFrame hpay h, ← hfr, List.append_assoc]
  exact decodeFrame_encoded hlib hrg hpay hmax _

/-- A complete frame consumes the padded size that its length field says. -/
theorem decodeFrame_consumed {codec : FrameCodec α} {data : List UInt8} {used : Nat}
    (h : decodeFrame codec data = .complete record used) :
    payloadLen data ≤ maxPayloadBytes ∧ used = frameHeaderSize + payloadLen data +
        padding (frameHeaderSize + payloadLen data) := by
  simp only [decodeFrame] at h
  split_ifs at h with h1 h2 h3 h4 h5 h6
  exact ⟨not_lt.mp h4, (decodePayload_complete h).1⟩

/-- Reader and writer agree on the end of a frame only within the limit. -/
theorem length_le_of_readBack (hpay : encodePayload lib record = .ok payload)
    (h : encodeFrame lib record = .ok frame) {read : WalRecord α}
    (hr : ReadBack lib read frame) : payload.length ≤ maxPayloadBytes := by
  obtain ⟨other, hot, hfr⟩ := encodeFrame_eq_ok.mp h
  cases hpay.symm.trans hot
  have hcon := decodeFrame_consumed (hr [])
  have hlen : payloadLen (frame ++ []) = payload.length % 2 ^ 32 := by
    rw [List.append_nil, ← hfr, payloadLen_frameContent]
  rw [hlen, length_encodeFrame hpay h] at hcon
  obtain ⟨hmax, hs⟩ := hcon
  simp only [padding, frameHeaderSize, alignment, maxPayloadBytes] at hs hmax ⊢
  omega

/-- A longer payload whose length fits in 32 bits is taken for a corruption. -/
theorem decodeFrame_oversized (hmin : maxPayloadBytes < payload.length)
    (hmax : payload.length < 2 ^ 32) (rest : List UInt8) :
    decodeFrame lib.codec (frameContent lib payload ++ rest) =
      .corrupt (implausibleReason payload.length) := by
  have hlen : payloadLen (frameContent lib payload ++ rest) = payload.length := by
    rw [payloadLen_frameContent, Nat.mod_eq_of_lt hmax]
  have hfit : frameHeaderSize ≤ (frameContent lib payload ++ rest).length := by
    rw [List.length_append, length_frameContent]
    omega
  rw [decodeFrame, if_neg (not_lt.mpr hfit)]
  simp only [hlen]
  rw [if_neg (by omega), if_pos hmin]

/-- An accepted append record is read back from its frame exactly if its payload is within
the limit of the reader. -/
theorem readBack_iff (hlib : lib.Lawful) (hop : record.header.op = .append)
    (hrange : record.header.InRange) (h : encodeFrame lib record = .ok frame) :
    ReadBack lib record frame ↔
      ∃ payload, encodePayload lib record = .ok payload ∧ payload.length ≤ maxPayloadBytes := by
  have hstd : record.stored = record := by
    simp [WalRecord.stored, hop]
  obtain ⟨payload, hpay, _⟩ := encodeFrame_eq_ok.mp h
  constructor
  · intro hr
    exact ⟨payload, hpay, length_le_of_readBack hpay h hr⟩
  · rintro ⟨_, hot, hmax⟩
    rw [← hstd]
    exact readBack_stored hlib hrange hot hmax h

/-- A record whose batch is one byte long. -/
theorem oneRow_readBack : ∃ frame, encodeFrame (ordersLib [0]) oneRow = .ok frame ∧
      ReadBack (ordersLib [0]) oneRow frame := by
  have hpay := ordersLib_payload [0]
  have hfr := encodeFrame_eq_ok.mpr ⟨_, hpay, rfl⟩
  refine ⟨_, hfr, ?_⟩
  exact (readBack_iff (ordersLib_lawful [0]) rfl oneRow_inRange hfr).mpr ⟨_, hpay, by decide⟩

/-- A batch that is too large for the reader is written, and its frame is read as a
corruption. -/
theorem ordersLib_oversized {n : Nat} (hmin : maxPayloadBytes < n + 3) (hmax : n + 3 < 2 ^ 32) :
    ∃ frame, encodeFrame (ordersLib (List.replicate n 0)) oneRow = .ok frame ∧
      decodeFrame (ordersLib (List.replicate n 0)).codec frame =
        .corrupt (implausibleReason (n + 3)) ∧
      ¬ ReadBack (ordersLib (List.replicate n 0)) oneRow frame := by
  have hpay := ordersLib_payload (List.replicate n 0)
  have hlen : (123 :: 125 :: 10 :: List.replicate n (0 : UInt8)).length = n + 3 := by
    simp only [List.length_cons, List.length_replicate]
  have hfr := encodeFrame_eq_ok.mpr ⟨_, hpay, rfl⟩
  refine ⟨_, hfr, ?_, ?_⟩
  · rw [← hlen]
    apply decodeFrame_oversized
    · rwa [hlen]
    · rwa [hlen]
  · intro hr
    have hle := length_le_of_readBack hpay hfr hr
    omega

/-- A batch of a gibibyte. -/
theorem large_batch_is_not_read_back :
    ∃ frame, encodeFrame (ordersLib (List.replicate (2 ^ 30) 0)) oneRow = .ok frame ∧
      decodeFrame (ordersLib (List.replicate (2 ^ 30) 0)).codec frame =
        .corrupt (implausibleReason (2 ^ 30 + 3)) ∧
      ¬ ReadBack (ordersLib (List.replicate (2 ^ 30) 0)) oneRow frame :=
  ordersLib_oversized (by decide) (by decide)

end

/-- A record and the frame it was accepted as, with a payload within the limit. -/
structure Accepted (lib : FrameLib α) (record : WalRecord α) (frame : List UInt8) : Prop where
  inRange : record.header.InRange
  frame : encodeFrame lib record = .ok frame
  withinLimit : ∃ payload, encodePayload lib record = .ok payload ∧
    payload.length ≤ maxPayloadBytes

/-- What an interrupted write or a preallocation leaves at the end of a segment. -/
inductive TornTail (lib : FrameLib α) : List UInt8 → Prop where
  | cut {record : WalRecord α} {payload : List UInt8} (inRange : record.header.InRange)
      (encoded : encodePayload lib record = .ok payload)
      (withinLimit : payload.length ≤ maxPayloadBytes) {n : Nat}
      (short : n < (frameContent lib payload).length) :
      TornTail lib ((frameContent lib payload).take n)
  | zeros (n : Nat) : TornTail lib (List.replicate n 0)

section

variable {lib : FrameLib α}

lemma fromLeBytes_replicate_zero (n : Nat) : fromLeBytes (List.replicate n 0) = 0 := by
  induction n with
  | zero => rfl
  | succ n ih => simp [List.replicate_succ, fromLeBytes, ih]

lemma decodeFrame_zeros (codec : FrameCodec α) (n : Nat) :
    decodeFrame codec (List.replicate n 0) = .incomplete := by
  have hlen : payloadLen (List.replicate n 0) = 0 := by
    rw [payloadLen, List.take_replicate, fromLeBytes_replicate_zero]
  have hall : (List.replicate n (0 : UInt8)).all (· == 0) = true := by
    simp
  by_cases hsho : (List.replicate n (0 : UInt8)).length < frameHeaderSize
  · rw [decodeFrame, if_pos hsho]
  · rw [decodeFrame, if_neg hsho]
    simp only [hlen, hall, if_true]

variable {record : WalRecord α}

/-- A frame that is cut before the end of its payload is incomplete. -/
theorem decodeFrame_cut {payload : List UInt8} (hpay : encodePayload lib record = .ok payload)
    (hmax : payload.length ≤ maxPayloadBytes) {n : Nat}
    (hn : n < (frameContent lib payload).length) :
    decodeFrame lib.codec ((frameContent lib payload).take n) = .incomplete := by
  have hleng : ((frameContent lib payload).take n).length = n := by
    rw [List.length_take, min_eq_left hn.le]
  by_cases hsho : ((frameContent lib payload).take n).length < frameHeaderSize
  · rw [decodeFrame, if_pos hsho]
  · have hlen : payloadLen ((frameContent lib payload).take n) = payload.length := by
      rw [hleng, frameHeaderSize] at hsho
      rw [payloadLen_take (by omega), ← List.append_nil (frameContent lib payload),
        payloadLen_frameContent, Nat.mod_eq_of_lt (lt_of_le_of_lt hmax (by decide))]
    have hpos := encodePayload_pos hpay
    rw [length_frameContent] at hn
    rw [decodeFrame, if_neg hsho]
    simp only [hlen, hleng]
    rw [if_neg hpos.ne', if_neg (not_lt.mpr hmax), if_pos hn]

lemma TornTail.decodeFrame {tail : List UInt8} (h : TornTail lib tail) :
    Wal.decodeFrame lib.codec tail = .incomplete := by
  cases h with
  | cut inRange encoded withinLimit short => exact decodeFrame_cut encoded withinLimit short
  | zeros n => exact decodeFrame_zeros lib.codec n

variable {frame : List UInt8}

lemma Accepted.readBack (hlib : lib.Lawful) (h : Accepted lib record frame) :
    ReadBack lib record.stored frame := by
  obtain ⟨payload, hpay, hmax⟩ := h.withinLimit
  exact readBack_stored hlib h.inRange hpay hmax h.frame

lemma Accepted.length_pos (h : Accepted lib record frame) : 0 < frame.length := by
  obtain ⟨payload, hpay, _⟩ := h.withinLimit
  rw [length_encodeFrame hpay h.frame, frameHeaderSize]
  omega

/-- The loop over the frames of a segment in memory. -/
def loopOver (codec : FrameCodec α) (data : List UInt8) (fuel offset : Nat) :
    List (Nat × WalRecord α) × FrameEnd :=
  frameLoop (fun offset => decodeFrame codec (data.drop offset)) data.length fuel offset

/-- The loop yields the records of accepted frames and goes on behind them. -/
theorem loopOver_frames (hlib : lib.Lawful) {rs : List (WalRecord α)}
    {frs : List (List UInt8)} (h : List.Forall₂ (Accepted lib) rs frs)
    {data bef tail : List UInt8} (hd : data = bef ++ (frs.flatten ++ tail))
    {fuel : Nat} (hf : (frs.flatten ++ tail).length ≤ fuel) :
    ∃ read more, tail.length ≤ more ∧ read.map Prod.snd = rs.map WalRecord.stored ∧
      loopOver lib.codec data fuel bef.length =
        (read ++ (loopOver lib.codec data more (bef ++ frs.flatten).length).1,
          (loopOver lib.codec data more (bef ++ frs.flatten).length).2) := by
  induction h generalizing bef fuel with
  | nil => exact ⟨[], fuel, by simpa using hf, rfl, by simp⟩
  | @cons record frame rs frs hfst hrest ih =>
    have hpos := hfst.length_pos
    rw [List.flatten_cons, List.append_assoc] at hd hf
    have hlen := congrArg List.length hd
    simp only [List.length_append] at hf hlen
    obtain ⟨fuel, rfl⟩ : ∃ less, fuel = less + 1 := ⟨fuel - 1, by omega⟩
    obtain ⟨read, more, hm, hr, hl⟩ := @ih (bef ++ frame)
      (by rw [hd, List.append_assoc]) fuel (by rw [List.length_append]; omega)
    refine ⟨(bef.length, record.stored) :: read, more, hm, ?_, ?_⟩
    · rw [List.map_cons, List.map_cons, hr]
    · have hdrop : data.drop bef.length = frame ++ (frs.flatten ++ tail) := by
        rw [hd, List.drop_left]
      have hn : (bef ++ frame).length = bef.length + frame.length := List.length_append
      rw [hn] at hl
      rw [List.flatten_cons, ← List.append_assoc]
      rw [loopOver, frameLoop, if_pos (by omega), hdrop, hfst.readBack hlib (frs.flatten ++ tail)]
      dsimp only
      rw [← loopOver, hl]
      rfl

lemma loopOver_end (codec : FrameCodec α) (data : List UInt8) {fuel off : Nat}
    (h : data.length ≤ off) : loopOver codec data fuel off = ([], .clean) := by
  cases fuel with
  | zero => rfl
  | succ fuel => rw [loopOver, frameLoop, if_neg (by omega)]

lemma loopOver_incomplete {codec : FrameCodec α} {bef tail : List UInt8}
    (h : decodeFrame codec tail = .incomplete) (fuel : Nat) :
    (loopOver codec (bef ++ tail) fuel bef.length).1 = [] ∧
      (loopOver codec (bef ++ tail) fuel bef.length).2.isCorrupt = false := by
  cases fuel with
  | zero => exact ⟨rfl, rfl⟩
  | succ fuel =>
    rw [loopOver, frameLoop]
    split_ifs with hlt
    · simp [h, FrameEnd.isCorrupt]
    · exact ⟨rfl, rfl⟩

/-- The beginning of an accepted frame is torn, or it is the frame without some padding. -/
theorem Accepted.loopOver_cut (hlib : lib.Lawful) (h : Accepted lib record frame) {n : Nat}
    (hn : n < frame.length) (bef : List UInt8) (fuel : Nat) :
    (loopOver lib.codec (bef ++ frame.take n) fuel bef.length).2.isCorrupt = false := by
  obtain ⟨payload, hpay, hmax⟩ := h.withinLimit
  have hlen := length_encodeFrame hpay h.frame
  obtain ⟨other, hot, hfr⟩ := encodeFrame_eq_ok.mp h.frame
  cases hpay.symm.trans hot
  by_cases hsho : n < (frameContent lib payload).length
  · have ht : frame.take n = (frameContent lib payload).take n := by
      rw [← hfr, List.take_append_of_le_length hsho.le]
    rw [ht]
    exact (loopOver_incomplete (decodeFrame_cut hpay hmax hsho) fuel).2
  · obtain ⟨rest, hr⟩ : ∃ rest, frame.take n = frameContent lib payload ++ rest := by
      rw [← hfr, List.take_append, List.take_of_length_le (not_lt.mp hsho)]
      exact ⟨_, rfl⟩
    cases fuel with
    | zero => rfl
    | succ fuel =>
      rw [loopOver, frameLoop]
      split_ifs with hlt
      · rw [List.drop_left, hr, decodeFrame_encoded hlib h.inRange hpay hmax]
        dsimp only
        rw [← loopOver, loopOver_end]
        · rfl
        · rw [← hr, List.length_append, List.length_take, ← hlen]
          omega
      · rfl

/-- Accepted frames that are cut anywhere are not taken for corrupt. -/
theorem loopOver_cut (hlib : lib.Lawful) {rs : List (WalRecord α)}
    {frs : List (List UInt8)} (h : List.Forall₂ (Accepted lib) rs frs) (n : Nat)
    (bef : List UInt8) {fuel : Nat} (hf : (frs.flatten.take n).length ≤ fuel) :
    (loopOver lib.codec (bef ++ frs.flatten.take n) fuel bef.length).2.isCorrupt = false := by
  induction h generalizing bef n fuel with
  | nil => rw [loopOver_end _ _ (by simp)]; rfl
  | @cons record frame rs frs hfst hrest ih =>
    rw [List.flatten_cons] at hf ⊢
    by_cases hn : n < frame.length
    · rw [List.take_append_of_le_length hn.le]
      exact hfst.loopOver_cut hlib hn bef fuel
    · have ht : (frame ++ frs.flatten).take n =
          [frame].flatten ++ frs.flatten.take (n - frame.length) := by
        rw [List.take_append, List.take_of_length_le (not_lt.mp hn), List.flatten_singleton]
      rw [ht] at hf ⊢
      obtain ⟨read, more, hm, _, hl⟩ := loopOver_frames hlib
        (List.Forall₂.cons hfst .nil) (@rfl _ (bef ++ _)) hf
      rw [hl, ← List.append_assoc]
      exact ih (n - frame.length) _ hm

/-- A segment of accepted frames and a cut tail yields the records of the first and is not taken for
corrupt. -/
theorem replayFrames_cut (hlib : lib.Lawful) {rs more : List (WalRecord α)}
    {frs rest : List (List UInt8)} (h : List.Forall₂ (Accepted lib) rs frs)
    (hm : List.Forall₂ (Accepted lib) more rest) (n : Nat) : rs.map WalRecord.stored <+:
        (replayFrames lib.codec (frs.flatten ++ rest.flatten.take n)).1.map Prod.snd ∧
      (replayFrames lib.codec (frs.flatten ++ rest.flatten.take n)).2.isCorrupt = false := by
  obtain ⟨read, fuel, hf, hr, hl⟩ := @loopOver_frames _ lib hlib rs frs h
    (frs.flatten ++ rest.flatten.take n) [] (rest.flatten.take n) rfl _ (le_refl _)
  have hseg : replayFrames lib.codec (frs.flatten ++ rest.flatten.take n) =
      loopOver lib.codec (frs.flatten ++ rest.flatten.take n)
        (frs.flatten ++ rest.flatten.take n).length ([] : List UInt8).length :=
    replayFrames_eq _ _
  rw [hseg, hl, List.map_append, hr]
  exact ⟨List.prefix_append _ _, loopOver_cut hlib hm n frs.flatten hf⟩

lemma toScanFrame_stored (record : WalRecord α) :
    toScanFrame record.stored = toScanFrame record := by
  simp only [toScanFrame, WalRecord.stored_header]

/-- A segment of accepted frames and a torn tail is read as the records of the frames, and
it is not taken for corrupt. -/
theorem scanSegment_torn_tail (hlib : lib.Lawful) {records : List (WalRecord α)}
    {frames : List (List UInt8)} (h : List.Forall₂ (Accepted lib) records frames)
    {tail : List UInt8} (htail : TornTail lib tail) :
    (segmentFrames lib.codec (frames.flatten ++ tail)).1.map Prod.snd =
        records.map WalRecord.stored ∧
      (segmentFrames lib.codec (frames.flatten ++ tail)).2.isCorrupt = false ∧
      scanSegment lib.codec (frames.flatten ++ tail) = .ok ⟨records.map toScanFrame, false⟩ := by
  obtain ⟨read, more, _, hr, hl⟩ := @loopOver_frames _ lib hlib records frames h
    (frames.flatten ++ tail) [] tail rfl _ (le_refl _)
  obtain ⟨hn, hend⟩ := @loopOver_incomplete _ lib.codec frames.flatten tail htail.decodeFrame more
  have hseg : segmentFrames lib.codec (frames.flatten ++ tail) =
      loopOver lib.codec (frames.flatten ++ tail) (frames.flatten ++ tail).length 0 := rfl
  have hrecs : (segmentFrames lib.codec (frames.flatten ++ tail)).1.map Prod.snd =
      records.map WalRecord.stored := by
    rw [hseg, ← List.length_nil, hl, List.nil_append, hn, List.append_nil, hr]
  have hcl : (segmentFrames lib.codec (frames.flatten ++ tail)).2.isCorrupt = false := by
    rw [hseg, ← List.length_nil, hl]
    exact hend
  have hsca : (segmentFrames lib.codec (frames.flatten ++ tail)).1.map
      (fun frame => toScanFrame frame.2) = records.map toScanFrame := by
    calc (segmentFrames lib.codec (frames.flatten ++ tail)).1.map (fun frame => toScanFrame frame.2)
        = ((segmentFrames lib.codec (frames.flatten ++ tail)).1.map Prod.snd).map toScanFrame := by
          rw [List.map_map]
          rfl
      _ = (records.map WalRecord.stored).map toScanFrame := congrArg (List.map toScanFrame) hrecs
      _ = records.map toScanFrame := by
          rw [List.map_map]
          exact List.map_congr_left fun record _ => toScanFrame_stored record
  refine ⟨hrecs, hcl, ?_⟩
  rw [scanSegment_eq, hsca, hcl]

/-- An append and a tombstone, followed by eleven of the twelve bytes of another append. -/
theorem orders_torn_tail :
    ∃ frames tail, List.Forall₂ (Accepted (ordersLib [0])) [oneRow, ordersDropped] frames ∧
      TornTail (ordersLib [0]) tail ∧ tail.length = 11 ∧
      scanSegment (ordersLib [0]).codec (frames.flatten ++ tail) =
        .ok ⟨[.append ⟨Uuid.ofNat 1, ⟨"sales", "orders"⟩⟩ 1, .dropTable ⟨"sales", "orders"⟩],
          false⟩ := by
  have hrow := ordersLib_payload [0]
  have hd := ordersLib_tombstone [0]
  have hfrs := List.Forall₂.cons
    (Accepted.mk oneRow_inRange (encodeFrame_eq_ok.mpr ⟨_, hrow, rfl⟩) ⟨_, hrow, by decide⟩)
    (.cons (Accepted.mk ordersDropped_inRange (encodeFrame_eq_ok.mpr ⟨_, hd, rfl⟩)
      ⟨_, hd, by decide⟩) .nil)
  have ht := TornTail.cut (n := 11) oneRow_inRange hrow (by decide) (by decide)
  exact ⟨_, _, hfrs, ht, by decide, (scanSegment_torn_tail (ordersLib_lawful [0]) hfrs ht).2.2⟩

end

end TeoDB.Storage.Wal
