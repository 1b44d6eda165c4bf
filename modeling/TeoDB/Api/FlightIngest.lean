import TeoDB.Ingest.Service.Ingest
import TeoDB.Lib.Serde
import TeoDB.Query.Conversion

/-!
# Ingesting Arrow batches

The first message of a stream names the table. A message with a schema header declares the schema
of the batches behind it, and one with a body carries the buffers of a batch, which the handler
decodes with the schema of the table, validates, appends to the log and inserts.

Declared schemas are not looked at, so batches under other names, in another order or with other
types of the same layout are accepted. `respectsSchema_iff` says which streams are handled rightly.

## Implementation notes

Decoding goes by position: it sees the types of a schema, not its names. It is a parameter, as is
what each batch meets, since other requests run in between. No step reads the schema that effects
note for a batch.
-/

namespace TeoDB.Api.Flight

open TeoDB.Core Query Ingest.Buffer Ingest.Service Storage.Wal

/-- What the Arrow library knows about columns and batch headers. -/
structure ArrowLib (H α : Type) where
  /-- Read the columns of the given types, one after the other, from a body. -/
  decode : List ArrowDataType → H → List UInt8 → Except String (RecordBatch α)
  length_decode {types : List ArrowDataType} {header : H} {body : List UInt8}
    {batch : RecordBatch α} (h : decode types header body = .ok batch) :
    batch.columns.length = types.length
  nullCount : α → Nat
  debug : ArrowDataType → String

/-- A batch together with the schema it was decoded with. -/
structure ArrowBatch (α : Type) where
  schema : ArrowSchema
  batch : RecordBatch α
  length_columns : batch.columns.length = schema.length

/-- The columns under their names. -/
def namedColumns {α : Type} (schema : ArrowSchema) (batch : RecordBatch α) :
    List (String × Column α) :=
  (schema.map Field.name).zip batch.columns

/-- `cmd` is the text of a `CommandStatementUpdate`, if the command is one. -/
structure FlightDescriptor where
  cmd : Option String
  path : List String

inductive DataHeader (H : Type) where
  | schema (declared : ArrowSchema)
  | recordBatch (header : H)
  | other

structure FlightData (H : Type) where
  flightDescriptor : Option FlightDescriptor
  dataHeader : DataHeader H
  dataBody : List UInt8

inductive Status where
  | invalidArgument (message : String)
  | internal (message : String)
  | of (error : TeoDBError)
deriving DecidableEq

variable {H F α : Type} (lib : ArrowLib H α)

/-- Decode a message by position with the given schema. -/
def flightDataToArrowBatch (data : FlightData H) (schema : ArrowSchema) :
    Except String (ArrowBatch α) :=
  match data.dataHeader with
  | .recordBatch header =>
    match h : lib.decode (schema.map Field.dataType) header data.dataBody with
    | .error error => .error error
    | .ok batch => .ok ⟨schema, batch, by simpa using lib.length_decode h⟩
  | _ => .error "Unable to convert flight data header to a record batch"

def debugUnit : TimeUnit → String
  | .second => "Second"
  | .millisecond => "Millisecond"
  | .microsecond => "Microsecond"
  | .nanosecond => "Nanosecond"

def debugTz : Option String → String
  | none => "None"
  | some tz => "Some(\"" ++ tz ++ "\")"

def typeError (colName message : String) : TeoDBResult Unit :=
  .error (.invalidArgument s!"column[{colName}].type" message)

/-- Compare types, with messages of their own for decimals and timestamps. -/
def validateDataType (colName : String) (expected actual : ArrowDataType) : TeoDBResult Unit :=
  match expected, actual with
  | .decimal128 expP expS, .decimal128 actP actS =>
    if expP ≠ actP ∨ expS ≠ actS then
      typeError colName (s!"decimal mismatch for '{colName}': expected " ++
        s!"Decimal128({expP},{expS}), got Decimal128({actP},{actS})")
    else .ok ()
  | .decimal256 expP expS, .decimal256 actP actS =>
    if expP ≠ actP ∨ expS ≠ actS then
      typeError colName (s!"decimal mismatch for '{colName}': expected " ++
        s!"Decimal256({expP},{expS}), got Decimal256({actP},{actS})")
    else .ok ()
  | .timestamp expUnit expTz, .timestamp actUnit actTz =>
    if expUnit ≠ actUnit then
      typeError colName (s!"timestamp unit mismatch for '{colName}': expected " ++
        debugUnit expUnit ++ ", got " ++ debugUnit actUnit)
    else if expTz ≠ actTz then
      typeError colName (s!"timestamp timezone mismatch for '{colName}': expected " ++
        debugTz expTz ++ ", got " ++ debugTz actTz)
    else .ok ()
  | expected, actual =>
    if expected ≠ actual then
      typeError colName ("expected " ++ lib.debug expected ++ ", got " ++ lib.debug actual)
    else .ok ()

def validateName (i : Nat) (exp act : Field) : TeoDBResult Unit :=
  if exp.name ≠ act.name then
    .error (.invalidArgument s!"column[{i}].name" s!"expected '{exp.name}', got '{act.name}'")
  else .ok ()

def validateNulls (exp : Field) (column : Column α) : TeoDBResult Unit :=
  if exp.nullable = false ∧ 0 < lib.nullCount column.data then
    .error (.invalidArgument s!"column[{exp.name}]" (s!"non-nullable column '{exp.name}' " ++
      s!"contains {lib.nullCount column.data} null value(s)"))
  else .ok ()

def validateFieldId (exp act : Field) : TeoDBResult Unit :=
  match exp.fieldId, act.fieldId with
  | some expId, some actId =>
    if expId ≠ actId then
      .error (.invalidArgument s!"column[{exp.name}].field_id"
        s!"field ID mismatch for '{exp.name}': expected {expId}, got {actId}")
    else .ok ()
  | _, _ => .ok ()

/-- The checks of the columns from index `i` on. -/
def validateColumns : Nat → ArrowSchema → List (Field × Column α) → TeoDBResult Unit
  | i, exp :: rest, (act, column) :: more => do
    validateName i exp act
    validateDataType lib exp.name exp.dataType act.dataType
    validateNulls lib exp column
    validateFieldId exp act
    validateColumns (i + 1) rest more
  | _, _, _ => .ok ()

def validateBatch (b : ArrowBatch α) (expected : ArrowSchema) : TeoDBResult Unit :=
  if b.schema.length ≠ expected.length then
    .error (.invalidArgument "columns"
      s!"expected {expected.length} columns, got {b.schema.length}")
  else validateColumns lib 0 expected (b.schema.zip b.batch.columns)

/-- No column that must not hold nulls does. -/
def NoForbiddenNulls (schema : ArrowSchema) (batch : RecordBatch α) : Prop :=
  ∀ p ∈ schema.zip batch.columns, p.1.nullable = false → lib.nullCount p.2.data = 0

@[simp] lemma validateDataType_self (colName : String) (type : ArrowDataType) :
    validateDataType lib colName type type = .ok () := by
  cases type <;> simp [validateDataType]

@[simp] lemma validateName_self (i : Nat) (fl : Field) : validateName i fl fl = .ok () := by
  simp [validateName]

@[simp] lemma validateFieldId_self (fl : Field) : validateFieldId fl fl = .ok () := by
  cases h : fl.fieldId <;> simp [validateFieldId, h]

lemma validateNulls_eq_ok {exp : Field} {col : Column α} : validateNulls lib exp col = .ok () ↔
      (exp.nullable = false → lib.nullCount col.data = 0) := by
  unfold validateNulls
  split_ifs with h
  · simp [h.1, h.2.ne']
  · simpa using h

/-- Against the schema they were decoded with, columns are checked for nulls only. -/
lemma validateColumns_self (i : Nat) (sch : ArrowSchema) (cols : List (Column α)) :
    validateColumns lib i sch (sch.zip cols) = .ok () ↔
      ∀ p ∈ sch.zip cols, p.1.nullable = false → lib.nullCount p.2.data = 0 := by
  induction sch generalizing i cols with
  | nil => simp [validateColumns]
  | cons exp rest ih =>
    cases cols with
    | nil => simp [validateColumns]
    | cons column more =>
      rw [List.zip_cons_cons, List.forall_mem_cons, ← ih (i + 1) more, ← validateNulls_eq_ok lib]
      simp only [validateColumns, validateName_self, validateDataType_self,
        validateFieldId_self, Lib.bind_eq_ok_iff]
      simp [Unique.exists_iff]

lemma validateBatch_self {b : ArrowBatch α} :
    validateBatch lib b b.schema = .ok () ↔ NoForbiddenNulls lib b.schema b.batch := by
  simp [validateBatch, validateColumns_self, NoForbiddenNulls]

/-- What a batch meets on its way. -/
structure Turn (F α : Type) where
  batchId : Uuid
  createdAtMs : Int
  reserving : TableBuffer F α
  append : TeoDBResult Unit
  inserting : TableBuffer F α

structure PutCtx where
  ident : TableIdent
  arrowSchema : ArrowSchema
  writerId : WriterId

structure PutResult where
  receipt : IngestReceipt
  backpressure : Bool
deriving DecidableEq

/-- What became of a message. -/
structure Ingested (F α : Type) where
  appended : Option (WalRecord α)
  result : Except Status PutResult
  buffer : TableBuffer F α

/-- A batch on its way into the log. -/
def Turn.ingestBatch (turn : Turn F α) (batch : RecordBatch α) : IngestBatch α :=
  ⟨turn.batchId, turn.createdAtMs, batch, none⟩

/-- Decode, validate and reserve: everything before the log. -/
def admitBatch (ctx : PutCtx) (turn : Turn F α) (data : FlightData H) :
    Except Status (PendingAppend α × TableBuffer F α) := do
  let b ← (flightDataToArrowBatch lib data ctx.arrowSchema).mapError
    fun e => Status.invalidArgument s!"batch decode error: {e}"
  (validateBatch lib b ctx.arrowSchema).mapError Status.of
  (beginAppend turn.reserving ctx.ident (turn.ingestBatch b.batch)).mapError Status.of

/-- Insert under the reservation, or release it when the log refused the record. -/
def settle (ctx : PutCtx) (turn : Turn F α) (pending : PendingAppend α) : Ingested F α :=
  match turn.append with
  | .error error =>
    ⟨some pending.record, .error (.of error),
      turn.inserting.releaseReservation pending.reservation⟩
  | .ok _ =>
    let (ok, buffer) := turn.inserting.insertReservedAt turn.batchId pending.reservation
      turn.createdAtMs pending.record.batch
    ⟨some pending.record, .ok ⟨⟨turn.batchId, ctx.writerId, ok.generation,
      pending.record.header.rowCount⟩, ok.backpressureSignal⟩, buffer⟩

def ingestFlightBatch (ctx : PutCtx) (turn : Turn F α) (data : FlightData H) : Ingested F α :=
  match admitBatch lib ctx turn data with
  | .error status => ⟨none, .error status, turn.reserving⟩
  | .ok (pending, _) => settle ctx turn pending

/-- The schema that is declared behind a message. -/
def FlightData.declares (data : FlightData H) (declared : Option ArrowSchema) :
    Option ArrowSchema :=
  match data.dataHeader with
  | .schema schema => some schema
  | _ => declared

/-- A record that was given to the log. -/
structure Appended (H α : Type) where
  declared : Option ArrowSchema
  data : FlightData H
  record : WalRecord α

/-- The effects of a stream: the records given to the log, and the answers. -/
structure PutEffects (H α : Type) where
  appended : List (Appended H α)
  results : List (Option ArrowSchema × Except Status PutResult)

/-- The answer of a message in front of the effects of the rest. -/
def PutEffects.before (declared : Option ArrowSchema) (data : FlightData H) (r : Ingested F α)
    (rest : PutEffects H α) : PutEffects H α :=
  ⟨(r.appended.map fun record => ⟨declared, data, record⟩).toList ++ rest.appended,
    (declared, r.result) :: rest.results⟩

/-- Messages, or an error of the transport, each with its turn. -/
abbrev Messages (H F α : Type) := List (Except String (FlightData H) × Turn F α)

/-- Take the messages one by one up to the first error. -/
def putStream (ctx : PutCtx) : Option ArrowSchema → Messages H F α → PutEffects H α
  | _, [] => ⟨[], []⟩
  | declared, (.error e, _) :: _ =>
    ⟨[], [(declared, .error (.internal s!"stream error: {e}"))]⟩
  | declared, (.ok data, turn) :: rest =>
    let declared := data.declares declared
    if data.dataBody = [] then putStream ctx declared rest
    else
      let r := ingestFlightBatch lib ctx turn data
      match r.result with
      | .error _ => .before declared data r ⟨[], []⟩
      | .ok _ => .before declared data r (putStream ctx declared rest)

/-- The table named by a path of two elements, or by one with a dot. -/
def parseDescriptor (desc : FlightDescriptor) : Except Status TableIdent :=
  match desc.path with
  | [] => .error (.invalidArgument
      "descriptor path must have at least 2 elements: [namespace, table]")
  | [full] =>
    match full.toList.span (· ≠ '.') with
    | (ns, _ :: tbl) => .ok ⟨String.ofList ns, String.ofList tbl⟩
    | (_, []) => .error (.invalidArgument s!"invalid table path: {full}")
  | ns :: tbl :: _ => .ok ⟨ns, tbl⟩

/-- The services as they answer one request. -/
structure PutServices where
  trim : String → String
  authorize : TableIdent → Except Status Unit
  /-- The current schema of the loaded buffer's metadata. -/
  getOrLoad : TableIdent → TeoDBResult (TeoDBResult SchemaDefinition)
  writerId : WriterId

/-- Where a request goes after its first message. -/
inductive PutRoute where
  | statement (sql : String)
  | ingest (ctx : PutCtx)

/-- Read the first message. -/
def route (services : PutServices) : Messages H F α → Except Status PutRoute
  | [] => .error (.invalidArgument "empty stream")
  | (.error e, _) :: _ => .error (.internal s!"stream error: {e}")
  | (.ok first, _) :: _ =>
    match first.flightDescriptor with
    | none => .error (.invalidArgument "missing flight descriptor")
    | some descriptor =>
      match descriptor.cmd with
      | some sql =>
        if services.trim sql = "" then
          .error (.invalidArgument "SQL statement must not be empty")
        else .ok (.statement sql)
      | none => do
        let ident ← parseDescriptor descriptor
        services.authorize ident
        let metadata ← (services.getOrLoad ident).mapError Status.of
        let schema ← metadata.mapError Status.of
        return .ingest ⟨ident, schemaToArrow schema, services.writerId⟩

/-- What a request does to the log and tells the client about batches. -/
def doPut (services : PutServices) (messages : Messages H F α) : Except Status (PutEffects H α) :=
  match route services messages with
  | .error status => .error status
  | .ok (.statement _) => .ok ⟨[], []⟩
  | .ok (.ingest ctx) => .ok (putStream lib ctx none messages)

/-- The names and types of the columns, in order. -/
def columnsOf (schema : ArrowSchema) : List (String × ArrowDataType) :=
  schema.map fun field => (field.name, field.dataType)

/-- The batches that were acknowledged. -/
def PutEffects.acknowledged (effects : PutEffects H α) : List PutResult :=
  effects.results.filterMap fun r => r.2.toOption

/-- The schema that is declared, if any, has the columns of the table. -/
def HasColumns (table : ArrowSchema) (declared : Option ArrowSchema) : Prop :=
  ∀ schema ∈ declared, columnsOf schema = columnsOf table

/-- The effects of a stream respect the declared schemas when no batch under one with other columns
is appended or acknowledged, and every appended batch has its columns under the declared names. -/
structure RespectsSchema (table : ArrowSchema) (effects : PutEffects H α) : Prop where
  appended : ∀ p ∈ effects.appended, HasColumns table p.declared
  acknowledged : ∀ r ∈ effects.results, r.2.isOk → HasColumns table r.1
  placed : ∀ p ∈ effects.appended, ∀ declared ∈ p.declared, ∀ sent,
    flightDataToArrowBatch lib p.data declared = .ok sent →
      namedColumns table p.record.batch = namedColumns declared sent.batch

/-- The message does not get as far as the log: it is refused, or finds no room in the buffer. -/
def StopsBeforeLog (ctx : PutCtx) (turn : Turn F α) (data : FlightData H) : Prop :=
  ∀ b, flightDataToArrowBatch lib data ctx.arrowSchema = .ok b →
    NoForbiddenNulls lib ctx.arrowSchema b.batch →
      ∀ r, turn.reserving.reserve b.batch ≠ .ok r

/-- Every batch that is reached has the columns of the table declared for it, or does not get as
far as the log. -/
def Conforms (ctx : PutCtx) : Option ArrowSchema → Messages H F α → Prop
  | _, [] => True
  | _, (.error _, _) :: _ => True
  | declared, (.ok data, turn) :: rest =>
    let declared := data.declares declared
    if data.dataBody = [] then Conforms ctx declared rest
    else (HasColumns ctx.arrowSchema declared ∨ StopsBeforeLog lib ctx turn data) ∧
      ∀ ok, (ingestFlightBatch lib ctx turn data).result = .ok ok → Conforms ctx declared rest

/-- Every stream for a table is handled as its declared schemas say. -/
def SchemaRespected (services : PutServices) (messages : Messages H F α) : Prop :=
  ∀ ctx effects, route services messages = .ok (.ingest ctx) →
    doPut lib services messages = .ok effects → RespectsSchema lib ctx.arrowSchema effects

section

variable {lib} {ctx : PutCtx} {turn : Turn F α} {data : FlightData H}

lemma flightDataToArrowBatch_eq_ok {sch : ArrowSchema} {b : ArrowBatch α} :
    flightDataToArrowBatch lib data sch = .ok b ↔
      b.schema = sch ∧ ∃ head, data.dataHeader = .recordBatch head ∧
        lib.decode (sch.map Field.dataType) head data.dataBody = .ok b.batch := by
  cases b with
  | mk o bt length =>
    cases hhea : data.dataHeader with
    | recordBatch head =>
      simp only [flightDataToArrowBatch, hhea]
      split
      next error h => simp [h]
      next decoded h => simp [h, eq_comm]
    | schema declared => simp [flightDataToArrowBatch, hhea]
    | other => simp [flightDataToArrowBatch, hhea]

/-- Schemas with the same columns name the columns of a message alike. -/
lemma namedColumns_eq {declared tbl : ArrowSchema} {b sent : ArrowBatch α}
    (hcol : columnsOf declared = columnsOf tbl) (hb : flightDataToArrowBatch lib data tbl = .ok b)
    (hs : flightDataToArrowBatch lib data declared = .ok sent) :
    namedColumns tbl b.batch = namedColumns declared sent.batch := by
  obtain ⟨-, header, hhea, hb⟩ := flightDataToArrowBatch_eq_ok.mp hb
  obtain ⟨-, o, hot, hs⟩ := flightDataToArrowBatch_eq_ok.mp hs
  have hnames : declared.map Field.name = tbl.map Field.name := by
    simpa [columnsOf, Function.comp_def] using congrArg (List.map Prod.fst) hcol
  have htypes : declared.map Field.dataType = tbl.map Field.dataType := by
    simpa [columnsOf, Function.comp_def] using congrArg (List.map Prod.snd) hcol
  have hsame : o = header := by simpa [hhea] using hot.symm
  rw [hsame, htypes, hb] at hs
  rw [namedColumns, namedColumns, hnames, Except.ok.inj hs]

/-- What a message that gets as far as the log has behind it. -/
lemma admitBatch_eq_ok {p : PendingAppend α × TableBuffer F α} :
    admitBatch lib ctx turn data = .ok p ↔
      ∃ b, flightDataToArrowBatch lib data ctx.arrowSchema = .ok b ∧
        NoForbiddenNulls lib ctx.arrowSchema b.batch ∧
          beginAppend turn.reserving ctx.ident (turn.ingestBatch b.batch) = .ok p := by
  simp only [admitBatch, Lib.bind_eq_ok_iff, Lib.mapError_eq_ok_iff, Unique.exists_iff]
  apply exists_congr
  intro b
  apply and_congr_right
  intro hb
  rw [← (flightDataToArrowBatch_eq_ok.mp hb).1]
  exact and_congr_left fun _ => validateBatch_self lib

lemma beginAppend_eq_ok {t : TableBuffer F α} {tbl : TableIdent} {b : IngestBatch α}
    {p : PendingAppend α × TableBuffer F α} : beginAppend t tbl b = .ok p ↔
      ∃ r, t.reserve b.batch = .ok r ∧ p = (⟨r.1, walRecord t tbl b r.1⟩, r.2) := by
  cases h : t.reserve b.batch with
  | error e => simp [beginAppend, h]
  | ok r => simp [beginAppend, h, eq_comm]

lemma stopsBeforeLog_iff :
    StopsBeforeLog lib ctx turn data ↔ ∀ p, admitBatch lib ctx turn data ≠ .ok p := by
  simp only [StopsBeforeLog, ne_eq, admitBatch_eq_ok, beginAppend_eq_ok, Turn.ingestBatch]
  constructor
  · rintro h p ⟨b, hb, hnul, r, hr, -⟩
    exact h b hb hnul r hr
  · intro h b hb hnul r hr
    exact h _ ⟨b, hb, hnul, r, hr, rfl⟩

/-- The record of a message holds what the schema of the table reads in it. -/
lemma appended_ingestFlightBatch {rc : WalRecord α}
    (h : (ingestFlightBatch lib ctx turn data).appended = some rc) :
    ∃ b, flightDataToArrowBatch lib data ctx.arrowSchema = .ok b ∧ rc.batch = b.batch := by
  cases hpas : admitBatch lib ctx turn data with
  | error status => simp [ingestFlightBatch, hpas] at h
  | ok p =>
    obtain ⟨b, hb, -, hbegin⟩ := admitBatch_eq_ok.mp hpas
    obtain ⟨r, -, rfl⟩ := beginAppend_eq_ok.mp hbegin
    refine ⟨b, hb, ?_⟩
    cases happ : turn.append with
    | error e =>
      simp only [ingestFlightBatch, hpas, settle, happ, Option.some.injEq] at h
      rw [← h]
      rfl
    | ok _ =>
      simp only [ingestFlightBatch, hpas, settle, happ, Option.some.injEq] at h
      rw [← h]
      rfl

lemma ingestFlightBatch_of_stops (h : StopsBeforeLog lib ctx turn data) :
    (ingestFlightBatch lib ctx turn data).appended = none ∧
      ∃ status, (ingestFlightBatch lib ctx turn data).result = .error status := by
  cases hpas : admitBatch lib ctx turn data with
  | error status => simp [ingestFlightBatch, hpas]
  | ok p => exact absurd hpas (stopsBeforeLog_iff.mp h p)

lemma appended_of_not_stops (h : ¬ StopsBeforeLog lib ctx turn data) :
    (ingestFlightBatch lib ctx turn data).appended ≠ none := by
  simp only [stopsBeforeLog_iff, not_forall, not_not] at h
  obtain ⟨p, hp⟩ := h
  cases happ : turn.append with
  | error e => simp [ingestFlightBatch, hp, settle, happ]
  | ok _ => simp [ingestFlightBatch, hp, settle, happ]

/-- A message that conforms goes in front of effects that respect the declared schemas. -/
lemma RespectsSchema.before {declared : Option ArrowSchema} {rest : PutEffects H α}
    (hmsg : HasColumns ctx.arrowSchema declared ∨ StopsBeforeLog lib ctx turn data)
    (hrest : RespectsSchema lib ctx.arrowSchema rest) : RespectsSchema lib ctx.arrowSchema
      (.before declared data (ingestFlightBatch lib ctx turn data) rest) := by
  rcases hmsg with hcol | hstops
  · have hnew : ∀ p, p ∈ ((ingestFlightBatch lib ctx turn data).appended.map
        fun record => (⟨declared, data, record⟩ : Appended H α)).toList →
        p.declared = declared ∧ p.data = data ∧
          (ingestFlightBatch lib ctx turn data).appended = some p.record := by
      intro p hp
      obtain ⟨rc, hrc, rfl⟩ := Option.map_eq_some_iff.mp (Option.mem_toList.mp hp)
      exact ⟨rfl, rfl, hrc⟩
    constructor
    · intro p hp
      rcases List.mem_append.mp hp with hp | hp
      · exact (hnew p hp).1 ▸ hcol
      · exact hrest.appended p hp
    · intro r hr hok
      rcases List.mem_cons.mp hr with rfl | hr
      · exact hcol
      · exact hrest.acknowledged r hr hok
    · intro p hp sch hsch sent hs
      rcases List.mem_append.mp hp with hp | hp
      · obtain ⟨hdec, hdata, hrc⟩ := hnew p hp
        obtain ⟨b, hb, hbt⟩ := appended_ingestFlightBatch hrc
        rw [hbt]
        exact namedColumns_eq (hcol sch (hdec ▸ hsch)) hb (hdata ▸ hs)
      · exact hrest.placed p hp sch hsch sent hs
  · obtain ⟨hn, status, herr⟩ := ingestFlightBatch_of_stops hstops
    simp only [PutEffects.before, hn, herr, Option.map_none, Option.toList_none, List.nil_append]
    refine ⟨hrest.appended, fun r hr hok => ?_, hrest.placed⟩
    rcases List.mem_cons.mp hr with rfl | hr
    · cases hok
    · exact hrest.acknowledged r hr hok

lemma respectsSchema_of_conforms {declared : Option ArrowSchema} {messages : Messages H F α}
    (h : Conforms lib ctx declared messages) :
    RespectsSchema lib ctx.arrowSchema (putStream lib ctx declared messages) := by
  have hnil : RespectsSchema lib ctx.arrowSchema (⟨[], []⟩ : PutEffects H α) :=
    ⟨by simp, by simp, by simp⟩
  fun_induction putStream lib ctx declared messages with
  | case1 => exact hnil
  | case2 declared e turn rest =>
    refine ⟨hnil.appended, fun r hr hok => ?_, hnil.placed⟩
    obtain rfl := List.mem_singleton.mp hr
    cases hok
  | case3 declared data turn rest sch hem ih =>
    exact ih (by simpa [Conforms, hem] using h)
  | case4 declared data turn rest sch hb r status hr =>
    simp only [Conforms, hb, if_false] at h
    exact hnil.before h.1
  | case5 declared data turn rest sch hb r result hr ih =>
    simp only [Conforms, hb, if_false] at h
    exact (ih (h.2 result hr)).before h.1

lemma conforms_of_appended {declared : Option ArrowSchema} {messages : Messages H F α}
    (h : ∀ p ∈ (putStream lib ctx declared messages).appended,
      HasColumns ctx.arrowSchema p.declared) : Conforms lib ctx declared messages := by
  -- a message that gets as far as the log is among the appended ones
  have hmsg : ∀ {turn : Turn F α} {data : FlightData H} {declared} {rest : PutEffects H α},
      (∀ p ∈ (PutEffects.before declared data (ingestFlightBatch lib ctx turn data) rest).appended,
        HasColumns ctx.arrowSchema p.declared) →
      HasColumns ctx.arrowSchema declared ∨ StopsBeforeLog lib ctx turn data := by
    intro turn data declared rest hp
    by_cases hstops : StopsBeforeLog lib ctx turn data
    · exact .inr hstops
    · obtain ⟨rc, hrc⟩ := Option.ne_none_iff_exists'.mp (appended_of_not_stops hstops)
      exact .inl (hp ⟨declared, data, rc⟩ (by simp [PutEffects.before, hrc]))
  fun_induction putStream lib ctx declared messages with
  | case1 => trivial
  | case2 => trivial
  | case3 declared data turn rest sch hem ih =>
    simpa [Conforms, hem] using ih h
  | case4 declared data turn rest sch hb r status hr =>
    simp only [Conforms, hb, if_false]
    exact ⟨hmsg h, fun ok hok => absurd (hr.symm.trans hok) (by simp)⟩
  | case5 declared data turn rest sch hb r result hr ih =>
    simp only [Conforms, hb, if_false]
    exact ⟨hmsg h, fun _ _ => ih fun p hp => h p (List.mem_append_right _ hp)⟩

end

/-- A stream is handled as its declared schemas say if and only if every batch that is reached has
the columns of the table declared for it, or does not get as far as the log. -/
theorem respectsSchema_iff (services : PutServices) (messages : Messages H F α) :
    SchemaRespected lib services messages ↔
      ∀ ctx, route services messages = .ok (.ingest ctx) → Conforms lib ctx none messages := by
  constructor
  · intro h ctx hrou
    apply conforms_of_appended
    exact (h ctx (putStream lib ctx none messages) hrou (by simp [doPut, hrou])).appended
  · intro h ctx effects hrou heff
    obtain rfl : putStream lib ctx none messages = effects := by simpa [doPut, hrou] using heff
    exact respectsSchema_of_conforms (h ctx hrou)

/-- A library whose batches hold one byte in each column. -/
def byteColumns : ArrowLib Unit UInt8 where
  decode types _ body :=
    if body.length = types.length then .ok ⟨body.map fun byte => ⟨byte, 1⟩, 1, body.length⟩
    else .error "wrong number of buffers"
  length_decode := by
    intro types header body batch h
    split_ifs at h with hlength
    cases h
    simpa using hlength
  nullCount _ := 0
  debug _ := ""

/-- A table with the columns `a` and `b`. -/
def twoColumns : SchemaDefinition :=
  ⟨0, [⟨1, "a", .int8, true, none⟩, ⟨2, "b", .int8, true, none⟩], []⟩

def openServices : PutServices :=
  ⟨id, fun _ => .ok (), fun _ => .ok (.ok twoColumns), default⟩

def emptyTable : TableBuffer Unit UInt8 :=
  .new ⟨"ns", "t"⟩ ⟨.ofNat 7, none, 0, [], Lib.OrdMap.empty⟩ 0 100 80
    Lib.MachineInt.hundred_le_u64Max

def quietTurn : Turn Unit UInt8 :=
  ⟨.ofNat 1, 0, emptyTable, .ok (), emptyTable⟩

/-- The schema of a client that sends `b` before `a`. -/
def swappedSchema : ArrowSchema :=
  [⟨"b", .int8, true, none⟩, ⟨"a", .int8, true, none⟩]

def swappedMessages : Messages Unit Unit UInt8 :=
  [(.ok ⟨some ⟨none, ["ns", "t"]⟩, .other, []⟩, quietTurn),
    (.ok ⟨none, .schema swappedSchema, []⟩, quietTurn),
    (.ok ⟨none, .recordBatch (), [10, 20]⟩, quietTurn)]

/-- The values of the appended batches under the names of the table. -/
def appendedValues (effects : PutEffects Unit UInt8) : List (List (String × UInt8)) :=
  effects.appended.map fun p =>
    (namedColumns (schemaToArrow twoColumns) p.record.batch).map fun c => (c.1, c.2.data)

/-- The client sends 10 as `b` and 20 as `a`. The batch is acknowledged, and the table
holds 10 as `a` and 20 as `b`. -/
theorem swapped_columns_are_accepted :
    ((doPut byteColumns openServices swappedMessages).map appendedValues =
        .ok [[("a", 10), ("b", 20)]] ∧
      (doPut byteColumns openServices swappedMessages).map (·.acknowledged.length) = .ok 1) ∧
    ¬ SchemaRespected byteColumns openServices swappedMessages := by
  refine ⟨by decide, fun h => ?_⟩
  have hres := h ⟨⟨"ns", "t"⟩, schemaToArrow twoColumns, default⟩ _ rfl rfl
  exact absurd (hres.appended _ List.mem_cons_self swappedSchema rfl) (by decide)

end TeoDB.Api.Flight
