import TeoDB.Core.Ident

/-!
# The error type shared by all components

The variants and their data are those of the source. An error that the source
keeps as a boxed cause is represented by its text.
-/

namespace TeoDB.Core

inductive TeoDBError where
  | config (message : String)
  | invalidArgument (field message : String)
  | notFound (resource : String)
  | alreadyExists (resource : String)
  | conflict (resource expected actual : String)
  | commitStateUnknown (table : TableIdent) (commitId : CommitId) (message : String)
  | flushBlocked (table : TableIdent) (commitId : CommitId)
  | staleWriterEpoch (table : TableIdent) (writerId : WriterId)
      (requestEpoch currentEpoch : WriterEpoch)
  | writerRegistryFull (table : TableIdent) (limit : Nat)
  | metadataCorruption (table : TableIdent) (message : String)
  | tableIncarnationMismatch (table : TableIdent) (expected actual : Uuid)
  | writeProtocol (table : TableIdent) (message : String)
  | unauthorized
  | forbidden (message : String)
  | rateLimited (retryAfterMs : Nat)
  | backpressure (message : String)
  | resultTooLarge (limitBytes : Nat)
  | unavailable (message : String)
  | objectStore (cause : String)
  | catalog (message : String)
  | parquet (message : String)
  | arrow (message : String)
  | dataFusion (message : String)
  | queryExecution (message : String)
  | iceberg (message : String)
  | wal (message : String) (cause : Option String)
  | internal (message : String)
  | externalRetryable (message : String)
  | externalFatal (message : String)
deriving DecidableEq

abbrev TeoDBResult (α : Type*) := Except TeoDBError α

namespace TeoDBError

/-- The text of an error, given how identifiers are printed. -/
def display (uuidToString : Uuid → String) : TeoDBError → String
  | config message => s!"config: {message}"
  | invalidArgument field message => s!"invalid argument: {field}: {message}"
  | notFound resource => s!"not found: {resource}"
  | alreadyExists resource => s!"already exists: {resource}"
  | conflict resource expected actual =>
    s!"conflict on {resource}: expected {expected}, found {actual}"
  | commitStateUnknown table commitId message =>
    s!"commit state unknown for {table} (commit {uuidToString commitId.uuid}): {message}"
  | flushBlocked table commitId =>
    s!"flush blocked for {table} while resolving commit {uuidToString commitId.uuid}"
  | staleWriterEpoch table writerId requestEpoch currentEpoch =>
    s!"stale writer epoch for {table}: writer {uuidToString writerId.uuid} requested epoch " ++
      s!"{requestEpoch.value}, current epoch is {currentEpoch.value}"
  | writerRegistryFull table limit =>
    s!"writer checkpoint registry full for {table} (limit {limit})"
  | metadataCorruption table message =>
    s!"protocol metadata corruption for {table}: {message}"
  | tableIncarnationMismatch table expected actual =>
    s!"table incarnation mismatch for {table}: expected {uuidToString expected}, " ++
      s!"found {uuidToString actual}"
  | writeProtocol table message => s!"write protocol violation for {table}: {message}"
  | unauthorized => "unauthorized"
  | forbidden message => s!"forbidden: {message}"
  | rateLimited retryAfterMs => s!"rate limited; retry after {retryAfterMs}ms"
  | backpressure message => s!"backpressure: {message}"
  | resultTooLarge limitBytes =>
    s!"encoded result exceeds {limitBytes} byte limit; use Arrow Flight for large results"
  | unavailable message => s!"unavailable: {message}"
  | objectStore cause => s!"object store: {cause}"
  | catalog message => s!"catalog: {message}"
  | parquet message => s!"parquet: {message}"
  | arrow message => s!"arrow: {message}"
  | dataFusion message => s!"datafusion: {message}"
  | queryExecution message => s!"query execution: {message}"
  | iceberg message => s!"iceberg: {message}"
  | wal message _ => s!"wal: {message}"
  | internal message => s!"internal: {message}"
  | externalRetryable message => s!"retryable external error: {message}"
  | externalFatal message => s!"fatal external error: {message}"

/-- The stable name of an error class. -/
def code : TeoDBError → String
  | config _ => "Config"
  | invalidArgument _ _ => "InvalidArgument"
  | notFound _ => "NotFound"
  | alreadyExists _ => "AlreadyExists"
  | conflict _ _ _ => "Conflict"
  | commitStateUnknown _ _ _ => "CommitStateUnknown"
  | flushBlocked _ _ => "FlushBlocked"
  | staleWriterEpoch _ _ _ _ => "StaleWriterEpoch"
  | writerRegistryFull _ _ => "WriterRegistryFull"
  | metadataCorruption _ _ => "MetadataCorruption"
  | tableIncarnationMismatch _ _ _ => "TableIncarnationMismatch"
  | writeProtocol _ _ => "WriteProtocol"
  | unauthorized => "Unauthorized"
  | forbidden _ => "Forbidden"
  | rateLimited _ => "RateLimited"
  | backpressure _ => "Backpressure"
  | resultTooLarge _ => "ResultTooLarge"
  | unavailable _ => "Unavailable"
  | objectStore _ => "ObjectStore"
  | catalog _ => "Catalog"
  | parquet _ => "Parquet"
  | arrow _ => "Arrow"
  | dataFusion _ => "DataFusion"
  | queryExecution _ => "QueryExecution"
  | iceberg _ => "Iceberg"
  | wal _ _ => "Wal"
  | internal _ => "Internal"
  | externalRetryable _ => "ExternalRetryable"
  | externalFatal _ => "ExternalFatal"

def isRetryable : TeoDBError → Bool
  | conflict _ _ _ | commitStateUnknown _ _ _ | flushBlocked _ _ | rateLimited _ | backpressure _
  | unavailable _ | objectStore _ | externalRetryable _ => true
  | _ => false

end TeoDBError

end TeoDB.Core
