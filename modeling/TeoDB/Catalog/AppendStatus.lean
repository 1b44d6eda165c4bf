import TeoDB.Catalog.Publication

/-!
# Whether an append has landed

After an ambiguous answer, and during recovery, a writer asks the catalog for the
exact identity of its append. The answer is read from the snapshots and from the
writer's own checkpoint.
-/

namespace TeoDB.Catalog

open TeoDB.Core Lib Lib.MachineInt Storage.Wal

section

variable {F L P : Type} (env : CatalogEnv F L P)

/-- The status of an append by what the catalog loads for its table. -/
def resolveAppendStatus (request : CommitAppend F) (loaded : TeoDBResult (TableMetadata × L)) :
    TeoDBResult CommitStatus :=
  match request.identity.validate request.table request.tableUuid with
  | .error error => .error error
  | .ok _ =>
    match loaded with
    | .error (.notFound _) => .ok .notCommitted
    | .error error => .ok (.unknown (error.display env.codec.uuidToString))
    | .ok (metadata, layout) =>
      if metadata.tableUuid ≠ request.tableUuid then
        .error (.tableIncarnationMismatch request.table request.tableUuid metadata.tableUuid)
      else
        match exactSnapshot env request metadata.snapshots with
        | .error error => .error error
        | .ok foundInHistory =>
          match validateWriterCheckpoints env.codec request.table metadata.properties with
          | .error error => .error error
          | .ok _ =>
            match parseWriterCheckpoint env.codec request.table metadata.properties
                request.identity.writerId with
            | .error error => .error error
            | .ok checkpoint =>
              match exactCheckpoint env request checkpoint with
              | .error message => .error (.metadataCorruption request.table message)
              | .ok foundInCheckpoint =>
                if foundInHistory || foundInCheckpoint then
                  (env.icebergToTeoMetadata request.table layout).map fun _ =>
                    .committed metadata
                else .ok .notCommitted

variable {env} {req : CommitAppend F} {md : TableMetadata}

/-- A committed status comes from a table that was loaded. -/
theorem loaded_of_committed {ld : TeoDBResult (TableMetadata × L)} {reported : TableMetadata}
    (h : resolveAppendStatus env req ld = .ok (.committed reported)) :
    ∃ md layout, ld = .ok (md, layout) := by
  cases ld with
  | ok tbl => exact ⟨tbl.1, tbl.2, rfl⟩
  | error e =>
    unfold resolveAppendStatus at h
    split at h
    · cases h
    · cases e <;> cases h

/-- A committed status is about the incarnation that the append was meant for. -/
theorem tableUuid_of_committed {ld : TeoDBResult (TableMetadata × L)} {reported : TableMetadata}
    (h : resolveAppendStatus env req ld = .ok (.committed reported)) :
    reported.tableUuid = req.tableUuid := by
  obtain ⟨md, layout, rfl⟩ := loaded_of_committed h
  unfold resolveAppendStatus at h
  split at h
  · cases h
  dsimp only at h
  split_ifs at h with hu
  split at h
  · cases h
  split at h
  · cases h
  split at h
  · cases h
  split at h
  · cases h
  split_ifs at h
  · cases hdom : env.icebergToTeoMetadata req.table layout with
    | error e =>
      rw [hdom] at h
      cases h
    | ok u =>
      rw [hdom] at h
      cases h
      exact not_not.mp hu
  · cases h

end

end TeoDB.Catalog
