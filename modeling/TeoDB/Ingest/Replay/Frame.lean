import TeoDB.Ingest.Flush.Ownership

/-!
# What recovery leaves alone

Most of recovery only changes the registered buffers and waits for routine answers. A frame is a
predicate that such steps keep. It has a part for a recovery that goes on, that is loading a table
and that ends with an error. The flusher and the resolution of intents keep every frame.
-/

namespace TeoDB.Ingest.Replay

open TeoDB.Core Lib Lib.Async Catalog Storage.Wal Ingest.Buffer
  Ingest.Flush

variable {F α S : Type}

/-- The calls that neither load a table nor read or write the log's records. -/
def routine : Call F α → Bool
  | .loadTable _ | .appendDropTombstone _ | .prepareReplayAll | .listPrepared | .nextRecord => false
  | _ => true

lemma routine_of_builds {c : Call F α} (h : builds c = true) : routine c = true := by
  cases c <;> first | rfl | cases h

lemma routine_of_ticks {c : Call F α} (h : ticks c = true) : routine c = true := by
  cases c <;> first | rfl | cases h

/-- What holds while recovery goes on, while it loads a table, and after an error. -/
structure Frame (S : Type) where
  idle : S → Prop
  loading : TableIdent → S → Prop
  failed : S → Prop

/-- The frame only depends on what recovery does to other things than the buffers. -/
structure Frame.Rules (J : Frame S) (answers : S → (c : Call F α) → Answer c → S → Prop)
    (here : Ref S (RecoveryState F α)) : Prop where
  idle_loading : ∀ table s, J.idle s → J.loading table s
  loading_failed : ∀ table s, J.loading table s → J.failed s
  idle_failed : ∀ {s}, J.idle s → J.failed s
  idle_buffers : ∀ s buffers, J.idle s →
    J.idle (here.set s { here.get s with buffers := buffers })
  failed_buffers : ∀ s buffers, J.failed s →
    J.failed (here.set s { here.get s with buffers := buffers })
  answer : ∀ s c a s', J.idle s → routine c = true → answers s c a s' → J.idle s' ∧ Plain c a
  load : ∀ s table a s', J.loading table s → answers s (.loadTable table) a s' →
    J.loading table s' ∧ ∀ m, a = .ok m → J.idle s'
  reload : ∀ s table a s', J.failed s → answers s (.loadTable table) a s' → J.failed s'

namespace Frame

variable {J : Frame S} {answers : S → (c : Call F α) → Answer c → S → Prop}
  {here : Ref S (RecoveryState F α)} {s : S}

/-- The end of a program that keeps the frame. -/
def ended {β : Type} (J : Frame S) : TeoDBResult β → S → Prop := ends (fun _ => J.idle) J.failed

/-- The phases of a flush inside a frame. -/
def phases (J : Frame S) : Phases S F α where
  idle := J.idle
  failed := J.failed
  unowned := J.idle
  drained _ := J.idle
  owned _ := J.idle
  ready _ := J.idle
  confirmed _ _ := J.idle
  published _ := J.idle
  rejected _ := J.idle
  removed _ := J.idle

namespace Rules

variable (rules : J.Rules answers here)

include rules

lemma call_bind {β : Type} {c : Call F α} {k : Answer c → Prog F α S β}
    {Q : TeoDBResult β → S → Prop} (hc : routine c = true) (h : J.idle s)
    (hk : ∀ a s', J.idle s' → wp (.alone answers) Q (k a) s') :
    wp (.alone answers) Q (call c >>= k) s :=
  wp_alone_request_bind.mpr fun a s' ha => hk a s' (rules.answer s c a s' h hc ha).1

lemma answered {s' : S} {c : Call F α} {a : Answer c} (h : J.idle s)
    (ha : (Setting.alone (I := io F α) answers).answers s c a s') (hc : routine c = true) :
    J.idle s' ∧ Plain c a :=
  rules.answer s c a s' h hc ha

variable {cfg : ReplayConfig F} {ident : TableIdent} {fallback : TableBuffer F α}

lemma retryLoadTable_spec (tries : Nat) (h : J.loading ident s) :
    wp (.alone answers) J.ended (retryLoadTable ident tries) s := by
  induction tries generalizing s with
  | zero =>
    refine wp_alone_request_bind.mpr fun a s' ha => ?_
    obtain ⟨hloa, hi⟩ := rules.load s ident a s' h ha
    cases a with
    | ok m => exact hi m rfl
    | error e => exact rules.loading_failed ident s' hloa
  | succ tries ih =>
    refine wp_alone_request_bind.mpr fun a s' ha => ?_
    obtain ⟨hloa, hi⟩ := rules.load s ident a s' h ha
    cases a with
    | ok m => exact hi m rfl
    | error e =>
      dsimp only
      split
      · exact ih hloa
      · exact rules.loading_failed ident s' hloa

lemma seedBuffer_spec (m : TableMetadata) (cp : Option WriterCheckpoint)
    (h : J.idle s) : wp (.alone answers) J.ended (seedBuffer here cfg ident m cp) s := by
  refine rules.call_bind rfl h fun _ s hs => wp_alone_ref_perform.mpr ?_
  unfold getOrInsert
  cases (here.get s).buffers ident with
  | some ex => exact rules.idle_buffers s (here.get s).buffers hs
  | none => exact rules.idle_buffers s _ hs

lemma getOrLoad_spec (h : J.idle s) :
    wp (.alone answers) J.ended (getOrLoad here cfg ident) s := by
  refine wp_bind.mpr (wp_alone_read.mpr ?_)
  simp only [andThen_ok]
  cases (here.get s).buffers ident with
  | some buffer => exact h
  | none =>
    refine wp_bind_of (rules.retryLoadTable_spec 3 (rules.idle_loading ident s h)) fun m s hs => ?_
    refine wp_lift_bind (fun _ _ => ?_) fun _ _ => rules.idle_failed hs
    refine rules.call_bind rfl hs fun idn s hs => ?_
    refine wp_lift_bind (fun cp _ => ?_) fun _ _ => rules.idle_failed hs
    cases cp with
    | none => exact rules.seedBuffer_spec m none hs
    | some cp =>
      refine rules.call_bind rfl hs fun a s hs => ?_
      refine wp_lift_bind (fun _ _ => ?_) fun _ _ => rules.idle_failed hs
      exact rules.seedBuffer_spec m (some cp) hs

lemma insertRecord_spec (rc : WalRecord α) (h : J.idle s) : wp (.alone answers) J.ended
    (insertRecord (bufferAt here ident fallback) rc) s := by
  unfold insertRecord BufferRef.insertWithGenerationAt
  exact wp_alone_update (fun _ _ => rules.idle_failed h) fun _ _ => rules.idle_buffers s _ h

lemma observeEpochs_spec {tgs : List Target} (h : J.idle s) :
    wp (.alone answers) J.ended (observeEpochs (F := F) (α := α) tgs) s := by
  unfold observeEpochs
  cases maxObservedEpoch tgs with
  | none => exact h
  | some epoch =>
    refine rules.call_bind rfl h fun a s hs => ?_
    exact wp_lift_bind (fun _ _ => hs) fun _ _ => rules.idle_failed hs

variable (ident fallback) in
lemma phases_rules [BEq F] :
    (J.phases (F := F) (α := α)).Rules (.alone answers) (bufferAt here ident fallback) where
  idle_stable := alone_stable
  failed_stable := alone_stable
  unowned_stable := alone_stable
  drained_stable _ := alone_stable
  owned_stable _ := alone_stable
  ready_stable _ := alone_stable
  confirmed_stable _ _ := alone_stable
  published_stable _ := alone_stable
  rejected_stable _ := alone_stable
  removed_stable _ := alone_stable
  reloaded_stable _ := alone_stable
  idle_failed _ := rules.idle_failed
  drained_idle _ _ h := h
  ready_failed _ _ := rules.idle_failed
  confirmed_failed _ _ _ := rules.idle_failed
  rejected_failed _ _ := rules.idle_failed
  removed_failed _ _ := rules.idle_failed
  blocked _ h := ⟨trivial, fun _ _ => h⟩
  prepared _ h := ⟨trivial, fun _ _ => h, fun _ => h⟩
  drain s h := ⟨trivial, rules.idle_buffers s _ h⟩
  build _ s c h hc := ⟨trivial, fun a s' ha => (rules.answered h ha (routine_of_builds hc)).1⟩
  metadata _ _ _ := trivial
  rollback _ s h := ⟨trivial, fun _ _ => rules.idle_failed (rules.idle_buffers s _ h)⟩
  install _ _ s h := ⟨trivial, fun _ _ => rules.idle_buffers s _ h⟩
  persist _ s h := ⟨trivial, fun a s' ha =>
    have hs' := (rules.answered h ha rfl).1
    ⟨rules.idle_failed hs', fun _ => hs'⟩⟩
  commit p s h := by
    refine ⟨trivial, fun a s' ha => ?_⟩
    have hs' := (rules.answered h ha rfl).1
    cases a with
    | ok m => exact hs'
    | error e =>
      simp only [Phases.answered]
      cases commitReaction e <;> exact hs'
  check p s h := by
    refine ⟨trivial, fun a s' ha => ?_⟩
    have hs' := (rules.answered h ha rfl).1
    cases a with
    | error e => exact hs'
    | ok status => cases status <;> exact hs'
  tick_ready _ s c h hc := ⟨trivial, fun a s' ha => (rules.answered h ha (routine_of_ticks hc)).1⟩
  tick_confirmed _ _ s h := ⟨trivial, fun a s' ha => (rules.answered h ha rfl).1⟩
  complete _ _ _ _ s h := ⟨trivial, fun _ _ => rules.idle_buffers s _ h⟩
  advance _ _ s h := ⟨trivial, fun a s' ha => (rules.answered h ha rfl).1⟩
  cleanup _ s h := ⟨trivial, fun a s' ha => (rules.answered h ha rfl).1⟩
  gc s h := ⟨trivial, fun a s' ha => (rules.answered h ha rfl).1⟩
  observeEpoch _ _ s h := ⟨trivial, fun a s' ha => rules.answered h ha rfl⟩
  remove _ s h := ⟨trivial, fun a s' ha =>
    have hs' := rules.answered h ha rfl
    ⟨rules.idle_failed hs'.1, fun _ => hs'.1, hs'.2⟩⟩
  fail _ s h := ⟨trivial, fun _ _ => rules.idle_failed (rules.idle_buffers s _ h)⟩
  block _ _ _ _ _ s h := ⟨trivial, fun _ _ => rules.idle_buffers s _ h⟩
  recheck _ _ _ _ s h := ⟨trivial, rules.idle_buffers s _ h⟩
  reload s h := by
    refine ⟨trivial, fun a s' ha => ?_⟩
    have hs' := rules.reload s _ a s' h ha
    cases a <;> exact hs'
  refresh _ s h := ⟨trivial, rules.failed_buffers s _ h⟩

variable [BEq F] {p : PreparedFlush F}

lemma flushOnce_spec (h : J.idle s) : wp (.alone answers) J.ended
    (flushOnce (bufferAt here ident fallback) cfg.toFlushConfig) s :=
  (rules.phases_rules ident fallback).flushOnce_spec h

lemma completePrepared_spec (m : TableMetadata) (h : J.idle s) : wp (.alone answers) J.ended
    (completePrepared (bufferAt here ident fallback) p m) s := by
  refine wp_bind_of (R := fun _ => J.idle) (P := J.failed) ?_ fun _ s hs => ?_
  · refine wp_mono (fun r s hr => ?_) ((rules.phases_rules ident fallback).markCommitted_spec m h)
    rcases hr with ⟨rfl, hs⟩ | ⟨e, rfl, hs⟩
    · exact hs
    · exact hs.1
  · refine rules.call_bind rfl hs fun _ s hs => ?_
    refine rules.call_bind rfl hs fun a s hs => ?_
    cases a with
    | ok u => exact hs
    | error e => exact rules.idle_failed hs

lemma markFlushBlocked_spec (err errorClass : String) (n : Nat) (h : J.idle s) :
    wp (.alone answers) J.ended
      ((bufferAt here ident fallback).markFlushBlockedWithClass p err errorClass n) s :=
  wp_mono (fun _ _ => Phases.ended_of_over)
    ((rules.phases_rules ident fallback).markFlushBlockedWithClass_spec _ _ _ h)

lemma resolvePrepared_spec (h : J.idle s) : wp (.alone answers) J.ended
    (resolvePrepared cfg (bufferAt here ident fallback) p) s := by
  refine wp_bind.mpr (wp_alone_read.mpr ?_)
  refine wp_lift_bind (fun _ _ => ?_) fun _ _ => rules.idle_failed h
  refine wp_bind.mpr (wp_alone_ref_perform.mpr ?_)
  have hs := rules.idle_buffers s (Function.update (here.get s).buffers ident
    (some (((bufferAt here ident fallback).get s).restorePrepared p).2)) h
  cases (((bufferAt here ident fallback).get s).restorePrepared p).1 with
  | error e => exact rules.idle_failed hs
  | ok u =>
    refine rules.call_bind rfl hs fun a s hs => ?_
    cases a with
    | error err => exact rules.markFlushBlocked_spec _ _ _ hs
    | ok status =>
      cases status with
      | committed m => exact rules.completePrepared_spec m hs
      | unknown msg => exact rules.markFlushBlocked_spec _ _ _ hs
      | notCommitted =>
        refine rules.call_bind rfl hs fun a s hs => ?_
        cases a with
        | ok m => exact rules.completePrepared_spec m hs
        | error err =>
          cases hm : ambiguity err with
          | some msg =>
            simp only [hm]
            exact rules.markFlushBlocked_spec _ _ _ hs
          | none =>
            simp only [hm]
            exact rules.markFlushBlocked_spec _ _ _ hs

lemma flushTable_spec (h : J.idle s) :
    wp (.alone answers) J.ended (flushTable here cfg ident) s := by
  refine wp_bind.mpr (wp_alone_read.mpr ?_)
  simp only [andThen_ok]
  cases (here.get s).buffers ident with
  | some buffer => exact rules.flushOnce_spec h
  | none =>
    refine wp_alone_request_bind.mpr fun a s' ha => ?_
    obtain ⟨hloa, hi⟩ := rules.load s ident a s' (rules.idle_loading ident s h) ha
    cases a with
    | ok m => exact hi m rfl
    | error e => exact rules.loading_failed ident s' hloa

/-- A record that is not inserted leaves the frame as it is. -/
theorem insertReplayed_spec {prep : List (PreparedFlush F)} {uuid : Uuid}
    {rc : WalRecord α} (h : J.idle s) : wp (.alone answers) J.ended
      (insertReplayed here cfg (bufferAt here ident fallback) prep uuid rc) s := by
  refine wp_bind.mpr (wp_attempt.mpr ?_)
  unfold insertRecord BufferRef.insertWithGenerationAt
  refine wp_alone_update (fun error _ => ?_) fun _ _ => rules.idle_buffers s _ h
  simp only [andThen_ok]
  split
  · refine wp_bind_of (rules.flushTable_spec h) fun out s hs => ?_
    cases out with
    | empty => exact rules.idle_failed hs
    | committed genLo genHi recordCount => exact rules.insertRecord_spec rc hs
  · exact rules.idle_failed h

lemma resolveReached_spec {prep : List (PreparedFlush F)} {uuid : Uuid}
    {gen : Nat} (h : J.idle s) : wp (.alone answers) J.ended
      (resolveReached cfg (bufferAt here ident fallback) prep uuid gen) s := by
  unfold resolveReached
  cases findPrepared prep uuid with
  | none => exact h
  | some intent =>
    dsimp only
    split
    · exact wp_bind_of (rules.resolvePrepared_spec h) fun _ _ hs => hs
    · exact h

lemma resolveRemaining_spec {it : PreparedFlush F} (h : J.idle s) :
    wp (.alone answers) J.ended (resolveRemaining here cfg it) s :=
  wp_bind_of (rules.getOrLoad_spec h) fun _ _ hs => rules.resolvePrepared_spec hs

end Rules

end Frame

end TeoDB.Ingest.Replay
