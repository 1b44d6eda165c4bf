import TeoDB.Ingest.Flush

/-!
# The phases of a flush

`Phases` names what holds in each phase of a flush and `Rules` says how one action or answer leads
from a phase to the next. Every program of the flusher then leads from an idle state to an idle
state, or fails, and shows what the rules show on the way.
-/

namespace TeoDB.Ingest.Flush

open TeoDB.Core Lib Lib.Async Catalog Storage.Wal Ingest.Buffer

variable {F α S : Type}

/-- What holds of the state in each phase. -/
structure Phases (S F α : Type) where
  idle : S → Prop
  failed : S → Prop
  unowned : S → Prop
  drained : List (BufferEntry α) → S → Prop
  owned : PreparedFlush F → S → Prop
  ready : PreparedFlush F → S → Prop
  confirmed : PreparedFlush F → TableMetadata → S → Prop
  published : PreparedFlush F → S → Prop
  rejected : PreparedFlush F → S → Prop
  removed : PreparedFlush F → S → Prop
  reloaded : TableMetadata → S → Prop := fun _ => failed

/-- The calls that a flush makes while it builds an intent. -/
def builds : Call F α → Bool
  | .writerIdentity | .commitIdNow | .writeFlushDataFiles _ _ _ | .timestampMillis => true
  | _ => false

/-- The calls that only take time. -/
def ticks : Call F α → Bool
  | .instantNow | .timestampMillis | .sleep _ => true
  | _ => false

/-- The phase after a publication attempt. -/
def Phases.answered (P : Phases S F α) (p : PreparedFlush F) :
    TeoDBResult TableMetadata → S → Prop
  | .ok m => P.confirmed p m
  | .error error =>
    match commitReaction error with
    | .keep | .block => P.ready p
    | .fence _ | .retire => P.rejected p

/-- The phase after a status check. -/
def Phases.checked (P : Phases S F α) (p : PreparedFlush F) : TeoDBResult CommitStatus → S → Prop
  | .ok (.committed m) => P.confirmed p m
  | _ => P.ready p

/-- The phase after the table is loaded again. -/
def Phases.refetched (P : Phases S F α) : TeoDBResult TableMetadata → S → Prop
  | .ok m => P.reloaded m
  | .error _ => P.failed

/-- The end of a program that leaves the table idle or fails. -/
def Phases.ended {β : Type} (P : Phases S F α) : TeoDBResult β → S → Prop :=
  ends (fun _ => P.idle) P.failed

/-- The end of a program that fails only with errors that are not ambiguous. -/
def Phases.over {β : Type} (P : Phases S F α) : TeoDBResult β → S → Prop
  | .ok _, s => P.idle s
  | .error error, s => P.failed s ∧ ambiguity error = none

/-- The end of a publication attempt. After an ambiguous answer the intent can be
resumed. -/
def Phases.attempted {β : Type} (P : Phases S F α) (p : PreparedFlush F) :
    TeoDBResult β → S → Prop
  | .ok _, s => P.idle s
  | .error error, s => P.failed s ∧ (ambiguity error ≠ none → P.ready p s)

/-- The end of a program that is followed by an error. -/
def Phases.lost {β : Type} (P : Phases S F α) : TeoDBResult β → S → Prop
  | .ok _, s => P.failed s
  | .error error, s => P.failed s ∧ ambiguity error = none

lemma Phases.attempted_of_over {β : Type} {P : Phases S F α} {p : PreparedFlush F}
    {r : TeoDBResult β} {s : S} (h : P.over r s) : P.attempted p r s := by
  cases r with
  | ok b => exact h
  | error e => exact ⟨h.1, fun hne => absurd h.2 hne⟩

lemma Phases.ended_of_over {β : Type} {P : Phases S F α} {r : TeoDBResult β} {s : S}
    (h : P.over r s) : P.ended r s := by
  cases r with
  | ok b => exact h
  | error e => exact h.1

/-- How one action or answer leads from a phase to the next. -/
structure Phases.Rules [BEq F] (P : Phases S F α) (E : Setting (io F α) S)
    (buffer : BufferRef S F α) : Prop where
  idle_stable : E.Stable P.idle
  failed_stable : E.Stable P.failed
  unowned_stable : E.Stable P.unowned
  drained_stable : ∀ entries, E.Stable (P.drained entries)
  owned_stable : ∀ p, E.Stable (P.owned p)
  ready_stable : ∀ p, E.Stable (P.ready p)
  confirmed_stable : ∀ p m, E.Stable (P.confirmed p m)
  published_stable : ∀ p, E.Stable (P.published p)
  rejected_stable : ∀ p, E.Stable (P.rejected p)
  removed_stable : ∀ p, E.Stable (P.removed p)
  reloaded_stable : ∀ m, E.Stable (P.reloaded m)
  idle_failed : ∀ s, P.idle s → P.failed s
  drained_idle : ∀ entries s, P.drained entries s → P.idle s
  ready_failed : ∀ p s, P.ready p s → P.failed s
  confirmed_failed : ∀ p m s, P.confirmed p m s → P.failed s
  rejected_failed : ∀ p s, P.rejected p s → P.failed s
  removed_failed : ∀ p s, P.removed p s → P.failed s
  blocked : ∀ s, P.idle s → E.visible s (.act .blockedFlush) ∧
    ∀ b, (buffer.get s).blockedFlush = some b → P.ready b.prepared s
  prepared : ∀ s, P.idle s → E.visible s (.act .preparedFlush) ∧
    (∀ p, (buffer.get s).preparedFlush = some p → P.owned p s) ∧
    ((buffer.get s).preparedFlush = none → P.unowned s)
  drain : ∀ s, P.unowned s → E.visible s (.act .drainPendingToInFlight) ∧
    P.drained (buffer.get s).drainPendingToInFlight.1
      (buffer.set s (buffer.get s).drainPendingToInFlight.2)
  build : ∀ entries s c, P.drained entries s → builds c = true → E.visible s (.call c) ∧
    ∀ a s', E.answers s c a s' → P.drained entries s'
  metadata : ∀ entries s, P.drained entries s → E.visible s (.act .metadata)
  rollback : ∀ entries s, P.drained entries s → E.visible s (.act .rollbackUnpreparedFlush) ∧
    ∀ t, (buffer.get s).rollbackUnpreparedFlush = .ok t → P.failed (buffer.set s t)
  install : ∀ entries p s, P.drained entries s → E.visible s (.act (.setPrepared p)) ∧
    ∀ t, (buffer.get s).setPrepared p = .ok t → P.owned p (buffer.set s t)
  persist : ∀ p s, P.owned p s → E.visible s (.call (.persistPrepared p)) ∧
    ∀ a s', E.answers s (.persistPrepared p) a s' → P.failed s' ∧ (a = .ok () → P.ready p s')
  commit : ∀ p s, P.ready p s → E.visible s (.call (.commitAppend (buildCommitRequest p))) ∧
    ∀ a s', E.answers s (.commitAppend (buildCommitRequest p)) a s' → P.answered p a s'
  check : ∀ p s, P.ready p s → E.visible s (.call (.checkAppendStatus (buildCommitRequest p))) ∧
    ∀ a s', E.answers s (.checkAppendStatus (buildCommitRequest p)) a s' → P.checked p a s'
  tick_ready : ∀ p s c, P.ready p s → ticks c = true → E.visible s (.call c) ∧
    ∀ a s', E.answers s c a s' → P.ready p s'
  tick_confirmed : ∀ p m s, P.confirmed p m s → E.visible s (.call .instantNow) ∧
    ∀ a s', E.answers s .instantNow a s' → P.confirmed p m s'
  complete : ∀ p m pushedAt now s, P.confirmed p m s →
    E.visible s (.act (.markCommitted p.generations.hi m pushedAt now)) ∧
    ∀ t, (buffer.get s).markCommitted p.generations.hi m pushedAt now = .ok t →
      P.published p (buffer.set s t)
  advance : ∀ p table s, P.published p s →
    E.visible s (.call (.markCommitted ⟨p.tableUuid, table⟩ p.generations.hi)) ∧
    ∀ a s', E.answers s (.markCommitted ⟨p.tableUuid, table⟩ p.generations.hi) a s' →
      P.published p s'
  cleanup : ∀ p s, P.published p s → E.visible s (.call (.removePrepared p.tableUuid)) ∧
    ∀ a s', E.answers s (.removePrepared p.tableUuid) a s' → P.idle s'
  gc : ∀ s, P.idle s → E.visible s (.call .gc) ∧ ∀ a s', E.answers s .gc a s' → P.idle s'
  observeEpoch : ∀ p epoch s, P.rejected p s → E.visible s (.call (.observeEpochAndBump epoch)) ∧
    ∀ a s', E.answers s (.observeEpochAndBump epoch) a s' → P.rejected p s' ∧
      ∀ error, a = .error error → ambiguity error = none
  remove : ∀ p s, P.rejected p s → E.visible s (.call (.removePrepared p.tableUuid)) ∧
    ∀ a s', E.answers s (.removePrepared p.tableUuid) a s' → P.failed s' ∧
      (a = .ok () → P.removed p s') ∧ ∀ error, a = .error error → ambiguity error = none
  fail : ∀ p s, P.removed p s → E.visible s (.act (.markFlushFailed p)) ∧
    ∀ t, (buffer.get s).markFlushFailed p = .ok t → P.failed (buffer.set s t)
  block : ∀ p lastError errorClass attempts now s, P.ready p s →
    E.visible s (.act (.markFlushBlocked p)) ∧
    ∀ t, (buffer.get s).markFlushBlockedWithClass p lastError errorClass attempts now = .ok t →
      P.idle (buffer.set s t)
  recheck : ∀ p lastError attempts now s, P.ready p s →
    E.visible s (.act .markBlockedRecheck) ∧
    P.idle (buffer.set s ((buffer.get s).markBlockedRecheck lastError attempts now))
  reload : ∀ s, P.failed s → E.visible s (.call (.loadTable buffer.ident)) ∧
    ∀ a s', E.answers s (.loadTable buffer.ident) a s' → P.refetched a s'
  refresh : ∀ m s, P.reloaded m s → E.visible s (.act .refreshMetadata) ∧
    P.failed (buffer.set s ((buffer.get s).refreshMetadata m))

section

variable {P : Phases S F α} {E : Setting (io F α) S} {s : S}

lemma wp_ended_discard {β : Type} {J : S → Prop} {a : Prog F α S β} (h : wp E P.ended a s)
    (hi : ∀ s, P.idle s → J s := by exact fun _ h => h)
    (hfl : ∀ s, P.failed s → J s := by exact fun _ h => h) :
    wp E (fun _ => J) (a >>= fun _ => pure ()) s := by
  refine wp_discard (wp_mono (fun r s hr => ?_) h)
  cases r with
  | ok b => exact hi s hr
  | error e => exact hfl s hr

lemma wp_over_bind {β γ : Type} {a : Prog F α S β} {k : β → Prog F α S γ}
    (h : wp E P.over a s) (hk : ∀ b s, P.idle s → wp E P.over (k b) s) :
    wp E P.over (a >>= k) s := by
  refine wp_bind.mpr (wp_mono (fun r s hr => ?_) h)
  cases r with
  | ok b => exact hk b s hr
  | error e => exact hr

lemma wp_lost_bind {β γ : Type} {a : Prog F α S β} {k : β → Prog F α S γ}
    (h : wp E P.lost a s) (hk : ∀ b s, P.failed s → wp E P.over (k b) s) :
    wp E P.over (a >>= k) s := by
  refine wp_bind.mpr (wp_mono (fun r s hr => ?_) h)
  cases r with
  | ok b => exact hk b s hr
  | error e => exact hr

variable [BEq F] {buf : BufferRef S F α} {cfg : FlushConfig F} {p : PreparedFlush F}

namespace Phases.Rules

variable (rules : P.Rules E buf)

include rules

lemma markCommitted_spec (m : TableMetadata) (h : P.confirmed p m s) :
    wp E (fun r s => (r = .ok () ∧ P.published p s) ∨ ∃ e, r = .error e ∧ P.over r s)
      (buf.markCommitted p.generations.hi m) s := by
  refine wp_request_bind_of (rules.confirmed_stable p m) h fun s hs => ?_
  refine ⟨(rules.tick_confirmed p m s hs).1, fun pushedAt s' ha => ?_⟩
  refine wp_request_bind_of (rules.confirmed_stable p m) ((rules.tick_confirmed p m s hs).2 _ _ ha)
    fun s hs => ?_
  refine ⟨(rules.tick_confirmed p m s hs).1, fun now s' ha => ?_⟩
  refine wp_update_of (rules.confirmed_stable p m) ((rules.tick_confirmed p m s hs).2 _ _ ha)
    fun s hs => ?_
  have hc := rules.complete p m pushedAt now s hs
  refine ⟨hc.1, fun e he => Or.inr ⟨e, rfl, rules.confirmed_failed p m s hs, ?_⟩,
    fun t ht => Or.inl ⟨rfl, hc.2 t ht⟩⟩
  obtain ⟨message, rfl⟩ := TableBuffer.markCommitted_error he
  rfl

variable {β : Type}

/-- What follows a completion runs after it, or the completion has failed. -/
theorem markCommitted_bind_spec {rest : Unit → Prog F α S β} (m : TableMetadata)
    (h : P.confirmed p m s) (hrest : ∀ s, P.published p s → wp E P.over (rest ()) s) :
    wp E P.over (buf.markCommitted p.generations.hi m >>= rest) s := by
  refine wp_bind.mpr (wp_mono (fun r s hr => ?_) (rules.markCommitted_spec m h))
  rcases hr with ⟨rfl, hs⟩ | ⟨e, rfl, hs⟩
  · exact hrest s hs
  · exact hs

lemma completeFlush_spec (m : TableMetadata) (h : P.confirmed p m s) :
    wp E P.over (completeFlush buf p m) s := by
  refine rules.markCommitted_bind_spec m h fun s hs => ?_
  refine wp_request_bind_of (rules.published_stable p) hs fun s hs => ?_
  refine ⟨(rules.advance p buf.ident s hs).1, fun a s' ha => ?_⟩
  refine wp_request_bind_of (rules.published_stable p)
    ((rules.advance p buf.ident s hs).2 a s' ha) fun s hs => ?_
  refine ⟨(rules.cleanup p s hs).1, fun a s' ha => ?_⟩
  refine wp_request_bind_of rules.idle_stable ((rules.cleanup p s hs).2 a s' ha) fun s hs => ?_
  exact ⟨(rules.gc s hs).1, fun a s' ha => (rules.gc s hs).2 a s' ha⟩

lemma refreshAfterConflict_spec (h : P.failed s) : wp E P.lost (refreshAfterConflict buf) s := by
  refine wp_request_bind_of rules.failed_stable h fun s hs => ?_
  refine ⟨(rules.reload s hs).1, fun a s' ha => ?_⟩
  have hld := (rules.reload s hs).2 a s' ha
  cases a with
  | error e => exact hld
  | ok fresh =>
    exact wp_perform_of (rules.reloaded_stable fresh) hld fun s hs => rules.refresh fresh s hs

lemma retireIntent_spec (h : P.rejected p s) : wp E P.lost (retireIntent buf p) s := by
  refine wp_request_bind_of (rules.rejected_stable p) h fun s hs => ?_
  refine ⟨(rules.remove p s hs).1, fun a s' ha => ?_⟩
  obtain ⟨hfl, hrm, hpl⟩ := (rules.remove p s hs).2 a s' ha
  refine wp_lift_bind (fun u ha => ?_) fun e ha => ⟨hfl, hpl e ha⟩
  refine wp_update_of (rules.removed_stable p) (hrm ha) fun s hs => ?_
  refine ⟨(rules.fail p s hs).1, fun e he => ⟨rules.removed_failed p s hs, ?_⟩,
    (rules.fail p s hs).2⟩
  obtain ⟨message, rfl⟩ := TableBuffer.markFlushFailed_error he
  rfl

lemma markFlushBlockedWithClass_spec (err errorClass : String) (n : Nat) (h : P.ready p s) :
    wp E P.over (buf.markFlushBlockedWithClass p err errorClass n) s := by
  refine wp_request_bind_of (rules.ready_stable p) h fun s hs => ?_
  refine ⟨(rules.tick_ready p s _ hs rfl).1, fun now s' ha => ?_⟩
  refine wp_update_of (rules.ready_stable p) ((rules.tick_ready p s _ hs rfl).2 now s' ha)
    fun s hs => ?_
  have hb := rules.block p err errorClass n now s hs
  refine ⟨hb.1, fun e he => ⟨rules.ready_failed p s hs, ?_⟩, hb.2⟩
  obtain ⟨message, rfl⟩ := TableBuffer.markFlushBlockedWithClass_error he
  rfl

lemma rejectFlush_spec {err : TeoDBError} (h : P.answered p (.error err) s) :
    wp E (P.attempted p) (rejectFlush buf cfg p err) s := by
  simp only [Phases.answered] at h
  unfold rejectFlush
  cases hrea : commitReaction err with
  | keep =>
    rw [hrea] at h
    exact ⟨rules.ready_failed p s h, fun _ => h⟩
  | block =>
    rw [hrea] at h
    have hpl : ambiguity err = none := ambiguity_of_reaction (by simp [hrea])
    refine wp_mono (fun _ _ => Phases.attempted_of_over) ?_
    exact wp_over_bind (rules.markFlushBlockedWithClass_spec _ _ _ h) fun _ s hs =>
      ⟨rules.idle_failed s hs, hpl⟩
  | fence ep =>
    rw [hrea] at h
    have hpl : ambiguity err = none := ambiguity_of_reaction (by simp [hrea])
    refine wp_mono (fun _ _ => Phases.attempted_of_over) ?_
    refine wp_request_bind_of (rules.rejected_stable p) h fun s hs => ?_
    refine ⟨(rules.observeEpoch p ep s hs).1, fun a s' ha => ?_⟩
    obtain ⟨hrj, hepoch⟩ := (rules.observeEpoch p ep s hs).2 a s' ha
    refine wp_lift_bind (fun idn _ => ?_) fun e ha => ⟨rules.rejected_failed p s' hrj, hepoch e ha⟩
    exact wp_lost_bind (rules.retireIntent_spec hrj) fun _ s hs => ⟨hs, hpl⟩
  | retire =>
    rw [hrea] at h
    have hpl : ambiguity err = none := ambiguity_of_reaction (by simp [hrea])
    refine wp_mono (fun _ _ => Phases.attempted_of_over) ?_
    refine wp_lost_bind (rules.retireIntent_spec h) fun _ s hs => ?_
    refine wp_lost_bind ?_ fun _ s hs => ⟨hs, hpl⟩
    split
    · exact rules.refreshAfterConflict_spec hs
    · exact hs

lemma commitFlush_spec (h : P.ready p s) : wp E (P.attempted p) (commitFlush buf cfg p) s := by
  refine wp_request_bind_of (rules.ready_stable p) h fun s hs => ?_
  refine ⟨(rules.commit p s hs).1, fun a s' ha => ?_⟩
  have hans := (rules.commit p s hs).2 a s' ha
  cases a with
  | ok updated =>
    exact wp_mono (fun _ _ => Phases.attempted_of_over) (rules.completeFlush_spec updated hans)
  | error e => exact rules.rejectFlush_spec hans

lemma commitAgain_spec {ambiguous : String → Prog F α S FlushOutcome} (h : P.ready p s)
    (hamb : ∀ msg s, P.ready p s → wp E P.ended (ambiguous msg) s) :
    wp E P.ended (commitAgain buf cfg p ambiguous) s := by
  refine wp_bind.mpr (wp_attempt.mpr (wp_mono (fun r s hr => ?_) (rules.commitFlush_spec h)))
  cases r with
  | ok outcome => exact hr
  | error e =>
    cases hm : ambiguity e with
    | none =>
      simp only [andThen_ok, hm]
      exact hr.1
    | some msg =>
      simp only [andThen_ok, hm]
      exact hamb msg s (hr.2 (by simp [hm]))

lemma giveUp_spec (err : String) (n : Nat) (h : P.ready p s) :
    wp E P.ended (giveUp buf p err n) s :=
  wp_mono (fun _ _ => Phases.ended_of_over)
    (wp_over_bind (rules.markFlushBlockedWithClass_spec _ _ _ h) fun _ s hs =>
      ⟨rules.idle_failed s hs, rfl⟩)

lemma statusRound_spec {again : Nat → String → Prog F α S FlushOutcome}
    (tries notCommitted : Nat) (h : P.ready p s)
    (haga : ∀ n msg s, P.ready p s → wp E P.ended (again n msg) s) :
    wp E P.ended (statusRound buf cfg p tries notCommitted again) s := by
  refine wp_request_bind_of (rules.ready_stable p) h fun s hs => ?_
  refine ⟨(rules.check p s hs).1, fun a s' ha => ?_⟩
  have hche := (rules.check p s hs).2 a s' ha
  cases a with
  | ok status =>
    cases status with
    | committed m =>
      exact wp_mono (fun _ _ => Phases.ended_of_over) (rules.completeFlush_spec m hche)
    | notCommitted =>
      dsimp only
      split
      · exact rules.commitAgain_spec hche fun msg s hs => haga 0 msg s hs
      · exact haga _ _ _ hche
    | unknown msg => exact haga _ _ _ hche
  | error e =>
    dsimp only
    split
    · exact haga _ _ _ hche
    · refine wp_bind_of (wp_mono (fun _ _ => Phases.ended_of_over)
        (rules.markFlushBlockedWithClass_spec _ _ _ hche)) fun _ s hs => ?_
      exact rules.idle_failed s hs

lemma statusLoop_spec (dl left tries wait notCommitted : Nat) (h : P.ready p s) : wp E P.ended
      (statusLoop buf cfg p dl left tries wait notCommitted) s := by
  induction left generalizing s tries wait notCommitted with
  | zero =>
    exact rules.statusRound_spec _ _ h fun _ err s hs => rules.giveUp_spec err _ hs
  | succ left ih =>
    refine rules.statusRound_spec _ _ h fun n err s hs => ?_
    refine wp_request_bind_of (rules.ready_stable p) hs fun s hs => ?_
    refine ⟨(rules.tick_ready p s _ hs rfl).1, fun now s' ha => ?_⟩
    have hs' := (rules.tick_ready p s _ hs rfl).2 now s' ha
    split
    · exact rules.giveUp_spec err _ hs'
    · refine wp_request_bind_of (rules.ready_stable p) hs' fun s hs => ?_
      refine ⟨(rules.tick_ready p s _ hs rfl).1, fun now s' ha => ?_⟩
      refine wp_request_bind_of (rules.ready_stable p)
        ((rules.tick_ready p s _ hs rfl).2 now s' ha) fun s hs => ?_
      exact ⟨(rules.tick_ready p s _ hs rfl).1, fun u s' ha =>
        ih _ _ _ ((rules.tick_ready p s _ hs rfl).2 u s' ha)⟩

lemma resolveUnknown_spec (h : P.ready p s) : wp E P.ended (resolveUnknown buf cfg p) s := by
  refine wp_request_bind_of (rules.ready_stable p) h fun s hs => ?_
  exact ⟨(rules.tick_ready p s _ hs rfl).1, fun sd s' ha =>
    rules.statusLoop_spec _ _ _ _ _ ((rules.tick_ready p s _ hs rfl).2 sd s' ha)⟩

lemma commitPrepared_spec (h : P.owned p s) : wp E P.ended (commitPrepared buf cfg p) s := by
  refine wp_request_bind_of (rules.owned_stable p) h fun s hs => ?_
  refine ⟨(rules.persist p s hs).1, fun a s' ha => ?_⟩
  obtain ⟨hfl, hready⟩ := (rules.persist p s hs).2 a s' ha
  refine wp_lift_bind (fun u ha => ?_) fun _ _ => hfl
  exact rules.commitAgain_spec (hready ha) fun _ s hs => rules.resolveUnknown_spec hs

variable {es : List (BufferEntry α)}

section

variable (h : P.drained es s)

include h

lemma orRollback_spec {res : TeoDBResult β} {R : β → S → Prop} (hR : ∀ b, res = .ok b → R b s) :
    wp E (ends R P.failed) (orRollback buf res) s := by
  cases res with
  | ok b => exact hR b rfl
  | error e =>
    refine wp_bind_of (R := fun _ => P.failed) (P := P.failed) ?_ fun _ _ hs => hs
    refine wp_update_of (rules.drained_stable es) h fun s hs => ?_
    exact ⟨(rules.rollback es s hs).1, fun _ _ => rules.idle_failed s (rules.drained_idle es s hs),
      (rules.rollback es s hs).2⟩

lemma orRollback_bind_spec {β γ : Type} {res : TeoDBResult β} {k : β → Prog F α S γ}
    {R : γ → S → Prop} (hk : ∀ b s, P.drained es s → wp E (ends R P.failed) (k b) s) :
    wp E (ends R P.failed) (orRollback buf res >>= k) s :=
  wp_bind_of (rules.orRollback_spec (R := fun _ => P.drained es) h fun _ _ => h) hk

lemma installPrepared_spec :
    wp E (ends (fun _ => P.owned p) P.failed) (installPrepared buf p) s := by
  refine wp_bind.mpr (wp_attempt.mpr ?_)
  refine wp_update_of (rules.drained_stable es) h fun s hs => ?_
  have hi := rules.install es p s hs
  refine ⟨hi.1, fun e _ => ?_, fun t ht => hi.2 t ht⟩
  exact rules.orRollback_spec hs fun _ h => by cases h

lemma build_bind_spec {c : Call F α} {k : Answer c → Prog F α S β}
    {Q : TeoDBResult β → S → Prop} (hc : builds c = true)
    (hk : ∀ a s, P.drained es s → wp E Q (k a) s) : wp E Q (call c >>= k) s := by
  refine wp_request_bind_of (rules.drained_stable es) h fun s hs => ?_
  exact ⟨(rules.build es s c hs hc).1, fun a s' ha =>
    hk a s' ((rules.build es s c hs hc).2 a s' ha)⟩

lemma prepareFlush_spec : wp E (ends P.owned P.failed) (prepareFlush buf cfg es) s := by
  refine wp_read_bind_of (rules.drained_stable es) h fun s hs => ?_
  refine ⟨rules.metadata es s hs, ?_⟩
  refine rules.build_bind_spec hs rfl fun idn s hs => ?_
  refine rules.build_bind_spec hs rfl fun commitId s hs => ?_
  refine rules.orRollback_bind_spec hs fun gens s hs => ?_
  refine rules.build_bind_spec hs rfl fun wr s hs => ?_
  refine rules.orRollback_bind_spec hs fun dataFiles s hs => ?_
  refine rules.build_bind_spec hs rfl fun preparedAtMs s hs => ?_
  refine rules.orRollback_bind_spec hs fun _ s hs => ?_
  exact wp_bind_of (rules.installPrepared_spec hs) fun _ _ hs => hs

end

/-- A flush leads from an idle table to an idle table, or fails. -/
theorem flushOnce_spec (h : P.idle s) : wp E P.ended (flushOnce buf cfg) s := by
  refine wp_read_bind_of rules.idle_stable h fun s hs => ?_
  refine ⟨(rules.blocked s hs).1, ?_⟩
  cases hb : (buf.get s).blockedFlush with
  | some blocked => exact rules.idle_failed s hs
  | none =>
    refine wp_read_bind_of rules.idle_stable hs fun s hs => ?_
    obtain ⟨hvis, howned, huno⟩ := rules.prepared s hs
    refine ⟨hvis, ?_⟩
    cases hp : (buf.get s).preparedFlush with
    | some p => exact rules.commitPrepared_spec (howned p hp)
    | none =>
      refine wp_bind.mpr (wp_perform_of rules.unowned_stable (huno hp) fun s hs => ?_)
      refine ⟨(rules.drain s hs).1, ?_⟩
      have hdra := (rules.drain s hs).2
      simp only [andThen_ok]
      split
      · exact rules.drained_idle _ _ hdra
      · exact wp_bind_of (rules.prepareFlush_spec hdra)
          fun p s hs => rules.commitPrepared_spec hs

/-- A recheck leads from an idle table to an idle table, or fails. -/
theorem recheckBlocked_spec (h : P.idle s) : wp E P.ended (recheckBlocked buf cfg) s := by
  refine wp_read_bind_of rules.idle_stable h fun s hs => ?_
  obtain ⟨hvis, hready⟩ := rules.blocked s hs
  refine ⟨hvis, ?_⟩
  cases hb : (buf.get s).blockedFlush with
  | none => exact hs
  | some blocked =>
    have hunk : ∀ msg s, P.ready blocked.prepared s → wp E P.ended (do
          buf.markBlockedRecheck msg (min (blocked.statusCheckAttempts + 1) u32Max)
          .throw (.flushBlocked buf.ident blocked.prepared.commitId) :
            Prog F α S FlushOutcome) s := by
      intro msg s hs
      refine wp_bind_of (R := fun _ => P.idle) (P := P.failed) ?_
        fun _ s hs => rules.idle_failed s hs
      refine wp_request_bind_of (rules.ready_stable _) hs fun s hs => ?_
      refine ⟨(rules.tick_ready _ s _ hs rfl).1, fun now s' ha => ?_⟩
      refine wp_perform_of (rules.ready_stable _) ((rules.tick_ready _ s _ hs rfl).2 now s' ha)
        fun s hs => ?_
      exact rules.recheck _ _ _ _ s hs
    refine wp_request_bind_of (rules.ready_stable _) (hready blocked hb) fun s hs => ?_
    refine ⟨(rules.check _ s hs).1, fun a s' ha => ?_⟩
    have hche := (rules.check _ s hs).2 a s' ha
    cases a with
    | error e => exact rules.ready_failed _ _ hche
    | ok status =>
      cases status with
      | committed m =>
        exact wp_mono (fun _ _ => Phases.ended_of_over) (rules.completeFlush_spec m hche)
      | notCommitted => exact rules.commitAgain_spec hche hunk
      | unknown msg => exact hunk msg s' hche

end Phases.Rules

end

end TeoDB.Ingest.Flush
