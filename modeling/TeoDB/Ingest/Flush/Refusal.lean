import TeoDB.Ingest.Flush.Ambiguity

/-!
# Intents that cannot be persisted

An intent is installed in the buffer before its sidecar is written. When the store refuses the
sidecar, `flush_once` returns the error at once and the buffer keeps the intent.
`refused_intent_released_iff` states that a refused intent is never released before the catalog is
asked about it, so that the table is only safe when nothing is refused.
-/

namespace TeoDB.Ingest.Flush

open TeoDB.Core Lib Lib.Async Catalog Storage.Wal Ingest.Buffer

variable {F α S β : Type}

def isPersist : Call F α → Bool
  | .persistPrepared _ => true
  | _ => false

lemma isPersist_of_builds {c : Call F α} (h : builds c = true) : isPersist c = false := by
  cases c with
  | persistPrepared p => cases h
  | _ => rfl

lemma isPersist_of_ticks {c : Call F α} (h : ticks c = true) : isPersist c = false := by
  cases c with
  | persistPrepared p => cases h
  | _ => rfl

/-- A program ends when its sidecar is refused. -/
def Stops : (c : Call F α) → (Answer c → Prog F α S β) → Prop
  | .persistPrepared _, k => ∀ error, k (.error error) = .done (.error error)
  | _, _ => True

lemma stops_of_avoids {p : Prog F α S β} (h : p.Avoids isPersist) : p.Calls Stops := by
  refine h.mono fun c k hc => ?_
  cases c with
  | persistPrepared p => cases hc
  | _ => trivial

lemma Stops.bind {γ : Type} {c : Call F α} {k : Answer c → Prog F α S β}
    {f : β → Prog F α S γ} (h : Stops c k) : Stops c fun a => k a >>= f := by
  cases c with
  | persistPrepared p =>
    intro e
    show (k (.error e)).bind f = _
    rw [h e]
    rfl
  | _ => trivial

section

variable {buf : BufferRef S F α} {cfg : FlushConfig F} {p : PreparedFlush F}

lemma markCommitted_avoids (genHi : Nat) (m : TableMetadata) :
    (buf.markCommitted genHi m).Avoids isPersist :=
  avoids_request_bind rfl fun _ => avoids_request_bind rfl fun _ => avoids_perform

lemma completeFlush_avoids (m : TableMetadata) : (completeFlush buf p m).Avoids isPersist :=
  (markCommitted_avoids _ m).bind fun _ => avoids_request_bind rfl fun _ =>
    avoids_request_bind rfl fun _ => avoids_request_bind rfl fun _ => trivial

lemma refreshAfterConflict_avoids : (refreshAfterConflict buf).Avoids isPersist := by
  refine avoids_request_bind rfl fun a => ?_
  cases a with
  | ok fresh => exact avoids_perform
  | error e => trivial

lemma orRollback_avoids (res : TeoDBResult β) : (orRollback buf res).Avoids isPersist := by
  cases res with
  | ok b => trivial
  | error e => exact avoids_perform.bind fun _ => trivial

variable [BEq F]

lemma markFlushBlockedWithClass_avoids (err errorClass : String) (n : Nat) :
    (buf.markFlushBlockedWithClass p err errorClass n).Avoids isPersist :=
  avoids_request_bind rfl fun _ => avoids_perform

lemma retireIntent_avoids : (retireIntent buf p).Avoids isPersist := by
  refine avoids_request_bind rfl fun a => ?_
  cases a with
  | ok u => exact avoids_perform
  | error e => trivial

lemma rejectFlush_avoids (err : TeoDBError) : (rejectFlush buf cfg p err).Avoids isPersist := by
  unfold rejectFlush
  cases commitReaction err with
  | keep => trivial
  | fence epoch =>
    refine avoids_request_bind rfl fun a => ?_
    cases a with
    | ok idn => exact retireIntent_avoids.bind fun _ => trivial
    | error e => trivial
  | block => exact (markFlushBlockedWithClass_avoids _ _ _).bind fun _ => trivial
  | retire =>
    refine retireIntent_avoids.bind fun _ => Avoids.bind ?_ fun _ => trivial
    split
    · exact refreshAfterConflict_avoids
    · trivial

lemma commitFlush_avoids : (commitFlush buf cfg p).Avoids isPersist := by
  refine avoids_request_bind rfl fun a => ?_
  cases a with
  | ok updated => exact completeFlush_avoids updated
  | error e => exact rejectFlush_avoids e

lemma commitAgain_avoids {ambiguous : String → Prog F α S FlushOutcome}
    (h : ∀ msg, (ambiguous msg).Avoids isPersist) :
    (commitAgain buf cfg p ambiguous).Avoids isPersist := by
  refine commitFlush_avoids.attempt.bind fun a => ?_
  cases a with
  | ok outcome => trivial
  | error e =>
    dsimp only
    split
    · exact h _
    · trivial

lemma giveUp_avoids (err : String) (n : Nat) : (giveUp buf p err n).Avoids isPersist :=
  (markFlushBlockedWithClass_avoids _ _ _).bind fun _ => trivial

lemma statusRound_avoids {again : Nat → String → Prog F α S FlushOutcome}
    (tries notCommitted : Nat) (h : ∀ n msg, (again n msg).Avoids isPersist) :
    (statusRound buf cfg p tries notCommitted again).Avoids isPersist := by
  refine avoids_request_bind rfl fun a => ?_
  cases a with
  | ok status =>
    cases status with
    | committed m => exact completeFlush_avoids m
    | notCommitted =>
      dsimp only
      split
      · exact commitAgain_avoids fun msg => h 0 msg
      · exact h _ _
    | unknown msg => exact h 0 msg
  | error e =>
    dsimp only
    split
    · exact h _ _
    · exact (markFlushBlockedWithClass_avoids _ _ _).bind fun _ => trivial

lemma statusLoop_avoids (dl left tries wait notCommitted : Nat) :
    (statusLoop buf cfg p dl left tries wait notCommitted).Avoids isPersist := by
  induction left generalizing tries wait notCommitted with
  | zero => exact statusRound_avoids _ _ fun _ _ => giveUp_avoids _ _
  | succ left ih =>
    refine statusRound_avoids _ _ fun n message => avoids_request_bind rfl fun now => ?_
    split
    · exact giveUp_avoids _ _
    · exact avoids_request_bind rfl fun _ => avoids_request_bind rfl fun _ => ih _ _ _

lemma prepareFlush_avoids (inFlight : List (BufferEntry α)) :
    (prepareFlush buf cfg inFlight).Avoids isPersist := by
  refine avoids_perform.bind fun md => avoids_request_bind rfl fun idn =>
    avoids_request_bind rfl fun commitId => (orRollback_avoids _).bind fun range =>
    avoids_request_bind rfl fun files => (orRollback_avoids _).bind fun dataFiles =>
    avoids_request_bind rfl fun preparedAtMs => (orRollback_avoids _).bind fun _ => ?_
  refine Avoids.bind ?_ fun _ => trivial
  exact (Avoids.attempt avoids_perform).bind fun a => orRollback_avoids a

lemma commitPrepared_stops : (commitPrepared buf cfg p).Calls Stops := by
  refine ⟨fun error => rfl, fun a => ?_⟩
  cases a with
  | error e => trivial
  | ok u =>
    refine stops_of_avoids (commitAgain_avoids fun _ => ?_)
    exact avoids_request_bind rfl fun _ => statusLoop_avoids _ _ _ _ _

lemma flushOnce_stops : (flushOnce buf cfg).Calls Stops := by
  refine Calls.bind (stops_of_avoids avoids_perform) (fun _ _ => Stops.bind) fun blocked => ?_
  cases blocked with
  | some b => trivial
  | none =>
    refine Calls.bind (stops_of_avoids avoids_perform) (fun _ _ => Stops.bind) fun prep => ?_
    cases prep with
    | some p => exact commitPrepared_stops
    | none =>
      refine Calls.bind (stops_of_avoids avoids_perform) (fun _ _ => Stops.bind) fun inFlight => ?_
      split
      · trivial
      · exact Calls.bind (stops_of_avoids (prepareFlush_avoids _)) (fun _ _ => Stops.bind)
          fun _ => commitPrepared_stops

lemma recheckBlocked_avoids : (recheckBlocked buf cfg).Avoids isPersist := by
  refine avoids_perform.bind fun blocked => ?_
  cases blocked with
  | none => trivial
  | some b =>
    have hunk : ∀ msg : String, Avoids isPersist (do
        buf.markBlockedRecheck msg (min (b.statusCheckAttempts + 1) u32Max)
        .throw (.flushBlocked buf.ident b.prepared.commitId) :
          Prog F α S FlushOutcome) := fun msg =>
      Avoids.bind (avoids_request_bind rfl fun _ => avoids_perform) fun _ => trivial
    refine avoids_request_bind rfl fun a => ?_
    cases a with
    | error e => trivial
    | ok status =>
      cases status with
      | committed m => exact completeFlush_avoids m
      | notCommitted => exact commitAgain_avoids hunk
      | unknown msg => exact hunk msg

end

namespace IntentNode

/-- The catalog was asked about the target, if there is one. -/
def Asked (target : Option (PreparedFlush F)) (s : IntentNode F α) : Prop :=
  ∀ p ∈ target, p.commitId ∈ s.requested

/-- The target owns the buffer until the catalog is asked about it. -/
def Keeps (target : Option (PreparedFlush F)) (s : IntentNode F α) : Prop :=
  ∀ p ∈ target, p.commitId ∈ s.requested ∨ s.buffer.preparedFlush = some p

section

variable {s s' : IntentNode F α} {target : Option (PreparedFlush F)}

lemma Asked.keeps (h : s.Asked target) : s.Keeps target := fun p hp => Or.inl (h p hp)

lemma Keeps.asked (h : s.Keeps target) (hn : s.buffer.preparedFlush = none) : s.Asked target := by
  intro p hp
  rcases h p hp with hasked | ho
  · exact hasked
  · rw [hn] at ho
    cases ho

/-- What the world may do to a node. -/
structure Grows (s s' : IntentNode F α) : Prop where
  buffer : s'.buffer = s.buffer
  requested : s.requested ⊆ s'.requested

lemma Grows.asked (h : Grows s s') (hs : s.Asked target) : s'.Asked target :=
  fun p hp => h.requested (hs p hp)

lemma Grows.keeps (h : Grows s s') (hs : s.Keeps target) : s'.Keeps target := fun p hp =>
  (hs p hp).imp (fun hasked => h.requested hasked) fun ho => by rw [h.buffer, ho]

/-- Once the owner of the buffer has been requested, the target has been too. -/
lemma Keeps.asked_of_requested {p : PreparedFlush F} (h : s.Keeps target)
    (hp : s.buffer.preparedFlush = some p) (hasked : p.commitId ∈ s.requested) :
    s.Asked target := by
  intro q hq
  rcases h q hq with hreq | ho
  · exact hreq
  · rw [hp] at ho
    cases ho
    exact hasked

lemma Keeps.withBuffer {t : TableBuffer F α} (h : s.Keeps target)
    (howner : t.preparedFlush = s.buffer.preparedFlush) : ({ s with buffer := t }).Keeps target :=
  fun p hp => (h p hp).imp id howner.trans

lemma Grows.preparedFlush {owner : Option (PreparedFlush F)} (h : Grows s s')
    (hs : s.buffer.preparedFlush = owner) : s'.buffer.preparedFlush = owner := by
  rw [h.buffer, hs]

lemma grows_issue (req : CommitAppend F) : Grows s (s.issue req) :=
  ⟨rfl, List.subset_append_left _ _⟩

lemma mem_requested_issue (req : CommitAppend F) :
    req.identity.commitId ∈ (s.issue req).requested :=
  List.mem_concat_self

lemma noteCommit_issue_grows (req : CommitAppend F) (a : TeoDBResult TableMetadata) :
    Grows s ((s.noteCommit req a).issue req) := by
  have hs : Grows s (s.noteCommit req a) := by
    cases a with
    | ok m => exact ⟨rfl, List.Subset.refl _⟩
    | error e =>
      rw [noteCommit]
      split_ifs
      · exact ⟨rfl, List.Subset.refl _⟩
      · exact ⟨rfl, List.Subset.refl _⟩
  exact ⟨hs.buffer, List.Subset.trans hs.requested (grows_issue req).requested⟩

lemma noteStatus_issue_grows (req : CommitAppend F) (a : TeoDBResult CommitStatus) :
    Grows s ((s.noteStatus req a).issue req) := by
  cases a with
  | error e => exact grows_issue req
  | ok status =>
    cases status with
    | committed m => exact ⟨rfl, List.subset_append_left _ _⟩
    | notCommitted => exact grows_issue req
    | unknown message => exact grows_issue req

lemma abandoned_grows (c : Call F α) : Grows s (s.abandoned c) := by
  cases c with
  | commitAppend req => exact grows_issue req
  | checkAppendStatus req => exact grows_issue req
  | _ => exact ⟨rfl, List.Subset.refl _⟩

variable [BEq F] {store : PreparedConfig F}

lemma respond_grows {ch : IntentChoice F α} {c : Call F α} {a : Answer c}
    (h : respond store ch s c = some (a, s')) : Grows s s' ∧ Plain c a := by
  by_cases hc : changes c = false
  · obtain ⟨rfl, hpl⟩ := respond_other hc h
    exact ⟨⟨rfl, List.Subset.refl _⟩, hpl⟩
  · cases c with
    | commitAppend req =>
      obtain ⟨_, rfl⟩ := respond_commitAppend h
      exact ⟨noteCommit_issue_grows req a, trivial⟩
    | checkAppendStatus req =>
      obtain rfl := respond_checkAppendStatus h
      exact ⟨noteStatus_issue_grows req a, trivial⟩
    | persistPrepared p =>
      obtain ⟨fault, _, rfl⟩ := respond_persistPrepared h
      exact ⟨⟨rfl, List.Subset.refl _⟩, trivial⟩
    | removePrepared uuid =>
      obtain ⟨fault, rfl, rfl⟩ := respond_removePrepared h
      exact ⟨⟨rfl, List.Subset.refl _⟩, fun error he => ambiguity_of_remove he⟩
    | _ => exact absurd rfl hc

/-- A flush keeps the target, and persists the intent that owns the buffer. -/
def keeping (store : PreparedConfig F) (target : Option (PreparedFlush F)) :
    Setting (io F α) (IntentNode F α) where
  visible s event := s.Keeps target ∧
    match event with
    | .call (.persistPrepared p) => s.buffer.preparedFlush = some p
    | _ => True
  interferes s s' := s'.buffer.preparedFlush = s.buffer.preparedFlush ∧
    s'.requested = s.requested
  answers := possible (respond store)

/-- The phases of a flush, as far as the target goes. -/
def keepingPhases (target : Option (PreparedFlush F)) : Phases (IntentNode F α) F α where
  idle := Keeps target
  failed := Keeps target
  unowned s := s.Asked target ∧ s.buffer.preparedFlush = none
  drained _ s := s.Asked target ∧ s.buffer.preparedFlush = none
  owned p s := s.Keeps target ∧ s.buffer.preparedFlush = some p
  ready p s := s.Keeps target ∧ s.buffer.preparedFlush = some p
  confirmed _ _ := Asked target
  published _ := Asked target
  rejected _ := Asked target
  removed _ := Asked target

lemma Keeps.visible_act (h : s.Keeps target) (name : Action F) :
    (keeping store target).visible s (.act name) := ⟨h, trivial⟩

lemma Keeps.visible_call (h : s.Keeps target) {c : Call F α} (hc : isPersist c = false) :
    (keeping store target).visible s (.call c) := by
  refine ⟨h, ?_⟩
  cases c with
  | persistPrepared p => cases hc
  | _ => trivial

lemma keeps_stable : (keeping (α := α) store target).Stable (Keeps target) :=
  fun s s' hs h p hp => by
    rw [h.1, h.2]
    exact hs p hp

lemma asked_stable : (keeping (α := α) store target).Stable (Asked target) :=
  fun s s' hs h p hp => by
    rw [h.2]
    exact hs p hp

lemma keeps_preparedFlush_stable (owner : Option (PreparedFlush F)) :
    (keeping (α := α) store target).Stable
      fun s => s.Keeps target ∧ s.buffer.preparedFlush = owner :=
  fun s s' hs h => ⟨keeps_stable s s' hs.1 h, h.1.trans hs.2⟩

lemma asked_preparedFlush_stable (owner : Option (PreparedFlush F)) :
    (keeping (α := α) store target).Stable
      fun s => s.Asked target ∧ s.buffer.preparedFlush = owner :=
  fun s s' hs h => ⟨asked_stable s s' hs.1 h, h.1.trans hs.2⟩

lemma grows_of_answers {c : Call F α} {a : Answer c}
    (h : (keeping store target).answers s c a s') : Grows s s' ∧ Plain c a := by
  obtain ⟨choice, h⟩ := h
  exact respond_grows h

lemma ready_of_answers {p : PreparedFlush F} {c : Call F α} {a : Answer c} (h : s.Keeps target)
    (hp : s.buffer.preparedFlush = some p) (ha : (keeping store target).answers s c a s') :
    s'.Keeps target ∧ s'.buffer.preparedFlush = some p :=
  have hgro := (grows_of_answers ha).1
  ⟨hgro.keeps h, hgro.preparedFlush hp⟩

lemma keepingPhases_answered {p : PreparedFlush F} (h : s.Keeps target)
    (hp : s.buffer.preparedFlush = some p) {a : TeoDBResult TableMetadata}
    (ha : (keeping store target).answers s (.commitAppend (buildCommitRequest p)) a s') :
    (keepingPhases target).answered p a s' := by
  have hrdy := ready_of_answers h hp ha
  obtain ⟨choice, ha⟩ := ha
  have hreq : p.commitId ∈ s'.requested := by
    rw [(respond_commitAppend ha).2]
    exact mem_requested_issue (buildCommitRequest p)
  have hask : s'.Asked target := hrdy.1.asked_of_requested hrdy.2 hreq
  cases a with
  | ok m => exact hask
  | error e =>
    simp only [Phases.answered]
    cases commitReaction e with
    | keep => exact hrdy
    | block => exact hrdy
    | fence epoch => exact hask
    | retire => exact hask

lemma keepingPhases_checked {p : PreparedFlush F} (h : s.Keeps target)
    (hp : s.buffer.preparedFlush = some p) {a : TeoDBResult CommitStatus}
    (ha : (keeping store target).answers s (.checkAppendStatus (buildCommitRequest p)) a s') :
    (keepingPhases target).checked p a s' := by
  have hrdy := ready_of_answers h hp ha
  obtain ⟨choice, ha⟩ := ha
  have hreq : p.commitId ∈ s'.requested := by
    rw [respond_checkAppendStatus ha]
    exact mem_requested_issue (buildCommitRequest p)
  cases a with
  | error e => exact hrdy
  | ok status =>
    cases status with
    | committed m => exact hrdy.1.asked_of_requested hrdy.2 hreq
    | notCommitted => exact hrdy
    | unknown message => exact hrdy

lemma keepingPhases_rules (store : PreparedConfig F) (target : Option (PreparedFlush F))
    (ident : TableIdent) :
    (keepingPhases (α := α) target).Rules (keeping store target) (bufferRef ident) where
  idle_stable := keeps_stable
  failed_stable := keeps_stable
  unowned_stable := asked_preparedFlush_stable none
  drained_stable _ := asked_preparedFlush_stable none
  owned_stable p := keeps_preparedFlush_stable (some p)
  ready_stable p := keeps_preparedFlush_stable (some p)
  confirmed_stable _ _ := asked_stable
  published_stable _ := asked_stable
  rejected_stable _ := asked_stable
  removed_stable _ := asked_stable
  reloaded_stable _ := keeps_stable
  idle_failed _ h := h
  drained_idle _ _ h := h.1.keeps
  ready_failed _ _ h := h.1
  confirmed_failed _ _ _ h := h.keeps
  rejected_failed _ _ h := h.keeps
  removed_failed _ _ h := h.keeps
  blocked s h :=
    ⟨h.visible_act _, fun b hb => ⟨h, TableBuffer.preparedFlush_of_blockedFlush hb⟩⟩
  prepared s h :=
    ⟨h.visible_act _, fun p hp => ⟨h, hp⟩, fun hn => ⟨h.asked hn, hn⟩⟩
  drain s h := ⟨h.1.keeps.visible_act _, h.1, preparedFlush_drain h.2⟩
  build _ s c h hc := by
    refine ⟨h.1.keeps.visible_call (isPersist_of_builds hc), fun a s' ha => ?_⟩
    have hgro := (grows_of_answers ha).1
    exact ⟨hgro.asked h.1, hgro.preparedFlush h.2⟩
  metadata _ s h := h.1.keeps.visible_act _
  rollback _ s h := ⟨h.1.keeps.visible_act _, fun t ht => Asked.keeps h.1⟩
  install _ p s h := by
    refine ⟨h.1.keeps.visible_act _, fun t ht => ⟨Asked.keeps h.1, ?_⟩⟩
    exact preparedFlush_of_setPrepared ht h.2
  persist p s h := by
    refine ⟨⟨h.1, h.2⟩, fun a s' ha => ?_⟩
    have hrdy := ready_of_answers h.1 h.2 ha
    exact ⟨hrdy.1, fun _ => hrdy⟩
  commit p s h := ⟨h.1.visible_call rfl, fun a s' ha => keepingPhases_answered h.1 h.2 ha⟩
  check p s h := ⟨h.1.visible_call rfl, fun a s' ha => keepingPhases_checked h.1 h.2 ha⟩
  tick_ready p s c h hc :=
    ⟨h.1.visible_call (isPersist_of_ticks hc), fun a s' ha => ready_of_answers h.1 h.2 ha⟩
  tick_confirmed p _ s h :=
    ⟨h.keeps.visible_call rfl, fun a s' ha => (grows_of_answers ha).1.asked h⟩
  complete p m pushedAt now s h := ⟨h.keeps.visible_act _, fun t ht => h⟩
  advance p table s h :=
    ⟨h.keeps.visible_call rfl, fun a s' ha => (grows_of_answers ha).1.asked h⟩
  cleanup p s h :=
    ⟨h.keeps.visible_call rfl, fun a s' ha => ((grows_of_answers ha).1.asked h).keeps⟩
  gc s h := ⟨h.visible_call rfl, fun a s' ha => (grows_of_answers ha).1.keeps h⟩
  observeEpoch p epoch s h := by
    refine ⟨h.keeps.visible_call rfl, fun a s' ha => ?_⟩
    exact ⟨(grows_of_answers ha).1.asked h, (grows_of_answers ha).2⟩
  remove p s h := by
    refine ⟨h.keeps.visible_call rfl, fun a s' ha => ?_⟩
    have hask := (grows_of_answers ha).1.asked h
    exact ⟨hask.keeps, fun _ => hask, (grows_of_answers ha).2⟩
  fail p s h := ⟨h.keeps.visible_act _, fun t ht => Asked.keeps h⟩
  block p err errorClass n now s h := by
    refine ⟨h.1.visible_act _, fun t ht => ?_⟩
    obtain ⟨_, sinceMs, rfl⟩ := TableBuffer.markFlushBlockedWithClass_ok ht
    exact h.1.withBuffer h.2.symm
  recheck p err n now s h :=
    ⟨h.1.visible_act _, h.1.withBuffer (TableBuffer.markBlockedRecheck_preparedFlush ..)⟩
  reload s h := by
    refine ⟨h.visible_call rfl, fun a s' ha => ?_⟩
    have hkeeps := (grows_of_answers ha).1.keeps h
    cases a <;> exact hkeeps
  refresh m s h := ⟨h.visible_act _, h.withBuffer rfl⟩

lemma disturb_keeps_owner {ch : IntentChoice F α} (h : disturb store ch s = some s') :
    s'.buffer.preparedFlush = s.buffer.preparedFlush ∧ s'.requested = s.requested := by
  cases ch with
  | ingest op =>
    cases h
    exact ⟨(Beside.apply _ op).preparedFlush, rfl⟩
  | epoch ep =>
    cases h
    exact ⟨rfl, rfl⟩
  | late index fault =>
    obtain ⟨op, _, rfl⟩ := Option.map_eq_some_iff.mp h
    cases op <;> exact ⟨rfl, rfl⟩
  | _ => cases h

/-- A node keeps its target from any state that has it. -/
lemma keeping_sound (cfg : FlushConfig F) (store : PreparedConfig F) (ident : TableIdent)
    (target : Option (PreparedFlush F)) (start : IntentNode F α → Prop)
    (hst : ∀ s, start s → s.Keeps target) :
    ({ serving cfg store ident with start := start }).Sound (fun _ _ => True)
      (keeping store target) (Keeps target) where
  start := hst
  refl _ := ⟨rfl, rfl⟩
  trans _ _ _ h h' := ⟨h'.1.trans h.1, h'.2.trans h.2⟩
  stable := keeps_stable
  spawn task s h := by
    have rules := keepingPhases_rules (α := α) store target ident
    cases task with
    | flushOnce => exact wp_ended_discard (rules.flushOnce_spec h)
    | recheckBlocked => exact wp_ended_discard (rules.recheckBlocked_spec h)
  interfere c ch s' _ h := disturb_keeps_owner h
  answer s c k ch a s' _ h := ⟨ch, h⟩
  abandon s c k ch s' _ hvis h := by
    cases ch with
    | cancel =>
      rw [serving] at h
      dsimp only at h
      split_ifs at h
      cases h
      exact (abandoned_grows c).keeps hvis.1
    | _ => cases h

lemma serving_stops (cfg : FlushConfig F) (store : PreparedConfig F) (ident : TableIdent)
    (task : ServingTask) : ((serving (α := α) cfg store ident).program task).Calls Stops := by
  cases task with
  | flushOnce => exact flushOnce_stops.bind (fun _ _ => Stops.bind) fun _ => trivial
  | recheckBlocked =>
    exact stops_of_avoids (recheckBlocked_avoids.bind fun _ => trivial)

variable {cfg : FlushConfig F} {ident : TableIdent} {p : PreparedFlush F}
  {k : TeoDBResult Unit → Prog F α (IntentNode F α) Unit}
  {c : Host.Config (io F α) (IntentNode F α) TeoDBError}

lemma owner_of_persisting
    (run : (serving cfg store ident).machine.Reachable ⟨s, some (.call (.persistPrepared p) k)⟩) :
    s.buffer.preparedFlush = some p :=
  ((keeping_sound cfg store ident none _ fun _ _ _ h => by cases h).visible_call run).2

/-- A flush whose sidecar is refused ends with the error. -/
lemma task_of_refused
    (run : (serving cfg store ident).machine.Reachable ⟨s, some (.call (.persistPrepared p) k)⟩)
    (e : TeoDBError) : k (.error e) = .done (.error e) :=
  (Host.calls_of_reachable (serving_stops cfg store ident) run _ rfl).1 e

/-- An intent without a request owns the buffer as long as it has none. -/
lemma owner_of_leads {res : TeoDBResult Unit}
    (later : (serving cfg store ident).machine.Leads ⟨s, some (.done res)⟩ c)
    (ho : s.buffer.preparedFlush = some p) :
    p.commitId ∈ c.state.requested ∨ c.state.buffer.preparedFlush = some p := by
  have sound := keeping_sound (α := α) cfg store ident (some p) _ fun _ h => h
  have hs : Host.Safe (keeping store (some p)) (Keeps (some p)) c :=
    later.preserves (P := Host.Safe (keeping store (some p)) (Keeps (some p)))
      (fun q hq => Or.inr (by cases hq; exact ho))
      fun _ _ _ h hn => sound.next h trivial hn
  exact sound.shows (V := Keeps (some p)) (fun _ h => h) (fun _ _ h => h.1) hs p rfl

end

section

variable [BEq F]

/-- Before the catalog is asked about the intent, at some moment it does not own the buffer, its
rows are pending, and a later flush persists another intent. -/
def Released (host : Host (io F α) (IntentNode F α) TeoDBError ServingTask (IntentChoice F α))
    (store : PreparedConfig F) (p : PreparedFlush F) (rows : List (BufferEntry α))
    (c : Host.Config (io F α) (IntentNode F α) TeoDBError) : Prop :=
  ∃ c', host.machine.Leads c c' ∧ p.commitId ∉ c'.state.requested ∧
    c'.state.buffer.preparedFlush ≠ some p ∧
    (∀ entry ∈ rows, entry ∈ c'.state.buffer.state.pending) ∧
    ∃ c'' q k, host.machine.Leads c' c'' ∧ c''.task = some (.call (.persistPrepared q) k) ∧
      q.commitId ≠ p.commitId ∧ PreparedStore.Accepts store c''.state.prepared q none

variable {cfg : FlushConfig F} {store : PreparedConfig F} {ident : TableIdent}
  {s : IntentNode F α} {p : PreparedFlush F} {ft : Option FileFault}
  {k : TeoDBResult Unit → Prog F α (IntentNode F α) Unit}
  {c : Host.Config (io F α) (IntentNode F α) TeoDBError}

variable
  (run : (serving cfg store ident).machine.Reachable ⟨s, some (.call (.persistPrepared p) k)⟩)
  (answered : (serving cfg store ident).machine.next ⟨s, some (.call (.persistPrepared p) k)⟩
    (.answer (.file ft)) = some c)

include run answered

lemma next_of_refused {e : TeoDBError}
    (refused : (PreparedStore.persist store s.prepared p ft).1 = .error e) :
    c = ⟨{ s with prepared := (PreparedStore.persist store s.prepared p ft).2 },
      some (.done (.error e))⟩ := by
  have hn : c = ⟨{ s with prepared := (PreparedStore.persist store s.prepared p ft).2 },
      some (k (PreparedStore.persist store s.prepared p ft).1)⟩ :=
    (Option.some.inj answered).symm
  rw [hn, refused, task_of_refused run]

lemma not_released_of_refused {e : TeoDBError}
    (refused : (PreparedStore.persist store s.prepared p ft).1 = .error e)
    (rows : List (BufferEntry α)) :
    ¬ Released (serving cfg store ident) store p rows c := by
  rintro ⟨c', hlea, hfr, hrel, _⟩
  rw [next_of_refused run answered refused] at hlea
  have howner := owner_of_persisting run
  rcases owner_of_leads hlea howner with hasked | ho
  · exact hfr hasked
  · exact hrel ho

end

/-- A refused intent ends the flush with the error and keeps the buffer until the catalog is asked
about it, so it is released after every error exactly if the store accepts it. -/
theorem refused_intent_released_iff [BEq F] (cfg : FlushConfig F) (store : PreparedConfig F)
    (ident : TableIdent) {s : IntentNode F α} {p : PreparedFlush F} {fault : Option FileFault}
    {k : TeoDBResult Unit → Prog F α (IntentNode F α) Unit}
    {c : Host.Config (io F α) (IntentNode F α) TeoDBError}
    (run : (serving cfg store ident).machine.Reachable ⟨s, some (.call (.persistPrepared p) k)⟩)
    (answered : (serving cfg store ident).machine.next ⟨s, some (.call (.persistPrepared p) k)⟩
      (.answer (.file fault)) = some c) :
    (∀ error, (PreparedStore.persist store s.prepared p fault).1 = .error error →
      c.task = some (.done (.error error))) ∧
    ((p.commitId ∉ s.requested →
        (∃ error, (PreparedStore.persist store s.prepared p fault).1 = .error error) →
        Released (serving cfg store ident) store p s.buffer.state.inFlight c) ↔
      (p.commitId ∉ s.requested → PreparedStore.Accepts store s.prepared p fault)) := by
  refine ⟨fun error refused => ?_, fun hrel hfresh => ?_, ?_⟩
  · rw [next_of_refused run answered refused]
  · by_contra hrefused
    cases hres : (PreparedStore.persist store s.prepared p fault).1 with
    | ok u => exact hrefused (PreparedStore.persist_eq_ok_iff.mp hres)
    | error error =>
      exact not_released_of_refused run answered hres _ (hrel hfresh ⟨error, hres⟩)
  · rintro hacc hfresh ⟨error, hres⟩
    rw [PreparedStore.persist_eq_ok_iff.mpr (hacc hfresh)] at hres
    cases hres

/-- The intent that a flush is about to persist. -/
def persisting (c : Host.Config (io F α) (IntentNode F α) TeoDBError) :
    Option (PreparedFlush F) :=
  match c.task with
  | some (.call (.persistPrepared p) _) => some p
  | _ => none

lemma task_of_persisting {c : Host.Config (io F α) (IntentNode F α) TeoDBError}
    {p : PreparedFlush F} (h : persisting c = some p) :
    ∃ k, c.task = some (.call (.persistPrepared p) k) := by
  unfold persisting at h
  split at h
  · rename_i k ht
    cases h
    exact ⟨k, ht⟩
  · cases h

/-- The rows in flight, the requests, and whether the sidecar is written. -/
def seenAtPersist (c : Host.Config (io Unit Unit) (IntentNode Unit Unit) TeoDBError) :
    Option (List Nat × Nat × Bool) :=
  (persisting c).map fun p =>
    (generations c.state.buffer.state.inFlight, c.state.requested.length,
      (PreparedStore.persist eventsStore c.state.prepared p none).1.isOk)

lemma exists_persisting (fs : Nat) (isOk : Bool)
    (h : (eventsServing.machine.exec ⟨eventsNode, none⟩ (persistingFlush fs)).map
      seenAtPersist = some (some ([2], 0, isOk))) :
    ∃ s p k c, eventsServing.machine.Reachable ⟨s, some (.call (.persistPrepared p) k)⟩ ∧
      p.commitId ∉ s.requested ∧ generations s.buffer.state.inFlight = [2] ∧
      eventsServing.machine.next ⟨s, some (.call (.persistPrepared p) k)⟩
        (.answer (.file none)) = some c ∧
      (PreparedStore.persist eventsStore s.prepared p none).1.isOk = isOk := by
  obtain ⟨⟨s, task⟩, hc, hs⟩ := Machine.exists_of_exec eventsServing_start h
  obtain ⟨p, hp, hs⟩ := Option.map_eq_some_iff.mp hs
  obtain ⟨k, rfl⟩ := task_of_persisting hp
  obtain ⟨hr, hs⟩ := Prod.mk.inj hs
  obtain ⟨hreq, hok⟩ := Prod.mk.inj hs
  have hn : s.requested = [] := List.length_eq_zero_iff.mp hreq
  exact ⟨s, p, k, _, hc, by simp [hn], hr, rfl, hok⟩

lemma isOk_eq_false_iff {res : TeoDBResult β} : res.isOk = false ↔ ∃ e, res = .error e := by
  cases res <;> simp [Except.isOk, Except.toBool]

/-- A flush into one file persists its intent. -/
theorem refused_intent_released_iff_events : ∃ s p k c,
    eventsServing.machine.Reachable ⟨s, some (.call (.persistPrepared p) k)⟩ ∧
      p.commitId ∉ s.requested ∧ generations s.buffer.state.inFlight = [2] ∧
      eventsServing.machine.next ⟨s, some (.call (.persistPrepared p) k)⟩
        (.answer (.file none)) = some c ∧
      (((∃ error, (PreparedStore.persist eventsStore s.prepared p none).1 = .error error) →
          Released eventsServing eventsStore p s.buffer.state.inFlight c) ↔
        PreparedStore.Accepts eventsStore s.prepared p none) := by
  obtain ⟨s, p, k, c, run, hfr, hr, hn, _⟩ := exists_persisting 1 true (by decide +kernel)
  have hiff := (refused_intent_released_iff plainConfig.toFlushConfig eventsStore eventsTable
    run hn).2
  simp only [hfr, not_false_eq_true, true_imp_iff] at hiff
  exact ⟨s, p, k, c, run, hfr, hr, hn, hiff⟩

/-- A flush into two files, where the store takes one, keeps its rows in flight. -/
theorem too_many_files_wedge : ∃ s p k c,
    eventsServing.machine.Reachable ⟨s, some (.call (.persistPrepared p) k)⟩ ∧
      p.commitId ∉ s.requested ∧ generations s.buffer.state.inFlight = [2] ∧
      eventsServing.machine.next ⟨s, some (.call (.persistPrepared p) k)⟩
        (.answer (.file none)) = some c ∧
      (∃ error, (PreparedStore.persist eventsStore s.prepared p none).1 = .error error) ∧
      ¬ Released eventsServing eventsStore p s.buffer.state.inFlight c := by
  obtain ⟨s, p, k, c, run, hfr, hr, hn, hok⟩ := exists_persisting 2 false (by decide +kernel)
  obtain ⟨error, hrf⟩ := isOk_eq_false_iff.mp hok
  exact ⟨s, p, k, c, run, hfr, hr, hn, ⟨error, hrf⟩, not_released_of_refused run hn hrf _⟩

end IntentNode

end TeoDB.Ingest.Flush
