import TeoDB.Api.World

/-!
# The effects of a drop through SQL

A `DROP TABLE` statement drops the table in the catalog, purges its objects if it is told
to, and only then evicts the buffer and the idempotency entries of the table and appends
a tombstone to the log. A purge that fails, a deadline, a client that goes away and a lost
answer of the catalog all end the request before that.

## Implementation notes

`Completes` is the condition on single turns.
-/

namespace TeoDB.Api

open TeoDB.Core Lib Query Storage Storage.Wal

/-- The effects of a drop on the node. -/
def Settled (ident : TableIdent) (marks : List Mark) : Prop :=
  .bufferRemoved ident ∈ marks ∧ .receiptsEvicted ident ∈ marks ∧
    (.tombstone ident true ∈ marks ∨ .tombstone ident false ∈ marks)

/-- Behind each drop there are its effects. -/
def Followed : List Mark → Prop
  | [] => True
  | .dropped ident :: rest => Settled ident rest ∧ Followed rest
  | _ :: rest => Followed rest

lemma Settled.append {ident : TableIdent} {marks : List Mark} (h : Settled ident marks)
    (more : List Mark) : Settled ident (marks ++ more) :=
  ⟨List.mem_append_left _ h.1, List.mem_append_left _ h.2.1,
    h.2.2.imp (List.mem_append_left _) (List.mem_append_left _)⟩

lemma Followed.append {hist more : List Mark} (h : Followed hist) (hm : Followed more) :
    Followed (hist ++ more) := by
  induction hist with
  | nil => exact hm
  | cons m rest ih =>
    cases m with
    | dropped ident => exact ⟨h.1.append more, ih h.2⟩
    | _ => exact ih h

lemma Followed.mark {w : World} {m : Mark} (h : Followed w.history)
    (hm : ∀ ident, m ≠ .dropped ident) : Followed (w.mark m).history := by
  refine Followed.append h ?_
  cases m with
  | dropped ident => exact absurd rfl (hm ident)
  | _ => trivial

/-- The node still owes effects of the last drop, behind which there are only these marks. -/
def Owes (ident : TableIdent) (marks : List Mark) (w : World) : Prop :=
  ∃ history, Followed history ∧ w.history = history ++ .dropped ident :: marks

variable (site : Site)

/-- A location whose objects can be listed. -/
def purgeable (location : ObjectLocation) : Bool :=
  match ObjectLocation.parse location.toUri with
  | .error _ => false
  | .ok read =>
    match site.resolve read with
    | .error _ => false
    | .ok rootPath => (tablePrefixPath rootPath).isOk

/-- An answer after which a drop that took effect can be completed. -/
def answerCompletes (w : World) (choice : Choice) : Call → Bool
  | .loadTable ident =>
    match choice, w.catalog ident with
    | .succeed, some table => purgeable site table.location
    | _, _ => true
  | .dropTable ident =>
    match choice with
    | .fail _ true => (w.catalog ident).isNone
    | _ => true
  | .resolve _ | .list _ | .delete _ =>
    match choice with
    | .succeed => true
    | _ => false
  | _ => true

/-- A moment at which a request can be dropped. -/
def abandonCompletes (w : World) (applied : Bool) : Call → Bool
  | .dropTable ident => !applied || (w.catalog ident).isNone
  | .resolve _ | .list _ | .delete _ => false
  | .appendDropTombstone _ => applied
  | _ => true

def completes (cfg : Host.Config io World TeoDBError) {P : Type} :
    Host.Turn P WorldChoice → Bool
  | .answer (.answer choice) =>
    match cfg.task with
    | some (.call c _) => answerCompletes site cfg.state choice c
    | _ => true
  | .abandon (.abandon applied) =>
    match cfg.task with
    | some (.call c _) => abandonCompletes cfg.state applied c
    | _ => true
  | _ => true

/-- A turn that lets a drop that took effect be completed. -/
def Completes {P : Type} (cfg : Host.Config io World TeoDBError)
    (turn : Host.Turn P WorldChoice) : Prop :=
  completes site cfg turn = true

instance {site : Site} {P : Type} {cfg : Host.Config io World TeoDBError}
    {turn : Host.Turn P WorldChoice} : Decidable (Completes site cfg turn) :=
  inferInstanceAs (Decidable (_ = true))

/-- What a request shows and relies on: before a call that can be dropped, nothing is owed. -/
def dropSetting : Async.Setting io World where
  visible w event :=
    match event with
    | .call (.resolve _) | .call (.list _) | .call (.delete _) => True
    | .call (.appendDropTombstone ident) => Followed (w.mark (.tombstone ident true)).history
    | .call _ => Followed w.history
    | .act _ => True
  interferes w w' := w'.history = w.history
  answers w c a w' := ∃ choice, answerCompletes site w choice c = true ∧
    site.answer choice w c = some (a, w')

lemma stable_history {site : Site} (P : List Mark → Prop) :
    (dropSetting site).Stable fun w => P w.history := by
  intro w w' h hww'
  rwa [hww']

def Call.DropsNothing (c : Call) : Prop := ∀ ident, c ≠ .dropTable ident

lemma followed_answer {site : Site} {w w' : World} {c : Call} {a : Answer c}
    (hc : c.DropsNothing) (h : Followed w.history)
    (ha : (dropSetting site).answers w c a w') : Followed w'.history := by
  obtain ⟨choice, _, hch⟩ := ha
  rcases recorded_answer hch with heq | ⟨m, hm, heq⟩
  · rwa [heq]
  · rw [heq]
    refine Followed.mark (w := w) h ?_
    rintro ident rfl
    cases c with
    | dropTable o => exact hc o rfl
    | _ => exact hm

/-- A text that names a location whose objects can be listed. -/
def Readable (uri : String) : Prop :=
  ∃ location rootPath listPrefix, ObjectLocation.parse uri = .ok location ∧
    site.resolve location = .ok rootPath ∧ tablePrefixPath rootPath = .ok listPrefix

lemma readable_of_purgeable {site : Site} {loc : ObjectLocation}
    (h : purgeable site loc = true) : Readable site loc.toUri := by
  unfold purgeable at h
  cases hr : ObjectLocation.parse loc.toUri with
  | error e => simp [hr] at h
  | ok read =>
    cases hro : site.resolve read with
    | error e => simp [hr, hro] at h
    | ok rootPath =>
      cases hbl : tablePrefixPath rootPath with
      | error e => simp [hr, hro, hbl, Except.isOk, Except.toBool] at h
      | ok listPrefix => exact ⟨read, rootPath, listPrefix, hr, hro, hbl⟩

section

variable {site : Site} {w : World} {α : Type}

lemma owes_stable (ident : TableIdent) (marks : List Mark) :
    (dropSetting site).Stable (Owes ident marks) :=
  stable_history fun hist => ∃ h, Followed h ∧ hist = h ++ .dropped ident :: marks

variable {ident : TableIdent} {w' : World}

lemma Owes.of_history {marks : List Mark} (h : Owes ident marks w)
    (hw : w'.history = w.history) : Owes ident marks w' := by
  obtain ⟨hist, hfol, heq⟩ := h
  exact ⟨hist, hfol, hw.trans heq⟩

/-- The calls of a purge. -/
def Call.purges : Call → Bool
  | .resolve _ | .list _ | .delete _ => true
  | _ => false

/-- Under the condition a call of a purge succeeds, and the effects are still owed. -/
lemma purges_answer {c : Call} {a : Answer c} (hc : c.purges = true) (hw : Owes ident [] w)
    (ha : (dropSetting site).answers w c a w') :
    site.succeed w c = some (a, w') ∧ Owes ident [] w' := by
  obtain ⟨ch, hg, hch⟩ := ha
  have ho : Owes ident [] w' := by
    rcases recorded_answer hch with heq | ⟨m, hm, heq⟩
    · exact hw.of_history heq
    · cases c with
      | resolve loc | list listPrefix | delete path => exact hm.elim
      | _ => cases hc
  cases ch with
  | succeed => exact ⟨hch, ho⟩
  | _ =>
    cases c with
    | resolve loc | list listPrefix | delete path => cases hg
    | _ => cases hc

lemma wp_purges {c : Call} {Q : Except TeoDBError (Payload c) → World → Prop}
    (hc : c.purges = true) (hw : Owes ident [] w)
    (h : ∀ w a w', site.succeed w c = some (a, w') → Owes ident [] w' → Q a w') :
    Async.wp (dropSetting site) Q (await c) w := by
  intro w' hww'
  have hw' := owes_stable ident [] w w' hw hww'
  refine ⟨?_, fun a w'' ha => ?_⟩
  · cases c with
    | resolve loc | list listPrefix | delete path => trivial
    | _ => cases hc
  · obtain ⟨hsuc, ho⟩ := purges_answer hc hw' ha
    exact h w' a w'' hsuc ho

/-- Under the condition a purge succeeds and leaves the history. -/
lemma wp_purgeTableStorage {uri : String} (huri : Readable site uri) (hw : Owes ident [] w) :
    Async.wp (dropSetting site) (Async.ends (fun _ => Owes ident []) fun _ => False)
      (purgeTableStorage uri) w := by
  obtain ⟨loc, rootPath, listPrefix, hps, hres, hbl⟩ := huri
  unfold purgeTableStorage
  rw [hps]
  refine Async.wp_lift_bind (fun read hr => ?_) fun e her => by cases her
  obtain rfl := Except.ok.inj hr
  refine Async.wp_bind.mpr (wp_purges rfl hw fun w ans w' hsuc hw => ?_)
  simp only [Site.succeed, hres, Option.some.injEq, Prod.mk.injEq] at hsuc
  obtain ⟨rfl, rfl⟩ := hsuc
  rw [Async.andThen_ok, hbl]
  refine Async.wp_lift_bind (fun found _ => ?_) fun e her => by cases her
  refine Async.wp_bind.mpr (wp_purges rfl hw fun w ans w' hsuc hw => ?_)
  cases hsuc
  refine Async.wp_each (fun path _ w hw => ?_) hw
  refine wp_purges rfl hw fun w ans w' hsuc hw => ?_
  cases hsuc
  exact hw

/-- The location of a purge can be read, and nothing is owed. -/
def PurgeFound (site : Site) : Except DdlResult (Option String) → World → Prop
  | .error result, w => result.changed = false ∧ Followed w.history
  | .ok location, w => (∀ uri ∈ location, Readable site uri) ∧ Followed w.history

lemma followed_stable : (dropSetting site).Stable fun w => Followed w.history :=
  stable_history Followed

/-- Under the condition, a table that is loaded has a location that can be purged. -/
lemma readable_of_answer {ld : LoadedTable}
    (ha : (dropSetting site).answers w (.loadTable ident) (.ok ld) w') :
    Readable site ld.tableLocation.toUri := by
  obtain ⟨ch, hg, hch⟩ := ha
  cases ch with
  | succeed =>
    simp only [Site.answer, Site.succeed] at hch
    cases htb : w.catalog ident with
    | none =>
      rw [htb] at hch
      cases hch
    | some table =>
      rw [htb] at hch
      cases hch
      simp only [answerCompletes, htb] at hg
      exact readable_of_purgeable hg
  | _ => cases hch

lemma wp_purgeLocation (plan : DropTablePlan) (hw : Followed w.history) :
    Async.wp (dropSetting site) (Async.ends (PurgeFound site) fun w => Followed w.history)
      (DdlExecutor.purgeLocation plan) w := by
  unfold DdlExecutor.purgeLocation
  split_ifs
  · refine Async.wp_request_bind_of followed_stable hw fun w hw => ⟨hw, fun ans w' ha => ?_⟩
    have hw' := followed_answer (by simp [Call.DropsNothing]) hw ha
    cases ans with
    | ok loaded =>
      refine ⟨?_, hw'⟩
      rintro _ ⟨⟩
      exact readable_of_answer ha
    | error e =>
      dsimp only
      split
      · exact ⟨rfl, hw'⟩
      · exact hw'
  · exact ⟨by simp, hw⟩

/-- A drop that succeeded owes the effects, and one that failed did not take effect. -/
lemma drop_answer {a : TeoDBResult Unit} (hw : Followed w.history)
    (ha : (dropSetting site).answers w (.dropTable ident) a w') :
    (a = .ok () ∧ Owes ident [] w') ∨ ((∃ e, a = .error e) ∧ Followed w'.history) := by
  obtain ⟨ch, hg, hch⟩ := ha
  cases ch with
  | succeed =>
    simp only [Site.answer, Site.succeed] at hch
    cases htb : w.catalog ident with
    | none =>
      rw [htb] at hch
      cases hch
      exact Or.inr ⟨⟨_, rfl⟩, hw⟩
    | some table =>
      rw [htb] at hch
      cases hch
      exact Or.inl ⟨rfl, w.history, hw, by simp [World.drop, htb, World.mark]⟩
  | fail e ap =>
    cases hch
    refine Or.inr ⟨⟨e, rfl⟩, ?_⟩
    cases ap with
    | false => exact hw
    | true =>
      have htb := Option.isNone_iff_eq_none.mp hg
      simpa [World.afterFailure, World.drop, htb] using hw
  | _ => cases hch

/-- After a drop statement, the effects are owed exactly if its result says that it changed
the catalog. -/
lemma wp_dropTable (plan : DropTablePlan) (hw : Followed w.history) : Async.wp (dropSetting site)
      (Async.ends (fun res w => if res.changed then Owes plan.ident [] w else Followed w.history)
        fun w => Followed w.history)
      (DdlExecutor.dropTable plan) w := by
  refine Async.wp_bind_of (wp_purgeLocation plan hw) fun fd w hfnd => ?_
  cases fd with
  | error res =>
    refine (if_neg ?_).mpr hfnd.2
    simp [hfnd.1]
  | ok loc =>
    obtain ⟨hrd, hw⟩ := hfnd
    refine Async.wp_request_bind_of followed_stable hw fun w hw => ⟨hw, fun answer w' ha => ?_⟩
    rcases drop_answer hw ha with ⟨rfl, ho⟩ | ⟨⟨e, rfl⟩, hw'⟩
    · refine Async.wp_bind_of (R := fun _ => Owes plan.ident []) (P := fun _ => False) ?_
        (fun _ w hw => ?_) fun _ _ h => h.elim
      · cases loc with
        | none => exact ho
        | some uri => exact wp_purgeTableStorage (hrd uri rfl) ho
      · exact hw
    · dsimp only
      split
      · exact hw'
      · exact hw'

lemma Owes.mark {marks : List Mark} {m : Mark} (h : Owes ident marks w) :
    Owes ident (marks ++ [m]) (w.mark m) := by
  obtain ⟨hist, hfol, heq⟩ := h
  exact ⟨hist, hfol, by simp [World.mark, heq]⟩

/-- With the tombstone, nothing is owed any more. -/
lemma Owes.settle {wr : Bool} (h : Owes ident [.bufferRemoved ident, .receiptsEvicted ident] w) :
    Followed (w.mark (.tombstone ident wr)).history := by
  obtain ⟨hist, hfol, heq⟩ := h
  rw [World.mark, heq, List.append_assoc]
  refine hfol.append ⟨?_, trivial⟩
  cases wr <;> simp [Settled]

/-- The effects that a drop owes. -/
lemma wp_discardTable (hw : Owes ident [] w) :
    Async.wp (dropSetting site) (fun _ w => Followed w.history)
      (discardTable World.services ident) w := by
  refine Async.wp_bind.mpr (Async.wp_perform_of (owes_stable ident []) hw fun w hw => ?_)
  refine ⟨trivial, Async.andThen_ok.mpr ?_⟩
  have hrm : Owes ident [.bufferRemoved ident] (World.services.removeBuffer ident w) :=
    Owes.mark (hw.of_history rfl)
  refine Async.wp_bind.mpr (Async.wp_perform_of (owes_stable ident _) hrm fun w hw => ?_)
  refine ⟨trivial, Async.andThen_ok.mpr ?_⟩
  have hevi : Owes ident [.bufferRemoved ident, .receiptsEvicted ident]
      (World.services.evictTable ident w) :=
    Owes.mark (hw.of_history rfl)
  refine Async.wp_request_bind_of (owes_stable ident _) hevi fun w hw => ⟨hw.settle, ?_⟩
  rintro answer w' ⟨ch, _, hch⟩
  cases ch with
  | succeed =>
    cases hch
    exact hw.settle
  | fail error ap =>
    cases hch
    exact hw.settle
  | _ => cases hch

lemma wp_confined {p : Prog World α} (h : p.Confined World.services.acts Call.DropsNothing)
    (hw : Followed w.history) :
    Async.wp (dropSetting site) (fun _ w => Followed w.history) p w := by
  refine h.keeps followed_stable (fun name g w hg hw => ⟨trivial, ?_⟩) (fun c w hc hw => ?_) hw
  · cases name with
    | removeBuffer ident =>
      obtain rfl := hg
      exact Followed.mark (w := { w with buffers := _ }) hw (by simp)
    | evictTable ident =>
      obtain rfl := hg
      exact Followed.mark (w := { w with receipts := _ }) hw (by simp)
    | tables =>
      obtain rfl := hg
      exact hw
  · refine ⟨?_, fun a w' ha => followed_answer hc hw ha⟩
    cases c with
    | resolve loc | list listPrefix | delete path => trivial
    | appendDropTombstone ident => exact hw.mark (by simp)
    | _ => exact hw

lemma plain_dropsNothing (c : Call) (h : c.plain = true) : c.DropsNothing := by
  rintro ident rfl
  cases h

lemma wp_routeSql {T : Type} (fe : Frontend T) (sql : String) (hw : Followed w.history) :
    Async.wp (dropSetting site) (Async.ends (fun _ w => Followed w.history)
        fun w => Followed w.history) (routeSql World.services fe.parser fe.warehouse sql) w := by
  by_cases hd : ∃ plan, classifySql fe.parser sql = .ok (.ddl (.dropTable plan))
  · obtain ⟨plan, hp⟩ := hd
    unfold routeSql
    rw [hp]
    refine Async.wp_bind_of (wp_dropTable plan hw) fun result w hres => ?_
    refine Async.wp_bind_of (R := fun _ w => Followed w.history) (P := fun w => Followed w.history)
      ?_ (fun _ w (hw : Followed w.history) => hw) fun _ w (hw : Followed w.history) => hw
    unfold applyPostDdl
    split_ifs at hres ⊢ with hchanged
    · exact Async.wp_ends (wp_discardTable hres)
    · exact hres
  · refine Async.wp_ends (wp_confined (confined_routeSql plain_dropsNothing fun plan hp => ?_) hw)
    cases plan with
    | dropTable plan => exact absurd ⟨plan, hp⟩ hd
    | createTable plan => exact fun rq _ => by simp [Call.DropsNothing]
    | _ => trivial

end

/-- The requests of the SQL route. -/
inductive SqlRequest where
  | querySql (sql : String)
  | statementUpdate (sql : String)

def SqlRequest.request : SqlRequest → Request
  | .querySql sql => .querySql sql
  | .statementUpdate sql => .statementUpdate sql

lemma wp_sqlRequest {T : Type} {site : Site} {w : World} (fe : Frontend T)
    (req : SqlRequest) (hw : Followed w.history) :
    Async.wp (dropSetting site) (fun _ w => Followed w.history) (req.request.program fe) w := by
  have haut : Async.wp (dropSetting site)
      (Async.ends (fun _ w => Followed w.history) fun w => Followed w.history)
      (await (.authorize .query .cluster)) w :=
    Async.wp_ends (wp_confined (confined_await (by simp [Call.DropsNothing])) hw)
  have hrou (sql : String) {w : World} (hw : Followed w.history) :
      Async.wp (dropSetting site) (fun _ w => Followed w.history) (do
          let routing ← routeSql World.services fe.parser fe.warehouse sql
          runEngine sql routing) w := by
    refine Async.wp_bind_of (wp_routeSql fe sql hw) fun routing w hw => ?_
    exact wp_confined (confined_runEngine plain_dropsNothing sql routing) hw
  cases req with
  | querySql sql =>
    refine Async.wp_bind_of haut fun _ w hw => ?_
    split_ifs
    · exact hw
    · exact hrou sql hw
  | statementUpdate sql =>
    exact Async.wp_bind_of haut fun _ w hw => hrou sql hw

lemma afterAbandon_followed {w : World} {ap : Bool} {c : Call}
    (hg : abandonCompletes w ap c = true) {site : Site}
    (hvis : (dropSetting site).visible w (.call c)) : Followed (w.afterAbandon ap c).history := by
  cases c with
  | dropTable ident =>
    cases ap with
    | false => exact hvis
    | true =>
      have hw : Followed w.history := hvis
      have htb : w.catalog ident = none := by simpa [abandonCompletes] using hg
      simpa [World.afterAbandon, World.afterFailure, World.drop, htb] using hw
  | resolve loc | list listPrefix | delete path => cases hg
  | appendDropTombstone ident =>
    obtain rfl : ap = true := hg
    exact hvis
  | createTable req =>
    cases ap with
    | false => exact hvis
    | true =>
      have hw : Followed w.history := hvis
      rcases w.create_history req with heq | heq
      · simpa [World.afterAbandon, World.afterFailure, heq] using hw
      · have hcr : Followed (w.history ++ [.created req.ident]) := hw.append trivial
        simpa [World.afterAbandon, World.afterFailure, heq] using hcr
  | _ => exact hvis

lemma dropSound {T : Type} (fe : Frontend T) :
    Host.Sound (site.host fe SqlRequest.request) (Completes site) (dropSetting site)
      fun w => Followed w.history where
  start w hw := by
    rw [hw.1]
    trivial
  refl _ := rfl
  trans _ _ _ hab hbc := hbc.trans hab
  stable w w' hw hww' := by rwa [hww']
  spawn req _ hw := wp_sqlRequest fe req hw
  interfere cfg ch w' _ hw' := by
    cases ch with
    | others os =>
      cases hw'
      rfl
    | _ => cases hw'
  answer w c k ch a w' hg ha := by
    cases ch with
    | answer ch => exact ⟨ch, hg, ha⟩
    | _ => cases ha
  abandon w c k ch w' hg hvis hw' := by
    cases ch with
    | abandon ap =>
      cases hw'
      exact afterAbandon_followed hg hvis
    | _ => cases hw'

/-- When drops are let complete, each drop through SQL has had its effects whenever no request runs.
-/
theorem drop_effects_follow {T : Type} (site : Site) (frontend : Frontend T)
    {cfg : Host.Config io World TeoDBError}
    (run : (site.host frontend SqlRequest.request).machine.ReachableIf (Completes site) cfg)
    (hrest : cfg.task = none) : Followed cfg.state.history := by
  have hs := (dropSound site frontend).safe run
  obtain ⟨w, task⟩ := cfg
  obtain rfl : task = none := hrest
  exact hs

def regionTable : TableIdent := ⟨"tpch", "region"⟩

/-- A site that allows everything. -/
def openSite : Site := ⟨fun _ _ => true, .s3, "teodb"⟩

/-- A table with one object. -/
def regionWorld : World where
  catalog ident :=
    if ident = regionTable then some ⟨0, ⟨.s3, some "teodb", "tpch/region"⟩, ⟨0, [], []⟩⟩ else none
  born := 1
  objects := [⟨"tpch/region/data/a.parquet", regionTable, 0⟩]
  buffers := [regionTable]
  receipts := []
  history := []
  purge := ⟨regionTable, 0, []⟩
  deleted := []

def purgeSql : String := "DROP TABLE tpch.region PURGE"

def purgeFrontend : Frontend Unit where
  parser := oneStatement purgeSql
    (.drop .table [⟨[some "tpch", some "region"], "tpch.region"⟩] false true)
  warehouse := "s3://teodb"

lemma regionWorld_start :
    (openSite.host purgeFrontend SqlRequest.request).machine.start ⟨regionWorld, none⟩ :=
  ⟨⟨rfl, rfl, rfl⟩, rfl⟩

/-- The statement up to the deletion of the object. -/
def purging : List (Host.Turn SqlRequest WorldChoice) :=
  .spawn (.querySql purgeSql) :: List.replicate 5 (.answer (.answer .succeed))

/-- Whether a request runs, and what happened. -/
def happened (cfg : Host.Config io World TeoDBError) : Bool × List Mark :=
  (cfg.task.isNone, cfg.state.history)

theorem drop_effects_follow_region : ∃ cfg : Host.Config io World TeoDBError,
      (openSite.host purgeFrontend SqlRequest.request).machine.ReachableIf
        (Completes openSite) cfg ∧ cfg.task = none ∧
      .dropped regionTable ∈ cfg.state.history ∧ Followed cfg.state.history := by
  have hrun : (((openSite.host purgeFrontend SqlRequest.request).machine.guarded
      (Completes openSite)).exec ⟨regionWorld, none⟩ (purging ++ [.answer (.answer .succeed), .act,
        .act, .answer (.answer .succeed), .finish])).map happened =
      some (true, [.dropped regionTable, .bufferRemoved regionTable, .receiptsEvicted regionTable,
        .tombstone regionTable true]) := by
    decide +kernel
  obtain ⟨cfg, hcfg, hhap⟩ := Machine.existsIf_of_exec regionWorld_start hrun
  obtain ⟨hr, hhist⟩ := Prod.mk.inj hhap
  have hr : cfg.task = none := Option.isNone_iff_eq_none.mp hr
  refine ⟨cfg, hcfg, hr, ?_, drop_effects_follow openSite purgeFrontend hcfg hr⟩
  rw [hhist]
  decide

/-- The store fails to delete the object: the table is gone, and its buffer, receipts and log
records stay. -/
theorem failed_purge_skips_effects : ∃ cfg : Host.Config io World TeoDBError,
      (openSite.host purgeFrontend SqlRequest.request).machine.Reachable cfg ∧ cfg.task = none ∧
      cfg.state.history = [.dropped regionTable] ∧ ¬ Followed cfg.state.history := by
  have hrun : ((openSite.host purgeFrontend SqlRequest.request).machine.exec ⟨regionWorld, none⟩
      (purging ++ [.answer (.answer (.fail (.objectStore "timeout") false)), .finish])).map
        happened = some (true, [.dropped regionTable]) := by
    decide +kernel
  obtain ⟨cfg, hcfg, hhap⟩ := Machine.exists_of_exec regionWorld_start hrun
  obtain ⟨hr, hhist⟩ := Prod.mk.inj hhap
  refine ⟨cfg, hcfg, Option.isNone_iff_eq_none.mp hr, hhist, ?_⟩
  rw [hhist]
  rintro ⟨⟨hrm, -⟩, -⟩
  cases hrm

end TeoDB.Api
