import TeoDB.Api.World

/-!
# A purge and the next incarnation of its table

A purge loads the location of a table, drops the table, lists the objects under the location and
deletes them one by one. A table that is created again under the name gets the same location. What
its catalog entry and its flushes write before the listing is deleted with the rest.

## Implementation notes

`Spares` is the condition on single turns: no object of a later incarnation is under a listed
prefix or written to a listed path.
-/

namespace TeoDB.Api

open TeoDB.Core Lib Query Storage Storage.Wal

/-- No purge deleted an object of a later incarnation of its table. -/
def Spared (w : World) : Prop :=
  ∀ entry ∈ w.deleted, entry.2.owner = entry.1.ident → entry.2.incarnation ≤ entry.1.incarnation

/-- The listed paths hold no object of a later incarnation. -/
def ListsOld (purge : Purge) (objects : List StoredObject) : Prop :=
  ∀ object ∈ objects, object.owner = purge.ident → object.path ∈ purge.listed →
    object.incarnation ≤ purge.incarnation

instance (purge : Purge) (objects : List StoredObject) : Decidable (ListsOld purge objects) :=
  inferInstanceAs (Decidable (∀ object ∈ objects, _ → _ → _))

/-- A listing without objects of a later incarnation. -/
def answerSpares (w : World) (choice : Choice) : Call → Bool
  | .list listPrefix =>
    match choice with
    | .succeed => ListsOld (w.recordListing listPrefix).purge w.objects
    | _ => true
  | _ => true

def spares (cfg : Host.Config io World TeoDBError) : Host.Turn Request WorldChoice → Bool
  | .answer (.answer choice) =>
    match cfg.task with
    | some (.call c _) => answerSpares cfg.state choice c
    | _ => true
  | .interfere (.others others) => ListsOld cfg.state.purge others.objects
  | _ => true

/-- A turn that keeps later incarnations out of a listing. -/
def Spares (cfg : Host.Config io World TeoDBError) (turn : Host.Turn Request WorldChoice) : Prop :=
  spares cfg turn = true

instance {cfg : Host.Config io World TeoDBError} {turn : Host.Turn Request WorldChoice} :
    Decidable (Spares cfg turn) :=
  inferInstanceAs (Decidable (_ = true))

/-- What has been deleted, and what may be deleted next. -/
structure Sparing (w : World) : Prop where
  spared : Spared w
  listed : ListsOld w.purge w.objects

/-- What a request shows and relies on. It deletes what it has listed. -/
def purgeSetting (site : Site) : Async.Setting io World where
  visible w event :=
    match event with
    | .call (.delete path) => Sparing w ∧ path ∈ w.purge.listed
    | _ => Sparing w
  interferes w w' := w'.deleted = w.deleted ∧ w'.purge = w.purge ∧
    (ListsOld w.purge w.objects → ListsOld w'.purge w'.objects)
  answers w c a w' :=
    ∃ choice, answerSpares w choice c = true ∧ site.answer choice w c = some (a, w')

section

variable {site : Site} {w w' : World}

lemma sparing_stable : (purgeSetting site).Stable Sparing := by
  rintro w w' ⟨hspared, hls⟩ ⟨hdel, _, hold⟩
  refine ⟨?_, hold hls⟩
  rwa [Spared, hdel]

/-- A purge in progress: the paths that are still to be deleted are listed. -/
def Deleting (paths : List String) (w : World) : Prop :=
  Sparing w ∧ ∀ path ∈ paths, path ∈ w.purge.listed

lemma deleting_stable (paths : List String) : (purgeSetting site).Stable (Deleting paths) := by
  rintro w w' ⟨hw, hpaths⟩ hww'
  refine ⟨sparing_stable w w' hw hww', ?_⟩
  rwa [hww'.2.1]

lemma Sparing.mark {m : Mark} (h : Sparing w) : Sparing (w.mark m) := ⟨h.spared, h.listed⟩

lemma Sparing.create (h : Sparing w) (req : CreateTableRequest) : Sparing (w.create req) := by
  unfold World.create
  split
  · exact h
  · exact ⟨h.spared, h.listed⟩

lemma Sparing.drop (h : Sparing w) (ident : TableIdent) : Sparing (w.drop ident) := by
  unfold World.drop
  split
  · exact h
  · refine ⟨h.spared, ?_⟩
    rintro object _ _ ⟨⟩

lemma Sparing.deleteObject (h : Sparing w) {path : String} (hp : path ∈ w.purge.listed) :
    Sparing (w.deleteObject path) := by
  constructor
  · intro en hen hown
    rcases List.mem_append.mp hen with hold | hnew
    · exact h.spared en hold hown
    · obtain ⟨obj, hob, rfl⟩ := List.mem_map.mp hnew
      obtain ⟨hmem, hat⟩ := List.mem_filter.mp hob
      obtain rfl : obj.path = path := by simpa using hat
      exact h.listed obj hmem hown hp
  · intro obj hob
    exact h.listed obj (List.mem_of_mem_filter hob)

lemma Sparing.afterFailure (h : Sparing w) {c : Call} (hc : ∀ path, c ≠ .delete path)
    (ap : Bool) : Sparing (w.afterFailure ap c) := by
  cases c with
  | createTable req =>
    cases ap with
    | true => exact h.create req
    | false => exact h
  | dropTable ident =>
    cases ap with
    | true => exact h.drop ident
    | false => exact h
  | delete path => exact absurd rfl (hc path)
  | appendDropTombstone ident => exact h.mark
  | _ => exact h

lemma Sparing.succeed (h : Sparing w) {c : Call} {a : Answer c} (hc : ∀ path, c ≠ .delete path)
    (hg : answerSpares w .succeed c = true) (ha : site.succeed w c = some (a, w')) :
    Sparing w' := by
  cases c with
  | createTable req =>
    simp only [Site.succeed] at ha
    split at ha
    · cases ha
      exact h
    · cases ha
      exact h.create req
  | dropTable ident =>
    simp only [Site.succeed] at ha
    split at ha
    · cases ha
      exact h.drop ident
    · cases ha
      exact h
  | loadTable ident =>
    simp only [Site.succeed] at ha
    split at ha <;> cases ha <;> exact h
  | list listPrefix =>
    cases ha
    exact ⟨h.spared, of_decide_eq_true hg⟩
  | delete path => exact absurd rfl (hc path)
  | appendDropTombstone ident =>
    cases ha
    exact h.mark
  | listNamespaces | listTables ns => cases ha
  | _ =>
    cases ha
    exact h

lemma sparing_answer {c : Call} {a : Answer c} (hc : ∀ path, c ≠ .delete path) (h : Sparing w)
    (ha : (purgeSetting site).answers w c a w') : Sparing w' := by
  obtain ⟨ch, hg, hch⟩ := ha
  cases ch with
  | succeed => exact h.succeed hc hg hch
  | fail error ap =>
    cases hch
    exact h.afterFailure hc ap
  | namespaces names =>
    cases c with
    | listNamespaces =>
      cases hch
      exact h
    | _ => cases hch
  | tables idents =>
    cases c with
    | listTables ns =>
      cases hch
      exact h
    | _ => cases hch

/-- The answer to a deletion, with what remains to be deleted. -/
lemma deleting_answer {path : String} {paths : List String} {a : TeoDBResult Unit}
    (hp : path ∈ paths) (h : Deleting paths w)
    (ha : (purgeSetting site).answers w (.delete path) a w') : Deleting paths w' := by
  obtain ⟨hw, hpat⟩ := h
  have hdel : Deleting paths (w.deleteObject path) :=
    ⟨hw.deleteObject (hpat path hp), hpat⟩
  obtain ⟨ch, _, hch⟩ := ha
  cases ch with
  | succeed =>
    cases hch
    exact hdel
  | fail error ap =>
    cases hch
    cases ap with
    | true => exact hdel
    | false => exact ⟨hw, hpat⟩
  | _ => cases hch

def Call.DeletesNothing (c : Call) : Prop := ∀ path, c ≠ .delete path

lemma wp_deletesNothing {α : Type} {p : Prog World α}
    (h : p.Confined World.services.acts Call.DeletesNothing) (hw : Sparing w) :
    Async.wp (purgeSetting site) (Async.ends (fun _ => Sparing) Sparing) p w := by
  refine Async.wp_ends (h.keeps sparing_stable (fun name g w hg hw => ⟨hw, ?_⟩)
    (fun c w hc hw => ⟨?_, fun a w' ha => sparing_answer hc hw ha⟩) hw)
  · cases name with
    | removeBuffer ident =>
      obtain rfl := hg
      exact ⟨hw.spared, hw.listed⟩
    | evictTable ident =>
      obtain rfl := hg
      exact ⟨hw.spared, hw.listed⟩
    | tables =>
      obtain rfl := hg
      exact hw
  · cases c with
    | delete path => exact absurd rfl (hc path)
    | _ => exact hw

/-- The listing that a purge goes on with is the recorded one. -/
lemma deleting_of_list {listPrefix : String} {paths : List String} (hw : Sparing w)
    (ha : (purgeSetting site).answers w (.list listPrefix) (.ok paths) w') : Deleting paths w' := by
  have hw' := sparing_answer (by simp) hw ha
  obtain ⟨ch, _, hch⟩ := ha
  cases ch with
  | succeed =>
    cases hch
    exact ⟨hw', fun path hp => hp⟩
  | _ => cases hch

lemma wp_purge (loc : String) (hw : Sparing w) :
    Async.wp (purgeSetting site) (Async.ends (fun _ => Sparing) Sparing)
      (purgeTableStorage loc) w := by
  refine Async.wp_lift_bind (fun read _ => ?_) fun _ _ => hw
  refine Async.wp_bind_of (wp_deletesNothing (confined_await (by simp [Call.DeletesNothing])) hw)
    fun rootPath w hw => ?_
  refine Async.wp_lift_bind (fun listPrefix _ => ?_) fun _ _ => hw
  refine Async.wp_bind_of (R := Deleting) (P := Sparing) ?_ fun paths w hw => ?_
  · refine Async.wp_request_bind_of sparing_stable hw fun w hw => ⟨hw, fun ans w' ha => ?_⟩
    cases ans with
    | ok paths => exact deleting_of_list hw ha
    | error e => exact sparing_answer (by simp) hw ha
  · refine Async.wp_mono (fun r w hr => ?_) (Async.wp_each (J := Deleting paths) (P := Sparing)
      (fun path hp w hw => ?_) hw)
    · cases r with
      | ok _ => exact hr.1
      | error _ => exact hr
    · refine Async.wp_request_bind_of (deleting_stable paths) hw fun w hw => ?_
      refine ⟨⟨hw.1, hw.2 path hp⟩, fun ans w' ha => ?_⟩
      have hw' := deleting_answer hp hw ha
      cases ans with
      | ok _ => exact hw'
      | error _ => exact hw'.1

lemma wp_purgeIfAny (loc : Option String) (hw : Sparing w) :
    Async.wp (purgeSetting site) (Async.ends (fun _ => Sparing) Sparing) (purgeIfAny loc) w := by
  cases loc with
  | some loc => exact wp_purge loc hw
  | none => exact hw

lemma plain_deletesNothing (c : Call) (h : c.plain = true) : c.DeletesNothing := by
  rintro path rfl
  cases h

lemma wp_dropStatement (plan : DropTablePlan) (hw : Sparing w) :
    Async.wp (purgeSetting site) (Async.ends (fun _ => Sparing) Sparing)
      (DdlExecutor.dropTable plan) w := by
  refine Async.wp_bind_of (wp_deletesNothing (confined_purgeLocation plain_deletesNothing plan) hw)
    fun fd w hw => ?_
  cases fd with
  | error result => exact hw
  | ok loc =>
    refine Async.wp_request_bind_of sparing_stable hw fun w hw => ⟨hw, fun ans w' ha => ?_⟩
    have hw' := sparing_answer (by simp) hw ha
    cases ans with
    | ok _ =>
      exact Async.wp_bind_of (wp_purgeIfAny loc hw') fun _ _ hw => hw
    | error e =>
      dsimp only
      split
      · exact hw'
      · exact hw'

lemma wp_route {T : Type} (fe : Frontend T) (sql : String) (hw : Sparing w) :
    Async.wp (purgeSetting site) (Async.ends (fun _ => Sparing) Sparing) (do
        let routing ← routeSql World.services fe.parser fe.warehouse sql
        runEngine sql routing) w := by
  refine Async.wp_bind_of (R := fun _ => Sparing) (P := Sparing) ?_ fun routing w hw => ?_
  · by_cases hd : ∃ plan, classifySql fe.parser sql = .ok (.ddl (.dropTable plan))
    · obtain ⟨plan, hp⟩ := hd
      unfold routeSql
      rw [hp]
      refine Async.wp_bind_of (wp_dropStatement plan hw) fun res w hw => ?_
      exact wp_deletesNothing
        ((confined_applyPostDdl plain_deletesNothing _ res).bind fun _ => trivial) hw
    · refine wp_deletesNothing (confined_routeSql plain_deletesNothing fun plan hp => ?_) hw
      cases plan with
      | dropTable plan => exact absurd ⟨plan, hp⟩ hd
      | createTable plan => exact fun rq _ => by simp [Call.DeletesNothing]
      | _ => trivial
  · exact wp_deletesNothing (confined_runEngine plain_deletesNothing sql routing) hw

lemma wp_anyRequest {T : Type} (fe : Frontend T) (req : Request) (hw : Sparing w) :
    Async.wp (purgeSetting site) (fun _ => Sparing) (req.program fe) w := by
  have hawa (c : Call) (hc : c.plain = true) {w : World} (hw : Sparing w) :
      Async.wp (purgeSetting site) (Async.ends (fun _ => Sparing) Sparing) (await c) w :=
    wp_deletesNothing (confined_await (plain_deletesNothing c hc)) hw
  refine Async.wp_mono (Q := Async.ends (fun _ => Sparing) Sparing) (fun r w hr => ?_) ?_
  · cases r <;> exact hr
  cases req with
  | createTable ns body =>
    refine Async.wp_lift_bind (fun _ _ => ?_) fun _ _ => hw
    refine Async.wp_bind_of (hawa _ rfl hw) fun _ w hw => ?_
    refine Async.wp_lift_bind (fun req _ => ?_) fun _ _ => hw
    refine wp_deletesNothing ?_ hw
    refine (confined_await (by simp [Call.DeletesNothing])).bind fun _ => ?_
    exact (confined_remove _).bind fun _ => confined_evict _
  | dropTable ident purge =>
    refine Async.wp_bind_of (hawa _ rfl hw) fun _ w hw => ?_
    refine Async.wp_bind_of (wp_deletesNothing
      (confined_restPurgeLocation plain_deletesNothing ident purge) hw) fun loc w hw => ?_
    refine Async.wp_bind_of (wp_deletesNothing (confined_await (by simp [Call.DeletesNothing])) hw)
      fun _ w hw => ?_
    refine Async.wp_bind_of (wp_deletesNothing
      (confined_discardTable plain_deletesNothing ident) hw) fun _ w hw => ?_
    exact wp_purgeIfAny loc hw
  | querySql sql =>
    refine Async.wp_bind_of (hawa _ rfl hw) fun _ w hw => ?_
    split_ifs
    · exact hw
    · exact wp_route fe sql hw
  | statementUpdate sql =>
    refine Async.wp_bind_of (hawa _ rfl hw) fun _ w hw => ?_
    exact wp_route fe sql hw

end

lemma sparing_of_visible {site : Site} {w : World} {ev : io.Event}
    (h : (purgeSetting site).visible w ev) : Sparing w := by
  cases ev with
  | act name => exact h
  | call c =>
    cases c with
    | delete path => exact h.1
    | _ => exact h

/-- A request that is dropped deletes at most the object that it waits for. -/
lemma Sparing.afterAbandon {site : Site} {w : World} {c : Call} (ap : Bool)
    (h : (purgeSetting site).visible w (.call c)) : Sparing (w.afterAbandon ap c) := by
  cases c with
  | delete path =>
    cases ap with
    | true => exact h.1.deleteObject h.2
    | false => exact h.1
  | appendDropTombstone ident =>
    have hw : Sparing w := h
    cases ap with
    | true => exact hw.mark
    | false => exact hw
  | createTable req =>
    cases ap with
    | true => exact Sparing.create h req
    | false => exact h
  | dropTable ident =>
    cases ap with
    | true => exact Sparing.drop h ident
    | false => exact h
  | _ => exact h

lemma purgeSound {T : Type} (site : Site) (fe : Frontend T) :
    Host.Sound (site.host fe id) Spares (purgeSetting site) Sparing where
  start w hw := by
    obtain ⟨_, hdel, hls⟩ := hw
    constructor
    · simp [Spared, hdel]
    · simp [ListsOld, hls]
  refl _ := ⟨rfl, rfl, id⟩
  trans _ _ _ hab hbc := ⟨hbc.1.trans hab.1, hbc.2.1.trans hab.2.1, hbc.2.2 ∘ hab.2.2⟩
  stable := sparing_stable
  spawn req _ hw := wp_anyRequest fe req hw
  interfere cfg ch w' hg hw' := by
    cases ch with
    | others os =>
      cases hw'
      exact ⟨rfl, rfl, fun _ => of_decide_eq_true hg⟩
    | _ => cases hw'
  answer w c k ch a w' hg ha := by
    cases ch with
    | answer ch => exact ⟨ch, hg, ha⟩
    | _ => cases ha
  abandon w c k ch w' _ hvis hw' := by
    cases ch with
    | abandon ap =>
      cases hw'
      exact Sparing.afterAbandon ap hvis
    | _ => cases hw'

/-- When later incarnations are kept out of the listings, no purge deletes an object of one. -/
theorem purge_spares_next_incarnation {T : Type} (site : Site) (frontend : Frontend T)
    {cfg : Host.Config io World TeoDBError}
    (run : (site.host frontend id).machine.ReachableIf Spares cfg) : Spared cfg.state := by
  exact (purgeSound site frontend).always (fun _ hw => hw.spared)
    (fun _ _ hvis => (sparing_of_visible hvis).spared) run

def ordersTable : TableIdent := ⟨"tpch", "orders"⟩

def ordersLocation : ObjectLocation := ⟨.s3, some "teodb", "tpch/orders"⟩

/-- The table with the objects of its incarnations. -/
def ordersAt (incarnation : Option Nat) (objects : List StoredObject) : Others where
  catalog ident :=
    if ident = ordersTable then incarnation.map fun n => ⟨n, ordersLocation, ⟨0, [], []⟩⟩ else none
  born := 2
  objects := objects
  buffers := []
  receipts := []

def oldFile : StoredObject := ⟨"tpch/orders/data/a.parquet", ordersTable, 0⟩

def newMetadata : StoredObject := ⟨"tpch/orders/metadata/00000-b.metadata.json", ordersTable, 1⟩

def ordersWorld : World :=
  World.interfere ⟨fun _ => none, 0, [], [], [], [], ⟨ordersTable, 0, []⟩, []⟩
    (ordersAt (some 0) [oldFile])

def ordersSite : Site := ⟨fun _ _ => true, .s3, "teodb"⟩

def restFrontend : Frontend Unit := ⟨oneStatement "SELECT 1" .other, "s3://teodb"⟩

lemma ordersWorld_start : (ordersSite.host restFrontend id).machine.start ⟨ordersWorld, none⟩ :=
  ⟨⟨rfl, rfl, rfl⟩, rfl⟩

/-- A REST request drops the table, which is created again while the request waits. -/
def purgeWith (before after : List (Host.Turn Request WorldChoice)) :
    List (Host.Turn Request WorldChoice) :=
  .spawn (.dropTable ordersTable true) :: List.replicate 3 (.answer (.answer .succeed)) ++
    [.act, .act, .answer (.answer .succeed), .answer (.answer .succeed)] ++ before ++
    [.answer (.answer .succeed)] ++ after ++ List.replicate 2 (.answer (.answer .succeed))

/-- The incarnations of the deleted objects. -/
def deletedIncarnations (cfg : Host.Config io World TeoDBError) : List (Nat × Nat) :=
  cfg.state.deleted.map fun entry => (entry.1.incarnation, entry.2.incarnation)

theorem purge_spares_orders : ∃ cfg : Host.Config io World TeoDBError,
      (ordersSite.host restFrontend id).machine.ReachableIf Spares cfg ∧
      deletedIncarnations cfg = [(0, 0)] ∧ newMetadata ∈ cfg.state.objects ∧
      Spared cfg.state := by
  have hrun : (((ordersSite.host restFrontend id).machine.guarded Spares).exec ⟨ordersWorld, none⟩
      ((purgeWith []
        [.interfere (.others (ordersAt (some 1) [oldFile, newMetadata]))]).dropLast)).map
        (fun cfg => (deletedIncarnations cfg, cfg.state.objects)) =
      some ([(0, 0)], [newMetadata]) := by
    decide +kernel
  obtain ⟨cfg, hcfg, hobs⟩ := Machine.existsIf_of_exec ordersWorld_start hrun
  obtain ⟨hdel, hobj⟩ := Prod.mk.inj hobs
  refine ⟨cfg, hcfg, hdel, ?_, purge_spares_next_incarnation ordersSite restFrontend hcfg⟩
  rw [hobj]
  exact List.mem_singleton_self _

/-- The table is created again before the prefix is listed. Its metadata is deleted. -/
theorem purge_deletes_recreated_table : ∃ cfg : Host.Config io World TeoDBError,
      (ordersSite.host restFrontend id).machine.Reachable cfg ∧
      (cfg.state.catalog ordersTable).map Table.incarnation = some 1 ∧
      cfg.state.objects = [] ∧ ¬ Spared cfg.state := by
  have hrun : ((ordersSite.host restFrontend id).machine.exec ⟨ordersWorld, none⟩
      (purgeWith [.interfere (.others (ordersAt (some 1) [oldFile, newMetadata]))] [])).map
        (fun cfg => ((cfg.state.catalog ordersTable).map Table.incarnation, cfg.state.objects,
          cfg.state.deleted)) =
      some (some 1, [], [(⟨ordersTable, 0, [oldFile.path, newMetadata.path]⟩, oldFile),
        (⟨ordersTable, 0, [oldFile.path, newMetadata.path]⟩, newMetadata)]) := by
    decide +kernel
  obtain ⟨cfg, hcfg, hobs⟩ := Machine.exists_of_exec ordersWorld_start hrun
  obtain ⟨hcat, hr⟩ := Prod.mk.inj hobs
  obtain ⟨hobj, hdel⟩ := Prod.mk.inj hr
  refine ⟨cfg, hcfg, hcat, hobj, fun hspa => ?_⟩
  have hl := hspa (⟨ordersTable, 0, [oldFile.path, newMetadata.path]⟩, newMetadata)
    (by simp [hdel]) rfl
  exact absurd hl (by decide)

end TeoDB.Api
