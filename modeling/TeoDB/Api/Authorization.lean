import TeoDB.Api.World

/-!
# Permissions and DDL

The REST endpoints for tables ask for the permission to create or to drop. The SQL
routes of REST and Flight only ask for the permission to query, and then execute every
DDL statement. `causes_iff` says exactly which requests change the catalog, for every
policy, and `unauthorized_iff` which of them do so although the policy denies the action
on the table.
-/

namespace TeoDB.Api

open TeoDB.Core Lib Query Storage Storage.Wal

/-- The two actions on tables of the catalog. -/
inductive DdlAction where
  | create
  | drop
deriving DecidableEq

namespace DdlAction

/-- The permission that stands for the action. -/
def permission : DdlAction → Action
  | create => .createTable
  | drop => .dropTable

/-- The trace that the action leaves on a table. -/
def trace (ident : TableIdent) : DdlAction → Mark
  | create => .created ident
  | drop => .dropped ident

/-- The calls that can carry out the action on a table. -/
def carriedOutBy (ident : TableIdent) : DdlAction → Call → Bool
  | create, .createTable request => request.ident = ident
  | drop, .dropTable other => other = ident
  | _, _ => false

end DdlAction

variable {T : Type}

/-- Some run of the request, from some world, makes the change. -/
def Causes (site : Site) (frontend : Frontend T) (request : Request) (change : Mark) : Prop :=
  ∃ w choices r w', (request.program frontend).run site.answer w choices = some (r, w') ∧
    ∃ marks, w'.history = w.history ++ marks ∧ change ∈ marks

/-- The statement that a text is classified as carries out an action on a table. -/
def Targets (frontend : Frontend T) (sql : String) (ident : TableIdent) : DdlAction → Prop
  | .create => ∃ plan request, classifySql frontend.parser sql = .ok (.ddl (.createTable plan)) ∧
      createTableRequest frontend.warehouse plan = .ok request ∧ plan.ident = ident
  | .drop => ∃ plan, classifySql frontend.parser sql = .ok (.ddl (.dropTable plan)) ∧
      plan.ident = ident

/-- The requests that reach the catalog under a policy. -/
def Reaches (site : Site) (frontend : Frontend T) (ident : TableIdent) (action : DdlAction) :
    Request → Prop
  | .createTable ns body => action = .create ∧ ident = ⟨ns, body.name⟩ ∧
      site.policy .createTable (.nameSpace ns) = true ∧ validateRequest ns body = .ok () ∧
      ∃ request, restRequest frontend.parser.toTexts frontend.warehouse ns body = .ok request
  | .dropTable other _ => action = .drop ∧ ident = other ∧
      site.policy .dropTable (.table ident) = true
  | .querySql sql => site.policy .query .cluster = true ∧ frontend.parser.trim sql ≠ "" ∧
      Targets frontend sql ident action
  | .statementUpdate sql => site.policy .query .cluster = true ∧
      Targets frontend sql ident action

/-- The world has grown, and without a given change. -/
def Without (start : World) (change : Mark) (w : World) : Prop :=
  ∃ marks, w.history = start.history ++ marks ∧ change ∉ marks

variable {start w : World}

lemma Without.mark {change m : Mark} (h : Without start change w) (hne : change ≠ m) :
    Without start change (w.mark m) := by
  obtain ⟨marks, hmarks, hnot⟩ := h
  refine ⟨marks ++ [m], by simp [World.mark, hmarks], ?_⟩
  simpa [hne] using hnot

lemma Without.of_history {start w w' : World} {change : Mark} (h : Without start change w)
    (hw : w'.history = w.history) : Without start change w' := by
  obtain ⟨marks, hmarks, hnot⟩ := h
  exact ⟨marks, hw.trans hmarks, hnot⟩

variable {site : Site} {ident : TableIdent} {action : DdlAction}

/-- A call that does not carry out the action leaves no trace of it. -/
lemma Without.answer {start w w' : World} {c : Call} {a : Answer c}
    (hw : Without start (action.trace ident) w) (hc : action.carriedOutBy ident c = false)
    (ha : Async.possible (I := io) site.answer w c a w') :
    Without start (action.trace ident) w' := by
  obtain ⟨choice, hch⟩ := ha
  rcases recorded_answer hch with h | ⟨m, hm, h⟩
  · exact hw.of_history h
  · have hne : action.trace ident ≠ m := by
      rintro rfl
      cases action <;> cases c <;> simp_all [DdlAction.trace, DdlAction.carriedOutBy, Call.leaves]
    exact (hw.mark hne).of_history h

lemma Without.act {name : Effect} {g : World → World} (hg : World.services.acts name g)
    (hw : Without start (action.trace ident) w) : Without start (action.trace ident) (g w) := by
  cases name with
  | removeBuffer o =>
    obtain rfl := hg
    refine Without.mark (hw.of_history rfl) ?_
    cases action <;> simp [DdlAction.trace]
  | evictTable o =>
    obtain rfl := hg
    refine Without.mark (hw.of_history rfl) ?_
    cases action <;> simp [DdlAction.trace]
  | tables =>
    obtain rfl := hg
    exact hw

lemma Without.refl (start : World) (change : Mark) : Without start change start :=
  ⟨[], by simp, List.not_mem_nil⟩

/-- A program none of whose calls carries out the action leaves no trace of it. -/
lemma without_of_confined {α : Type} {p : Prog World α}
    (h : p.Confined World.services.acts fun c => action.carriedOutBy ident c = false)
    (hw : Without start (action.trace ident) w) : Async.wp (.alone (Async.possible site.answer))
      (fun _ => Without start (action.trace ident)) p w :=
  h.wp_alone (fun _ _ _ hg hw => Without.act hg hw)
    (fun _ _ _ _ hc hw ha => Without.answer hw hc ha) hw

/-- The authorizer lets a request go on only if the policy allows it. -/
lemma wp_authorize {α : Type} {action : Action} {rsc : Resource} {k : Unit → Prog World α}
    {Q : Except TeoDBError α → World → Prop} (her : ∀ e, Q (.error e) w)
    (hok : site.policy action rsc = true →
      Async.wp (.alone (Async.possible site.answer)) Q (k ()) w) :
    Async.wp (.alone (Async.possible site.answer)) Q (await (.authorize action rsc) >>= k) w := by
  rintro _ rfl
  refine ⟨trivial, ?_⟩
  rintro ans w' ⟨ch, hch⟩
  cases ch with
  | succeed =>
    simp only [Site.answer, Site.succeed, Option.some.injEq, Prod.mk.injEq] at hch
    obtain ⟨rfl, rfl⟩ := hch
    split_ifs with hpol
    · exact hok hpol
    · exact her _
  | fail e ap =>
    cases hch
    exact her e
  | namespaces names => cases hch
  | tables idents => cases hch

lemma exists_of_bind_eq_ok {ε α β : Type} {x : Except ε α} {f : α → Except ε β} {b : β}
    (h : x >>= f = .ok b) : ∃ a, x = .ok a ∧ f a = .ok b := by
  cases x with
  | error e => cases h
  | ok a => exact ⟨a, rfl, h⟩

lemma restRequest_ident {texts : Texts} {wh ns : String} {body : CreateTableRestRequest}
    {req : CreateTableRequest} (h : restRequest texts wh ns body = .ok req) :
    req.ident = ⟨ns, body.name⟩ := by
  obtain ⟨columns, _, h⟩ := exists_of_bind_eq_ok h
  obtain ⟨fields, _, h⟩ := exists_of_bind_eq_ok h
  obtain ⟨spec, _, h⟩ := exists_of_bind_eq_ok h
  cases h
  rfl

lemma createTableRequest_ident {wh : String} {plan : CreateTablePlan}
    {req : CreateTableRequest} (h : createTableRequest wh plan = .ok req) :
    req.ident = plan.ident := by
  unfold createTableRequest at h
  dsimp only at h
  cases hs : PartitionSpecBuilder.build ⟨0, plan.columns, []⟩
      (partitionFieldSpecs plan.partitionBy) with
  | error e => simp [hs, Except.map] at h
  | ok spec =>
    rw [hs] at h
    cases h
    rfl

section

variable {site : Site} {frontend : Frontend T} {ident : TableIdent} {action : DdlAction}
  {sql : String}

/-- The plan of a text that does not target the table leaves it alone. -/
lemma planCalls_of_not_targets {plan : DdlPlan} (h : ¬ Targets frontend sql ident action)
    (hp : classifySql frontend.parser sql = .ok (.ddl plan)) :
    PlanCalls (fun c => action.carriedOutBy ident c = false) frontend.warehouse plan := by
  cases plan with
  | createTable plan =>
    intro req hreq
    cases action with
    | drop => rfl
    | create =>
      apply decide_eq_false
      rintro rfl
      exact h ⟨plan, req, hp, hreq, (createTableRequest_ident hreq).symm⟩
  | dropTable plan =>
    cases action with
    | create => exact ⟨rfl, fun _ => rfl⟩
    | drop =>
      refine ⟨decide_eq_false ?_, fun _ => rfl⟩
      exact fun heq => h ⟨plan, hp, heq⟩
  | _ => trivial

lemma carriedOutBy_plain {c : Call} (h : c.plain = true) : action.carriedOutBy ident c = false := by
  cases c <;> cases action <;> first | rfl | cases h

lemma without_route (h : ¬ Targets frontend sql ident action)
    (hw : Without start (action.trace ident) w) :
    Async.wp (.alone (Async.possible site.answer)) (fun _ => Without start (action.trace ident)) (do
        let routing ← routeSql World.services frontend.parser frontend.warehouse sql
        runEngine sql routing) w := by
  refine without_of_confined (Async.Confined.bind ?_ fun routing => ?_) hw
  · exact confined_routeSql (fun _ => carriedOutBy_plain) fun plan hp =>
      planCalls_of_not_targets h hp
  · exact confined_runEngine (fun _ => carriedOutBy_plain) sql routing

variable {req : Request}

lemma without_of_not_reaches (h : ¬ Reaches site frontend ident action req) (w : World) :
    Async.wp (.alone (Async.possible site.answer)) (fun _ => Without w (action.trace ident))
      (req.program frontend) w := by
  have hw := Without.refl w (action.trace ident)
  cases req with
  | createTable ns body =>
    refine Async.wp_lift_bind (fun _ hvd => ?_) fun _ _ => hw
    refine wp_authorize (fun _ => hw) fun hpol => ?_
    refine Async.wp_lift_bind (fun req hreq => ?_) fun _ _ => hw
    refine without_of_confined ?_ hw
    refine (confined_await ?_).bind fun _ => (confined_remove _).bind fun _ => confined_evict _
    cases action with
    | drop => rfl
    | create =>
      apply decide_eq_false
      rintro rfl
      exact h ⟨rfl, restRequest_ident hreq, hpol, hvd, req, hreq⟩
  | dropTable o purge =>
    refine wp_authorize (fun _ => hw) fun hpol => ?_
    refine without_of_confined (Async.Confined.bind ?_ fun loc => ?_) hw
    · exact confined_restPurgeLocation (fun _ => carriedOutBy_plain) o purge
    · refine (confined_await ?_).bind fun _ => ?_
      · cases action with
        | create => rfl
        | drop =>
          apply decide_eq_false
          rintro rfl
          exact h ⟨rfl, rfl, hpol⟩
      · refine (confined_discardTable (fun _ => carriedOutBy_plain) o).bind fun _ => ?_
        exact confined_purgeIfAny (fun _ => carriedOutBy_plain) (fun _ => by cases action <;> rfl)
          loc
  | querySql sql =>
    refine wp_authorize (fun _ => hw) fun hpol => ?_
    split_ifs with ht
    · exact hw
    · exact without_route (fun htar => h ⟨hpol, ht, htar⟩) hw
  | statementUpdate sql =>
    refine wp_authorize (fun _ => hw) fun hpol => ?_
    exact without_route (fun htar => h ⟨hpol, htar⟩) hw

lemma answers_total (w : World) (c : Call) :
    ∃ a w', Async.possible (I := io) site.answer w c a w' :=
  ⟨_, _, .fail (.internal "") false, rfl⟩

variable {α : Type}

/-- A change that has happened stays in the history, whatever follows. -/
lemma can_keep {p : Prog World α} {change : Mark}
    (h : p.Confined World.services.acts fun _ => True) (hw : change ∈ w.history) :
    Async.can (Async.possible site.answer) (fun _ w => change ∈ w.history) p w := by
  refine Async.can_of_wp answers_total (h.wp_alone (fun name g w hg hw => ?_) ?_ hw)
  · cases name with
    | removeBuffer o =>
      obtain rfl := hg
      exact List.mem_append_left _ hw
    | evictTable o =>
      obtain rfl := hg
      exact List.mem_append_left _ hw
    | tables =>
      obtain rfl := hg
      exact hw
  · rintro w c a w' - hw ⟨choice, hch⟩
    rcases recorded_answer hch with hhist | ⟨m, _, hhist⟩
    · rwa [hhist]
    · rw [hhist]
      exact List.mem_append_left _ hw

lemma can_await {c : Call} {k : Payload c → Prog World α} {w w' : World}
    {Q : Except TeoDBError α → World → Prop} (a : Payload c)
    (ha : Async.possible (I := io) site.answer w c (.ok a) w')
    (hk : Async.can (Async.possible site.answer) Q (k a) w') :
    Async.can (Async.possible site.answer) Q (await c >>= k) w :=
  ⟨.ok a, w', ha, hk⟩

lemma can_authorize {k : Unit → Prog World α} {act : Action} {rsc : Resource}
    {Q : Except TeoDBError α → World → Prop} (hpol : site.policy act rsc = true)
    (hk : Async.can (Async.possible site.answer) Q (k ()) w) :
    Async.can (Async.possible site.answer) Q (await (.authorize act rsc) >>= k) w :=
  can_await () ⟨.succeed, by simp [Site.answer, Site.succeed, hpol]⟩ hk

/-- A world without tables. -/
def World.vacant : World := ⟨fun _ => none, 0, [], [], [], [], ⟨⟨"", ""⟩, 0, []⟩, []⟩

/-- A world with one table. -/
def World.holding (ident : TableIdent) : World :=
  { World.vacant with
    catalog := Function.update (fun _ => none) ident (some ⟨0, ⟨.s3, none, ""⟩, ⟨0, [], []⟩⟩) }

lemma create_vacant (req : CreateTableRequest) :
    site.answer .succeed World.vacant (.createTable req) =
      some (.ok (), World.vacant.create req) := rfl

lemma created_vacant (req : CreateTableRequest) :
    .created req.ident ∈ (World.vacant.create req).history :=
  List.mem_singleton_self _

lemma load_holding (ident : TableIdent) :
    site.answer .succeed (World.holding ident) (.loadTable ident) =
      some (.ok ⟨⟨.s3, none, ""⟩, .ok ⟨0, [], []⟩⟩, World.holding ident) := by
  simp [Site.answer, Site.succeed, World.holding]

lemma drop_holding (ident : TableIdent) :
    site.answer .succeed (World.holding ident) (.dropTable ident) =
      some (.ok (), (World.holding ident).drop ident) := by
  simp [Site.answer, Site.succeed, World.holding]

lemma dropped_holding (ident : TableIdent) :
    .dropped ident ∈ ((World.holding ident).drop ident).history := by
  simp [World.drop, World.holding, World.mark]

lemma can_createTable {wh : String} {plan : CreateTablePlan} {req : CreateTableRequest}
    (h : createTableRequest wh plan = .ok req) :
    Async.can (Async.possible site.answer) (fun _ w => .created plan.ident ∈ w.history)
      (DdlExecutor.createTable wh plan) World.vacant := by
  have hcr := created_vacant req
  rw [createTableRequest_ident h] at hcr
  refine Async.can_bind (P := fun _ w => w = World.vacant)
    ⟨.ok (), World.vacant, ⟨.succeed, rfl⟩, rfl⟩ ?_
  rintro _ _ rfl
  refine Async.can_lift_bind h ?_
  exact ⟨.ok (), _, ⟨.succeed, create_vacant req⟩, hcr⟩

lemma can_drop_bind {k : TeoDBResult Unit → Prog World DdlResult}
    (h : (k (.ok ())).Confined World.services.acts fun _ => True) :
    Async.can (Async.possible site.answer) (fun _ w => .dropped ident ∈ w.history)
      (call (.dropTable ident) >>= k) (World.holding ident) :=
  ⟨.ok (), _, ⟨.succeed, drop_holding ident⟩, can_keep h (dropped_holding ident)⟩

lemma can_dropTable (plan : DropTablePlan) :
    Async.can (Async.possible site.answer) (fun _ w => .dropped plan.ident ∈ w.history)
      (DdlExecutor.dropTable plan) (World.holding plan.ident) := by
  have hpur (loc : Option String) :
      (purgeIfAny loc : Prog World Unit).Confined World.services.acts fun _ => True :=
    confined_purgeIfAny (fun _ _ => trivial) (fun _ => trivial) loc
  unfold DdlExecutor.dropTable DdlExecutor.purgeLocation
  split_ifs
  · refine ⟨_, _, ⟨.succeed, load_holding plan.ident⟩, ?_⟩
    apply can_drop_bind
    exact (hpur _).bind fun _ => trivial
  · apply can_drop_bind
    exact (hpur none).bind fun _ => trivial

/-- A world in which an action on a table can be carried out. -/
def startFor (ident : TableIdent) : DdlAction → World
  | .create => World.vacant
  | .drop => World.holding ident

lemma can_route (h : Targets frontend sql ident action) :
    Async.can (Async.possible site.answer) (fun _ w => action.trace ident ∈ w.history) (do
        let routing ← routeSql World.services frontend.parser frontend.warehouse sql
        runEngine sql routing) (startFor ident action) := by
  refine Async.can_bind_keep ?_ fun routing w hw =>
    can_keep (confined_runEngine (fun _ _ => trivial) sql routing) hw
  have hexe (plan : DdlPlan) (hp : classifySql frontend.parser sql = .ok (.ddl plan))
      (hcan : Async.can (Async.possible site.answer) (fun _ w => action.trace ident ∈ w.history)
        (DdlExecutor.execute frontend.warehouse plan) (startFor ident action)) :
      Async.can (Async.possible site.answer) (fun _ w => action.trace ident ∈ w.history)
        (routeSql World.services frontend.parser frontend.warehouse sql)
        (startFor ident action) := by
    unfold routeSql
    rw [hp]
    refine Async.can_bind_keep hcan fun res w hw => can_keep ?_ hw
    exact (confined_applyPostDdl (fun _ _ => trivial) plan res).bind fun _ => trivial
  cases action with
  | create =>
    obtain ⟨plan, rq, hp, hreq, rfl⟩ := h
    exact hexe _ hp (can_createTable hreq)
  | drop =>
    obtain ⟨plan, hp, rfl⟩ := h
    exact hexe _ hp (can_dropTable plan)

lemma can_of_reaches (h : Reaches site frontend ident action req) :
    Async.can (Async.possible site.answer) (fun _ w => action.trace ident ∈ w.history)
      (req.program frontend) (startFor ident action) := by
  cases req with
  | createTable ns body =>
    obtain ⟨rfl, rfl, hpol, hvd, req, hreq⟩ := h
    refine Async.can_lift_bind hvd (can_authorize hpol ?_)
    refine Async.can_lift_bind hreq ?_
    refine can_await () ⟨.succeed, create_vacant req⟩ ?_
    have hcr := created_vacant req
    rw [restRequest_ident hreq] at hcr
    exact can_keep ((confined_remove _).bind fun _ => confined_evict _) hcr
  | dropTable other purge =>
    obtain ⟨rfl, rfl, hpol⟩ := h
    refine can_authorize hpol ?_
    have hd (loc : Option String) :
        Async.can (Async.possible site.answer) (fun _ w => .dropped ident ∈ w.history) (do
            await (.dropTable ident)
            discardTable World.services ident
            purgeIfAny loc : Prog World Unit) (World.holding ident) := by
      refine can_await () ⟨.succeed, drop_holding ident⟩ (can_keep ?_ (dropped_holding ident))
      exact (confined_discardTable (fun _ _ => trivial) ident).bind fun _ =>
        confined_purgeIfAny (fun _ _ => trivial) (fun _ => trivial) loc
    unfold restPurgeLocation
    split_ifs
    · exact ⟨_, _, ⟨.succeed, load_holding ident⟩, hd _⟩
    · exact hd none
  | querySql sql =>
    obtain ⟨hpol, ht, htar⟩ := h
    refine can_authorize hpol ?_
    rw [if_neg ht]
    exact can_route htar
  | statementUpdate sql =>
    obtain ⟨hpol, htar⟩ := h
    exact can_authorize hpol (can_route htar)

/-- Which requests create or drop a table. -/
lemma causes_iff : Causes site frontend req (action.trace ident) ↔
      Reaches site frontend ident action req := by
  constructor
  · rintro ⟨w, chs, r, w', hrun, marks, hmarks, hmem⟩
    by_contra h
    obtain ⟨marks', hmar', hnot⟩ := Async.wp_run (without_of_not_reaches h w) hrun
    rw [hmarks] at hmar'
    exact hnot (List.append_cancel_left hmar' ▸ hmem)
  · intro h
    obtain ⟨chs, r, w', hrun, hmem⟩ := Async.exists_run_of_can (can_of_reaches h)
    refine ⟨_, chs, r, w', hrun, w'.history, ?_, hmem⟩
    cases action <;> rfl

/-- Past a policy that denies it, a table is changed by a REST creation in an allowed namespace and
by every DDL statement of a principal who may query. -/
def Bypasses (site : Site) (frontend : Frontend T) (ident : TableIdent) (action : DdlAction) :
    Request → Prop
  | .dropTable _ _ => False
  | request => Reaches site frontend ident action request

/-- Under a policy that denies an action, the requests that cause it are those that bypass the
policy. -/
theorem unauthorized_iff {request : Request}
    (hdenied : site.policy action.permission (.table ident) = false) :
    ¬ Causes site frontend request (action.trace ident) ↔
      ¬ Bypasses site frontend ident action request := by
  rw [causes_iff]
  apply not_congr
  cases request with
  | dropTable other purge =>
    refine ⟨?_, False.elim⟩
    rintro ⟨rfl, rfl, hpol⟩
    rw [show Action.dropTable = DdlAction.drop.permission from rfl, hdenied] at hpol
    cases hpol
  | _ => exact Iff.rfl

end

/-- A site whose principal may query and do nothing else. -/
def queryOnly : Site where
  policy action resource := action = .query ∧ resource = .cluster
  scheme := .s3
  bucket := "teodb"

def dropFrontend : Frontend Unit where
  parser := oneStatement "DROP TABLE tpch.region"
    (.drop .table [⟨[some "tpch", some "region"], "tpch.region"⟩] false false)
  warehouse := "s3://teodb"

theorem rest_drop_denied : queryOnly.policy .dropTable (.table ⟨"tpch", "region"⟩) = false ∧
      ¬ Causes queryOnly dropFrontend (.dropTable ⟨"tpch", "region"⟩ false)
        (.dropped ⟨"tpch", "region"⟩) := by
  have hden : queryOnly.policy .dropTable (.table ⟨"tpch", "region"⟩) = false := by decide
  exact ⟨hden, (@unauthorized_iff _ _ dropFrontend _ .drop _ hden).mpr id⟩

/-- A principal without the permission to drop drops a table through the SQL endpoint. -/
theorem sql_drop_bypasses_policy :
    ∃ (site : Site) (frontend : Frontend Unit) (ident : TableIdent) (sql : String),
      site.policy .dropTable (.table ident) = false ∧
        site.policy .dropTable (.nameSpace ident.nameSpace) = false ∧
        site.policy .dropTable .cluster = false ∧
        Causes site frontend (.querySql sql) (.dropped ident) := by
  refine ⟨queryOnly, dropFrontend, ⟨"tpch", "region"⟩, "DROP TABLE tpch.region", by decide,
    by decide, by decide, ?_⟩
  refine (@causes_iff _ _ _ _ .drop _).mpr ⟨by decide, by decide, ?_⟩
  exact ⟨⟨⟨"tpch", "region"⟩, false, false⟩, rfl, rfl⟩

end TeoDB.Api
