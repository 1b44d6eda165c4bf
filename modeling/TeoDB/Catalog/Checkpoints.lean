import TeoDB.Catalog.CommitStatus

/-!
# Writer checkpoints only move forward

Every append writes the checkpoint of its writer together with its snapshot. The
property itself is set without a requirement of its own. It is the requirement on
the main reference that lets the guard speak for the registry it meets: the
checkpoints that an attempt has validated are the ones that its update replaces.
-/

namespace TeoDB.Catalog

open TeoDB.Core Lib Lib.MachineInt Storage.Wal

/-- The entries of the writer registry. -/
def registryEntries (properties : Properties) : List (String × String) :=
  properties.entries.filter fun e => (stripStart writerCheckpointPrefix e.1).isSome

section

variable {codec : TextCodec} {tbl : TableIdent} {props : Properties}

lemma validateWriterCheckpointEntries_count {l : List (String × String)} {n : Nat}
    (h : validateWriterCheckpointEntries codec tbl l = .ok n) :
    n = (l.filter fun e => (stripStart writerCheckpointPrefix e.1).isSome).length := by
  induction l generalizing n with
  | nil => exact (Except.ok.inj h).symm
  | cons e rest ih =>
    obtain ⟨key, value⟩ := e
    simp only [validateWriterCheckpointEntries] at h
    split at h
    · rename_i hstr
      simpa [hstr] using ih h
    · rename_i suffix hstr
      split at h
      · cases h
      · cases hr : validateWriterCheckpointEntries codec tbl rest with
        | error e =>
          rw [hr] at h
          cases h
        | ok k =>
          rw [hr] at h
          obtain rfl : k + 1 = n := Except.ok.inj h
          simp [hstr, ih hr]

lemma validateWriterCheckpoints_eq_ok {n : Nat} :
    validateWriterCheckpoints codec tbl props = .ok n ↔
      (∀ e ∈ props.entries, ValidEntry codec tbl e) ∧ n = (registryEntries props).length := by
  constructor
  · intro h
    exact ⟨validateWriterCheckpoints_ok_iff.mp ⟨n, h⟩, validateWriterCheckpointEntries_count h⟩
  · rintro ⟨hvd, rfl⟩
    obtain ⟨k, hk⟩ := validateWriterCheckpoints_ok_iff.mpr hvd
    rw [hk, registryEntries, ← validateWriterCheckpointEntries_count hk]

lemma mem_registryEntries {e : String × String} : e ∈ registryEntries props ↔
      ∃ suf, e.1 = writerCheckpointPrefix ++ suf ∧
        props.find? (writerCheckpointPrefix ++ suf) = some e.2 := by
  rw [registryEntries, List.mem_filter, Option.isSome_iff_exists]
  constructor
  · rintro ⟨hmem, suf, hstrip⟩
    have hkey := stripStart_eq_some.mp hstrip
    exact ⟨suf, hkey, hkey ▸ (props.find?_eq_some_iff _ _).mpr hmem⟩
  · rintro ⟨suf, hkey, hf⟩
    refine ⟨?_, suf, stripStart_eq_some.mpr hkey⟩
    rw [← hkey] at hf
    exact (props.find?_eq_some_iff _ _).mp hf

lemma registryEntries_nodup : (registryEntries props).Nodup :=
  props.nodup_entries.filter _

lemma registryEntries_length_congr {m m' : TableMetadata}
    (h : (appendView m).registry = (appendView m').registry) :
    (registryEntries m.properties).length = (registryEntries m'.properties).length := by
  apply List.Perm.length_eq
  rw [List.perm_ext_iff_of_nodup registryEntries_nodup registryEntries_nodup]
  intro e
  rw [mem_registryEntries, mem_registryEntries]
  constructor
  · rintro ⟨suf, hkey, hf⟩
    exact ⟨suf, hkey, (congrFun h suf).symm.trans hf⟩
  · rintro ⟨suf, hkey, hf⟩
    exact ⟨suf, hkey, (congrFun h suf).trans hf⟩

/-- A new writer takes one more entry, a known one none. -/
lemma registryEntries_insert_length {w : WriterId} {text : String} :
    (registryEntries (props.insert (writerCheckpointKey codec w) text)).length =
      (registryEntries props).length +
        if (props.find? (writerCheckpointKey codec w)).isNone then 1 else 0 := by
  have hstrip : (stripStart writerCheckpointPrefix (writerCheckpointKey codec w)).isSome :=
    Option.isSome_iff_exists.mpr ⟨_, stripStart_eq_some.mpr rfl⟩
  have hct : ∀ {l rest : List (String × String)} {v : String},
      l.Perm ((writerCheckpointKey codec w, v) :: rest) →
      (l.filter fun e => (stripStart writerCheckpointPrefix e.1).isSome).length =
        (rest.filter fun e => (stripStart writerCheckpointPrefix e.1).isSome).length + 1 := by
    intro l rest v hp
    rw [(hp.filter _).length_eq]
    simp [hstrip]
  unfold registryEntries
  cases hf : props.find? (writerCheckpointKey codec w) with
  | none => exact hct (props.insert_perm text hf)
  | some value =>
    rw [hct (props.insert_perm_erase _ text), hct (props.erase_perm hf)]
    rfl

/-- A valid registry answers the lookup of every identifier. -/
lemma parseWriterCheckpoint_total (hcdc : codec.Lawful)
    (hvd : ∀ e ∈ props.entries, ValidEntry codec tbl e) (w : WriterId) :
    ∃ own, parseWriterCheckpoint codec tbl props w = .ok own := by
  cases hnil : w.uuid.isNil with
  | false => exact parseWriterCheckpoint_of_valid hcdc hnil hvd
  | true =>
    refine ⟨none, ?_⟩
    unfold parseWriterCheckpoint
    cases hf : props.find? (writerCheckpointKey codec w) with
    | none => rfl
    | some value =>
      have hen := hvd _ ((props.find?_eq_some_iff _ _).mp hf)
        (codec.uuidToString w.uuid) (stripStart_eq_some.mpr rfl)
      simp [validateWriterCheckpointEntry, hcdc.parse_toString, hnil] at hen

end

section

variable {F L P : Type} {env : CatalogEnv F L P} {ident : TableIdent} {req : CommitAppend F}
  {metadata : TableMetadata} {s s' t : LifeState F L}

/-- The registry is valid and within its limit. -/
def Bounded (env : CatalogEnv F L P) (ident : TableIdent) (metadata : TableMetadata) : Prop :=
  ∃ count, validateWriterCheckpoints env.codec ident metadata.properties = .ok count ∧
    count ≤ env.maxWriterCheckpointsPerTable

/-- The checkpoint stays as it is, or moves to a larger generation and no smaller
epoch. -/
def Advances (own own' : Option WriterCheckpoint) : Prop :=
  own' = own ∨ ∃ c', own' = some c' ∧
    ∀ c, own = some c → c.generation < c'.generation ∧ c.epoch.value ≤ c'.epoch.value

/-- Each writer's checkpoint can be read before and after, and advances. -/
def AllAdvance (env : CatalogEnv F L P) (ident : TableIdent)
    (metadata metadata' : TableMetadata) : Prop :=
  ∀ w, ∃ own own', parseWriterCheckpoint env.codec ident metadata.properties w = .ok own ∧
    parseWriterCheckpoint env.codec ident metadata'.properties w = .ok own' ∧ Advances own own'

/-- What an admitted attempt has found: room for its writer, and a checkpoint to
continue from. -/
lemma room_of_validate (h : validate env req metadata = .ok ()) :
    ∃ n own, Reads env req metadata n own false false ∧ ((metadata.properties.find?
        (writerCheckpointKey env.codec req.identity.writerId)).isNone →
          n < env.maxWriterCheckpointsPerTable) ∧ continuesAbove req own = .ok () := by
  have hadm := admitted_of_validate h
  obtain ⟨n, own, hrea⟩ := reads_of_validate h
  refine ⟨n, own, hrea, ?_⟩
  simp only [validate, hadm.identity_valid, hadm.tableUuid_eq, hrea.registry,
    hrea.own_eq, hrea.history, hrea.checkpoint, ne_eq, not_true_eq_false, if_false,
    Bool.or_self, Bool.false_eq_true] at h
  split_ifs at h with hf
  refine ⟨?_, h⟩
  intro hn
  simpa [hn] using hf

lemma continuesAbove_advances {own : Option WriterCheckpoint}
    (h : continuesAbove req own = .ok ())
    (hvd : req.identity.generations.lo ≤ req.identity.generations.hi) (nowMs : Int) :
    Advances own (some (WriterCheckpoint.new req.identity.writerEpoch
      req.identity.generations.hi req.identity.commitId nowMs)) := by
  refine Or.inr ⟨_, rfl, ?_⟩
  rintro c rfl
  simp only [continuesAbove] at h
  split_ifs at h with hepoch hove
  exact ⟨lt_of_lt_of_le (not_le.mp hove) hvd, not_lt.mp hepoch⟩

lemma Bounded.total (hcodec : env.codec.Lawful) (h : Bounded env ident metadata) (w : WriterId) :
    ∃ own, parseWriterCheckpoint env.codec ident metadata.properties w = .ok own := by
  obtain ⟨n, hct, _⟩ := h
  exact parseWriterCheckpoint_total hcodec (validateWriterCheckpoints_ok_iff.mp ⟨n, hct⟩) w

/-- Where the registry is the same, so are the checkpoints. -/
lemma Bounded.congr (hcodec : env.codec.Lawful) {md' : TableMetadata}
    (h : Bounded env ident metadata)
    (heq : (appendView md').registry = (appendView metadata).registry) :
    Bounded env ident md' ∧ AllAdvance env ident metadata md' := by
  constructor
  · obtain ⟨count, hct, hle⟩ := h
    obtain ⟨hvd, rfl⟩ := validateWriterCheckpoints_eq_ok.mp hct
    refine ⟨_, validateWriterCheckpoints_eq_ok.mpr ⟨validEntries_congr heq hvd, rfl⟩, ?_⟩
    rwa [registryEntries_length_congr heq]
  · intro w
    obtain ⟨own, hown⟩ := h.total hcodec w
    exact ⟨own, own, hown, (parseWriterCheckpoint_congr heq).trans hown, Or.inl rfl⟩

lemma Bounded.applied (hcdc : env.codec.Lawful) {base : TableMetadata} {layout : L}
    {nowMs sid : Int} {tx : AppendTransaction} (h : Bounded env req.table metadata)
    (hval : validate env req base = .ok ())
    (hbuild : buildAppendTransaction env req layout nowMs = .ok tx)
    (heq : appendView base = appendView metadata) :
    Bounded env req.table ((tx.update base sid).applied metadata) ∧
      AllAdvance env req.table metadata ((tx.update base sid).applied metadata) := by
  have hadm := admitted_of_validate hval
  have hidn := AppendCommitIdentity.valid_of_validate hadm.identity_valid
  obtain ⟨count, own, hrea, hr, hab⟩ := room_of_validate hval
  obtain ⟨_, hcp, _⟩ := buildAppendTransaction_ok hbuild
  obtain ⟨hkey, hdec⟩ :=
    checkpointProperty_ok hcdc hcp hadm.identity_valid req.table
  have hpr : ((tx.update base sid).applied metadata).properties =
      metadata.properties.insert (writerCheckpointKey env.codec req.identity.writerId)
        tx.checkpoint.2 := by
    rw [← hkey]
    rfl
  have hreg : (appendView metadata).registry = (appendView base).registry :=
    congrArg AppendView.registry heq.symm
  have hown : parseWriterCheckpoint env.codec req.table metadata.properties
      req.identity.writerId = .ok own :=
    (parseWriterCheckpoint_congr hreg).trans hrea.own_eq
  constructor
  · obtain ⟨_, hct⟩ := validateWriterCheckpoints_eq_ok.mp hrea.registry
    have hf : metadata.properties.find? (writerCheckpointKey env.codec
        req.identity.writerId) = base.properties.find? (writerCheckpointKey env.codec
          req.identity.writerId) :=
      congrFun hreg _
    obtain ⟨n, hn, hle⟩ := h
    obtain ⟨hvd, rfl⟩ := validateWriterCheckpoints_eq_ok.mp hn
    refine ⟨_, validateWriterCheckpoints_eq_ok.mpr ⟨?_, rfl⟩, ?_⟩
    · rw [hpr]
      exact validEntries_insert hcdc hidn.writerId_ne_nil hdec hvd
    · rw [hpr, registryEntries_insert_length, hf]
      split_ifs with hnew
      · have hlt := hr hnew
        rw [hct, ← registryEntries_length_congr hreg] at hlt
        exact hlt
      · exact hle
  · intro w
    rw [hpr, parseWriterCheckpoint_insert hcdc hdec]
    by_cases hw : w = req.identity.writerId
    · subst hw
      exact ⟨own, _, hown, if_pos rfl, continuesAbove_advances hab hidn.lo_le_hi nowMs⟩
    · obtain ⟨o, hot⟩ := h.total hcdc w
      exact ⟨o, o, hot, (if_neg hw).trans hot, Or.inl rfl⟩

lemma LifeMove.advances (hcdc : env.codec.Lawful) (hinv : LifeInv env ident s)
    (h : Bounded env ident s.metadata) (hmove : LifeMove env ident s s') :
    Bounded env ident s'.metadata ∧ AllAdvance env ident s.metadata s'.metadata := by
  cases hmove with
  | append req upd hs hm =>
    obtain ⟨base, tx, nowMs, sid, hfor, rfl, hval, hbuild, rfl⟩ :=
      hinv.wire _ hs
    exact h.applied hcdc hval hbuild (hfor.view_eq hm)
  | properties upd =>
    exact h.congr hcdc (congrArg AppendView.registry (appendView_properties upd s.metadata))
  | _ => exact h.congr hcdc rfl

lemma Advances.trans {a b c : Option WriterCheckpoint} (hab : Advances a b)
    (hbc : Advances b c) : Advances a c := by
  obtain rfl | ⟨y, rfl, hy⟩ := hbc
  · exact hab
  · obtain rfl | ⟨x, rfl, hx⟩ := hab
    · exact Or.inr ⟨y, rfl, hy⟩
    · refine Or.inr ⟨y, rfl, ?_⟩
      intro z hz
      obtain ⟨hgen, hepoch⟩ := hx z hz
      obtain ⟨hgen', hepoch'⟩ := hy x rfl
      exact ⟨hgen.trans hgen', hepoch.trans hepoch'⟩

lemma AllAdvance.trans {a b c : TableMetadata} (hab : AllAdvance env ident a b)
    (hbc : AllAdvance env ident b c) : AllAdvance env ident a c := by
  intro w
  obtain ⟨x, y, hx, hy, hxy⟩ := hab w
  obtain ⟨y', z, hy', hz, hyz⟩ := hbc w
  obtain rfl := Except.ok.inj (hy.symm.trans hy')
  exact ⟨x, z, hx, hz, hxy.trans hyz⟩

/-- From a valid registry within its limit, every run keeps it so, and each checkpoint only moves to
larger generations under no smaller epoch. -/
theorem checkpoints_monotone_bounded (env : CatalogEnv F L P) (hcodec : env.codec.Lawful)
    (ident : TableIdent) (start s t : LifeState F L) (hstart : start.Start)
    (hbounded : Bounded env ident start.metadata) (hs : (tableLife env ident).Leads start s)
    (ht : (tableLife env ident).Leads s t) :
    Bounded env ident t.metadata ∧ AllAdvance env ident s.metadata t.metadata := by
  have hb : LifeInv env ident s ∧ Bounded env ident s.metadata := by
    apply hs.preserves ⟨LifeInv.start hstart, hbounded⟩
    intro x op y h hn
    have hm := life_move hn
    exact ⟨h.1.move hcodec hm, (hm.advances hcodec h.1 h.2).1⟩
  have hlater : LifeInv env ident t ∧ Bounded env ident t.metadata ∧
      AllAdvance env ident s.metadata t.metadata := by
    apply ht.preserves ⟨hb.1, hb.2, (hb.2.congr hcodec rfl).2⟩
    intro x op y h hn
    have hm := life_move hn
    obtain ⟨hinv, hx, hall⟩ := h
    obtain ⟨hy, hstep⟩ := hm.advances hcodec hinv hx
    exact ⟨hinv.move hcodec hm, hy, hall.trans hstep⟩
  exact hlater.2

end

/-- Two writers race for their first commit. The late request is refused, rebased and published. -/
theorem checkpoints_monotone_bounded_race :
    ∃ s t, (tableLife plainEnv ordersTable).Leads newTable s ∧
      (tableLife plainEnv ordersTable).Leads s t ∧ s.metadata.snapshots.length = 1 ∧
      t.metadata.snapshots.length = 3 ∧ Bounded plainEnv ordersTable t.metadata ∧
      AllAdvance plainEnv ordersTable s.metadata t.metadata := by
  have hrun : (((tableLife plainEnv ordersTable).exec newTable
      [.attempt (buildCommitRequest ordersFlush) 1000 42, .attempt otherAppend 1000 43,
        .deliver 0, .deliver 1]).bind fun s =>
        ((tableLife plainEnv ordersTable).exec s [.attempt otherAppend 1500 44, .deliver 2,
            .attempt { buildCommitRequest ordersFlush with
              identity := ⟨⟨Uuid.ofNat 1⟩, ⟨2⟩, ⟨Uuid.ofNat 11⟩, ⟨3, 3⟩⟩ } 2000 45,
            .deliver 3]).map fun t =>
          (s.metadata.snapshots.length, t.metadata.snapshots.length)) = some (1, 3) := by
    decide +kernel
  obtain ⟨s, hs, hlater⟩ := Option.bind_eq_some_iff.mp hrun
  obtain ⟨t, ht, hobs⟩ := Option.map_eq_some_iff.mp hlater
  obtain ⟨hone, hthree⟩ := Prod.mk.inj hobs
  have hbou : Bounded plainEnv ordersTable newTable.metadata := ⟨0, rfl, by decide⟩
  have hlea := Machine.Leads.exec .refl hs
  have hl := Machine.Leads.exec .refl ht
  exact ⟨s, t, hlea, hl, hone, hthree,
    checkpoints_monotone_bounded plainEnv PlainText.codec_lawful ordersTable newTable s t
      newTable_start hbou hlea hl⟩

end TeoDB.Catalog
