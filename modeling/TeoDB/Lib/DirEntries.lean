import TeoDB.Lib.OrdMap

/-!
# The entries of a directory between two syncs

A name is bound by a rename and unbound by an unlink, each of which is seen at once. What
has been synced survives a crash. Of the later changes some have reached the disk and
others have not, in any combination.
-/

namespace TeoDB.Lib

structure DirEntries (κ ν : Type*) [LinearOrder κ] where
  durable : OrdMap κ ν
  unsynced : List (κ × Option ν)

namespace DirEntries

variable {κ ν : Type*} [LinearOrder κ] (d : DirEntries κ ν)

/-- Bind or unbind a name. -/
def change (m : OrdMap κ ν) (c : κ × Option ν) : OrdMap κ ν :=
  match c.2 with
  | some v => m.insert c.1 v
  | none => m.erase c.1

/-- What a lookup sees. -/
def visible : OrdMap κ ν := d.unsynced.foldl change d.durable

def set (k : κ) (o : Option ν) : DirEntries κ ν := { d with unsynced := d.unsynced ++ [(k, o)] }

def sync : DirEntries κ ν := ⟨d.visible, []⟩

/-- What a crash leaves if just the marked changes had reached the disk. -/
def crash (reached : List Bool) : OrdMap κ ν :=
  (((d.unsynced.zip reached).filter Prod.snd).map Prod.fst).foldl change d.durable

/-- A binding of the name that a crash may leave. -/
def MayHold (k : κ) (o : Option ν) : Prop := o = d.durable.find? k ∨ (k, o) ∈ d.unsynced

variable {d} {k : κ} {o : Option ν}

lemma find?_change (m : OrdMap κ ν) (c : κ × Option ν) (k : κ) :
    (change m c).find? k = if k = c.1 then c.2 else m.find? k := by
  obtain ⟨j, v | v⟩ := c
  · exact m.find?_erase j k
  · exact m.find?_insert j v k

lemma find?_foldl_change (m : OrdMap κ ν) (cs : List (κ × Option ν)) (k : κ) :
    (cs.foldl change m).find? k = m.find? k ∨ (k, (cs.foldl change m).find? k) ∈ cs := by
  induction cs generalizing m with
  | nil => exact .inl rfl
  | cons c rest ih =>
    rcases ih (change m c) with hs | hlater
    · rw [List.foldl_cons, hs, find?_change]
      split_ifs with hn
      · subst hn
        exact .inr List.mem_cons_self
      · exact .inl rfl
    · exact .inr (List.mem_cons_of_mem _ hlater)

lemma mayHold_visible : d.MayHold k (d.visible.find? k) :=
  find?_foldl_change d.durable d.unsynced k

lemma mayHold_crash (reached : List Bool) : d.MayHold k ((d.crash reached).find? k) := by
  refine (find?_foldl_change d.durable _ k).imp_right fun h => ?_
  obtain ⟨c, hc, heq⟩ := List.mem_map.mp h
  exact heq ▸ (List.of_mem_zip (List.mem_of_mem_filter hc)).1

lemma find?_visible_set (k : κ) (o : Option ν) (j : κ) :
    (d.set k o).visible.find? j = if j = k then o else d.visible.find? j := by
  rw [visible, set, List.foldl_append]
  exact find?_change _ _ j

lemma mayHold_set {j : κ} {p : Option ν} :
    (d.set k o).MayHold j p ↔ d.MayHold j p ∨ (j = k ∧ p = o) := by
  simp [MayHold, set, or_assoc]

@[simp] lemma visible_sync : d.sync.visible = d.visible := rfl

lemma mayHold_sync : d.sync.MayHold k o ↔ o = d.visible.find? k := by
  simp [MayHold, sync]

end DirEntries

end TeoDB.Lib
