import Mathlib

/-!
# Labelled machines and their guarded runs

A label carries every choice that is not made by the state: the caller, the
scheduler, and each answer of the environment. A step is therefore a partial
function, and a concrete schedule is a list of labels that can be executed.

## Implementation notes

`ReachableIf` restricts a run by a condition on the state before each step.
Unrestricted reachability is the special case of the trivial condition, so one
induction rule serves both.
-/

namespace TeoDB.Lib

/-- An entry of a log after one step is an old one or the new one. -/
theorem mem_concat_iff {α : Type*} {l : List α} {a b : α} : a ∈ l ++ [b] ↔ a ∈ l ∨ a = b := by
  simp

/-- A machine has initial states and labelled partial steps. -/
structure Machine (S : Type*) (A : Type*) where
  start : S → Prop
  next : S → A → Option S

namespace Machine

variable {S A : Type*} (m : Machine S A)

/-- Execute a schedule from a state; a label that is not enabled stops it. -/
def exec : S → List A → Option S
  | s, [] => some s
  | s, a :: rest =>
    match m.next s a with
    | some s' => exec s' rest
    | none => none

/-- States reached by runs whose every step meets `ok` in the state before it. -/
inductive ReachableIf (ok : S → A → Prop) : S → Prop
  | start {s} (h : m.start s) : ReachableIf ok s
  | step {s a s'} (run : ReachableIf ok s) (good : ok s a)
      (h : m.next s a = some s') : ReachableIf ok s'

/-- States reached by arbitrary runs. -/
def Reachable (s : S) : Prop := m.ReachableIf (fun _ _ => True) s

/-- The states that arbitrary runs reach from `s`. -/
inductive Leads (s : S) : S → Prop
  | refl : Leads s s
  | step {t a t'} (run : Leads s t) (h : m.next t a = some t') : Leads s t'

/-- The states reached from `s` by runs whose every step meets `ok`. -/
inductive LeadsIf (ok : S → A → Prop) (s : S) : S → Prop
  | refl : LeadsIf ok s s
  | step {t a t'} (run : LeadsIf ok s t) (good : ok t a) (h : m.next t a = some t') :
      LeadsIf ok s t'

variable {m} {ok : S → A → Prop}

/-- What holds initially and is preserved by permitted steps holds in every permitted run. -/
theorem ReachableIf.invariant {Inv : S → Prop} (hst : ∀ s, m.start s → Inv s)
    (hs : ∀ s a s', Inv s → ok s a → m.next s a = some s' → Inv s') {s : S}
    (run : m.ReachableIf ok s) : Inv s := by
  induction run with
  | start h => exact hst _ h
  | step _ good h ih => exact hs _ _ _ ih good h

/-- The unrestricted invariant rule. -/
theorem Reachable.invariant {Inv : S → Prop} (hst : ∀ s, m.start s → Inv s)
    (hs : ∀ s a s', Inv s → m.next s a = some s' → Inv s') {s : S} (run : m.Reachable s) : Inv s :=
  ReachableIf.invariant hst (fun s a s' hi _ h => hs s a s' hi h) run

lemma Reachable.next {s s' : S} {a : A} (run : m.Reachable s)
    (h : m.next s a = some s') : m.Reachable s' :=
  ReachableIf.step run trivial h

variable {s t : S}

/-- A property that every step preserves is carried along any later run. -/
theorem Leads.preserves {P : S → Prop} (run : m.Leads s t) (hs : P s)
    (hstep : ∀ s a s', P s → m.next s a = some s' → P s') : P t := by
  induction run with
  | refl => exact hs
  | step _ h ih => exact hstep _ _ _ ih h

/-- The same for later runs under a condition. -/
theorem LeadsIf.preserves {P : S → Prop} (run : m.LeadsIf ok s t) (hs : P s)
    (hstep : ∀ s a s', P s → ok s a → m.next s a = some s' → P s') : P t := by
  induction run with
  | refl => exact hs
  | step _ good h ih => exact hstep _ _ _ ih good h

/-- The machine that refuses every step which misses a decidable condition. -/
def guarded (m : Machine S A) (ok : S → A → Prop) [∀ s a, Decidable (ok s a)] : Machine S A where
  start := m.start
  next s a := if ok s a then m.next s a else none

variable {as : List A}

/-- A schedule that the guarded machine executes is a run under the condition. -/
theorem reachableIf_of_exec [∀ s a, Decidable (ok s a)] (hs : m.ReachableIf ok s)
    (h : (m.guarded ok).exec s as = some t) : m.ReachableIf ok t := by
  induction as generalizing s with
  | nil =>
    have hst : s = t := by simpa [exec] using h
    exact hst ▸ hs
  | cons a rest ih =>
    cases hn : (m.guarded ok).next s a with
    | none => simp [exec, hn] at h
    | some s' =>
      have hse : ok s a ∧ m.next s a = some s' := by
        simpa [guarded] using hn
      exact ih (.step hs hse.1 hse.2) (by simpa [exec, hn] using h)

/-- So is a schedule whose labels meet the condition in any state. -/
theorem reachableIf_of_forall (hok : ∀ s, ∀ a ∈ as, ok s a) (hs : m.ReachableIf ok s)
    (h : m.exec s as = some t) : m.ReachableIf ok t := by
  induction as generalizing s with
  | nil =>
    have hst : s = t := by simpa [exec] using h
    exact hst ▸ hs
  | cons a rest ih =>
    cases hn : m.next s a with
    | none => simp [exec, hn] at h
    | some s' =>
      apply ih (fun s b hb => hok s b (List.mem_cons_of_mem a hb))
        (.step hs (hok s a List.mem_cons_self) hn)
      simpa [exec, hn] using h

lemma reachable_of_exec (hs : m.Reachable s) (h : m.exec s as = some t) : m.Reachable t :=
  reachableIf_of_forall (fun _ _ _ => trivial) hs h

lemma Leads.exec {s t u : S} (run : m.Leads s t) (h : m.exec t as = some u) : m.Leads s u := by
  induction as generalizing t with
  | nil =>
    have htu : t = u := by simpa [Machine.exec] using h
    exact htu ▸ run
  | cons a rest ih =>
    cases hn : m.next t a with
    | none => simp [Machine.exec, hn] at h
    | some t' => exact ih (.step run hn) (by simpa [Machine.exec, hn] using h)

/-- A schedule that ends in a state with a given observation reaches such a
state. -/
theorem exists_of_exec {β : Type*} {observe : S → β} {b : β} (hs : m.start s)
    (h : (m.exec s as).map observe = some b) : ∃ t, m.Reachable t ∧ observe t = b := by
  obtain ⟨t, ht, hb⟩ := Option.map_eq_some_iff.mp h
  exact ⟨t, reachable_of_exec (.start hs) ht, hb⟩

/-- The same for runs under a condition. -/
theorem existsIf_of_exec {β : Type*} [∀ s a, Decidable (ok s a)] {observe : S → β}
    {b : β} (hs : m.start s) (h : ((m.guarded ok).exec s as).map observe = some b) :
    ∃ t, m.ReachableIf ok t ∧ observe t = b := by
  obtain ⟨t, ht, hb⟩ := Option.map_eq_some_iff.mp h
  exact ⟨t, reachableIf_of_exec (.start hs) ht, hb⟩

end Machine

end TeoDB.Lib
