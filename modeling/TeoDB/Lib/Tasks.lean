import TeoDB.Lib.Async

/-!
# Concurrent tasks of a shared service

Any number of tasks run programs against one service. The service changes its
state when it answers a call and by itself, and in no other way. A task that is
never answered again is one that was cancelled or whose process has died.

## Implementation notes

A finished task keeps its result. The proof rule is rely and guarantee: each task has a setting of
its own, and every answer to one task is interference for the others.
-/

namespace TeoDB.Lib

/-- A service with the programs that tasks run. A choice carries what the service decides. -/
structure Cluster (I : Interface) (S ε R P C : Type) where
  start : S → Prop
  program : P → Async I S ε R
  answer : C → Nat → S → (c : I.Call) → Option (I.Answer c × S)
  interfere : C → S → Option S

namespace Cluster

variable {I : Interface} {S ε R P C : Type}

/-- A task with what it was started for and what remains of its program. -/
structure Task (I : Interface) (S ε R P : Type) where
  origin : P
  rest : Async I S ε R

structure Config (I : Interface) (S ε R P : Type) where
  state : S
  tasks : List (Task I S ε R P)

inductive Turn (P C : Type) where
  | spawn (origin : P)
  | answer (task : Nat) (choice : C)
  | interfere (choice : C)

/-- The call that a task waits for. -/
def Config.pending (cfg : Config I S ε R P) (task : Nat) : Option I.Call :=
  match cfg.tasks[task]? with
  | some ⟨_, .call c _⟩ => some c
  | _ => none

/-- The result of a finished task. -/
def Config.result (cfg : Config I S ε R P) (task : Nat) : Option (P × Except ε R) :=
  match cfg.tasks[task]? with
  | some ⟨origin, .done r⟩ => some (origin, r)
  | _ => none

def answerTask (cluster : Cluster I S ε R P C) (cfg : Config I S ε R P) (task : Nat) (choice : C) :
    Option (Config I S ε R P) :=
  match cfg.tasks[task]? with
  | some ⟨origin, .call c k⟩ =>
    (cluster.answer choice task cfg.state c).map fun r =>
      ⟨r.2, cfg.tasks.set task ⟨origin, k r.1⟩⟩
  | _ => none

def next (cluster : Cluster I S ε R P C) (cfg : Config I S ε R P) :
    Turn P C → Option (Config I S ε R P)
  | .spawn origin => some { cfg with tasks := cfg.tasks ++ [⟨origin, cluster.program origin⟩] }
  | .answer task choice => cluster.answerTask cfg task choice
  | .interfere choice => (cluster.interfere choice cfg.state).map fun s => { cfg with state := s }

def machine (cluster : Cluster I S ε R P C) : Machine (Config I S ε R P) (Turn P C) where
  start cfg := cluster.start cfg.state ∧ cfg.tasks = []
  next := cluster.next

/-- What an answered task has done. -/
theorem answerTask_eq_some {cluster : Cluster I S ε R P C} {cfg cfg' : Config I S ε R P}
    {task : Nat} {ch : C} (h : cluster.answerTask cfg task ch = some cfg') :
    ∃ origin c k a s', cfg.tasks[task]? = some ⟨origin, .call c k⟩ ∧
      cluster.answer ch task cfg.state c = some (a, s') ∧
      cfg' = ⟨s', cfg.tasks.set task ⟨origin, k a⟩⟩ := by
  unfold answerTask at h
  split at h
  · rename_i origin c k ht
    obtain ⟨⟨a, s'⟩, ha, rfl⟩ := Option.map_eq_some_iff.mp h
    exact ⟨origin, c, k, a, s', ht, ha, rfl⟩
  · cases h

/-- The obligations of a cluster. `J n` holds of the state while `n` tasks have been started, `E` is
the setting of each task and `Q` what its result means. -/
structure Sound (cluster : Cluster I S ε R P C) (ok : Config I S ε R P → Turn P C → Prop)
    (J : Nat → S → Prop) (E : Nat → P → Async.Setting I S)
    (Q : Nat → P → Except ε R → S → Prop) : Prop where
  start : ∀ s, cluster.start s → J 0 s
  refl : ∀ i p s, (E i p).interferes s s
  trans : ∀ i p a b c, (E i p).interferes a b → (E i p).interferes b c → (E i p).interferes a c
  stable : ∀ i p r s s', Q i p r s → (E i p).interferes s s' → Q i p r s'
  spawn : ∀ i p s, J i s → J (i + 1) s ∧ Async.wp (E i p) (Q i p) (cluster.program p) s
  answer : ∀ cfg i p c k choice a s', ok cfg (.answer i choice) → J cfg.tasks.length cfg.state →
    cfg.tasks[i]? = some ⟨p, .call c k⟩ → (E i p).visible cfg.state (.call c) →
    cluster.answer choice i cfg.state c = some (a, s') →
    J cfg.tasks.length s' ∧ (E i p).answers cfg.state c a s' ∧
      ∀ j t, j ≠ i → cfg.tasks[j]? = some t → (E j t.origin).interferes cfg.state s'
  interfere : ∀ cfg choice s', ok cfg (.interfere choice) → J cfg.tasks.length cfg.state →
    cluster.interfere choice cfg.state = some s' →
    J cfg.tasks.length s' ∧
      ∀ j t, cfg.tasks[j]? = some t → (E j t.origin).interferes cfg.state s'

/-- The invariant, and what remains of every task is safe. -/
structure Safe (J : Nat → S → Prop) (E : Nat → P → Async.Setting I S)
    (Q : Nat → P → Except ε R → S → Prop) (cfg : Config I S ε R P) : Prop where
  inv : J cfg.tasks.length cfg.state
  task : ∀ i t, cfg.tasks[i]? = some t → Async.wp (E i t.origin) (Q i t.origin) t.rest cfg.state

variable {cluster : Cluster I S ε R P C} {ok : Config I S ε R P → Turn P C → Prop}
  {J : Nat → S → Prop} {E : Nat → P → Async.Setting I S} {Q : Nat → P → Except ε R → S → Prop}
  {cfg cfg' : Config I S ε R P}

section

variable (h : Sound cluster ok J E Q)

include h

/-- A task that others interfere with stays safe. -/
theorem Sound.wp_interferes {i : Nat} {p : P} {rest : Async I S ε R} {s s' : S}
    (hwp : Async.wp (E i p) (Q i p) rest s) (hss' : (E i p).interferes s s') :
    Async.wp (E i p) (Q i p) rest s' :=
  Async.wp_interferes hwp hss' (h.trans i p) fun r hr => h.stable i p r s s' hr hss'

lemma Sound.answered (hs : Safe J E Q cfg) {i : Nat} {ch : C} (good : ok cfg (.answer i ch))
    (hn : cluster.answerTask cfg i ch = some cfg') : Safe J E Q cfg' := by
  obtain ⟨p, c, k, a, s', hta, ha, rfl⟩ := answerTask_eq_some hn
  have hw := hs.task i _ hta cfg.state (h.refl i p cfg.state)
  obtain ⟨hinv, han, hots⟩ :=
    h.answer cfg i p c k ch a s' good hs.inv hta hw.1 ha
  constructor
  · simpa using hinv
  · intro j t ht
    by_cases hji : j = i
    · subst hji
      have hlt : j < cfg.tasks.length := (List.getElem?_eq_some_iff.mp hta).1
      have hself : t = ⟨p, k a⟩ := by simpa [List.getElem?_set_self hlt] using ht.symm
      subst hself
      exact hw.2 a s' han
    · have hot : cfg.tasks[j]? = some t := by
        simpa [List.getElem?_set_ne (Ne.symm hji)] using ht
      exact h.wp_interferes (hs.task j t hot) (hots j t hji hot)

lemma Sound.next {turn : Turn P C} (hs : Safe J E Q cfg) (good : ok cfg turn)
    (hn : cluster.next cfg turn = some cfg') : Safe J E Q cfg' := by
  cases turn with
  | spawn p =>
    cases hn
    obtain ⟨hinv, hwp⟩ := h.spawn cfg.tasks.length p cfg.state hs.inv
    constructor
    · simpa using hinv
    · intro i t ht
      rcases lt_trichotomy i cfg.tasks.length with hlt | rfl | hgt
      · exact hs.task i t (by simpa [List.getElem?_append_left hlt] using ht)
      · have hself : t = ⟨p, cluster.program p⟩ := by simpa using ht.symm
        subst hself
        exact hwp
      · have hnone : (cfg.tasks ++ [⟨p, cluster.program p⟩])[i]? = none := by
          apply List.getElem?_eq_none
          simp only [List.length_append, List.length_singleton]
          omega
        rw [hnone] at ht
        cases ht
  | answer i ch => exact h.answered hs good hn
  | interfere ch =>
    obtain ⟨s', hs', rfl⟩ := Option.map_eq_some_iff.mp hn
    obtain ⟨hinv, hots⟩ := h.interfere cfg ch s' good hs.inv hs'
    exact ⟨hinv, fun i t ht => h.wp_interferes (hs.task i t ht) (hots i t ht)⟩

/-- In every run within the condition the invariant holds and every task is safe. -/
theorem Sound.safe (run : cluster.machine.ReachableIf ok cfg) : Safe J E Q cfg := by
  apply Machine.ReachableIf.invariant _ (fun _ _ _ hs good hn => h.next hs good hn) run
  rintro ⟨s, tasks⟩ ⟨hs, rfl⟩
  exact ⟨h.start s hs, fun i t ht => by cases ht⟩

end

/-- The result of a finished task means what it should. -/
theorem Safe.result (h : Safe J E Q cfg) {i : Nat} {p : P} {r : Except ε R}
    (hres : cfg.result i = some (p, r)) : Q i p r cfg.state := by
  unfold Config.result at hres
  split at hres
  · rename_i origin r' ht
    cases hres
    exact h.task i _ ht
  · cases hres

end Cluster

end TeoDB.Lib
