import TeoDB.Lib.Machine
import TeoDB.Storage.Wal.Record

/-!
# The lease of a log directory

A process opens the lease file of the directory, creating it if there is none, and tries to
lock it. The lock belongs to the file that was opened, not to its name. Releasing unlocks
the file and then removes the name. Between the two another process can lock the same file
and be left with a file that no longer has the name, and a third one creates a new file
under the name and locks that. Both have the directory then.

## Implementation notes

A file is an inode. A step is what happens without interruption: open, lock, the rest of opening
the log, unlock, remove. A process that exits closes its file, which unlocks it.
-/

namespace TeoDB.Storage.Wal.Lease

open TeoDB.Core Lib

/-- Where a process is: the file it has open and what it has done with it. -/
inductive Phase where
  | idle
  | failed (error : TeoDBError)
  | opened (inode : Nat)
  | locked (inode : Nat)
  | holding (inode : Nat)
  | unlocked (inode : Nat)
  | released (inode : Nat)

/-- The file that a process has opened to get the lease, or has the lease of. -/
def Phase.claims : Phase → Option Nat
  | .opened inode | .locked inode | .holding inode => some inode
  | _ => none

/-- The file that a process has locked. -/
def Phase.locks : Phase → Option Nat
  | .locked inode | .holding inode => some inode
  | _ => none

/-- The lease file of the directory, the locks, and the processes. -/
structure State (n : Nat) where
  path : Option Nat
  nextInode : Nat
  lock : Nat → Option (Fin n)
  proc : Fin n → Phase

inductive Label (n : Nat) where
  | openFile (p : Fin n)
  | tryLock (p : Fin n)
  | failOpen (p : Fin n) (error : TeoDBError)
  | finishOpen (p : Fin n)
  | unlock (p : Fin n)
  | unlink (p : Fin n)
  | releaseAgain (p : Fin n)
  | exit (p : Fin n)

variable {n : Nat}

namespace State

variable (s : State n)

def enter (p : Fin n) (phase : Phase) : State n :=
  { s with proc := Function.update s.proc p phase }

def unlockFile (inode : Nat) : State n :=
  { s with lock := Function.update s.lock inode none }

/-- Close the file of a process. -/
def close (p : Fin n) : State n :=
  match (s.proc p).locks with
  | some inode => s.unlockFile inode
  | none => s

/-- Open the lease file, or create it. -/
def openFile (p : Fin n) : State n :=
  match s.path with
  | some inode => s.enter p (.opened inode)
  | none =>
    { s.enter p (.opened s.nextInode) with
      path := some s.nextInode
      nextInode := s.nextInode + 1 }

def tryLock (p : Fin n) (inode : Nat) : State n :=
  match s.lock inode with
  | some _ => s.enter p (.failed (walError "WAL directory is locked by another process"))
  | none => { s.enter p (.locked inode) with lock := Function.update s.lock inode (some p) }

def step : Label n → Option (State n)
  | .openFile p =>
    match s.proc p with
    | .idle | .failed _ => some (s.openFile p)
    | _ => none
  | .tryLock p =>
    match s.proc p with
    | .opened inode => some (s.tryLock p inode)
    | _ => none
  | .failOpen p error =>
    match s.proc p with
    | .idle | .failed _ | .opened _ | .locked _ => some ((s.close p).enter p (.failed error))
    | _ => none
  | .finishOpen p =>
    match s.proc p with
    | .locked inode => some (s.enter p (.holding inode))
    | _ => none
  | .unlock p =>
    match s.proc p with
    | .holding inode => some ((s.unlockFile inode).enter p (.unlocked inode))
    | _ => none
  | .unlink p =>
    match s.proc p with
    | .unlocked inode => some { s.enter p (.released inode) with path := none }
    | _ => none
  | .releaseAgain p =>
    match s.proc p with
    | .released inode => some (s.enter p (.unlocked inode))
    | _ => none
  | .exit p => some ((s.close p).enter p .idle)

end State

/-- Processes that open and release one log directory, in any order. -/
def machine (n : Nat) : Machine (State n) (Label n) where
  start s := s = ⟨none, 0, fun _ => none, fun _ => .idle⟩
  next := State.step

/-- No two processes have the directory. -/
def OneOwner (s : State n) : Prop :=
  ∀ p q i j, s.proc p = .holding i → s.proc q = .holding j → p = q

/-- A process removes the name only while no other process has opened the file that has it
to get the lease. -/
def Unshared (s : State n) : Label n → Prop
  | .unlink p => ∀ q, q ≠ p → s.path = none ∨ (s.proc q).claims ≠ s.path
  | _ => True

instance (s : State n) : (label : Label n) → Decidable (Unshared s label)
  | .unlink p =>
    inferInstanceAs (Decidable (∀ q, q ≠ p → s.path = none ∨ (s.proc q).claims ≠ s.path))
  | .openFile _ | .tryLock _ | .failOpen _ _ | .finishOpen _ | .unlock _ | .releaseAgain _
  | .exit _ => inferInstanceAs (Decidable True)

/-- Who wants or has the lease does so under the name, and locks are held by those who
took them. -/
structure Inv (s : State n) : Prop where
  named : ∀ p i, (s.proc p).claims = some i → s.path = some i
  held : ∀ p i, (s.proc p).locks = some i → s.lock i = some p

section

variable {s : State n} {p : Fin n}

@[simp] lemma enter_proc (ph : Phase) : (s.enter p ph).proc p = ph := by
  simp [State.enter]

lemma enter_proc_of_ne {q : Fin n} (h : q ≠ p) (ph : Phase) :
    (s.enter p ph).proc q = s.proc q := by
  simp [State.enter, h]

lemma forall_enter {P : Fin n → Phase → Prop} {ph : Phase} (hp : P p ph)
    (hots : ∀ q, q ≠ p → P q (s.proc q)) (q : Fin n) : P q ((s.enter p ph).proc q) := by
  by_cases hq : q = p
  · rw [hq, enter_proc]
    exact hp
  · rw [enter_proc_of_ne hq]
    exact hots q hq

lemma Inv.enter (h : Inv s) {ph : Phase} (hcla : ∀ i, ph.claims = some i → s.path = some i)
    (hlocks : ∀ i, ph.locks = some i → s.lock i = some p) : Inv (s.enter p ph) :=
  ⟨forall_enter (P := fun _ ph => ∀ i, ph.claims = some i → s.path = some i) hcla
      fun q _ => h.named q,
    forall_enter (P := fun q ph => ∀ i, ph.locks = some i → s.lock i = some q) hlocks
      fun q _ => h.held q⟩

/-- Nobody else has a file locked that a process has locked. -/
lemma Inv.unlockFile_held (h : Inv s) {i j : Nat} {q : Fin n} (hp : (s.proc p).locks = some i)
    (hq : (s.proc q).locks = some j) (hne : q ≠ p) : (s.unlockFile i).lock j = some q := by
  have hot := h.held q j hq
  have hij : j ≠ i := by
    rintro rfl
    have heq := hot.symm.trans (h.held p j hp)
    exact hne (Option.some.inj heq)
  simpa [State.unlockFile, hij] using hot

lemma Inv.leave (h : Inv s) {ph : Phase} (hcla : ph.claims = none)
    (hloc : ph.locks = none) : Inv ((s.close p).enter p ph) := by
  unfold State.close
  cases hp : (s.proc p).locks with
  | none =>
    apply h.enter
    · exact fun i hi => absurd (hcla.symm.trans hi) (Option.some_ne_none i).symm
    · exact fun i hi => absurd (hloc.symm.trans hi) (Option.some_ne_none i).symm
  | some inode =>
    refine ⟨?_, ?_⟩
    · apply forall_enter (P := fun _ ph => ∀ i, ph.claims = some i → s.path = some i)
      · exact fun i hi => absurd (hcla.symm.trans hi) (Option.some_ne_none i).symm
      · exact fun q _ => h.named q
    · apply forall_enter
        (P := fun q ph => ∀ i, ph.locks = some i → (s.unlockFile inode).lock i = some q)
      · exact fun i hi => absurd (hloc.symm.trans hi) (Option.some_ne_none i).symm
      · exact fun q hq i hi => h.unlockFile_held hp hi hq

lemma Inv.openFile (h : Inv s) : Inv (s.openFile p) := by
  unfold State.openFile
  cases hp : s.path with
  | some inode =>
    apply h.enter
    · exact fun i hi => hi ▸ hp
    · rintro i ⟨⟩
  | none =>
    -- without a name nobody has or wants the lease
    refine ⟨?_, ?_⟩
    · apply forall_enter (P := fun _ ph => ∀ i, ph.claims = some i → some s.nextInode = some i)
      · exact fun i hi => hi
      · intro q _ i hi
        have hnm := h.named q i hi
        rw [hp] at hnm
        cases hnm
    · apply forall_enter (P := fun q ph => ∀ i, ph.locks = some i → s.lock i = some q)
      · rintro i ⟨⟩
      · exact fun q _ => h.held q

lemma Inv.tryLock (h : Inv s) {inode : Nat} (hp : s.proc p = .opened inode) :
    Inv (s.tryLock p inode) := by
  unfold State.tryLock
  cases hl : s.lock inode with
  | some holder =>
    apply h.enter
    · rintro i ⟨⟩
    · rintro i ⟨⟩
  | none =>
    refine ⟨?_, ?_⟩
    · apply forall_enter (P := fun _ ph => ∀ i, ph.claims = some i → s.path = some i)
      · exact fun i hi => h.named p i (by rw [hp]; exact hi)
      · exact fun q _ => h.named q
    · apply forall_enter (P := fun q ph => ∀ i, ph.locks = some i →
        Function.update s.lock inode (some p) i = some q)
      · intro i hi
        cases hi
        simp
      · intro q _ i hi
        have hhd := h.held q i hi
        have hne : i ≠ inode := by
          rintro rfl
          rw [hl] at hhd
          cases hhd
        simpa [hne] using hhd

lemma Inv.unlink (h : Inv s) {inode : Nat} (hs : Unshared s (.unlink p)) :
    Inv { s.enter p (.released inode) with path := none } := by
  refine ⟨?_, ?_⟩
  · apply forall_enter (P := fun _ ph => ∀ i, ph.claims = some i → none = some i)
    · exact fun i hi => hi
    · intro q hq i hi
      have hnm := h.named q i hi
      rcases hs q hq with hn | hne
      · rw [hn] at hnm
        exact hnm
      · exact absurd (hi.trans hnm.symm) hne
  · apply forall_enter (P := fun q ph => ∀ i, ph.locks = some i → s.lock i = some q)
    · rintro i ⟨⟩
    · exact fun q _ => h.held q

lemma Inv.step (h : Inv s) {label : Label n} (hsafe : Unshared s label) {s' : State n}
    (hs : s.step label = some s') : Inv s' := by
  cases label with
  | openFile p =>
    cases hp : s.proc p <;> simp only [State.step, hp] at hs <;> cases hs <;> exact h.openFile
  | tryLock p =>
    cases hp : s.proc p <;> simp only [State.step, hp] at hs <;> cases hs
    exact h.tryLock hp
  | failOpen p error =>
    cases hp : s.proc p <;> simp only [State.step, hp] at hs <;> cases hs <;> exact h.leave rfl rfl
  | finishOpen p =>
    cases hp : s.proc p <;> simp only [State.step, hp] at hs <;> cases hs
    apply h.enter
    · exact fun i hi => h.named p i (by rw [hp]; exact hi)
    · exact fun i hi => h.held p i (by rw [hp]; exact hi)
  | unlock p =>
    cases hp : s.proc p <;> simp only [State.step, hp] at hs <;> cases hs
    rename_i inode
    have hclose : s.close p = s.unlockFile inode := by
      simp [State.close, hp, Phase.locks]
    rw [← hclose]
    exact h.leave rfl rfl
  | unlink p =>
    cases hp : s.proc p <;> simp only [State.step, hp] at hs <;> cases hs
    exact h.unlink hsafe
  | releaseAgain p =>
    cases hp : s.proc p <;> simp only [State.step, hp] at hs <;> cases hs
    apply h.enter
    · rintro i ⟨⟩
    · rintro i ⟨⟩
  | exit p =>
    cases hs
    exact h.leave rfl rfl

end

/-- If the name is only removed while no other process has its file open, one process has the
directory. -/
theorem oneOwner_of_unshared {s : State n} (run : (machine n).ReachableIf Unshared s) :
    OneOwner s := by
  have h : Inv s := by
    apply run.invariant
    · rintro s rfl
      exact ⟨fun _ _ hi => absurd hi (Option.some_ne_none _).symm,
        fun _ _ hi => absurd hi (Option.some_ne_none _).symm⟩
    · intro s label s' hinv hs hstep
      exact hinv.step hs hstep
  intro p q i j hp hq
  have hi := h.named p i (by rw [hp]; rfl)
  have hj := h.named q j (by rw [hq]; rfl)
  cases hi.symm.trans hj
  have hl := (h.held p i (by rw [hp]; rfl)).symm.trans (h.held q i (by rw [hq]; rfl))
  exact Option.some.inj hl

/-- The processes that have the directory. -/
def owners (s : State n) : List (Fin n) :=
  (List.finRange n).filter fun p => match s.proc p with | .holding _ => true | _ => false

lemma mem_owners {s : State n} {p : Fin n} : p ∈ owners s ↔ ∃ i, s.proc p = .holding i := by
  cases hp : s.proc p <;> simp [owners, hp]

lemma idle_start (n : Nat) : (machine n).start ⟨none, 0, fun _ => none, fun _ => .idle⟩ := rfl

/-- One process after the other. -/
def handover : List (Label 2) :=
  [.openFile 0, .tryLock 0, .finishOpen 0, .unlock 0, .unlink 0, .openFile 1, .tryLock 1,
    .finishOpen 1]

theorem handover_oneOwner : ∃ s : State 2, owners s = [1] ∧ OneOwner s := by
  have hrun : (((machine 2).guarded Unshared).exec
      ⟨none, 0, fun _ => none, fun _ => .idle⟩ handover).map owners = some [1] := by
    decide
  obtain ⟨s, run, hs⟩ := Machine.existsIf_of_exec (idle_start 2) hrun
  exact ⟨s, hs, oneOwner_of_unshared run⟩

/-- The second process locks the file before the first one removes its name, and the third
one creates a new file. -/
def orphanedLock : List (Label 3) :=
  [.openFile 0, .tryLock 0, .finishOpen 0, .unlock 0, .openFile 1, .tryLock 1, .finishOpen 1,
    .unlink 0, .openFile 2, .tryLock 2, .finishOpen 2]

theorem two_processes_have_the_directory :
    ∃ s, (machine 3).Reachable s ∧ owners s = [1, 2] ∧ ¬ OneOwner s := by
  have hrun : ((machine 3).exec ⟨none, 0, fun _ => none, fun _ => .idle⟩
      orphanedLock).map owners = some [1, 2] := by
    decide
  obtain ⟨s, run, hs⟩ := Machine.exists_of_exec (idle_start 3) hrun
  refine ⟨s, run, hs, fun hone => ?_⟩
  obtain ⟨i, hi⟩ := mem_owners.mp (hs ▸ List.mem_cons_self : (1 : Fin 3) ∈ owners s)
  obtain ⟨j, hj⟩ := mem_owners.mp (hs ▸ by decide : (2 : Fin 3) ∈ owners s)
  exact absurd (hone 1 2 i j hi hj) (by decide)

end TeoDB.Storage.Wal.Lease
