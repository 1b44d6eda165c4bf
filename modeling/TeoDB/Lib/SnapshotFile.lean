import TeoDB.Lib.Machine

/-!
# A file that follows a shared value

Callers change a shared value and write it to a file under a lock that they take after the change,
so the file never goes back to an older value, and a caller that has returned finds its change in
the file.

## Implementation notes

A phase keeps the position of the caller's change in the list of all changes. A caller can be
refused before its change.
-/

namespace TeoDB.Lib.SnapshotFile

/-- How a change acts on the value, and what the file has for a value. -/
structure Protocol (U M γ : Type*) where
  apply : U → M → M
  write : M → γ

/-- Where a caller is. -/
inductive Phase (U M : Type*) where
  | idle
  | asked (u : U)
  | updated (u : U) (n : Nat)
  | locked (u : U) (n : Nat)
  | snapped (u : U) (n : Nat) (value : M)
  | replaced (u : U) (n : Nat)
  | returned (u : U) (n : Nat)
  | refused

/-- The change that a caller has made and its position. -/
def Phase.change {U M : Type*} : Phase U M → Option (U × Nat)
  | .updated u n | .locked u n | .snapped u n _ | .replaced u n | .returned u n => some (u, n)
  | _ => none

/-- Whether a caller is between taking the lock and returning. -/
def Phase.inside {U M : Type*} : Phase U M → Bool
  | .locked _ _ | .snapped _ _ _ | .replaced _ _ => true
  | _ => false

structure State (U M γ : Type*) where
  initial : M
  value : M
  updates : List U
  lock : Option Nat
  phase : Nat → Phase U M
  file : Option γ

inductive Label (U : Type*) where
  | ask (c : Nat) (u : U)
  | refuse (c : Nat)
  | update (c : Nat)
  | acquire (c : Nat)
  | snapshot (c : Nat)
  | replace (c : Nat)
  | release (c : Nat)

variable {U M γ : Type*} (p : Protocol U M γ)

/-- The value after some changes. -/
def Protocol.after (m : M) (us : List U) : M := us.foldl (fun m u => p.apply u m) m

lemma Protocol.after_append (m : M) (us : List U) (u : U) :
    p.after m (us ++ [u]) = p.apply u (p.after m us) := by
  simp [Protocol.after]

variable (s : State U M γ)

def State.enter (c : Nat) (phase : Phase U M) : State U M γ :=
  { s with phase := Function.update s.phase c phase }

@[simp] lemma State.enter_phase (c : Nat) (ph : Phase U M) : (s.enter c ph).phase c = ph := by
  simp [enter]

lemma State.enter_phase_of_ne {c d : Nat} (h : d ≠ c) (ph : Phase U M) :
    (s.enter c ph).phase d = s.phase d := by
  simp [enter, h]

/-- Make a change. -/
def State.change (u : U) : State U M γ :=
  { s with value := p.apply u s.value, updates := s.updates ++ [u] }

def step : Label U → Option (State U M γ)
  | .ask c u =>
    match s.phase c with
    | .idle => some (s.enter c (.asked u))
    | _ => none
  | .refuse c =>
    match s.phase c with
    | .asked _ => some (s.enter c .refused)
    | _ => none
  | .update c =>
    match s.phase c with
    | .asked u => some ((s.change p u).enter c (.updated u s.updates.length))
    | _ => none
  | .acquire c =>
    match s.phase c, s.lock with
    | .updated u n, none => some { s.enter c (.locked u n) with lock := some c }
    | _, _ => none
  | .snapshot c =>
    match s.phase c with
    | .locked u n => some (s.enter c (.snapped u n s.value))
    | _ => none
  | .replace c =>
    match s.phase c with
    | .snapped u n value => some { s.enter c (.replaced u n) with file := some (p.write value) }
    | _ => none
  | .release c =>
    match s.phase c with
    | .replaced u n => some { s.enter c (.returned u n) with lock := none }
    | _ => none

/-- Callers that share a value, with any value and any file at the start. -/
def machine : Machine (State U M γ) (Label U) where
  start s := s.value = s.initial ∧ s.updates = [] ∧ s.lock = none ∧ ∀ c, s.phase c = .idle
  next := step p

/-- The file has the first `k` changes. -/
def FileAt (k : Nat) : Prop :=
  k ≤ s.updates.length ∧ s.file = some (p.write (p.after s.initial (s.updates.take k)))

/-- The phase of a caller fits the file: what it has read is not older, and what it has
written is there. -/
def Fits (initial : M) (updates : List U) (written : Option Nat) : Phase U M → Prop
  | .snapped _ n value => ∃ j ≤ updates.length, value = p.after initial (updates.take j) ∧
      n < j ∧ ∀ k ∈ written, k ≤ j
  | .replaced _ n | .returned _ n => ∃ k ∈ written, n < k
  | _ => True

/-- What holds of a caller in a phase. -/
structure Good (initial : M) (updates : List U) (lock : Option Nat) (written : Option Nat)
    (c : Nat) (phase : Phase U M) : Prop where
  position : ∀ u n, phase.change = some (u, n) → updates[n]? = some u
  holder : phase.inside = true → lock = some c
  fits : Fits p initial updates written phase

structure Inv (s : State U M γ) (written : Option Nat) : Prop where
  value : s.value = p.after s.initial s.updates
  file : ∀ k ∈ written, FileAt p s k
  callers : ∀ c, Good p s.initial s.updates s.lock written c (s.phase c)

section

variable {p} {s : State U M γ} {wr : Option Nat} {c n : Nat} {u : U} {val : M} {ph : Phase U M}

lemma forall_enter {P : Nat → Phase U M → Prop} (hc : P c ph)
    (hots : ∀ d, d ≠ c → P d (s.phase d)) (d : Nat) : P d ((s.enter c ph).phase d) := by
  by_cases hd : d = c
  · rw [hd, State.enter_phase]
    exact hc
  · rw [State.enter_phase_of_ne s hd]
    exact hots d hd

lemma Inv.enter (h : Inv p s wr) (hph : Good p s.initial s.updates s.lock wr c ph) :
    Inv p (s.enter c ph) wr :=
  ⟨h.value, h.file, forall_enter (P := Good p s.initial s.updates s.lock wr) hph
    fun d _ => h.callers d⟩

variable {initial : M} {updates : List U}

/-- A caller that has made no change yet, or none at all. -/
theorem good_of_quiet {lock : Option Nat} (hcha : ph.change = none) (hin : ph.inside = false)
    (hf : Fits p initial updates wr ph) : Good p initial updates lock wr c ph := by
  refine ⟨?_, ?_, hf⟩
  · intro u n hs
    rw [hcha] at hs
    cases hs
  · intro ht
    rw [hin] at ht
    cases ht

lemma Fits.change (h : Fits p initial updates wr ph) (u : U) :
    Fits p initial (updates ++ [u]) wr ph := by
  cases ph with
  | snapped v n val =>
    obtain ⟨j, hj, hv, hn, hk⟩ := h
    refine ⟨j, ?_, ?_, hn, hk⟩
    · rw [List.length_append]
      omega
    · rw [List.take_append_of_le_length hj]
      exact hv
  | _ => exact h

/-- Another change leaves what was read and written as it is. -/
theorem Inv.change (h : Inv p s wr) (u : U) : Inv p (s.change p u) wr := by
  refine ⟨?_, ?_, ?_⟩
  · rw [State.change, Protocol.after_append, ← h.value]
  · intro k hk
    obtain ⟨hle, hf⟩ := h.file k hk
    refine ⟨?_, ?_⟩
    · simp only [State.change, List.length_append]
      omega
    · simp only [State.change, List.take_append_of_le_length hle]
      exact hf
  · intro c
    have hc := h.callers c
    refine ⟨?_, hc.holder, hc.fits.change u⟩
    intro v n hcha
    have hv := hc.position v n hcha
    rw [State.change, List.getElem?_append_left (List.getElem?_eq_some_iff.mp hv).1, hv]

/-- Nobody else is inside while a caller is. -/
theorem Inv.alone (h : Inv p s wr) {d : Nat} (hc : (s.phase c).inside = true)
    (hd : d ≠ c) : (s.phase d).inside = false := by
  rw [← Bool.not_eq_true]
  intro hin
  have heq := ((h.callers d).holder hin).symm.trans ((h.callers c).holder hc)
  exact hd (Option.some.inj heq)

/-- A caller outside does not depend on the lock. -/
theorem Good.of_outside {lock o : Option Nat} (h : Good p initial updates lock wr c ph)
    (hout : ph.inside = false) : Good p initial updates o wr c ph :=
  ⟨h.position, fun hin => absurd hin (by rw [hout]; exact Bool.false_ne_true), h.fits⟩

lemma Inv.acquire (h : Inv p s wr) (hc : s.phase c = .updated u n) (hl : s.lock = none) :
    Inv p { s.enter c (.locked u n) with lock := some c } wr := by
  have hown := (h.callers c).position
  rw [hc] at hown
  refine ⟨h.value, h.file,
    forall_enter (P := Good p s.initial s.updates (some c) wr) ⟨hown, fun _ => rfl, trivial⟩ ?_⟩
  intro d _
  apply (h.callers d).of_outside
  rw [← Bool.not_eq_true]
  intro hin
  have heq := (h.callers d).holder hin
  rw [hl] at heq
  cases heq

lemma Inv.snapshot (h : Inv p s wr) (hc : s.phase c = .locked u n) :
    Inv p (s.enter c (.snapped u n s.value)) wr := by
  obtain ⟨hpos, hhol, _⟩ := hc ▸ h.callers c
  apply h.enter
  refine ⟨hpos, hhol, s.updates.length, le_refl _, ?_,
    (List.getElem?_eq_some_iff.mp (hpos u n rfl)).1, fun k hk => (h.file k hk).1⟩
  rw [List.take_length]
  exact h.value

lemma Inv.replace (h : Inv p s wr) (hc : s.phase c = .snapped u n val) :
    ∃ j, Inv p { s.enter c (.replaced u n) with file := some (p.write val) } (some j) := by
  have hin : (s.phase c).inside = true := by
    rw [hc]
    rfl
  obtain ⟨hpos, hhol, j, hj, hv, hn, hk⟩ := hc ▸ h.callers c
  refine ⟨j, h.value, ?_, forall_enter (P := Good p s.initial s.updates s.lock (some j))
    ⟨hpos, hhol, j, rfl, hn⟩ ?_⟩
  · intro k hk
    rw [← Option.some.inj hk]
    refine ⟨hj, ?_⟩
    rw [hv]
    rfl
  · intro d hd
    have hout := h.alone hin hd
    refine ⟨(h.callers d).position, (h.callers d).holder, ?_⟩
    have hf := (h.callers d).fits
    cases hph : s.phase d with
    | snapped v m other =>
      rw [hph] at hout
      cases hout
    | replaced v m =>
      rw [hph] at hout
      cases hout
    | returned v m =>
      rw [hph] at hf
      obtain ⟨k, hkw, hm⟩ := hf
      exact ⟨j, rfl, lt_of_lt_of_le hm (hk k hkw)⟩
    | _ => trivial

lemma Inv.release (h : Inv p s wr) (hc : s.phase c = .replaced u n) :
    Inv p { s.enter c (.returned u n) with lock := none } wr := by
  have hin : (s.phase c).inside = true := by
    rw [hc]
    rfl
  obtain ⟨hpos, _, hf⟩ := hc ▸ h.callers c
  refine ⟨h.value, h.file, forall_enter (P := Good p s.initial s.updates none wr)
    ⟨hpos, fun hfalse => absurd hfalse Bool.false_ne_true, hf⟩ ?_⟩
  intro d hd
  exact (h.callers d).of_outside (h.alone hin hd)

lemma Inv.step (h : Inv p s wr) {label : Label U} {s' : State U M γ}
    (hs : step p s label = some s') : ∃ wr', Inv p s' wr' := by
  cases label with
  | ask c u =>
    cases hc : s.phase c <;> simp only [SnapshotFile.step, hc] at hs <;> cases hs
    exact ⟨wr, h.enter (good_of_quiet rfl rfl trivial)⟩
  | refuse c =>
    cases hc : s.phase c <;> simp only [SnapshotFile.step, hc] at hs <;> cases hs
    exact ⟨wr, h.enter (good_of_quiet rfl rfl trivial)⟩
  | update c =>
    cases hc : s.phase c <;> simp only [SnapshotFile.step, hc] at hs <;> cases hs
    rename_i u
    refine ⟨wr, (h.change u).enter ⟨?_, ?_, trivial⟩⟩
    · intro v n hv
      cases hv
      simp [State.change]
    · exact fun hfalse => absurd hfalse Bool.false_ne_true
  | acquire c =>
    cases hc : s.phase c <;> cases hl : s.lock <;>
      simp only [SnapshotFile.step, hc, hl] at hs <;> cases hs
    exact ⟨wr, h.acquire hc hl⟩
  | snapshot c =>
    cases hc : s.phase c <;> simp only [SnapshotFile.step, hc] at hs <;> cases hs
    exact ⟨wr, h.snapshot hc⟩
  | replace c =>
    cases hc : s.phase c <;> simp only [SnapshotFile.step, hc] at hs <;> cases hs
    obtain ⟨j, hj⟩ := h.replace hc
    exact ⟨some j, hj⟩
  | release c =>
    cases hc : s.phase c <;> simp only [SnapshotFile.step, hc] at hs <;> cases hs
    exact ⟨wr, h.release hc⟩

end

/-- In every run, the file has the changes of all callers that have returned. -/
theorem reflects_returned {s : State U M γ} (run : (machine p).Reachable s) {c n : Nat} {u : U}
    (hc : s.phase c = .returned u n) :
    ∃ k, FileAt p s k ∧ ∀ d m v, s.phase d = .returned v m → m < k ∧ s.updates[m]? = some v := by
  have hinv : ∃ written, Inv p s written := by
    refine @Machine.Reachable.invariant _ _ _ (fun s => ∃ written, Inv p s written) ?_ ?_ _ run
    · rintro s ⟨hv, hupd, hlock, hi⟩
      refine ⟨none, ?_, fun k hk => absurd hk (Option.not_mem_none k), ?_⟩
      · rw [hv, hupd]
        rfl
      · intro c
        rw [hi c]
        exact good_of_quiet rfl rfl trivial
    · rintro s label s' ⟨written, h⟩ hs
      exact h.step hs
  obtain ⟨written, h⟩ := hinv
  obtain ⟨_, _, k, hk, _⟩ := hc ▸ h.callers c
  refine ⟨k, h.file k hk, ?_⟩
  intro d m v hd
  obtain ⟨hpos, _, k', hk', hm⟩ := hd ▸ h.callers d
  cases hk.symm.trans hk'
  exact ⟨hm, hpos v m rfl⟩

end TeoDB.Lib.SnapshotFile
