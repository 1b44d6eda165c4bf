import TeoDB.Lib.Machine

/-!
# Asynchronous programs

A program works on shared state in atomic actions and waits for the answers of calls. Between any
two actions other tasks may change the state, and a program that waits can be dropped. The weakest
precondition of a program is relative to what the others may do and to the answers that calls may
get.

## Implementation notes

A program is a tree: a result, a named action whose continuation sees the state before it, or a
call. Errors are results. A program works on a part of the state through a `Ref`.
-/

namespace TeoDB.Lib

/-- The names of atomic actions, and calls with the types of their answers. -/
structure Interface where
  Action : Type
  Call : Type
  Answer : Call → Type

/-- What a program is about to do. -/
inductive Interface.Event (I : Interface) where
  | act (name : I.Action)
  | call (c : I.Call)

inductive Async (I : Interface) (S ε α : Type) : Type
  | done (result : Except ε α)
  | act (name : I.Action) (f : S → S) (k : S → Async I S ε α)
  | call (c : I.Call) (k : I.Answer c → Async I S ε α)

namespace Async

variable {I : Interface} {S T ε ε' α β : Type}

def bind : Async I S ε α → (α → Async I S ε β) → Async I S ε β
  | done (.ok a), f => f a
  | done (.error e), _ => done (.error e)
  | act name g k, f => act name g fun s => (k s).bind f
  | call c k, f => call c fun a => (k a).bind f

instance : Monad (Async I S ε) where
  pure a := done (.ok a)
  bind := bind

/-- One atomic action with a result. -/
def perform (name : I.Action) (f : S → Except ε α × S) : Async I S ε α :=
  act name (fun s => (f s).2) fun s => done (f s).1

def request (c : I.Call) : Async I S ε (I.Answer c) := call c fun a => done (.ok a)

/-- Continue with a value, or stop with its error. -/
def lift (r : Except ε α) : Async I S ε α := done r

def throw (e : ε) : Async I S ε α := done (.error e)

/-- The result of a program as a value. -/
def attempt : Async I S ε α → Async I S ε' (Except ε α)
  | done r => done (.ok r)
  | act name g k => act name g fun s => (k s).attempt
  | call c k => call c fun a => (k a).attempt

/-- Run a program for each element of a list. -/
def each (f : β → Async I S ε Unit) : List β → Async I S ε Unit
  | [] => pure ()
  | b :: rest => do
    f b
    each f rest

end Async

/-- A part of the state that can be read and replaced. -/
structure Ref (S T : Type) where
  get : S → T
  set : S → T → S
  get_set : ∀ s t, get (set s t) = t

namespace Ref

attribute [simp] get_set

variable {I : Interface} {S T ε α : Type}

/-- The whole state. -/
def whole : Ref S S := ⟨id, fun _ s => s, fun _ _ => rfl⟩

/-- One atomic action on the part. -/
def perform (r : Ref S T) (name : I.Action) (f : T → Except ε α × T) : Async I S ε α :=
  .perform name fun s => ((f (r.get s)).1, r.set s (f (r.get s)).2)

/-- Read the part. -/
def read (r : Ref S T) (name : I.Action) (f : T → α) : Async I S ε α :=
  .perform name fun s => (.ok (f (r.get s)), s)

def modify (r : Ref S T) (name : I.Action) (f : T → T) : Async I S ε Unit :=
  r.perform name fun t => (.ok (), f t)

/-- Replace the part, or fail and leave it. -/
def update (r : Ref S T) (name : I.Action) (f : T → Except ε T) : Async I S ε Unit :=
  .perform name fun s =>
    match f (r.get s) with
    | .ok t => (.ok (), r.set s t)
    | .error e => (.error e, s)

end Ref

namespace Async

variable {I : Interface} {S T ε ε' α β : Type}

/-- What a program shows and relies on. `visible` holds before each action and while it waits,
others change the state within `interferes`, and calls are answered within `answers`. -/
structure Setting (I : Interface) (S : Type) where
  visible : S → I.Event → Prop
  interferes : S → S → Prop
  answers : S → (c : I.Call) → I.Answer c → S → Prop

/-- Nothing is shown, and nobody interferes. -/
def Setting.alone (answers : S → (c : I.Call) → I.Answer c → S → Prop) : Setting I S where
  visible _ _ := True
  interferes := Eq
  answers := answers

/-- From `s`, the program shows what it must and ends within `Q`. -/
def wp (E : Setting I S) (Q : Except ε α → S → Prop) : Async I S ε α → S → Prop
  | done r, s => Q r s
  | act name g k, s => ∀ s', E.interferes s s' →
      E.visible s' (.act name) ∧ wp E Q (k s') (g s')
  | call c k, s => ∀ s', E.interferes s s' → E.visible s' (.call c) ∧
      ∀ a s'', E.answers s' c a s'' → wp E Q (k a) s''

section

variable {E : Setting I S} {Q R : Except ε α → S → Prop} {s : S} {r : Except ε α}

@[simp] lemma wp_done : wp E Q (done r) s ↔ Q r s := Iff.rfl

@[simp] lemma wp_pure {a : α} : wp E Q (pure a : Async I S ε α) s ↔ Q (.ok a) s := Iff.rfl

@[simp] lemma wp_throw {e : ε} : wp E Q (throw e) s ↔ Q (.error e) s := Iff.rfl

@[simp] lemma wp_lift : wp E Q (lift r) s ↔ Q r s := Iff.rfl

variable {p : Async I S ε α}

lemma wp_mono (hQR : ∀ r s, Q r s → R r s) (h : wp E Q p s) : wp E R p s := by
  induction p generalizing s with
  | done r => exact hQR r s h
  | act name g k ih =>
    intro s' hs'
    exact ⟨(h s' hs').1, ih s' (h s' hs').2⟩
  | call c k ih =>
    intro s' hs'
    exact ⟨(h s' hs').1, fun a s'' ha => ih a ((h s' hs').2 a s'' ha)⟩

/-- A setting that shows nothing allows every program. -/
theorem wp_of_visible (hvis : ∀ s ev, E.visible s ev) (hQ : ∀ r s, Q r s) : wp E Q p s := by
  induction p generalizing s with
  | done r => exact hQ r s
  | act name g k ih => exact fun s' _ => ⟨hvis s' _, ih s'⟩
  | call c k ih => exact fun s' _ => ⟨hvis s' _, fun a s'' _ => ih a⟩

/-- What remains to be shown after the first part of a program. -/
def andThen (E : Setting I S) (Q : Except ε β → S → Prop) (f : α → Async I S ε β) :
    Except ε α → S → Prop
  | .ok a, s => wp E Q (f a) s
  | .error e, s => Q (.error e) s

@[simp] lemma andThen_ok {Q : Except ε β → S → Prop} {f : α → Async I S ε β} {a : α} :
    andThen E Q f (.ok a) s ↔ wp E Q (f a) s := Iff.rfl

lemma wp_bind {Q : Except ε β → S → Prop} {f : α → Async I S ε β} :
    wp E Q (p >>= f) s ↔ wp E (andThen E Q f) p s := by
  show wp E Q (p.bind f) s ↔ _
  induction p generalizing s with
  | done r => cases r <;> rfl
  | act name g k ih =>
    exact forall_congr' fun s' => imp_congr_right fun _ => and_congr_right fun _ => ih s'
  | call c k ih =>
    refine forall_congr' fun s' => imp_congr_right fun _ => and_congr_right fun _ => ?_
    exact forall_congr' fun a => forall_congr' fun s'' => imp_congr_right fun _ => ih a

/-- A postcondition for each kind of result. -/
def ends (ok : α → S → Prop) (failed : S → Prop) : Except ε α → S → Prop
  | .ok a, s => ok a s
  | .error _, s => failed s

variable {P : S → Prop}

lemma wp_ends (h : wp E (fun _ => P) p s) : wp E (ends (fun _ => P) P) p s := by
  refine wp_mono (fun r s hr => ?_) h
  cases r <;> exact hr

lemma wp_bind_of {R : β → S → Prop} {p : Async I S ε β} {f : β → Async I S ε α}
    (h : wp E (ends R P) p s) (hok : ∀ b s, R b s → wp E Q (f b) s)
    (her : ∀ e s, P s → Q (.error e) s := by exact fun _ _ hs => hs) : wp E Q (p >>= f) s := by
  refine wp_bind.mpr (wp_mono (fun r s hr => ?_) h)
  cases r with
  | ok b => exact hok b s hr
  | error e => exact her e s hr

/-- From every state the program shows what it must, however it ends. -/
def Shows (E : Setting I S) (p : Async I S ε α) : Prop := ∀ s, wp E (fun _ _ => True) p s

lemma Shows.bind {p : Async I S ε β} {f : β → Async I S ε α} (h : Shows E p)
    (hf : ∀ b, Shows E (f b)) : Shows E (p >>= f) := by
  intro s
  refine wp_bind.mpr (wp_mono (fun r s _ => ?_) (h s))
  cases r with
  | ok b => exact hf b s
  | error e => trivial

lemma shows_lift : Shows E (lift r) := fun _ => trivial

lemma shows_throw {e : ε} : Shows E (throw e : Async I S ε α) := fun _ => trivial

/-- A predicate that each run keeps is kept by all of them. -/
theorem wp_each {J P : S → Prop} {f : β → Async I S ε Unit} {l : List β}
    (hf : ∀ b ∈ l, ∀ s, J s → wp E (ends (fun _ => J) P) (f b) s) (h : J s) :
    wp E (ends (fun _ => J) P) (each f l) s := by
  induction l generalizing s with
  | nil => exact h
  | cons b rest ih =>
    refine wp_bind_of (hf b List.mem_cons_self s h) fun _ s hs => ?_
    exact ih (fun b hb => hf b (List.mem_cons_of_mem _ hb)) hs

lemma wp_discard {p : Async I S ε β} (h : wp E (fun _ => P) p s) :
    wp E (fun _ => P) (p >>= fun _ => pure ()) s := by
  refine wp_bind.mpr (wp_mono (fun r s hr => ?_) h)
  cases r <;> exact hr

lemma wp_lift_bind {r : Except ε β} {k : β → Async I S ε α}
    (hok : ∀ b, r = .ok b → wp E Q (k b) s) (her : ∀ e, r = .error e → Q (.error e) s) :
    wp E Q (lift r >>= k) s := by
  cases r with
  | ok b => exact hok b rfl
  | error e => exact her e rfl

lemma wp_perform {name : I.Action} {f : S → Except ε α × S} : wp E Q (perform name f) s ↔
      ∀ s', E.interferes s s' → E.visible s' (.act name) ∧ Q (f s').1 (f s').2 :=
  Iff.rfl

lemma wp_request {c : I.Call} {Q : Except ε (I.Answer c) → S → Prop} :
    wp E Q (request c) s ↔ ∀ s', E.interferes s s' → E.visible s' (.call c) ∧
      ∀ a s'', E.answers s' c a s'' → Q (.ok a) s'' :=
  Iff.rfl

lemma wp_attempt {Q : Except ε' (Except ε α) → S → Prop} :
    wp E Q p.attempt s ↔ wp E (fun r => Q (.ok r)) p s := by
  induction p generalizing s with
  | done r => rfl
  | act name g k ih =>
    exact forall_congr' fun s' => imp_congr_right fun _ => and_congr_right fun _ => ih s'
  | call c k ih =>
    refine forall_congr' fun s' => imp_congr_right fun _ => and_congr_right fun _ => ?_
    exact forall_congr' fun a => forall_congr' fun s'' => imp_congr_right fun _ => ih a

lemma Shows.attempt (h : Shows E p) : Shows E (p.attempt : Async I S ε' (Except ε α)) :=
  fun s => wp_attempt.mpr (h s)

lemma shows_request {c : I.Call} (h : ∀ s, E.visible s (.call c)) :
    Shows E (request c : Async I S ε (I.Answer c)) :=
  fun _ s' _ => ⟨h s', fun _ _ _ => trivial⟩

/-- A predicate that the interference of others keeps. -/
def Setting.Stable (E : Setting I S) (P : S → Prop) : Prop :=
  ∀ s s', P s → E.interferes s s' → P s'

section

variable {P : S → Prop} {name : I.Action}

lemma wp_perform_of {f : S → Except ε α × S} (hP : E.Stable P) (hs : P s)
    (h : ∀ s, P s → E.visible s (.act name) ∧ Q (f s).1 (f s).2) : wp E Q (perform name f) s :=
  fun s' hss' => h s' (hP s s' hs hss')

lemma wp_request_of {c : I.Call} {Q : Except ε (I.Answer c) → S → Prop} (hP : E.Stable P)
    (hs : P s) (h : ∀ s, P s → E.visible s (.call c) ∧
      ∀ a s', E.answers s c a s' → Q (.ok a) s') : wp E Q (request c) s :=
  fun s' hss' => h s' (hP s s' hs hss')

lemma wp_request_bind_of {c : I.Call} {k : I.Answer c → Async I S ε α} (hP : E.Stable P)
    (hs : P s) (h : ∀ s, P s → E.visible s (.call c) ∧
      ∀ a s', E.answers s c a s' → wp E Q (k a) s') : wp E Q (request c >>= k) s :=
  wp_bind.mpr (wp_request_of hP hs h)

variable {r : Ref S T}

lemma wp_read_of {f : T → α} (hP : E.Stable P) (hs : P s)
    (h : ∀ s, P s → E.visible s (.act name) ∧ Q (.ok (f (r.get s))) s) : wp E Q (r.read name f) s :=
  wp_perform_of hP hs h

lemma wp_read_bind_of {f : T → β} {k : β → Async I S ε α} (hP : E.Stable P) (hs : P s)
    (h : ∀ s, P s → E.visible s (.act name) ∧ wp E Q (k (f (r.get s))) s) :
    wp E Q (r.read name f >>= k) s :=
  wp_bind.mpr (wp_read_of hP hs h)

lemma wp_update_of {f : T → Except ε T} {Q : Except ε Unit → S → Prop} (hP : E.Stable P)
    (hs : P s)
    (h : ∀ s, P s → E.visible s (.act name) ∧ (∀ e, f (r.get s) = .error e → Q (.error e) s) ∧
      ∀ t, f (r.get s) = .ok t → Q (.ok ()) (r.set s t)) : wp E Q (r.update name f) s := by
  refine wp_perform_of hP hs fun s hs => ⟨(h s hs).1, ?_⟩
  cases hf : f (r.get s) with
  | ok t => exact (h s hs).2.2 t hf
  | error e => exact (h s hs).2.1 e hf

end

/-- A precondition survives the interference that its program tolerates anyway. -/
theorem wp_interferes {s' : S} (h : wp E Q p s) (hss' : E.interferes s s')
    (htra : ∀ a b c, E.interferes a b → E.interferes b c → E.interferes a c)
    (hQ : ∀ r, Q r s → Q r s') : wp E Q p s' := by
  cases p with
  | done r => exact hQ r h
  | act name g k => exact fun s'' hs'' => h s'' (htra _ _ _ hss' hs'')
  | call c k => exact fun s'' hs'' => h s'' (htra _ _ _ hss' hs'')

end

section

variable {answers : S → (c : I.Call) → I.Answer c → S → Prop} {Q : Except ε α → S → Prop} {s : S}
  {name : I.Action}

@[simp] lemma wp_alone_perform {f : S → Except ε α × S} :
    wp (.alone answers) Q (perform name f) s ↔ Q (f s).1 (f s).2 := by
  simp [wp_perform, Setting.alone]

variable {r : Ref S T}

@[simp] lemma wp_alone_read {f : T → α} :
    wp (.alone answers) Q (r.read name f) s ↔ Q (.ok (f (r.get s))) s :=
  wp_alone_perform

@[simp] lemma wp_alone_ref_perform {f : T → Except ε α × T} :
    wp (.alone answers) Q (r.perform name f) s ↔ Q (f (r.get s)).1 (r.set s (f (r.get s)).2) :=
  wp_alone_perform

@[simp] lemma wp_alone_modify {f : T → T} {Q : Except ε Unit → S → Prop} :
    wp (.alone answers) Q (r.modify name f) s ↔ Q (.ok ()) (r.set s (f (r.get s))) :=
  wp_alone_perform

lemma wp_alone_update {f : T → Except ε T} {Q : Except ε Unit → S → Prop}
    (her : ∀ e, f (r.get s) = .error e → Q (.error e) s)
    (hok : ∀ t, f (r.get s) = .ok t → Q (.ok ()) (r.set s t)) :
    wp (.alone answers) Q (r.update name f) s := by
  refine wp_alone_perform.mpr ?_
  cases hf : f (r.get s) with
  | ok t => exact hok t hf
  | error e => exact her e hf

@[simp] lemma wp_alone_request {c : I.Call} {Q : Except ε (I.Answer c) → S → Prop} :
    wp (.alone answers) Q (request c) s ↔ ∀ a s', answers s c a s' → Q (.ok a) s' := by
  simp [wp_request, Setting.alone]

lemma wp_alone_request_bind {c : I.Call} {k : I.Answer c → Async I S ε α} :
    wp (.alone answers) Q (request c >>= k) s ↔
      ∀ a s', answers s c a s' → wp (.alone answers) Q (k a) s' := by
  simp [wp_bind]

lemma alone_stable {P : S → Prop} : (Setting.alone (I := I) answers).Stable P := by
  rintro s _ hs rfl
  exact hs

end

/-- Every call of a program, with what follows its answer, has a property. -/
def Calls (P : (c : I.Call) → (I.Answer c → Async I S ε α) → Prop) : Async I S ε α → Prop
  | done _ => True
  | act _ _ k => ∀ s, (k s).Calls P
  | call c k => P c k ∧ ∀ a, (k a).Calls P

section

variable {P Q : (c : I.Call) → (I.Answer c → Async I S ε α) → Prop} {p : Async I S ε α}

lemma Calls.mono (h : p.Calls P) (hPQ : ∀ c k, P c k → Q c k) : p.Calls Q := by
  induction p with
  | done r => trivial
  | act name g k ih => exact fun s => ih s (h s)
  | call c k ih => exact ⟨hPQ c k h.1, fun a => ih a (h.2 a)⟩

lemma Calls.bind {R : (c : I.Call) → (I.Answer c → Async I S ε β) → Prop}
    {f : α → Async I S ε β} (h : p.Calls P) (hPR : ∀ c k, P c k → R c fun a => k a >>= f)
    (hf : ∀ a, (f a).Calls R) : (p >>= f).Calls R := by
  show (p.bind f).Calls R
  induction p with
  | done r =>
    cases r with
    | ok a => exact hf a
    | error e => trivial
  | act name g k ih => exact fun s => ih s (h s)
  | call c k ih => exact ⟨hPR c k h.1, fun a => ih a (h.2 a)⟩

lemma Calls.attempt {R : (c : I.Call) → (I.Answer c → Async I S ε' (Except ε α)) → Prop}
    (h : p.Calls P) (hPR : ∀ c k, P c k → R c fun a => (k a).attempt) :
    (p.attempt : Async I S ε' (Except ε α)).Calls R := by
  induction p with
  | done r => trivial
  | act name g k ih => exact fun s => ih s (h s)
  | call c k ih => exact ⟨hPR c k h.1, fun a => ih a (h.2 a)⟩

/-- A program whose calls are all outside a set. -/
def Avoids (calls : I.Call → Bool) (p : Async I S ε α) : Prop := p.Calls fun c _ => calls c = false

variable {calls : I.Call → Bool}

lemma Avoids.bind {f : α → Async I S ε β} (h : p.Avoids calls) (hf : ∀ a, (f a).Avoids calls) :
    (p >>= f).Avoids calls :=
  Calls.bind h (fun _ _ hc => hc) hf

lemma Avoids.attempt (h : p.Avoids calls) :
    (p.attempt : Async I S ε' (Except ε α)).Avoids calls :=
  Calls.attempt h fun _ _ hc => hc

lemma avoids_request_bind {c : I.Call} {k : I.Answer c → Async I S ε α} (hc : calls c = false)
    (hk : ∀ a, (k a).Avoids calls) : (request c >>= k).Avoids calls :=
  ⟨hc, hk⟩

lemma avoids_perform {name : I.Action} {f : S → Except ε α × S} :
    (perform name f).Avoids calls := fun _ => trivial

end

/-- A program whose actions and calls are all of a given kind. -/
def Confined (acts : I.Action → (S → S) → Prop) (calls : I.Call → Prop) : Async I S ε α → Prop
  | done _ => True
  | act name g k => acts name g ∧ ∀ s, (k s).Confined acts calls
  | call c k => calls c ∧ ∀ a, (k a).Confined acts calls

section

variable {acts : I.Action → (S → S) → Prop} {calls : I.Call → Prop}

lemma Confined.bind {p : Async I S ε β} {f : β → Async I S ε α} (h : p.Confined acts calls)
    (hf : ∀ b, (f b).Confined acts calls) : (p >>= f).Confined acts calls := by
  show (p.bind f).Confined acts calls
  induction p with
  | done r =>
    cases r with
    | ok b => exact hf b
    | error e => trivial
  | act name g k ih => exact ⟨h.1, fun s => ih s (h.2 s)⟩
  | call c k ih => exact ⟨h.1, fun a => ih a (h.2 a)⟩

lemma confined_lift {r : Except ε α} : (lift r : Async I S ε α).Confined acts calls := trivial

lemma confined_lift_bind {r : Except ε β} {f : β → Async I S ε α}
    (hf : ∀ b, r = .ok b → (f b).Confined acts calls) : (lift r >>= f).Confined acts calls := by
  cases r with
  | ok b => exact hf b rfl
  | error e => trivial

lemma confined_request {c : I.Call} (h : calls c) :
    (request c : Async I S ε (I.Answer c)).Confined acts calls :=
  ⟨h, fun _ => trivial⟩

lemma confined_perform {name : I.Action} {f : S → Except ε α × S}
    (h : acts name fun s => (f s).2) : (perform name f).Confined acts calls :=
  ⟨h, fun _ => trivial⟩

lemma confined_each {f : β → Async I S ε Unit} {l : List β}
    (h : ∀ b ∈ l, (f b).Confined acts calls) : (each f l).Confined acts calls := by
  induction l with
  | nil => trivial
  | cons b rest ih =>
    exact (h b List.mem_cons_self).bind fun _ => ih fun b hb => h b (List.mem_cons_of_mem _ hb)

/-- What the actions and the calls of a program keep, the program keeps. -/
theorem Confined.keeps {E : Setting I S} {K : S → Prop} {p : Async I S ε α} {s : S}
    (h : p.Confined acts calls) (hstb : E.Stable K)
    (hacts : ∀ name g s, acts name g → K s → E.visible s (.act name) ∧ K (g s))
    (hcalls : ∀ c s, calls c → K s →
      E.visible s (.call c) ∧ ∀ a s', E.answers s c a s' → K s') (hs : K s) :
    wp E (fun _ => K) p s := by
  induction p generalizing s with
  | done r => exact hs
  | act name g k ih =>
    intro s' hss'
    obtain ⟨hvis, hK⟩ := hacts name g s' h.1 (hstb s s' hs hss')
    exact ⟨hvis, ih s' (h.2 s') hK⟩
  | call c k ih =>
    intro s' hss'
    obtain ⟨hvis, hK⟩ := hcalls c s' h.1 (hstb s s' hs hss')
    exact ⟨hvis, fun a s'' ha => ih a (h.2 a) (hK a s'' ha)⟩

lemma Confined.wp_alone {answers : S → (c : I.Call) → I.Answer c → S → Prop} {K : S → Prop}
    {p : Async I S ε α} {s : S} (h : p.Confined acts calls)
    (hacts : ∀ name g s, acts name g → K s → K (g s))
    (hcalls : ∀ s c a s', calls c → K s → answers s c a s' → K s') (hs : K s) :
    wp (.alone answers) (fun _ => K) p s :=
  h.keeps alone_stable (fun name g s hg hK => ⟨trivial, hacts name g s hg hK⟩)
    (fun c s hc hK => ⟨trivial, fun a s' ha => hcalls s c a s' hc hK ha⟩) hs

end

section

variable {C : Type}

/-- Run a program alone. Each call takes one choice, by which the world answers. -/
def run (answer : C → S → (c : I.Call) → Option (I.Answer c × S)) :
    Async I S ε α → S → List C → Option (Except ε α × S)
  | done r, s, _ => some (r, s)
  | act _ g k, s, choices => (k s).run answer (g s) choices
  | call _ _, _, [] => none
  | call c k, s, choice :: choices =>
    match answer choice s c with
    | some (a, s') => (k a).run answer s' choices
    | none => none

variable {answer : C → S → (c : I.Call) → Option (I.Answer c × S)}

/-- The answers that some choice gives. -/
def possible (answer : C → S → (c : I.Call) → Option (I.Answer c × S)) (s : S) (c : I.Call)
    (a : I.Answer c) (s' : S) : Prop :=
  ∃ choice, answer choice s c = some (a, s')

lemma wp_run {Q : Except ε α → S → Prop} {p : Async I S ε α} {s s' : S} {r : Except ε α}
    {chs : List C} (h : wp (.alone (possible answer)) Q p s)
    (hrun : p.run answer s chs = some (r, s')) : Q r s' := by
  induction p generalizing s chs with
  | done r' =>
    cases hrun
    exact h
  | act name g k ih => exact ih s (h s rfl).2 hrun
  | call c k ih =>
    cases chs with
    | nil => cases hrun
    | cons ch rest =>
      simp only [run] at hrun
      split at hrun
      · rename_i a s'' ha
        exact ih a ((h s rfl).2 a s'' ⟨ch, ha⟩) hrun
      · cases hrun

/-- A world that answers every call lets every program end. -/
theorem exists_run (htotal : ∀ s c, ∃ ch a s', answer ch s c = some (a, s'))
    (p : Async I S ε α) (s : S) : ∃ chs r s', p.run answer s chs = some (r, s') := by
  induction p generalizing s with
  | done r => exact ⟨[], r, s, rfl⟩
  | act name g k ih => exact ih s (g s)
  | call c k ih =>
    obtain ⟨ch, a, s', ha⟩ := htotal s c
    obtain ⟨chs, r, s'', hrun⟩ := ih a s'
    exact ⟨ch :: chs, r, s'', by simp [run, ha, hrun]⟩

/-- Some run of the program, alone, ends within `Q`. -/
def can (answers : S → (c : I.Call) → I.Answer c → S → Prop) (Q : Except ε α → S → Prop) :
    Async I S ε α → S → Prop
  | done r, s => Q r s
  | act _ g k, s => can answers Q (k s) (g s)
  | call c k, s => ∃ a s', answers s c a s' ∧ can answers Q (k a) s'

lemma exists_run_of_can {Q : Except ε α → S → Prop} {p : Async I S ε α} {s : S}
    (h : can (possible answer) Q p s) : ∃ chs r s', p.run answer s chs = some (r, s') ∧ Q r s' := by
  induction p generalizing s with
  | done r => exact ⟨[], r, s, rfl, h⟩
  | act name g k ih => exact ih s h
  | call c k ih =>
    obtain ⟨a, s', ⟨ch, ha⟩, hk⟩ := h
    obtain ⟨chs, r, s'', hrun, hQ⟩ := ih a hk
    exact ⟨ch :: chs, r, s'', by simp [run, ha, hrun], hQ⟩

section

variable {answers : S → (c : I.Call) → I.Answer c → S → Prop} {Q R : Except ε α → S → Prop} {s : S}

/-- Where every call is answered, what a program guarantees happens in some run. -/
theorem can_of_wp {p : Async I S ε α} (htotal : ∀ s c, ∃ a s', answers s c a s')
    (h : wp (.alone answers) Q p s) : can answers Q p s := by
  induction p generalizing s with
  | done r => exact h
  | act name g k ih => exact ih s (h s rfl).2
  | call c k ih =>
    obtain ⟨a, s', ha⟩ := htotal s c
    exact ⟨a, s', ha, ih a ((h s rfl).2 a s' ha)⟩

/-- A first part that can succeed is followed by the rest. -/
theorem can_bind {P : β → S → Prop} {p : Async I S ε β} {f : β → Async I S ε α}
    (h : can answers (ends P fun _ => False) p s)
    (hf : ∀ b s, P b s → can answers Q (f b) s) : can answers Q (p >>= f) s := by
  show can answers Q (p.bind f) s
  induction p generalizing s with
  | done r =>
    cases r with
    | ok b => exact hf b s h
    | error e => cases h
  | act name g k ih => exact ih s h
  | call c k ih =>
    obtain ⟨a, s', ha, hk⟩ := h
    exact ⟨a, s', ha, ih a hk⟩

/-- A first part that can reach a predicate is followed by a rest that can keep it. -/
theorem can_bind_keep {K : S → Prop} {p : Async I S ε β} {f : β → Async I S ε α}
    (h : can answers (fun _ => K) p s) (hf : ∀ b s, K s → can answers (fun _ => K) (f b) s) :
    can answers (fun _ => K) (p >>= f) s := by
  show can answers (fun _ => K) (p.bind f) s
  induction p generalizing s with
  | done r =>
    cases r with
    | ok b => exact hf b s h
    | error e => exact h
  | act name g k ih => exact ih s h
  | call c k ih =>
    obtain ⟨a, s', ha, hk⟩ := h
    exact ⟨a, s', ha, ih a hk⟩

lemma can_lift_bind {r : Except ε β} {k : β → Async I S ε α} {b : β} (hr : r = .ok b)
    (hk : can answers Q (k b) s) : can answers Q (lift r >>= k) s := by
  subst hr
  exact hk

lemma can_request_bind {c : I.Call} {k : I.Answer c → Async I S ε α} (a : I.Answer c) (s' : S)
    (ha : answers s c a s') (hk : can answers Q (k a) s') : can answers Q (request c >>= k) s :=
  ⟨a, s', ha, hk⟩

end

end

end Async

/-- A host runs one task at a time on shared state. A choice carries what others decide. -/
structure Host (I : Interface) (S ε P C : Type) where
  start : S → Prop
  program : P → Async I S ε Unit
  answer : C → S → (c : I.Call) → Option (I.Answer c × S)
  abandon : C → S → I.Call → Option S
  interfere : C → S → Option S

structure Host.Config (I : Interface) (S ε : Type) where
  state : S
  task : Option (Async I S ε Unit)

inductive Host.Turn (P C : Type) where
  | spawn (program : P)
  | act
  | answer (choice : C)
  | abandon (choice : C)
  | finish
  | interfere (choice : C)

namespace Host

variable {I : Interface} {S ε P C : Type}

def next (host : Host I S ε P C) (cfg : Config I S ε) : Turn P C → Option (Config I S ε)
  | .spawn p =>
    match cfg.task with
    | none => some ⟨cfg.state, some (host.program p)⟩
    | some _ => none
  | .act =>
    match cfg.task with
    | some (.act _ g k) => some ⟨g cfg.state, some (k cfg.state)⟩
    | _ => none
  | .answer choice =>
    match cfg.task with
    | some (.call c k) => (host.answer choice cfg.state c).map fun r => ⟨r.2, some (k r.1)⟩
    | _ => none
  | .abandon choice =>
    match cfg.task with
    | some (.call c _) => (host.abandon choice cfg.state c).map fun s => ⟨s, none⟩
    | _ => none
  | .finish =>
    match cfg.task with
    | some (.done _) => some ⟨cfg.state, none⟩
    | _ => none
  | .interfere choice => (host.interfere choice cfg.state).map fun s => { cfg with state := s }

def machine (host : Host I S ε P C) : Machine (Config I S ε) (Turn P C) where
  start cfg := host.start cfg.state ∧ cfg.task = none
  next := host.next

/-- What holds of every call of every program holds of the calls of a running task. -/
theorem calls_of_reachable {host : Host I S ε P C} {ok : Config I S ε → Turn P C → Prop}
    {R : (c : I.Call) → (I.Answer c → Async I S ε Unit) → Prop}
    (hpro : ∀ p, (host.program p).Calls R) {cfg : Config I S ε}
    (run : host.machine.ReachableIf ok cfg) : ∀ p ∈ cfg.task, p.Calls R := by
  induction run with
  | start h =>
    rw [h.2]
    nofun
  | @step cfg turn cfg' _ _ hn h =>
    obtain ⟨s, task⟩ := cfg
    cases turn with
    | spawn p =>
      cases task with
      | none =>
        cases hn
        rintro _ ⟨⟩
        exact hpro p
      | some _ => cases hn
    | act =>
      match task, h, hn with
      | some (.act name g k), h, hn =>
        cases hn
        rintro _ ⟨⟩
        exact h _ rfl s
    | answer ch =>
      match task, h, hn with
      | some (.call c k), h, hn =>
        obtain ⟨⟨a, s'⟩, _, rfl⟩ := Option.map_eq_some_iff.mp hn
        rintro _ ⟨⟩
        exact (h _ rfl).2 a
    | abandon ch =>
      match task, h, hn with
      | some (.call c k), h, hn =>
        obtain ⟨s', _, rfl⟩ := Option.map_eq_some_iff.mp hn
        nofun
    | finish =>
      match task, h, hn with
      | some (.done r), h, hn =>
        cases hn
        nofun
    | interfere ch =>
      obtain ⟨s', _, rfl⟩ := Option.map_eq_some_iff.mp hn
      exact h

/-- What holds of the rest of a task, or of the state when there is none. -/
def Safe (E : Async.Setting I S) (J : S → Prop) (cfg : Config I S ε) : Prop :=
  match cfg.task with
  | none => J cfg.state
  | some p => Async.wp E (fun _ => J) p cfg.state

/-- What is idle allows every program, interference and abandoned calls lead back to it, and answers
are the expected ones. -/
structure Sound (host : Host I S ε P C) (ok : Config I S ε → Turn P C → Prop)
    (E : Async.Setting I S) (J : S → Prop) : Prop where
  start : ∀ s, host.start s → J s
  refl : ∀ s, E.interferes s s
  trans : ∀ a b c, E.interferes a b → E.interferes b c → E.interferes a c
  stable : ∀ s s', J s → E.interferes s s' → J s'
  spawn : ∀ p s, J s → Async.wp E (fun _ => J) (host.program p) s
  interfere : ∀ cfg choice s', ok cfg (.interfere choice) →
    host.interfere choice cfg.state = some s' → E.interferes cfg.state s'
  answer : ∀ s c k choice a s', ok ⟨s, some (.call c k)⟩ (.answer choice) →
    host.answer choice s c = some (a, s') → E.answers s c a s'
  abandon : ∀ s c k choice s', ok ⟨s, some (.call c k)⟩ (.abandon choice) → E.visible s (.call c) →
    host.abandon choice s c = some s' → J s'

variable {host : Host I S ε P C} {ok : Config I S ε → Turn P C → Prop} {E : Async.Setting I S}
  {J : S → Prop}

section

variable (h : Sound host ok E J)

include h

lemma Sound.next {cfg cfg' : Config I S ε} {turn : Turn P C} (hsa : Safe E J cfg)
    (good : ok cfg turn) (hn : host.next cfg turn = some cfg') : Safe E J cfg' := by
  obtain ⟨s, task⟩ := cfg
  cases turn with
  | spawn p =>
    cases task with
    | none =>
      cases hn
      exact h.spawn p s hsa
    | some _ => cases hn
  | act =>
    match task, hsa, hn with
    | some (.act name g k), hsa, hn =>
      cases hn
      exact (hsa s (h.refl s)).2
  | answer ch =>
    match task, hsa, good, hn with
    | some (.call c k), hsa, good, hn =>
      obtain ⟨⟨a, s'⟩, ha, rfl⟩ := Option.map_eq_some_iff.mp hn
      exact (hsa s (h.refl s)).2 a s' (h.answer s c k ch a s' good ha)
  | abandon ch =>
    match task, hsa, good, hn with
    | some (.call c k), hsa, good, hn =>
      obtain ⟨s', hs', rfl⟩ := Option.map_eq_some_iff.mp hn
      exact h.abandon s c k ch s' good (hsa s (h.refl s)).1 hs'
  | finish =>
    match task, hsa, hn with
    | some (.done r), hsa, hn =>
      cases hn
      exact hsa
  | interfere ch =>
    obtain ⟨s', hs', rfl⟩ := Option.map_eq_some_iff.mp hn
    have hss' := h.interfere ⟨s, task⟩ ch s' good hs'
    cases task with
    | none => exact h.stable s s' hsa hss'
    | some p =>
      exact Async.wp_interferes hsa hss' h.trans fun _ hs => h.stable s s' hs hss'

/-- In every run within the condition, the rest of the task is safe. -/
theorem Sound.safe {cfg : Config I S ε} (run : host.machine.ReachableIf ok cfg) : Safe E J cfg := by
  apply Machine.ReachableIf.invariant _ (fun _ _ _ hs good hn => h.next hs good hn) run
  rintro ⟨s, task⟩ ⟨hs, rfl⟩
  exact h.start s hs

/-- What idle and running tasks show alike holds of every safe state. -/
theorem Sound.shows {V : S → Prop} (hi : ∀ s, J s → V s) (hshn : ∀ s ev, E.visible s ev → V s)
    {cfg : Config I S ε} (hs : Safe E J cfg) : V cfg.state := by
  obtain ⟨s, task⟩ := cfg
  match task, hs with
  | none, hs => exact hi s hs
  | some (.done r), hs => exact hi s hs
  | some (.act name g k), hs => exact hshn s (.act name) (hs s (h.refl s)).1
  | some (.call c k), hs => exact hshn s (.call c) (hs s (h.refl s)).1

/-- It holds in every state of every run within the condition. -/
theorem Sound.always {V : S → Prop} (hi : ∀ s, J s → V s)
    (hshown : ∀ s ev, E.visible s ev → V s) {cfg : Config I S ε}
    (run : host.machine.ReachableIf ok cfg) : V cfg.state :=
  h.shows hi hshown (h.safe run)

/-- What a task shows before an action holds in every run within the condition. -/
theorem Sound.visible_act {s : S} {name : I.Action} {g : S → S} {k : S → Async I S ε Unit}
    (run : host.machine.ReachableIf ok ⟨s, some (.act name g k)⟩) : E.visible s (.act name) :=
  (h.safe run s (h.refl s)).1

/-- What a task shows while it waits holds in every run within the condition. -/
theorem Sound.visible_call {s : S} {c : I.Call} {k : I.Answer c → Async I S ε Unit}
    (run : host.machine.ReachableIf ok ⟨s, some (.call c k)⟩) : E.visible s (.call c) :=
  (h.safe run s (h.refl s)).1

end

end Host

end TeoDB.Lib
