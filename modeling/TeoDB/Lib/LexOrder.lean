import Mathlib

/-!
# Lexicographic comparison of nullable keys

Values are compared in one of two directions, with absent values before or after all
others. A list of comparisons decides by its first one that tells two elements apart.

Whether a list sorted by one comparison is sorted by another relation is a question about pairs
alone if ties are related in both directions (`pairwise_iff_of_sorted`).
-/

namespace TeoDB.Lib.LexOrder

open Std

variable {α β : Type*}

/-- A comparison in its direction or the other way round. -/
def directed (descending : Bool) (cmp : β → β → Ordering) (a b : β) : Ordering :=
  if descending then cmp b a else cmp a b

/-- A comparison with absent values on one side. -/
def nullable (nullsFirst : Bool) (cmp : β → β → Ordering) : Option β → Option β → Ordering
  | none, none => .eq
  | none, some _ => if nullsFirst then .lt else .gt
  | some _, none => if nullsFirst then .gt else .lt
  | some a, some b => cmp a b

/-- The first of the comparisons that does not tie. -/
def lex : List (α → α → Ordering) → α → α → Ordering
  | [] => fun _ _ => .eq
  | cmp :: rest => compareLex cmp (lex rest)

@[simp] lemma lex_nil (a b : α) : lex [] a b = .eq := rfl

@[simp] lemma lex_cons (cmp : α → α → Ordering) (rest : List (α → α → Ordering)) (a b : α) :
    lex (cmp :: rest) a b = (cmp a b).then (lex rest a b) := rfl

lemma transCmp_comap {cmp : β → β → Ordering} (h : TransCmp cmp) (f : α → β) :
    TransCmp fun a b => cmp (f a) (f b) where
  eq_swap := h.eq_swap
  isLE_trans := h.isLE_trans

lemma transCmp_directed {cmp : β → β → Ordering} (h : TransCmp cmp) (descending : Bool) :
    TransCmp (directed descending cmp) := by
  cases descending with
  | false => exact h
  | true =>
    exact { eq_swap := h.eq_swap, isLE_trans := fun hab hbc => h.isLE_trans hbc hab }

lemma transCmp_nullable {cmp : β → β → Ordering} (h : TransCmp cmp) (nullsFirst : Bool) :
    TransCmp (nullable nullsFirst cmp) where
  eq_swap {a b} := by
    cases a <;> cases b <;> cases nullsFirst <;> simp [nullable, ← h.eq_swap]
  isLE_trans {a b c} hab hbc := by
    cases a <;> cases b <;> cases c <;> cases nullsFirst <;> simp_all [nullable]
    all_goals exact h.isLE_trans hab hbc

lemma transCmp_lex {cmps : List (α → α → Ordering)} (h : ∀ cmp ∈ cmps, TransCmp cmp) :
    TransCmp (lex cmps) := by
  induction cmps with
  | nil => exact { eq_swap := rfl, isLE_trans := fun _ _ => rfl }
  | cons cmp rest ih =>
    have hcmp : TransCmp cmp := h cmp List.mem_cons_self
    have hrest : TransCmp (lex rest) := ih fun c hc => h c (List.mem_cons_of_mem _ hc)
    exact inferInstanceAs (TransCmp (compareLex cmp (lex rest)))

lemma nullable_directed_eq_iff [LinearOrder β] (nullsFirst descending : Bool) (a b : Option β) :
    nullable nullsFirst (directed descending compare) a b = .eq ↔ a = b := by
  have hcom : ∀ x y : β, directed descending compare x y = .eq ↔ x = y := by
    intro x y
    cases descending with
    | false => exact Std.compare_eq_iff_eq
    | true => exact Std.compare_eq_iff_eq.trans eq_comm
  cases a <;> cases b <;> cases nullsFirst <;> simp [nullable, hcom]

lemma lex_eq_iff {cmps : List (α → α → Ordering)} {a b : α} :
    lex cmps a b = .eq ↔ ∀ cmp ∈ cmps, cmp a b = .eq := by
  induction cmps with
  | nil => simp
  | cons cmp rest ih => simp [ih]

/-- A list is sorted by a second relation exactly when the relation holds wherever the comparison
allows that order. -/
theorem pairwise_iff_of_sorted {cmp : α → α → Ordering} [TransCmp cmp] {s : α → α → Prop}
    (htie : ∀ a b, cmp a b = .eq → s a b) {l : List α}
    (hsrt : l.Pairwise fun a b => (cmp a b).isLE) :
    l.Pairwise s ↔ ∀ a ∈ l, ∀ b ∈ l, (cmp a b).isLE → s a b := by
  constructor
  · intro h
    -- Each two elements stand in the list in one of the two orders.
    have hboth : l.Pairwise fun a b => ((cmp a b).isLE ∧ s a b) ∨ ((cmp b a).isLE ∧ s b a) :=
      (hsrt.and h).imp fun hab => .inl hab
    have hsymm : Symm fun a b => ((cmp a b).isLE ∧ s a b) ∨ ((cmp b a).isLE ∧ s b a) :=
      ⟨fun _ _ hab => hab.symm⟩
    have hr : ∀ a ∈ l, ((cmp a a).isLE ∧ s a a) ∨ ((cmp a a).isLE ∧ s a a) := by
      intro a _
      exact .inl ⟨ReflCmp.isLE_rfl, htie a a ReflCmp.compare_self⟩
    intro a ha b hb hab
    rcases hboth.forall_of_forall hr ha hb with ⟨_, hs⟩ | ⟨hba, _⟩
    · exact hs
    · exact htie a b (OrientedCmp.isLE_antisymm hab hba)
  · intro h
    exact hsrt.imp_of_mem fun ha hb hab => h _ ha _ hb hab

end TeoDB.Lib.LexOrder
