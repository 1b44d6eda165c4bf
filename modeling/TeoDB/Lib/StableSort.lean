import Mathlib

/-!
# Sorting along a map

Insertion sort only compares an element with later ones. A map therefore commutes with sorting as
soon as both orders agree on each element and those behind it.
-/

namespace TeoDB.Lib.StableSort

variable {β γ : Type*} {r : β → β → Prop} {s : γ → γ → Prop} [DecidableRel r] [DecidableRel s]

lemma map_orderedInsert {f : β → γ} {a : β} {l : List β} (h : ∀ b ∈ l, r a b ↔ s (f a) (f b)) :
    (l.orderedInsert r a).map f = (l.map f).orderedInsert s (f a) := by
  induction l with
  | nil => simp
  | cons b rest ih =>
    simp only [List.orderedInsert_cons, List.map_cons, ← h b List.mem_cons_self]
    split_ifs with hab
    · rfl
    · rw [List.map_cons, ih fun c hc => h c (List.mem_cons_of_mem _ hc)]

lemma map_insertionSort {f : β → γ} {l : List β}
    (h : l.Pairwise fun a b => r a b ↔ s (f a) (f b)) :
    (l.insertionSort r).map f = (l.map f).insertionSort s := by
  induction l with
  | nil => rfl
  | cons a rest ih =>
    obtain ⟨ha, hr⟩ := List.pairwise_cons.mp h
    have hlater : ∀ b ∈ rest.insertionSort r, r a b ↔ s (f a) (f b) :=
      fun b hb => ha b ((List.mem_insertionSort r).mp hb)
    rw [List.insertionSort_cons, map_orderedInsert hlater, ih hr, List.map_cons,
      List.insertionSort_cons]

/-- Lists that correspond element by element still do after sorting by orders
that correspond. -/
theorem forall₂_insertionSort {R : β → γ → Prop} {l : List β} {m : List γ} (h : List.Forall₂ R l m)
    (hr : ∀ a b c d, R a c → R b d → (r a b ↔ s c d)) :
    List.Forall₂ R (l.insertionSort r) (m.insertionSort s) := by
  have hz : ∀ p ∈ l.zip m, R p.1 p.2 := fun p hp => List.forall₂_zip h hp
  have hfst : (l.zip m).map Prod.fst = l := List.map_fst_zip h.length_eq.le
  have hsnd : (l.zip m).map Prod.snd = m := List.map_snd_zip h.length_eq.ge
  have hl : ((l.zip m).insertionSort fun p q => r p.1 q.1).map Prod.fst = l.insertionSort r := by
    conv_rhs => rw [← hfst]
    apply map_insertionSort
    exact List.pairwise_of_forall fun _ _ => Iff.rfl
  have hm : ((l.zip m).insertionSort fun p q => r p.1 q.1).map Prod.snd = m.insertionSort s := by
    conv_rhs => rw [← hsnd]
    apply map_insertionSort
    apply List.pairwise_iff_forall_sublist.mpr
    intro p q hpq
    have hp := hz p (hpq.subset (by simp))
    have hq := hz q (hpq.subset (by simp))
    exact hr _ _ _ _ hp hq
  rw [← hl, ← hm, List.forall₂_map_left_iff, List.forall₂_map_right_iff, List.forall₂_same]
  intro p hp
  exact hz p ((List.mem_insertionSort _).mp hp)

/-- The `k` greatest elements of a list by a key, with ties broken in some way. -/
structure Top (k : Nat) (key : β → Int) (l top : List β) : Prop where
  length : top.length = min k l.length
  split : ∃ rest, l.Perm (top ++ rest) ∧ ∀ a ∈ top, ∀ b ∈ rest, key b ≤ key a

/-- The first elements of the list sorted from the greatest key on. -/
theorem top_take_insertionSort (k : Nat) (key : β → Int) (l : List β) :
    Top k key l ((l.insertionSort fun a b => key b ≤ key a).take k) := by
  have hsrt : (l.insertionSort fun a b => key b ≤ key a).Pairwise fun a b => key b ≤ key a := by
    have htotal : Std.Total (α := β) fun a b => key b ≤ key a := ⟨fun a b => le_total _ _⟩
    have htrans : IsTrans β fun a b => key b ≤ key a := ⟨fun a b c hab hbc => hbc.trans hab⟩
    exact List.pairwise_insertionSort _ l
  refine ⟨by simp, (l.insertionSort fun a b => key b ≤ key a).drop k, ?_, ?_⟩
  · rw [List.take_append_drop]
    exact (List.perm_insertionSort _ l).symm
  · rw [← List.take_append_drop k (l.insertionSort fun a b => key b ≤ key a),
      List.pairwise_append] at hsrt
    exact hsrt.2.2

end TeoDB.Lib.StableSort
