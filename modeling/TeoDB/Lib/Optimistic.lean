import Mathlib

/-!
# Optimistic updates of a versioned value

A client reads a value, prepares an update and asks for it to be applied only if
the value still has the version that was read. When every update draws a version
that the value has never issued, an old version does not come back: the value
that carries the version read is the value read.
-/

namespace TeoDB.Lib

/-- How values name their current version and the versions issued so far. -/
structure Versioning (V κ : Type*) where
  version : V → Option κ
  issued : V → Set κ

namespace Versioning

variable {V κ : Type*} (versioning : Versioning V κ)

/-- The current version is one of those issued. -/
def Sound (v : V) : Prop := ∀ k, versioning.version v = some k → k ∈ versioning.issued v

/-- `next` replaces `now` under a version that `now` has not issued. -/
structure Follows (now next : V) : Prop where
  issued_subset : versioning.issued now ⊆ versioning.issued next
  fresh : ∃ k ∈ versioning.issued next,
    k ∉ versioning.issued now ∧ versioning.version next = some k

/-- `old` is still the value, or the value has left its version. -/
def Behind (old now : V) : Prop :=
  old = now ∨
    versioning.version old ≠ versioning.version now ∧ versioning.issued old ⊆ versioning.issued now

variable {versioning}

lemma Follows.sound {now next : V} (h : versioning.Follows now next) : versioning.Sound next := by
  obtain ⟨k, hk, _, hver⟩ := h.fresh
  intro j hj
  have hkj : k = j := Option.some.inj (hver.symm.trans hj)
  exact hkj ▸ hk

lemma Behind.refl (v : V) : versioning.Behind v v := Or.inl rfl

/-- What was read stays behind when the value moves on. -/
theorem Behind.follows {old now next : V} (h : versioning.Behind old now)
    (hold : versioning.Sound old) (hn : versioning.Follows now next) :
    versioning.Behind old next := by
  have hsub : versioning.issued old ⊆ versioning.issued now := by
    obtain rfl | ⟨_, hsub⟩ := h
    · exact subset_refl _
    · exact hsub
  obtain ⟨k, _, hfr, hver⟩ := hn.fresh
  refine Or.inr ⟨?_, hsub.trans hn.issued_subset⟩
  intro heq
  apply hfr
  apply hsub
  exact hold k (heq.trans hver)

/-- An update whose version check succeeds meets the value it was prepared for. -/
theorem Behind.eq_of_version {old now : V} (h : versioning.Behind old now)
    (hver : versioning.version old = versioning.version now) : old = now := by
  obtain heq | ⟨hne, _⟩ := h
  · exact heq
  · exact absurd hver hne

end Versioning

/-- In linked updates, a value that is taken away and found later was restored in between. -/
theorem exists_restoring {α β : Type*} {bef aft : α → β} {log : List α}
    (hlin : log.IsChain fun a b => aft a = bef b) {v : β} {i j : Nat} {a b : α}
    (hi : log[i]? = some a) (hj : log[j]? = some b) (hij : i < j) (ha : aft a ≠ v)
    (hb : bef b = v) : ∃ k c, i < k ∧ k < j ∧ log[k]? = some c ∧ bef c ≠ v ∧ aft c = v := by
  obtain ⟨n, rfl⟩ : ∃ n, j = i + 1 + n := ⟨j - (i + 1), by omega⟩
  induction n generalizing i a with
  | zero =>
    obtain ⟨hlt, rfl⟩ := List.getElem?_eq_some_iff.mp hi
    obtain ⟨hlt', rfl⟩ := List.getElem?_eq_some_iff.mp hj
    exact absurd ((List.isChain_iff_getElem.mp hlin i hlt').trans hb) ha
  | succ n ih =>
    obtain ⟨hlt, rfl⟩ := List.getElem?_eq_some_iff.mp hi
    have hlt' : i + 1 < log.length := by
      have := (List.getElem?_eq_some_iff.mp hj).1
      omega
    have hl : aft log[i] = bef log[i + 1] := List.isChain_iff_getElem.mp hlin i hlt'
    by_cases haf : aft log[i + 1] = v
    · exact ⟨i + 1, log[i + 1], by omega, by omega, List.getElem?_eq_getElem hlt', hl ▸ ha, haf⟩
    · have hj' : log[i + 1 + 1 + n]? = some b := by
        rw [← hj]
        congr 1
        omega
      obtain ⟨k, c, hik, hkj, hc, hbf, hres⟩ :=
        ih (List.getElem?_eq_getElem hlt') haf hj' (by omega)
      exact ⟨k, c, by omega, by omega, hc, hbf, hres⟩

end TeoDB.Lib
