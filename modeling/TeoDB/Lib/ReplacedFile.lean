import Mathlib

/-!
# A file that is replaced by renaming

New contents are written to another file, synced there and renamed over the file. Readers
see the last rename at once. A power loss can undo every rename since the directory was
synced, and which of them it undoes is not known.
-/

namespace TeoDB.Lib

/-- What readers see, what is certain to survive, and the contents that may survive. -/
structure ReplacedFile (γ : Type*) where
  visible : Option γ
  durable : Option γ
  unsynced : List γ

namespace ReplacedFile

variable {γ : Type*}

/-- A file that nothing has happened to yet. -/
def settled (content : Option γ) : ReplacedFile γ := ⟨content, content, []⟩

def rename (file : ReplacedFile γ) (content : γ) : ReplacedFile γ :=
  { file with visible := some content, unsynced := content :: file.unsynced }

/-- Sync the directory. -/
def sync (file : ReplacedFile γ) : ReplacedFile γ := settled file.visible

/-- What a power loss may leave: the contents of the last sync, or those of a later rename. -/
def survivors (file : ReplacedFile γ) : List (Option γ) :=
  file.durable :: file.unsynced.map some

def powerLoss (file : ReplacedFile γ) (survivor : Nat) : Option (ReplacedFile γ) :=
  (file.survivors[survivor]?).map settled

/-- A property of the contents now and of all that may come back. -/
structure All (P : Option γ → Prop) (file : ReplacedFile γ) : Prop where
  visible : P file.visible
  survivors : ∀ content ∈ file.survivors, P content

variable {P : Option γ → Prop}

lemma All.settled {ct : Option γ} (h : P ct) : All P (ReplacedFile.settled ct) := by
  refine ⟨h, ?_⟩
  intro other hot
  rw [List.mem_singleton.mp hot]
  exact h

variable {file : ReplacedFile γ}

lemma All.rename (h : All P file) {ct : γ} (hc : P (some ct)) : All P (file.rename ct) := by
  refine ⟨hc, ?_⟩
  intro o hot
  have hcases : o = file.durable ∨ o = some ct ∨ o ∈ file.unsynced.map some := by
    simpa [ReplacedFile.survivors, ReplacedFile.rename] using hot
  rcases hcases with rfl | rfl | hot
  · exact h.survivors _ List.mem_cons_self
  · exact hc
  · exact h.survivors _ (List.mem_cons_of_mem _ hot)

lemma All.sync (h : All P file) : All P file.sync :=
  All.settled h.visible

lemma All.powerLoss {file left : ReplacedFile γ} (h : All P file) {survivor : Nat}
    (hl : file.powerLoss survivor = some left) : All P left := by
  obtain ⟨ct, hct, rfl⟩ := Option.map_eq_some_iff.mp hl
  exact All.settled (h.survivors ct (List.mem_of_getElem? hct))

lemma All.mono {P Q : Option γ → Prop} (h : All P file) (hPQ : ∀ ct, P ct → Q ct) : All Q file :=
  ⟨hPQ _ h.visible, fun ct hc => hPQ _ (h.survivors ct hc)⟩

end ReplacedFile

end TeoDB.Lib
