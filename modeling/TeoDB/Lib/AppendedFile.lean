import Mathlib

/-!
# Files that grow at their ends

What is written to a file is safe from a power loss once the file was synced, and the name of the
file once its directory was. Of the bytes behind the synced ones any beginning can be left.

## Implementation notes

The bytes behind a cut are gone from the file, and a power loss may bring them back until the
file is synced again. A file is not written to after a cut.
-/

namespace TeoDB.Lib

/-- A file as a power loss sees it: the bytes, those that were cut off, how many are safe, and
whether the name is. -/
structure AppendedFile (β : Type*) where
  written : List β
  cut : List β
  synced : Nat
  linked : Bool

namespace AppendedFile

variable {β : Type*}

/-- A new file. -/
def create : AppendedFile β := ⟨[], [], 0, false⟩

def append (file : AppendedFile β) (bytes : List β) : AppendedFile β :=
  { file with written := file.written ++ bytes }

def sync (file : AppendedFile β) : AppendedFile β :=
  { file with cut := [], synced := file.written.length }

/-- Cut the file to a length. -/
def truncate (file : AppendedFile β) (length : Nat) : AppendedFile β :=
  { file with
    written := file.written.take length
    cut := file.written.drop length ++ file.cut
    synced := min file.synced length }

/-- Sync the directory of the file. -/
def link (file : AppendedFile β) : AppendedFile β := { file with linked := true }

/-- Whether a power loss can leave so many bytes of the file, or no file. -/
def CanLeave (file : AppendedFile β) : Option Nat → Prop
  | none => file.linked = false
  | some length => file.synced ≤ length

instance (file : AppendedFile β) : (left : Option Nat) → Decidable (file.CanLeave left)
  | none => inferInstanceAs (Decidable (file.linked = false))
  | some length => inferInstanceAs (Decidable (file.synced ≤ length))

/-- The file after a power loss. What is left is on the disk. -/
def left (file : AppendedFile β) : Option Nat → Option (AppendedFile β)
  | none => none
  | some length =>
    let bytes := (file.written ++ file.cut).take length
    some ⟨bytes, [], bytes.length, true⟩

/-- The bytes at the beginning of the file that no power loss takes without the name. -/
structure Keeps (file : AppendedFile β) (bytes : List β) : Prop where
  written : bytes <+: file.written
  synced : bytes.length ≤ file.synced

namespace Keeps

variable {file : AppendedFile β} {bs : List β}

lemma append (h : file.Keeps bs) (more : List β) : (file.append more).Keeps bs :=
  ⟨h.written.trans (List.prefix_append _ _), h.synced⟩

lemma sync (file : AppendedFile β) : file.sync.Keeps file.written :=
  ⟨List.prefix_refl _, le_refl _⟩

lemma truncate (h : file.Keeps bs) {len : Nat} (hlen : bs.length ≤ len) :
    (file.truncate len).Keeps bs :=
  ⟨List.prefix_take_iff.mpr ⟨h.written, hlen⟩, le_min h.synced hlen⟩

lemma link (h : file.Keeps bs) : file.link.Keeps bs := ⟨h.written, h.synced⟩

lemma left (h : file.Keeps bs) {len : Nat} (hl : file.CanLeave (some len))
    {aft : AppendedFile β} (haf : file.left (some len) = some aft) : aft.Keeps bs := by
  cases haf
  have hk : bs <+: (file.written ++ file.cut).take len :=
    List.prefix_take_iff.mpr ⟨h.written.trans (List.prefix_append _ _), h.synced.trans hl⟩
  exact ⟨hk, hk.length_le⟩

end Keeps

end AppendedFile

end TeoDB.Lib
