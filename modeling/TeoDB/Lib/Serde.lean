import TeoDB.Lib.Ieee
import TeoDB.Lib.OrdMap

/-!
# Serializing values as JSON and reading them back

A `Serde` of a type writes its values and reads them, and says which values are read back as they
were written. The combinators follow the derived implementations of the usual serialization
library.

Floating-point numbers that are not finite are written as `null`, and `null` is not read
as a number. What is read back of a finite one is up to the number formatting, which is
a parameter.

## Implementation notes

In JSON an integer is its number and a number with a fraction its text.
-/

namespace TeoDB.Lib

inductive Json where
  | null
  | bool (b : Bool)
  | int (n : Int)
  | float (text : String)
  | str (text : String)
  | arr (items : List Json)
  | obj (members : List (String × Json))

/-- How a type is written and read. `absent` is the value of a field that is left out, `Fits` are
the values that are read back. -/
structure Serde (α : Type) where
  ser : α → Json
  de : Json → Except String α
  absent : Option α := none
  Fits : α → Prop
  de_ser_iff : ∀ a, de (ser a) = .ok a ↔ Fits a

lemma map_eq_ok_iff {α β ε : Type} {f : α → β} (hf : Function.Injective f)
    {res : Except ε α} {a : α} : res.map f = .ok (f a) ↔ res = .ok a := by
  cases res with
  | error e => simp [Except.map]
  | ok b => simp [Except.map, hf.eq_iff]

lemma bind_eq_ok_iff {α β ε : Type} {res : Except ε α} {f : α → Except ε β} {b : β} :
    (res >>= f) = .ok b ↔ ∃ a, res = .ok a ∧ f a = .ok b := by
  cases res with
  | error e => simp [bind, Except.bind]
  | ok a => simp [bind, Except.bind]

lemma mapError_eq_ok_iff {α ε ε' : Type} {f : ε → ε'} {res : Except ε α} {a : α} :
    res.mapError f = .ok a ↔ res = .ok a := by
  cases res <;> simp [Except.mapError]

/-- What reading a list item by item gives. -/
theorem mem_of_mapM_eq_ok {α β ε : Type} {f : α → Except ε β} {l : List α} {read : List β}
    (h : l.mapM f = .ok read) :
    (∀ a ∈ l, ∃ b, f a = .ok b) ∧ ∀ b, b ∈ read ↔ ∃ a ∈ l, f a = .ok b := by
  induction l generalizing read with
  | nil =>
    cases h
    simp
  | cons a rest ih =>
    rw [List.mapM_cons] at h
    obtain ⟨b, hb, h⟩ := bind_eq_ok_iff.mp h
    obtain ⟨others, hots, h⟩ := bind_eq_ok_iff.mp h
    cases h
    obtain ⟨hall, hmem⟩ := ih hots
    refine ⟨List.forall_mem_cons.mpr ⟨⟨b, hb⟩, hall⟩, fun c => ?_⟩
    rw [List.mem_cons, hmem]
    simp [hb, eq_comm]

lemma exists_mapM_eq_ok {α β ε : Type} {f : α → Except ε β} {l : List α}
    (h : ∀ a ∈ l, ∃ b, f a = .ok b) : ∃ read, l.mapM f = .ok read := by
  induction l with
  | nil => exact ⟨[], rfl⟩
  | cons a rest ih =>
    obtain ⟨⟨b, hb⟩, hr⟩ := List.forall_mem_cons.mp h
    obtain ⟨os, hots⟩ := ih hr
    exact ⟨b :: os, by rw [List.mapM_cons, hb, hots]; rfl⟩

namespace Serde

variable {α β : Type}

def bool : Serde Bool where
  ser := .bool
  de
    | .bool b => .ok b
    | _ => .error "expected a boolean"
  Fits _ := True
  de_ser_iff _ := by simp

def string : Serde String where
  ser := .str
  de
    | .str text => .ok text
    | _ => .error "expected a string"
  Fits _ := True
  de_ser_iff _ := by simp

/-- Integers between two bounds. -/
def intIn (lo hi : Int) : Serde Int where
  ser := .int
  de
    | .int n => if lo ≤ n ∧ n ≤ hi then .ok n else .error "number out of range"
    | _ => .error "expected an integer"
  Fits n := lo ≤ n ∧ n ≤ hi
  de_ser_iff n := by
    dsimp only
    split_ifs with h <;> simp [h]

/-- A type that is another one under a different name. -/
def equiv (s : Serde α) (e : β ≃ α) : Serde β where
  ser b := s.ser (e b)
  de json := (s.de json).map e.symm
  absent := s.absent.map e.symm
  Fits b := s.Fits (e b)
  de_ser_iff b := by
    have hmap : (s.de (s.ser (e b))).map e.symm = .ok (e.symm (e b)) ↔
        s.de (s.ser (e b)) = .ok (e b) := map_eq_ok_iff e.symm.injective
    rwa [e.symm_apply_apply, s.de_ser_iff] at hmap

/-- A type of machine numbers, all of which are read back. -/
def machine (toInt : α → Int) (ofInt : Int → α) (lo hi : Int)
    (range : ∀ a, lo ≤ toInt a ∧ toInt a ≤ hi) (left : ∀ a, ofInt (toInt a) = a) : Serde α where
  ser a := .int (toInt a)
  de json := ((intIn lo hi).de json).map ofInt
  Fits _ := True
  de_ser_iff a := by simp [intIn, range a, Except.map, left]

def int8 : Serde Int8 :=
  machine Int8.toInt Int8.ofInt (-2 ^ 7) (2 ^ 7 - 1)
    (fun a => ⟨a.le_toInt, Int.le_sub_one_of_lt a.toInt_lt⟩) Int8.ofInt_toInt

def int16 : Serde Int16 :=
  machine Int16.toInt Int16.ofInt (-2 ^ 15) (2 ^ 15 - 1)
    (fun a => ⟨a.le_toInt, Int.le_sub_one_of_lt a.toInt_lt⟩) Int16.ofInt_toInt

def int32 : Serde Int32 :=
  machine Int32.toInt Int32.ofInt (-2 ^ 31) (2 ^ 31 - 1)
    (fun a => ⟨a.le_toInt, Int.le_sub_one_of_lt a.toInt_lt⟩) Int32.ofInt_toInt

def int64 : Serde Int64 :=
  machine Int64.toInt Int64.ofInt (-2 ^ 63) (2 ^ 63 - 1)
    (fun a => ⟨a.le_toInt, Int.le_sub_one_of_lt a.toInt_lt⟩) Int64.ofInt_toInt

/-- Signed numbers of any width, by their bits. -/
def signed (w : Nat) : Serde (BitVec w) :=
  machine BitVec.toInt (BitVec.ofInt w) (-2 ^ (w - 1)) (2 ^ (w - 1) - 1)
    (fun a => ⟨a.le_toInt, BitVec.toInt_le⟩) fun _ => BitVec.ofInt_toInt

def uint8 : Serde UInt8 :=
  machine (fun a => a.toNat) (fun n => UInt8.ofNat n.toNat) 0 (2 ^ 8 - 1)
    (fun a => ⟨Int.natCast_nonneg _, by have := a.toNat_lt; omega⟩) (by simp)

def uint16 : Serde UInt16 :=
  machine (fun a => a.toNat) (fun n => UInt16.ofNat n.toNat) 0 (2 ^ 16 - 1)
    (fun a => ⟨Int.natCast_nonneg _, by have := a.toNat_lt; omega⟩) (by simp)

def uint32 : Serde UInt32 :=
  machine (fun a => a.toNat) (fun n => UInt32.ofNat n.toNat) 0 (2 ^ 32 - 1)
    (fun a => ⟨Int.natCast_nonneg _, by have := a.toNat_lt; omega⟩) (by simp)

def uint64 : Serde UInt64 :=
  machine (fun a => a.toNat) (fun n => UInt64.ofNat n.toNat) 0 (2 ^ 64 - 1)
    (fun a => ⟨Int.natCast_nonneg _, by have := a.toNat_lt; omega⟩) (by simp)

/-- Natural numbers up to a bound. -/
def natTo (hi : Nat) : Serde Nat where
  ser n := .int n
  de json := ((intIn 0 hi).de json).map Int.toNat
  Fits n := n ≤ hi
  de_ser_iff n := by
    by_cases h : n ≤ hi <;> simp [intIn, Except.map, h]

end Serde

/-- How floating-point numbers are printed and read. -/
structure FloatTexts (format : FloatFormat) where
  print : FloatBits format → String
  read : String → Option (FloatBits format)
  ofInt : Int → FloatBits format

namespace FloatTexts

variable {format : FloatFormat} (texts : FloatTexts format)

/-- A finite number that is read back from its text. -/
def Kept (x : FloatBits format) : Prop :=
  x.isFinite = true ∧ texts.read (texts.print x) = some x

instance (x : FloatBits format) : Decidable (texts.Kept x) := inferInstanceAs (Decidable (_ ∧ _))

def serde : Serde (FloatBits format) where
  ser x := if x.isFinite then .float (texts.print x) else .null
  de
    | .float text =>
      match texts.read text with
      | some x => .ok x
      | none => .error "invalid number"
    | .int n => .ok (texts.ofInt n)
    | _ => .error "expected a number"
  Fits := texts.Kept
  de_ser_iff x := by
    unfold Kept
    cases hfinite : x.isFinite with
    | false => simp
    | true => cases hread : texts.read (texts.print x) <;> simp [hread]

end FloatTexts

namespace Serde

variable {α β : Type}

/-- An option of a type whose values are not written as `null`. -/
def option (s : Serde α) (h : ∀ a, s.ser a ≠ .null) : Serde (Option α) where
  ser
    | none => .null
    | some a => s.ser a
  de
    | .null => .ok none
    | json => (s.de json).map some
  absent := some none
  Fits o := ∀ a ∈ o, s.Fits a
  de_ser_iff o := by
    cases o with
    | none => simp
    | some a =>
      have hread : (match s.ser a with
          | .null => .ok none
          | json => (s.de json).map some) = (s.de (s.ser a)).map some := by
        cases hjson : s.ser a with
        | null => exact absurd hjson (h a)
        | _ => rfl
      simp only [hread, map_eq_ok_iff (Option.some_injective α), s.de_ser_iff,
        Option.mem_some_iff, forall_eq']

lemma mapM_ser_iff {γ : Type} (write : α → γ) (read : γ → Except String α) (Fits : α → Prop)
    (h : ∀ a, read (write a) = .ok a ↔ Fits a) (l : List α) :
    (l.map write).mapM read = .ok l ↔ ∀ a ∈ l, Fits a := by
  induction l with
  | nil => simp [pure, Except.pure]
  | cons a rest ih =>
    rw [List.map_cons, List.mapM_cons, List.forall_mem_cons, ← h, ← ih, bind_eq_ok_iff]
    simp [bind_eq_ok_iff, pure, Except.pure, and_comm]

def list (s : Serde α) : Serde (List α) where
  ser l := .arr (l.map s.ser)
  de
    | .arr items => items.mapM s.de
    | _ => .error "expected a sequence"
  Fits l := ∀ a ∈ l, s.Fits a
  de_ser_iff := mapM_ser_iff s.ser s.de s.Fits s.de_ser_iff

/-- How the keys of a map are written as member names. -/
structure KeyText (κ : Type) where
  print : κ → String
  read : String → Option κ
  read_print : ∀ k, read (print k) = some k

namespace KeyText

def printInt (n : Int) : List Char :=
  if n < 0 then '-' :: Nat.toDigits 10 n.natAbs else Nat.toDigits 10 n.natAbs

def readNat (digits : List Char) : Option Nat :=
  if digits ≠ [] ∧ digits.all Char.isDigit then some (Nat.ofDigitChars 10 digits 0) else none

def readInt : List Char → Option Int
  | '-' :: digits => (readNat digits).map fun (n : Nat) => -(n : Int)
  | digits => (readNat digits).map fun (n : Nat) => (n : Int)

lemma readNat_toDigits (n : Nat) : readNat (Nat.toDigits 10 n) = some n := by
  have hdg : (Nat.toDigits 10 n).all Char.isDigit = true := by
    rw [List.all_eq_true]
    exact fun c hc => Nat.isDigit_of_mem_toDigits (by decide) (by decide) hc
  rw [readNat, if_pos ⟨by simp, hdg⟩, Nat.ofDigitChars_toDigits (by decide) (by decide)]

lemma readInt_toDigits (n : Nat) : readInt (Nat.toDigits 10 n) = some (n : Int) := by
  have hr := readNat_toDigits n
  unfold readInt
  split
  · rename_i digits hdg
    have hminus : Char.isDigit '-' = true := by
      apply Nat.isDigit_of_mem_toDigits (b := 10) (n := n) (by decide) (by decide)
      rw [hdg]
      exact List.mem_cons_self
    exact absurd hminus (by decide)
  · rw [hr]
    rfl

lemma readInt_printInt (n : Int) : readInt (printInt n) = some n := by
  unfold printInt
  split_ifs with h
  · have habs : -(n.natAbs : Int) = n := by omega
    rw [readInt, readNat_toDigits, Option.map_some, habs]
  · have habs : (n.natAbs : Int) = n := by omega
    rw [readInt_toDigits, habs]

/-- Machine numbers by their decimal text. -/
def machine {κ : Type} (toInt : κ → Int) (ofInt : Int → κ) (left : ∀ k, ofInt (toInt k) = k) :
    KeyText κ where
  print k := String.ofList (printInt (toInt k))
  read text := (readInt text.toList).map ofInt
  read_print k := by simp [readInt_printInt, left]

end KeyText

section

variable {κ : Type}

def readMember (keys : KeyText κ) (s : Serde α) (member : String × Json) : Except String (κ × α) :=
  match keys.read member.1 with
  | none => .error "invalid key"
  | some k => (s.de member.2).map fun a => (k, a)

lemma readMember_eq_ok_iff {keys : KeyText κ} {s : Serde α} {k : κ} {json : Json} {e : κ × α} :
    readMember keys s (keys.print k, json) = .ok e ↔ e.1 = k ∧ s.de json = .ok e.2 := by
  obtain ⟨k', a⟩ := e
  rw [readMember, keys.read_print]
  cases s.de json with
  | error error => simp [Except.map]
  | ok b => simp [Except.map, eq_comm]

/-- The keys are read in the order in which they were written. -/
theorem keys_of_mapM {keys : KeyText κ} {s : Serde α} {l read : List (κ × α)}
    (h : (l.map fun e => (keys.print e.1, s.ser e.2)).mapM (readMember keys s) = .ok read) :
    read.map Prod.fst = l.map Prod.fst := by
  induction l generalizing read with
  | nil =>
    cases h
    rfl
  | cons e rest ih =>
    rw [List.map_cons, List.mapM_cons, bind_eq_ok_iff] at h
    obtain ⟨first, hfirst, h⟩ := h
    obtain ⟨others, hots, h⟩ := bind_eq_ok_iff.mp h
    cases h
    rw [List.map_cons, List.map_cons, ih hots, (readMember_eq_ok_iff.mp hfirst).1]

variable [LinearOrder κ]

/-- Sorted entries are what a map made of them has. -/
theorem insertAll_eq_iff {m : OrdMap κ α} {l : List (κ × α)}
    (h : l.map Prod.fst = m.entries.map Prod.fst) :
    OrdMap.empty.insertAll l = m ↔ l = m.entries := by
  have hsrt : l.Pairwise fun a b => a.1 < b.1 := by
    have hk := List.pairwise_map.mpr m.sorted
    rw [← h] at hk
    exact List.pairwise_map.mp hk
  rw [OrdMap.insertAll_entries ⟨l, hsrt⟩]
  obtain ⟨es, hentries⟩ := m
  simp

def map (keys : KeyText κ) (s : Serde α) : Serde (OrdMap κ α) where
  ser m := .obj (m.entries.map fun e => (keys.print e.1, s.ser e.2))
  de
    | .obj members => (members.mapM (readMember keys s)).map OrdMap.empty.insertAll
    | _ => .error "expected a map"
  Fits m := ∀ a ∈ m.values, s.Fits a
  de_ser_iff m := by
    have hmembers := mapM_ser_iff (fun e : κ × α => (keys.print e.1, s.ser e.2)) (readMember keys s)
      (fun e => s.Fits e.2)
      (fun e => by simp [readMember_eq_ok_iff, s.de_ser_iff]) m.entries
    have hvalues : (∀ a ∈ m.values, s.Fits a) ↔ ∀ e ∈ m.entries, s.Fits e.2 := List.forall_mem_map
    rw [hvalues, ← hmembers]
    dsimp only
    generalize hread : (m.entries.map fun e => (keys.print e.1, s.ser e.2)).mapM
      (readMember keys s) = read
    cases read with
    | error error => simp [Except.map]
    | ok l =>
      simp only [Except.map, Except.ok.injEq]
      exact insertAll_eq_iff (keys_of_mapM hread)

end

/-- The fields of a record as the members of an object. -/
structure Fields (ρ : Type) where
  names : List String
  put : ρ → List (String × Json)
  get : List (String × Json) → Except String ρ
  Fits : ρ → Prop
  names_put : ∀ r, (put r).map Prod.fst = names
  get_iff : names.Nodup → ∀ r members,
    (∀ name ∈ names, members.lookup name = (put r).lookup name) → (get members = .ok r ↔ Fits r)

/-- Read one field of a record. -/
def readField (s : Serde α) (name : String) (members : List (String × Json)) : Except String α :=
  match members.lookup name with
  | some json => s.de json
  | none =>
    match s.absent with
    | some a => .ok a
    | none => .error s!"missing field {name}"

namespace Fields

def nil : Fields Unit where
  names := []
  put _ := []
  get _ := .ok ()
  Fits _ := True
  names_put _ := rfl
  get_iff _ _ _ _ := by simp

/-- One more field before the others. -/
def cons {ρ : Type} (name : String) (s : Serde α) (rest : Fields ρ) : Fields (α × ρ) where
  names := name :: rest.names
  put r := (name, s.ser r.1) :: rest.put r.2
  get members := do
    let a ← readField s name members
    let r ← rest.get members
    pure (a, r)
  Fits r := s.Fits r.1 ∧ rest.Fits r.2
  names_put r := by simp [rest.names_put]
  get_iff hnodup r members hmembers := by
    obtain ⟨hnot, hnodup⟩ := List.nodup_cons.mp hnodup
    have hname : readField s name members = s.de (s.ser r.1) := by
      simp [readField, hmembers name List.mem_cons_self]
    have hrest := rest.get_iff hnodup r.2 members fun other hother => by
      have hne : other ≠ name := by
        rintro rfl
        exact hnot hother
      rw [hmembers other (List.mem_cons_of_mem _ hother), List.lookup_cons, beq_false_of_ne hne]
    rw [hname, ← s.de_ser_iff, ← hrest, bind_eq_ok_iff]
    simp only [bind_eq_ok_iff, pure, Except.pure, Except.ok.injEq]
    constructor
    · rintro ⟨a, ha, b, hb, rfl⟩
      exact ⟨ha, hb⟩
    · rintro ⟨ha, hb⟩
      exact ⟨r.1, ha, r.2, hb, rfl⟩

@[simp] lemma names_nil : nil.names = [] := rfl

@[simp] lemma names_cons {ρ : Type} (name : String) (s : Serde α) (rest : Fields ρ) :
    (cons name s rest).names = name :: rest.names := rfl

end Fields

/-- Read the fields from an object. A strict record refuses members that are no fields. -/
def readRecord {ρ : Type} (fields : Fields ρ) (strict : Bool) : Json → Except String ρ
  | .obj members =>
    if fields.names.any fun name => 1 < (members.map Prod.fst).count name then
      .error "duplicate field"
    else if strict && members.any fun member => !fields.names.contains member.1 then
      .error "unknown field"
    else fields.get members
  | _ => .error "expected an object"

/-- The object that a record was written to has each of its fields once and nothing else. -/
theorem readRecord_put {ρ : Type} {fls : Fields ρ} (nodup : fls.names.Nodup) (strict : Bool)
    (r : ρ) : readRecord fls strict (.obj (fls.put r)) = fls.get (fls.put r) := by
  have hdup : (fls.names.any fun name =>
      1 < ((fls.put r).map Prod.fst).count name) = false := by
    rw [fls.names_put, List.any_eq_false]
    intro name _
    simpa using List.nodup_iff_count_le_one.mp nodup name
  have hunk : ((fls.put r).any fun member => !fls.names.contains member.1) = false := by
    rw [List.any_eq_false]
    intro member hmem
    have hn : member.1 ∈ fls.names := by
      rw [← fls.names_put r]
      exact List.mem_map_of_mem hmem
    simpa using hn
  simp only [readRecord, hdup, hunk, Bool.and_false, Bool.false_eq_true, if_false]

def record {ρ : Type} (fields : Fields ρ) (nodup : fields.names.Nodup) (strict : Bool)
    (e : β ≃ ρ) : Serde β where
  ser b := .obj (fields.put (e b))
  de json := (readRecord fields strict json).map e.symm
  Fits b := fields.Fits (e b)
  de_ser_iff b := by
    have hmap : (fields.get (fields.put (e b))).map e.symm = .ok (e.symm (e b)) ↔
        fields.get (fields.put (e b)) = .ok (e b) := map_eq_ok_iff e.symm.injective
    rw [readRecord_put nodup, ← fields.get_iff nodup (e b) (fields.put (e b)) fun _ _ => rfl,
      ← hmap, e.symm_apply_apply]

/-- An enumeration whose variants have no data. -/
def units (name : α → String) (all : List α) (complete : ∀ a, a ∈ all)
    (injective : ∀ a ∈ all, ∀ b ∈ all, name a = name b → a = b) : Serde α where
  ser a := .str (name a)
  de
    | .str text =>
      match all.find? fun a => name a = text with
      | some a => .ok a
      | none => .error "unknown variant"
    | _ => .error "expected a variant"
  Fits _ := True
  de_ser_iff a := by
    cases hfind : all.find? fun b => name b = name a with
    | none => simpa using List.find?_eq_none.mp hfind a (complete a)
    | some b =>
      have hname : name b = name a := by simpa using List.find?_some hfind
      have hb := injective b (List.mem_of_find?_eq_some hfind) a (complete a) hname
      simp [hfind, hb]

/-- Read a variant: a name, or an object with the name and the data. -/
def readVariant (units : List (String × α)) (variants : List (String × (Json → Except String α))) :
    Json → Except String α
  | .str tag =>
    match units.lookup tag with
    | some a => .ok a
    | none => .error "unknown variant"
  | .obj [(tag, json)] =>
    match variants.lookup tag with
    | some read => read json
    | none => .error "unknown variant"
  | _ => .error "expected a variant"

/-- Write a variant with data. -/
def writeVariant (tag : String) (json : Json) : Json := .obj [(tag, json)]

lemma map_de_ser_iff (s : Serde α) (f : α → β) (a : α)
    (hf : Function.Injective f := by intro a b h; cases h; rfl) :
    (s.de (s.ser a)).map f = .ok (f a) ↔ s.Fits a := by
  rw [map_eq_ok_iff hf, s.de_ser_iff]

end Serde

/-- The text of JSON values, compact and with line breaks, and how it is read. -/
structure JsonText where
  Text : Type
  length : Text → Nat
  render : Json → Text
  pretty : Json → Text
  parse : Text → Except String Json
  parse_render : ∀ json, parse (render json) = .ok json
  parse_pretty : ∀ json, parse (pretty json) = .ok json
  length_pretty : ∀ json, 0 < length (pretty json)

/-- Values that stand for their texts. -/
def JsonText.tree : JsonText where
  Text := Json
  length _ := 1
  render := id
  pretty := id
  parse := .ok
  parse_render _ := rfl
  parse_pretty _ := rfl
  length_pretty _ := Nat.one_pos

/-- Floating-point numbers by the decimal text of their bits. -/
def FloatTexts.ofBits (format : FloatFormat) : FloatTexts format where
  print x := String.ofList (Nat.toDigits 10 x.bits.toNat)
  read text := (Serde.KeyText.readNat text.toList).map fun n => ⟨BitVec.ofNat _ n⟩
  ofInt n := ⟨BitVec.ofInt _ n⟩

lemma FloatTexts.kept_ofBits {format : FloatFormat} {x : FloatBits format} :
    (FloatTexts.ofBits format).Kept x ↔ x.isFinite = true := by
  simp [FloatTexts.Kept, FloatTexts.ofBits, Serde.KeyText.readNat_toDigits]

end TeoDB.Lib
