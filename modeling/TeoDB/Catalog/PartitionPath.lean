import TeoDB.Core.Scalar
import TeoDB.Core.Schema
import TeoDB.Storage.ObjectKey

/-!
# Partition directories

A partitioned file lies in a directory named after the fields of its partition and their values.
Names and values are written in the URL encoding of forms.

## Implementation notes

The text of a partition value, with the conversions it passes through, is the catalog
library's and a parameter.
-/

namespace TeoDB.Catalog

open TeoDB.Core Storage

/-- The encoding of one byte. -/
def urlByte (byte : UInt8) : List Char :=
  let c := Char.ofNat byte.toNat
  if c.isAlphanum || ['-', '_', '.', '*'].contains c then [c]
  else if c = ' ' then ['+']
  else escapeByte byte

def urlChar (c : Char) : List Char := (String.utf8EncodeChar c).flatMap urlByte

def icebergUrlEncode (value : String) : List Char := value.toList.flatMap urlChar

section

variable (toHumanString : PartitionTransform → TeoDataType → TeoScalar → TeoDBResult String)
  (schema : SchemaDefinition)

/-- The name and the text of the value of a partition field. -/
def partitionComponent (values : Int → Option TeoScalar) (field : PartitionField) :
    TeoDBResult (String × String) :=
  match schema.byId field.sourceId with
  | none => .error (.invalidArgument "partition_spec"
      s!"partition field '{field.name}' references missing source field {field.sourceId}")
  | some source =>
    match values field.fieldId with
    | none => .error (.invalidArgument "partition_values"
        s!"partition value for field '{field.name}' ({field.fieldId}) is missing")
    | some value =>
      (toHumanString field.transform source.dataType value).map fun human => (field.name, human)

def partitionComponents (spec : PartitionSpec) (values : Int → Option TeoScalar) :
    TeoDBResult (List (String × String)) :=
  spec.fields.mapM (partitionComponent toHumanString schema values)

/-- The directory of one component. -/
def componentDir (component : String × String) : List Char :=
  icebergUrlEncode component.1 ++ '=' :: icebergUrlEncode component.2

def icebergPartitionPath (spec : PartitionSpec) (values : Int → Option TeoScalar) :
    TeoDBResult (List Char) :=
  (partitionComponents toHumanString schema spec values).map fun components =>
    ['/'].intercalate (components.map componentDir)

end

/-- The characters whose encoding has neither an escape nor an asterisk. -/
def urlPlain (c : Char) : Bool := c.isAlphanum || ['-', '_', '.', ' '].contains c

lemma urlChar_ascii {c : Char} (h : c.toNat < 128) :
    urlChar c = urlByte (UInt8.ofNat c.toNat) := by
  have hle : c.toNat ≤ 127 := Nat.le_of_lt_succ h
  simp [urlChar, String.utf8EncodeChar, hle]

lemma ofNat_byte {c : Char} (h : c.toNat < 128) : Char.ofNat (UInt8.ofNat c.toNat).toNat = c := by
  rw [UInt8.toNat_ofNat_of_lt' (by simpa [UInt8.size] using Nat.lt_trans h (by decide))]
  exact Char.ofNat_toNat c

lemma toNat_lt_of_isAlphanum {c : Char} (h : c.isAlphanum = true) : c.toNat < 128 := by
  have hrange := toNat_of_isAlphanum h
  omega

lemma toNat_lt_of_urlPlain {c : Char} (h : urlPlain c = true) : c.toNat < 128 := by
  rcases Bool.or_eq_true _ _ ▸ h with h | h
  · exact toNat_lt_of_isAlphanum h
  · simp only [List.contains_cons, List.contains_nil, Bool.or_false, Bool.or_eq_true,
      beq_iff_eq] at h
    rcases h with rfl | rfl | rfl | rfl <;> decide

/-- The bytes of a character outside of ASCII are not ASCII. -/
theorem utf8EncodeChar_high {c : Char} (h : 128 ≤ c.toNat) :
    ∀ byte ∈ String.utf8EncodeChar c, 128 ≤ byte.toNat := by
  intro byte hb
  change 128 ≤ c.val.toNat at h
  unfold String.utf8EncodeChar at hb
  dsimp only at hb
  split_ifs at hb
  · omega
  all_goals
    simp only [List.mem_cons, List.not_mem_nil, or_false] at hb
    rcases hb with rfl | rfl | rfl | rfl <;> simp <;> omega

lemma urlByte_high {byte : UInt8} (h : 128 ≤ byte.toNat) : urlByte byte = escapeByte byte := by
  have hlt := byte.toNat_lt
  have hvalid : (Char.ofNat byte.toNat).toNat = byte.toNat := by
    rw [Char.toNat_ofNat, if_pos (Or.inl (by omega))]
  have hpl : (Char.ofNat byte.toNat).isAlphanum = false := by
    by_contra hne
    have := toNat_lt_of_isAlphanum (Bool.eq_true_of_not_eq_false hne)
    omega
  have hot : ∀ d : Char, d.toNat < 128 → Char.ofNat byte.toNat ≠ d := by
    rintro d hd rfl
    omega
  unfold urlByte
  simp [hpl, hot]

lemma percent_mem_urlChar_high {c : Char} (h : 128 ≤ c.toNat) : '%' ∈ urlChar c := by
  obtain ⟨byte, rest, hby⟩ := List.exists_cons_of_ne_nil
    (fun hnil => String.utf8EncodeChar_ne_nil hnil : String.utf8EncodeChar c ≠ [])
  have hb := utf8EncodeChar_high h byte (by rw [hby]; exact List.mem_cons_self)
  rw [urlChar, hby, List.flatMap_cons, urlByte_high hb]
  simp [escapeByte]

lemma isPlain_of_urlPlain {c : Char} (h : urlPlain c = true) (hblank : c ≠ ' ') :
    isPlain c = true := by
  simp only [urlPlain, isPlain, List.contains_cons, List.contains_nil, Bool.or_false,
    Bool.or_eq_true, beq_iff_eq] at h ⊢
  tauto

/-- The characters whose encoding is free of reserved characters. -/
theorem reserved_urlChar_iff (rules : PathRules) (c : Char) :
    (∀ x ∈ urlChar c, rules.reserved x = false) ↔ urlPlain c = true := by
  by_cases hasc : c.toNat < 128
  · rw [urlChar_ascii hasc, urlByte, ofNat_byte hasc]
    split_ifs with hk hblank
    · by_cases hast : c = '*'
      · subst hast
        simpa [urlPlain] using rules.asterisk
      · have hpl : urlPlain c = true := by
          simp only [urlPlain, List.contains_cons, List.contains_nil, Bool.or_false,
            Bool.or_eq_true, beq_iff_eq] at hk ⊢
          tauto
        have hne : c ≠ ' ' := by
          rintro rfl
          exact absurd hk (by decide)
        simpa [hpl] using rules.plain c (isPlain_of_urlPlain hpl hne)
    · subst hblank
      simpa [urlPlain] using rules.plain '+' (by decide)
    · constructor
      · intro h
        exact absurd (h '%' (by simp [escapeByte])) (by simp [rules.percent])
      · intro hpl
        simp only [urlPlain, List.contains_cons, List.contains_nil, Bool.or_false,
          Bool.or_eq_true, beq_iff_eq] at hk hpl
        tauto
  · constructor
    · intro h
      exact absurd (h '%' (percent_mem_urlChar_high (by omega))) (by simp [rules.percent])
    · intro hpl
      exact absurd (toNat_lt_of_urlPlain hpl) hasc

/-- A text whose encoding is free of reserved characters. -/
def UrlPlain (text : String) : Prop := ∀ c ∈ text.toList, urlPlain c = true

instance (text : String) : Decidable (UrlPlain text) :=
  List.decidableBAll (fun c => urlPlain c = true) text.toList

lemma reserved_icebergUrlEncode_iff (rules : PathRules) (text : String) :
    (∀ x ∈ icebergUrlEncode text, rules.reserved x = false) ↔ UrlPlain text := by
  constructor
  · intro h c hc
    apply (reserved_urlChar_iff rules c).mp
    exact fun x hx => h x (List.mem_flatMap.mpr ⟨c, hc, hx⟩)
  · intro h x hx
    obtain ⟨c, hc, hx⟩ := List.mem_flatMap.mp hx
    exact (reserved_urlChar_iff rules c).mpr (h c hc) x hx

lemma slash_notMem_icebergUrlEncode (text : String) : '/' ∉ icebergUrlEncode text := by
  intro h
  obtain ⟨c, _, hc⟩ := List.mem_flatMap.mp h
  obtain ⟨byte, _, hb⟩ := List.mem_flatMap.mp hc
  unfold urlByte at hb
  dsimp only at hb
  split_ifs at hb with hk
  · rw [List.mem_singleton] at hb
    rw [← hb] at hk
    exact absurd hk (by decide)
  · exact absurd hb (by decide)
  · obtain heq | hpl := isPlain_of_mem_escapeByte hb
    · exact absurd heq (by decide)
    · exact absurd hpl (by decide)

lemma clean_componentDir_iff (rules : PathRules) (component : String × String) :
    rules.Clean (componentDir component) ↔ UrlPlain component.1 ∧ UrlPlain component.2 := by
  have hslash : '/' ∉ componentDir component := by
    simp [componentDir, slash_notMem_icebergUrlEncode]
  have hequ : '=' ∈ componentDir component := by simp [componentDir]
  have hot (l : List Char) (hl : '=' ∉ l) : componentDir component ≠ l := by
    rintro rfl
    exact hl hequ
  rw [PathRules.clean_of_notMem hslash, ← reserved_icebergUrlEncode_iff rules,
    ← reserved_icebergUrlEncode_iff rules]
  unfold PathRules.CleanSegment
  simp only [hot [] (by decide), hot ['.'] (by decide), hot ['.', '.'] (by decide),
    ne_eq, not_false_eq_true, true_and]
  simp [componentDir, or_imp, forall_and, rules.plain '=' (by decide)]

lemma clean_intercalate_iff (rules : PathRules) {dirs : List (List Char)} (h : dirs ≠ []) :
    rules.Clean (['/'].intercalate dirs) ↔ ∀ dir ∈ dirs, rules.Clean dir := by
  induction dirs with
  | nil => exact absurd rfl h
  | cons dir rest ih =>
    cases rest with
    | nil => simp
    | cons second rest =>
      rw [List.intercalate_cons_cons, List.append_assoc, List.singleton_append,
        PathRules.clean_append, ih (List.cons_ne_nil _ _), List.forall_mem_cons (a := dir)]

end TeoDB.Catalog
