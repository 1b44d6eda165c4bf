import TeoDB.Catalog.ScalarConversion

/-!
# Partition transforms of scalars

A transform is applied by the Iceberg library: the scalar becomes a datum, the datum is
transformed, and the result is read with the result type of the transform.

## Implementation notes

It is assumed that the result, read with the result type, is the transform of the value that the
datum holds, that the identity transform keeps every value, and that no other transform has
floating-point results.
-/

namespace TeoDB.Catalog

open TeoDB.Core

/-- A result, or a panic. -/
abbrev Fallible (α : Type) := Option (TeoDBResult α)

namespace Fallible

variable {α β : Type}

def bind (x : Fallible α) (f : α → Fallible β) : Fallible β :=
  match x with
  | none => none
  | some (.error error) => some (.error error)
  | some (.ok a) => f a

lemma bind_eq_ok_iff {x : Fallible α} {f : α → Fallible β} {b : β} :
    bind x f = some (.ok b) ↔ ∃ a, x = some (.ok a) ∧ f a = some (.ok b) := by
  cases x with
  | none => simp [bind]
  | some res =>
    cases res with
    | error e => simp [bind]
    | ok a => simp [bind]

end Fallible

/-- The value of a literal of a type. -/
def literalValue (lib : IcebergScalars) (p : PrimitiveType) (literal : PrimitiveLiteral) :
    Option ScalarValue :=
  match icebergPrimitiveToTeodb lib p with
  | .error _ => none
  | .ok t =>
    match primitiveLiteralToTeoScalar lib literal t with
    | .error _ => none
    | .ok v => denoted v

def ScalarValue.isFloat : ScalarValue → Bool
  | .float32 _ | .float64 _ => true
  | _ => false

/-- The transforms of the Iceberg library. A result type that is not primitive is known by
its rendering. -/
structure IcebergTransforms extends IcebergScalars where
  resultType : PartitionTransform → PrimitiveType → Except String (Except String PrimitiveType)
  createTransformFunction : PartitionTransform →
    Except String (Datum → Except String (Option Datum))
  transformed : PartitionTransform → PrimitiveType → ScalarValue → Option ScalarValue
  transformed_identity : ∀ p x, transformed .identity p x = some x
  isFloat_transformed : ∀ transform p x y, transform ≠ .identity →
    transformed transform p x = some y → y.isFloat = false
  transform_literal : ∀ transform p p' function d x out,
    resultType transform p = .ok (.ok p') → createTransformFunction transform = .ok function →
      literalValue toIcebergScalars p d.literal = some x → function d = .ok out →
        (out.bind fun r => literalValue toIcebergScalars p' r.literal) = transformed transform p x

def applyPartitionTransformToScalar (lib : IcebergTransforms) (value : TeoScalar)
    (dataType : TeoDataType) (transform : PartitionTransform) : Fallible TeoScalar :=
  if value.isNull then some (.ok .null)
  else
    match teodbToIcebergPrimitive dataType with
    | .error error => some (.error error)
    | .ok sourceType =>
      match lib.resultType transform sourceType with
      | .error e => some (.error (.catalog s!"invalid partition transform: {e}"))
      | .ok (.error rendering) => some (.error (.catalog
          s!"partition transform returned non-primitive type: {rendering}"))
      | .ok (.ok resultPrimitive) =>
        match icebergPrimitiveToTeodb lib.toIcebergScalars resultPrimitive with
        | .error error => some (.error error)
        | .ok resultType =>
          Fallible.bind (teoScalarToDatum lib.toIcebergScalars value) fun datum =>
            match lib.createTransformFunction transform with
            | .error e => some (.error (.catalog s!"failed to create partition transform: {e}"))
            | .ok function =>
              match function datum with
              | .error e => some (.error (.catalog s!"failed to apply partition transform: {e}"))
              | .ok (some transformed) =>
                some (datumToTeoScalar lib.toIcebergScalars transformed resultType)
              | .ok none => some (.ok .null)

/-- The transform of a value of a type, where the transform of a null is a null. -/
def transformedAs (lib : IcebergTransforms) (transform : PartitionTransform) (t : TeoDataType)
    (value : Option ScalarValue) : Option ScalarValue :=
  match teodbToIcebergPrimitive t with
  | .error _ => none
  | .ok p => value.bind (lib.transformed transform p)

section

variable {lib : IcebergTransforms} {tf : PartitionTransform} {t : TeoDataType}
  {v s : TeoScalar}

lemma literalValue_of_readsAs {lib : IcebergScalars} {p : PrimitiveType} {d : Datum}
    {val : Option ScalarValue} (hp : teodbToIcebergPrimitive t = .ok p)
    (h : ReadsAs lib t d val) : literalValue lib p d.literal = val := by
  obtain ⟨t', v', ht, hsca, hden⟩ := h
  rw [schemaRoundTrip, hp] at ht
  change icebergPrimitiveToTeodb lib p = .ok t' at ht
  rw [datumToTeoScalar] at hsca
  rw [literalValue, ht]
  simp only [hsca, hden]

lemma apply_eq_ok (hnull : v.isNull = false)
    (h : applyPartitionTransformToScalar lib v t tf = some (.ok s)) :
    ∃ p p' t' d function out, teodbToIcebergPrimitive t = .ok p ∧
      lib.resultType tf p = .ok (.ok p') ∧
      icebergPrimitiveToTeodb lib.toIcebergScalars p' = .ok t' ∧
      teoScalarToDatum lib.toIcebergScalars v = some (.ok d) ∧
      lib.createTransformFunction tf = .ok function ∧ function d = .ok out ∧
      (∀ r, out = some r → datumToTeoScalar lib.toIcebergScalars r t' = .ok s) ∧
      (out = none → s = .null) := by
  rw [applyPartitionTransformToScalar, hnull, if_neg Bool.false_ne_true] at h
  split at h
  · cases h
  · rename_i p hp
    split at h
    · cases h
    · cases h
    · rename_i p' hp'
      split at h
      · cases h
      · rename_i t' ht'
        obtain ⟨d, hd, h⟩ := Fallible.bind_eq_ok_iff.mp h
        split at h
        · cases h
        · rename_i function hfun
          split at h
          · cases h
          · rename_i r hr
            refine ⟨p, p', t', d, function, some r, hp, hp', ht', hd, hfun, hr, ?_, ?_⟩
            · rintro r' heq
              cases heq
              exact Option.some.inj h
            · intro heq
              cases heq
          · rename_i hn
            refine ⟨p, p', t', d, function, none, hp, hp', ht', hd, hfun, hn, ?_, ?_⟩
            · rintro r' heq
              cases heq
            · intro _
              cases h
              rfl

/-- The code's transform is the transform of the value that Iceberg holds. -/
theorem denoted_apply (htype : v = .null ∨ HasType t v)
    (h : applyPartitionTransformToScalar lib v t tf = some (.ok s)) :
    denoted s = transformedAs lib tf t (heldValue v) := by
  rcases htype with rfl | htype
  · cases h
    rw [transformedAs]
    cases teodbToIcebergPrimitive t with
    | error error => rfl
    | ok p => rfl
  · have hnull : v.isNull = false := by
      cases v with
      | null => cases htype.1
      | _ => rfl
    obtain ⟨p, p', t', d, function, out, hp, hp', ht', hd, hfunction, hout, hsome, hnone⟩ :=
      apply_eq_ok hnull h
    obtain ⟨d', hd', hreads⟩ := held_of_hasType htype (accepted_of_datum hd)
    rw [hd, Option.some.injEq, Except.ok.injEq] at hd'
    subst hd'
    have hvalue := literalValue_of_readsAs hp hreads
    obtain ⟨x, hx⟩ : ∃ x, heldValue v = some x := by
      cases v with
      | null => cases htype.1
      | _ => exact ⟨_, rfl⟩
    have hlaw := lib.transform_literal tf p p' function d x out hp' hfunction
      (hvalue.trans hx) hout
    rw [transformedAs, hp, hx]
    simp only [Option.bind_some]
    rw [← hlaw]
    cases out with
    | none =>
      rw [hnone rfl]
      rfl
    | some r =>
      have hread := hsome r rfl
      rw [datumToTeoScalar] at hread
      simp only [Option.bind_some, literalValue, ht', hread]

end

/-- The type of a scalar without the length of fixed binaries. -/
def kind : TeoScalar → Option TeoDataType
  | .fixedSizeBinary _ => some (.fixedSizeBinary 0)
  | v => typeOf v

/-- The kind of the scalars that are read with a type. -/
def kindRead : TeoDataType → TeoDataType
  | .fixedSizeBinary _ => .fixedSizeBinary 0
  | .decimal128 precision scale =>
    .decimal128 (UInt8.ofNat precision).toNat (Int8.ofInt scale).toInt
  | t => t

lemma kind_of_read {lib : IcebergScalars} {lit : PrimitiveLiteral} {t : TeoDataType}
    {v : TeoScalar} (h : primitiveLiteralToTeoScalar lib lit t = .ok v) :
    kind v = some (kindRead t) := by
  unfold primitiveLiteralToTeoScalar at h
  split at h
  all_goals cases h
  all_goals rfl

lemma decimal128_eq_of_denoted {v w : I128} {prec prec' : UInt8} {sc sc' : Int8}
    (hkd : kind (.decimal128 v prec sc) = kind (.decimal128 w prec' sc'))
    (h : denoted (.decimal128 v prec sc) = denoted (.decimal128 w prec' sc')) :
    TeoScalar.decimal128 v prec sc = .decimal128 w prec' sc' := by
  simp only [kind, typeOf, Option.some.injEq, TeoDataType.decimal128.injEq, UInt8.toNat_inj,
    Int8.toInt_inj] at hkd
  obtain ⟨rfl, rfl⟩ := hkd
  have hpow : (10 : ℚ) ^ (-sc.toInt) ≠ 0 := zpow_ne_zero _ (by norm_num)
  simp only [denoted, Option.some.injEq, ScalarValue.decimal.injEq, mul_eq_mul_right_iff, hpow,
    or_false, Int.cast_inj, BitVec.toInt_inj] at h
  rw [h]

lemma timestampMicros_eq_of_denoted {v w : Int64} {tz tz' : Option String}
    (hkd : kind (.timestampMicros v tz) = kind (.timestampMicros w tz'))
    (h : denoted (.timestampMicros v tz) = denoted (.timestampMicros w tz')) :
    TeoScalar.timestampMicros v tz = .timestampMicros w tz' := by
  simp only [kind, typeOf, Option.some.injEq, TeoDataType.timestampMicros.injEq] at hkd
  subst hkd
  cases tz with
  | none => simpa [denoted, Int64.toInt_inj] using h
  | some zone => simpa [denoted, Int64.toInt_inj] using h

lemma eq_of_denoted {v w : TeoScalar} (hkd : kind v = kind w) (h : denoted v = denoted w) :
    v = w := by
  cases v <;> cases w <;> first
    | rfl
    | (cases hkd; done)
    | exact decimal128_eq_of_denoted hkd h
    | exact timestampMicros_eq_of_denoted hkd h
    | simpa [denoted, Int8.toInt_inj, Int16.toInt_inj, Int32.toInt_inj, Int64.toInt_inj,
        UInt8.toNat_inj, UInt16.toNat_inj, UInt32.toNat_inj, UInt64.toNat_inj] using h

lemma eq_null_of_denoted {v : TeoScalar} (h : denoted v = none) : v = .null := by
  cases v with
  | null => rfl
  | _ => cases h

/-- Two results of a transform with the same value are the same scalar. -/
theorem apply_eq_of_denoted {lib : IcebergTransforms} {transform : PartitionTransform}
    {t : TeoDataType} {v v' s s' : TeoScalar}
    (h : applyPartitionTransformToScalar lib v t transform = some (.ok s))
    (h' : applyPartitionTransformToScalar lib v' t transform = some (.ok s'))
    (hden : denoted s = denoted s') : s = s' := by
  have hr : ∀ {v s : TeoScalar}, applyPartitionTransformToScalar lib v t transform =
      some (.ok s) → s = .null ∨ ∃ p p' t', teodbToIcebergPrimitive t = .ok p ∧
        lib.resultType transform p = .ok (.ok p') ∧
        icebergPrimitiveToTeodb lib.toIcebergScalars p' = .ok t' ∧ kind s = some (kindRead t') := by
    intro v s h
    cases hn : v.isNull with
    | true =>
      rw [applyPartitionTransformToScalar, hn, if_pos rfl] at h
      cases h
      exact .inl rfl
    | false =>
      obtain ⟨p, p', t', d, function, out, hp, hp', ht', -, -, -, hs, hnone⟩ :=
        apply_eq_ok hn h
      cases out with
      | none => exact .inl (hnone rfl)
      | some r => exact .inr ⟨p, p', t', hp, hp', ht', kind_of_read (hs r rfl)⟩
  rcases hr h with rfl | ⟨p, p', t', hp, hp', ht', hkind⟩
  · exact (eq_null_of_denoted hden.symm).symm
  · rcases hr h' with rfl | ⟨q, q', u', hq, hq', hu', hkind'⟩
    · exact eq_null_of_denoted hden
    · rw [hp, Except.ok.injEq] at hq
      subst hq
      rw [hp', Except.ok.injEq, Except.ok.injEq] at hq'
      subst hq'
      rw [ht', Except.ok.injEq] at hu'
      subst hu'
      exact eq_of_denoted (hkind.trans hkind'.symm) hden

lemma transformedAs_identity (lib : IcebergTransforms) (t : TeoDataType)
    (val : Option ScalarValue) : transformedAs lib .identity t val = val := by
  have hp : ∃ p, teodbToIcebergPrimitive t = .ok p := by
    cases t with
    | timestampMicros tz =>
      cases tz with
      | none => exact ⟨_, rfl⟩
      | some zone => exact ⟨_, rfl⟩
    | _ => exact ⟨_, rfl⟩
  obtain ⟨p, hp⟩ := hp
  rw [transformedAs, hp]
  cases val with
  | none => rfl
  | some x => exact lib.transformed_identity p x

lemma transformedAs_of_isFloat {lib : IcebergTransforms} {transform : PartitionTransform}
    {t : TeoDataType} {v : TeoScalar} {y : ScalarValue}
    (h : transformedAs lib transform t (heldValue v) = some y) (hflo : y.isFloat = true) :
    transformedAs lib transform t (heldValue v) = transformedAs lib transform t (denoted v) := by
  by_cases hidn : transform = .identity
  · subst hidn
    rw [transformedAs_identity] at h ⊢
    rw [transformedAs_identity]
    cases v with
    | decimal128 value prec scale =>
      cases h
      cases hflo
    | uint64 v =>
      cases h
      cases hflo
    | _ => rfl
  · rw [transformedAs] at h
    split at h
    · cases h
    · rename_i p hp
      obtain ⟨x, -, hx⟩ := Option.bind_eq_some_iff.mp h
      rw [lib.isFloat_transformed transform p x y hidn hx] at hflo
      cases hflo

end TeoDB.Catalog
