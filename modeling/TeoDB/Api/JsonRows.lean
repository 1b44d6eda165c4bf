import TeoDB.Core.Error

/-!
# Rows of a query result as JSON

The writer turns record batches into one JSON array, up to a limit of rows. Each batch is rendered
as an array of its own into a buffer of limited size.

## Implementation notes

Arrow's array writer is a parameter: the pieces of text that it hands to its sink for some
rows, and the error that it may end with. Lengths of vectors are below `2 ^ 63`, so that no
sum of them saturates.
-/

namespace TeoDB.Api

open TeoDB.Core

/-- The separator, and the brackets of an array. -/
def comma : UInt8 := 44

def openBracket : UInt8 := 91

def closeBracket : UInt8 := 93

/-- Elements of an array with separators between them. -/
def joined : List (List UInt8) → List UInt8
  | [] => []
  | first :: rest => first ++ rest.flatMap fun element => comma :: element

def jsonArray (elements : List (List UInt8)) : List UInt8 :=
  openBracket :: joined elements ++ [closeBracket]

structure BoundedJsonBuffer where
  bytes : List UInt8
  limit : Nat

/-- Nothing is kept of a piece that goes beyond the limit. -/
def BoundedJsonBuffer.write (sink : BoundedJsonBuffer) (buffer : List UInt8) :
    Option BoundedJsonBuffer :=
  if sink.bytes.length + buffer.length > sink.limit then none
  else some { sink with bytes := sink.bytes ++ buffer }

/-- What Arrow and the JSON library do for the writer. -/
structure JsonLib (R : Type) where
  /-- A row with explicit nulls. -/
  row : R → List UInt8
  pieces : List R → List (List UInt8)
  failure : List R → Option String
  arrayMemorySize : List R → Nat
  rawValue : List UInt8 → Except String Unit

/-- The array writer renders its rows between brackets, with commas between them. -/
def JsonLib.Lawful {R : Type} (lib : JsonLib R) : Prop :=
  ∀ rows, lib.failure rows = none → (lib.pieces rows).flatten = jsonArray (rows.map lib.row)

structure JsonRowsWriter where
  rows : List UInt8
  remaining : Nat
  written : Nat
  maxBytes : Nat

def minJsonConversionInputBytes : Nat := 64 * 1024

/-- The text between the brackets of an array. -/
def stripBrackets : List UInt8 → Option (List UInt8)
  | [] => none
  | first :: rest =>
    if first = openBracket ∧ rest.getLast? = some closeBracket then some rest.dropLast else none

namespace JsonRowsWriter

variable {R : Type} (lib : JsonLib R)

def new (limit maxBytes : Nat) : JsonRowsWriter := ⟨[openBracket], limit, 0, maxBytes⟩

/-- The text that Arrow writes into a bounded buffer. -/
def encode (rows : List R) (limit maxBytes : Nat) : TeoDBResult (List UInt8) :=
  match (lib.pieces rows).foldlM BoundedJsonBuffer.write ⟨[], limit⟩ with
  | none => .error (.resultTooLarge maxBytes)
  | some sink =>
    match lib.failure rows with
    | some message => .error (.internal message)
    | none => .ok sink.bytes

def write (w : JsonRowsWriter) (batch : List R) : TeoDBResult (Bool × JsonRowsWriter) :=
  if w.remaining = 0 then .ok (false, w)
  else
    let take := min batch.length w.remaining
    let toWrite := if take < batch.length then batch.take take else batch
    let separator := if 0 < w.written ∧ 0 < take then 1 else 0
    let fixedBytes := w.rows.length + separator + 1
    if w.maxBytes < fixedBytes then .error (.resultTooLarge w.maxBytes)
    else if lib.arrayMemorySize toWrite > max w.maxBytes minJsonConversionInputBytes then
      .error (.resultTooLarge w.maxBytes)
    else
      match encode lib toWrite (w.maxBytes - fixedBytes + 2) w.maxBytes with
      | .error error => .error error
      | .ok encoded =>
        match stripBrackets encoded with
        | none => .error (.internal "JSON writer produced a non-array result")
        | some inner =>
          if w.rows.length + separator + inner.length + 1 > w.maxBytes then
            .error (.resultTooLarge w.maxBytes)
          else
            let rows := (if separator = 1 then w.rows ++ [comma] else w.rows) ++ inner
            .ok (decide (0 < w.remaining - take),
              { w with rows := rows, remaining := w.remaining - take, written := w.written + take })

def finish (w : JsonRowsWriter) : TeoDBResult (List UInt8 × Nat) :=
  if w.rows.length + 1 > w.maxBytes then .error (.resultTooLarge w.maxBytes)
  else
    match lib.rawValue (w.rows ++ [closeBracket]) with
    | .error message => .error (.internal message)
    | .ok _ => .ok (w.rows ++ [closeBracket], w.written)

/-- The batches of a result one after the other, with what each write returned. -/
def writeAll (w : JsonRowsWriter) : List (List R) → TeoDBResult (List Bool × JsonRowsWriter)
  | [] => .ok ([], w)
  | batch :: rest =>
    match write lib w batch with
    | .error error => .error error
    | .ok (more, w) =>
      match writeAll w rest with
      | .error error => .error error
      | .ok (results, w) => .ok (more :: results, w)

lemma joined_append (l m : List (List UInt8)) :
    joined (l ++ m) = joined l ++ (if l ≠ [] ∧ m ≠ [] then [comma] else []) ++ joined m := by
  cases l <;> cases m <;> simp [joined]

@[simp] lemma stripBrackets_jsonArray (elements : List (List UInt8)) :
    stripBrackets (jsonArray elements) = some (joined elements) := by
  simp [stripBrackets, jsonArray]

lemma bytes_of_foldlM {pieces : List (List UInt8)} {sink sink' : BoundedJsonBuffer}
    (h : pieces.foldlM BoundedJsonBuffer.write sink = some sink') :
    sink'.bytes = sink.bytes ++ pieces.flatten := by
  induction pieces generalizing sink with
  | nil => simp_all
  | cons p rest ih =>
    rw [List.foldlM_cons] at h
    obtain ⟨mid, hm, hr⟩ := Option.bind_eq_some_iff.mp h
    simp only [BoundedJsonBuffer.write, Option.ite_none_left_eq_some, Option.some.injEq] at hm
    rw [ih hr, ← hm.2, List.flatten_cons, List.append_assoc]

variable {lib} {w w' : JsonRowsWriter} {limit : Nat} {seen : List R}

lemma encode_ok (hlib : lib.Lawful) {rows : List R} {n maxBytes : Nat} {text : List UInt8}
    (h : encode lib rows n maxBytes = .ok text) : text = jsonArray (rows.map lib.row) := by
  unfold encode at h
  split at h
  · cases h
  · rename_i sink hs
    split at h
    · cases h
    · rename_i hf
      cases h
      rw [bytes_of_foldlM hs, List.nil_append, hlib rows hf]

lemma write_ok (hlib : lib.Lawful) (hr : w.remaining ≠ 0) {batch : List R} {more : Bool}
    (hw : w.write lib batch = .ok (more, w')) :
    more = decide (batch.length < w.remaining) ∧ w' = { w with
      rows := w.rows ++ (if 0 < w.written ∧ 0 < batch.length then [comma] else []) ++
        joined ((batch.take w.remaining).map lib.row)
      remaining := w.remaining - batch.length
      written := w.written + min batch.length w.remaining } := by
  have htake : (if min batch.length w.remaining < batch.length then
      batch.take (min batch.length w.remaining) else batch) = batch.take w.remaining := by
    split_ifs with hcut
    · rw [min_eq_right (by omega)]
    · rw [List.take_of_length_le (by omega)]
  have hpos : (0 < w.written ∧ 0 < min batch.length w.remaining) ↔
      0 < w.written ∧ 0 < batch.length := by omega
  unfold JsonRowsWriter.write at hw
  simp only [if_neg hr, htake, hpos] at hw
  rw [ite_eq_iff, ite_eq_iff] at hw
  rcases hw with ⟨_, hw⟩ | ⟨_, ⟨_, hw⟩ | ⟨_, hw⟩⟩
  · cases hw
  · cases hw
  cases henc : encode lib (batch.take w.remaining) _ w.maxBytes with
  | error e =>
    rw [henc] at hw
    cases hw
  | ok text =>
    rw [henc, encode_ok hlib henc] at hw
    simp only [stripBrackets_jsonArray] at hw
    rw [ite_eq_iff] at hw
    rcases hw with ⟨_, hw⟩ | ⟨_, hw⟩
    · cases hw
    obtain ⟨rfl, rfl⟩ := Prod.mk.inj (Except.ok.inj hw)
    constructor
    · congr 1
      rw [eq_iff_iff]
      omega
    · have hrem : w.remaining - min batch.length w.remaining = w.remaining - batch.length := by
        omega
      rw [hrem]
      by_cases hsep : 0 < w.written ∧ 0 < batch.length
      · simp only [if_pos hsep, if_true]
      · simp only [if_neg hsep, List.append_nil, Nat.zero_ne_one, if_false]

/-- The writer holds the first rows of those that it was given, up to the limit. -/
structure Holds (lib : JsonLib R) (limit : Nat) (seen : List R) (w : JsonRowsWriter) : Prop where
  rows : w.rows = openBracket :: joined ((seen.take limit).map lib.row)
  written : w.written = min limit seen.length
  remaining : w.remaining = limit - seen.length

lemma Holds.write (hlib : lib.Lawful) (h : Holds lib limit seen w) {batch : List R} {more : Bool}
    (hw : w.write lib batch = .ok (more, w')) :
    Holds lib limit (seen ++ batch) w' ∧ w'.maxBytes = w.maxBytes ∧
      more = decide ((seen ++ batch).length < limit) := by
  obtain ⟨hrows, hwritten, hremaining⟩ := h
  by_cases hfull : w.remaining = 0
  · rw [JsonRowsWriter.write, if_pos hfull] at hw
    cases hw
    refine ⟨⟨?_, ?_, ?_⟩, rfl, ?_⟩
    · rw [hrows, List.take_append_of_le_length (by omega)]
    · rw [hwritten, List.length_append]
      omega
    · rw [hremaining, List.length_append]
      omega
    · rw [List.length_append, eq_comm, decide_eq_false_iff_not]
      omega
  · obtain ⟨rfl, rfl⟩ := write_ok hlib hfull hw
    have hlt : seen.length < limit := by omega
    have hall : seen.take limit = seen := List.take_of_length_le hlt.le
    refine ⟨⟨?_, ?_, ?_⟩, rfl, ?_⟩
    · have hsep : (0 < w.written ∧ 0 < batch.length) ↔
          seen.map lib.row ≠ [] ∧ (batch.take w.remaining).map lib.row ≠ [] := by
        simp only [← List.length_pos_iff, List.length_map, List.length_take]
        omega
      simp only [hrows, hall, hsep, List.take_append, List.map_append, joined_append,
        List.cons_append, ← hremaining]
    · simp only [hwritten, hremaining, List.length_append]
      omega
    · simp only [hremaining, List.length_append]
      omega
    · congr 1
      rw [List.length_append, eq_iff_iff]
      omega

lemma Holds.writeAll (hlib : lib.Lawful) (h : Holds lib limit seen w) {batches : List (List R)}
    {results : List Bool} (hw : w.writeAll lib batches = .ok (results, w')) :
    Holds lib limit (seen ++ batches.flatten) w' ∧ w'.maxBytes = w.maxBytes ∧
      results = batches.inits.tail.map fun given =>
        decide ((seen ++ given.flatten).length < limit) := by
  induction batches generalizing seen w results with
  | nil =>
    cases hw
    simpa using h
  | cons batch rest ih =>
    rw [JsonRowsWriter.writeAll] at hw
    split at hw
    · cases hw
    · rename_i more mid hm
      obtain ⟨hmid, hmax, rfl⟩ := h.write hlib hm
      split at hw
      · cases hw
      · rename_i later last hl
        cases hw
        obtain ⟨hlast, hmax', rfl⟩ := ih hmid hl
        refine ⟨by simpa using hlast, hmax'.trans hmax, ?_⟩
        have hin : rest.inits = [] :: rest.inits.tail := by cases rest <;> simp
        rw [List.inits_cons, List.tail_cons, hin]
        simp [Function.comp_def]

/-- `finish` returns the array of the first rows within both limits and their number, and a write
returned false exactly once the limit was reached. -/
theorem json_result_exact (lib : JsonLib R) (hlib : lib.Lawful) (limit maxBytes : Nat)
    (batches : List (List R)) {results : List Bool} {w : JsonRowsWriter}
    (hwrites : (new limit maxBytes).writeAll lib batches = .ok (results, w))
    {json : List UInt8} {count : Nat} (hfinish : w.finish lib = .ok (json, count)) :
    json = jsonArray ((batches.flatten.take limit).map lib.row) ∧ json.length ≤ maxBytes ∧
      count = (batches.flatten.take limit).length ∧
      results = batches.inits.tail.map fun given => decide (given.flatten.length < limit) := by
  have hnew : Holds lib limit [] (new limit maxBytes) := ⟨by simp [new, joined], by simp [new], rfl⟩
  obtain ⟨hw, hmax, hresults⟩ := hnew.writeAll hlib hwrites
  unfold finish at hfinish
  split_ifs at hfinish with hlen
  split at hfinish
  · cases hfinish
  · cases hfinish
    refine ⟨?_, ?_, ?_, by simpa using hresults⟩
    · rw [hw.rows, List.nil_append]
      rfl
    · rw [List.length_append, ← show w.maxBytes = maxBytes from hmax]
      simpa using hlen
    · rw [hw.written, List.nil_append, List.length_take]

/-- Rows of one byte each. -/
def plainJson : JsonLib UInt8 where
  row r := [r]
  pieces rows := [jsonArray (rows.map fun r => [r])]
  failure _ := none
  arrayMemorySize := List.length
  rawValue _ := .ok ()

theorem json_result_exact_twoBatches :
    ∃ w, (new 2 5).writeAll plainJson [[49], [50, 51]] = .ok ([true, false], w) ∧
      w.finish plainJson = .ok ([91, 49, 44, 50, 93], 2) ∧
      ([91, 49, 44, 50, 93] : List UInt8).length ≤ 5 :=
  ⟨_, rfl, rfl, (json_result_exact plainJson (fun _ _ => List.append_nil _) 2 5
    [[49], [50, 51]] rfl rfl).2.1⟩

end JsonRowsWriter

end TeoDB.Api
