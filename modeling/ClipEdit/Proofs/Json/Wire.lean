import ClipEdit.Json.Wire
import ClipEdit.Proofs.Json.Layout
import ClipEdit.Proofs.Json.Number

/-!
# Decoding what was encoded

`Reads v w` says that what is encoded for `v` is decoded as `w`. The two need not be equal: a
binary64 number is read from the digits that were written for it, and the reader may round it to a
neighbour. So every type with a JSON form has a lemma that takes `Reads` apart, field by field, down
to the numbers, and here are those that the others are made of:

* `reads_float`, `reads_list` — numbers and lists;
* `record_ofFields` — a record that was encoded has the fields it was encoded with.

`HasNull` is what a number without digits leaves behind. No decoder of a number accepts it
(`not_hasNull_of_reads`).
-/

namespace ClipEdit.Json

/-! ### Outcomes -/

theorem bind_eq_ok {α β : Type} {x : Except Fault α} {f : α → Except Fault β} {b : β} :
    (x >>= f) = .ok b ↔ ∃ a, x = .ok a ∧ f a = .ok b := by
  cases x with
  | error fault => simp [bind, Except.bind]
  | ok a => simp [bind, Except.bind]

theorem pure_eq_ok {α : Type} {a b : α} : (pure a : Except Fault α) = .ok b ↔ a = b :=
  ⟨Except.ok.inj, congrArg _⟩

/-- All items are accepted if each one is. -/
theorem mapM_eq_ok {α β : Type} {f : α → Except Fault β} {l : List α} {l' : List β} :
    l.mapM f = .ok l' ↔ List.Forall₂ (fun a b => f a = .ok b) l l' := by
  induction l generalizing l' with
  | nil => rw [List.mapM_nil, pure_eq_ok, List.forall₂_nil_left_iff, eq_comm]
  | cons a l ih =>
    simp only [List.mapM_cons, bind_eq_ok, pure_eq_ok, ih, List.forall₂_cons_left_iff]
    constructor
    · rintro ⟨b, h_first, rest, h_rest, rfl⟩
      exact ⟨b, rest, h_first, h_rest, rfl⟩
    · rintro ⟨b, rest, h_first, h_rest, rfl⟩
      exact ⟨b, h_first, rest, h_rest, rfl⟩

/-! ### Reading back -/

section Reads

variable {τ : Type} [Wire τ]

/-- **What is encoded for one value is decoded as the other.** -/
def Reads (v w : τ) : Prop := decode (encode v) = Except.ok w

theorem reads_float {x y : Float} :
    Reads x y ↔ ∃ n, Number.ofFloat? x = some n ∧ n.toFloat? = some y := by
  change Wire.decode (float x) = _ ↔ _
  rw [float]
  cases Number.ofFloat? x with
  | none => simp [Wire.decode]
  | some n =>
    simp only [Wire.decode, Option.some.injEq, exists_eq_left']
    cases n.toFloat? <;> simp

@[simp] theorem reads_bool {b b' : Bool} : Reads b b' ↔ b = b' :=
  ⟨Except.ok.inj, congrArg _⟩

@[simp] theorem reads_string {s s' : String} : Reads s s' ↔ s = s' :=
  ⟨Except.ok.inj, congrArg _⟩

theorem reads_list {l l' : List τ} : Reads l l' ↔ List.Forall₂ Reads l l' := by
  change (l.map encode).mapM decode = _ ↔ _
  rw [mapM_eq_ok, List.forall₂_map_left_iff]
  rfl

/-- A list is read back exactly if every item is. -/
theorem exists_reads_list {l : List τ} : (∃ l', Reads l l') ↔ ∀ v ∈ l, ∃ w, Reads v w := by
  simp only [reads_list]
  induction l with
  | nil => simp
  | cons v l ih =>
    rw [List.forall_mem_cons, ← ih]
    constructor
    · rintro ⟨_, h_first | ⟨h_first, h_rest⟩⟩
      exact ⟨⟨_, h_first⟩, _, h_rest⟩
    · rintro ⟨⟨w, h_first⟩, l', h_rest⟩
      exact ⟨w :: l', .cons h_first h_rest⟩

/-- A count is read back as itself, if it may be that large. -/
theorem countUpTo_count {limit k k' : Nat} (h : limit ≤ Number.significandLimit) :
    countUpTo limit (count k) = .ok k' ↔ k ≤ limit ∧ k = k' := by
  simp only [count, countUpTo, Number.toNat?_ofNat]
  by_cases h_le : k ≤ limit
  · simp [h_le, h_le.trans h]
  · by_cases h_fits : k ≤ Number.significandLimit
    · simp [h_le, h_fits]
    · simp [h_le, h_fits]

end Reads

/-! ### Records -/

theorem readableFields_ofFields (fields : List (String × Json)) :
    readableFields (fields.map fun (key, value) => (some key, value)) = .ok fields := by
  rw [readableFields, mapM_eq_ok, List.forall₂_map_left_iff]
  exact List.forall₂_same.mpr fun field _ => rfl

theorem firstRepeated?_eq_none {names : List String} (h : names.Nodup) :
    firstRepeated? names = none := by
  induction h with
  | nil => rfl
  | @cons name names h_fresh _ ih =>
    rw [firstRepeated?, if_neg, ih]
    simp only [List.contains_eq_mem, decide_eq_true_eq]
    exact fun h_mem => h_fresh name h_mem rfl

/-- **A record that was encoded has the fields it was encoded with.** -/
theorem record_ofFields {fields : List (String × Json)} (h : (fields.map Prod.fst).Nodup) :
    record (fields.map Prod.fst) (ofFields fields) = .ok ⟨fields⟩ := by
  -- all keys are known and none is repeated, so nothing is dropped and nothing refused
  have h_known : fields.filter (fun field => (fields.map Prod.fst).contains field.1) = fields := by
    refine List.filter_eq_self.mpr fun field h_mem => ?_
    simp only [List.contains_eq_mem, decide_eq_true_eq]
    exact List.mem_map_of_mem h_mem
  simp only [record, ofFields, readableFields_ofFields, bind, Except.bind, h_known,
    firstRepeated?_eq_none h]

/-- A record is decoded from the fields it was encoded with, by whatever reads those. -/
theorem record_bind_eq_ok {τ : Type} (fields : List (String × Json))
    (h : (fields.map Prod.fst).Nodup) {f : Record → Except Fault τ} {w : τ} :
    (record (fields.map Prod.fst) (ofFields fields) >>= f) = .ok w ↔ f ⟨fields⟩ = .ok w := by
  rw [record_ofFields h]
  rfl

/-! ### Values that leave nothing behind -/

/-- **A null somewhere in a value.** -/
inductive HasNull : Json → Prop
  | null : HasNull null
  | array {items : List Json} {v : Json} (h_mem : v ∈ items) (h : HasNull v) :
      HasNull (array items)
  | object {fields : List (Literal × Json)} {f : Literal × Json} (h_mem : f ∈ fields)
      (h : HasNull f.2) : HasNull (object fields)

theorem hasNull_array {items : List Json} : (array items).HasNull ↔ ∃ v ∈ items, v.HasNull := by
  constructor
  · rintro (_ | ⟨h_mem, h⟩)
    exact ⟨_, h_mem, h⟩
  · rintro ⟨v, h_mem, h⟩
    exact .array h_mem h

theorem hasNull_ofFields {fields : List (String × Json)} :
    (ofFields fields).HasNull ↔ ∃ f ∈ fields, f.2.HasNull := by
  constructor
  · rintro (_ | _ | ⟨h_mem, h⟩)
    obtain ⟨f, h_field, rfl⟩ := List.mem_map.mp h_mem
    exact ⟨f, h_field, h⟩
  · rintro ⟨f, h_mem, h⟩
    exact .object (List.mem_map_of_mem h_mem) h

theorem wellFormed_ofFields {fields : List (String × Json)} (h : ∀ f ∈ fields, f.2.WellFormed) :
    (ofFields fields).WellFormed := by
  refine .object ?_ ?_
  · intro f h_mem
    obtain ⟨field, -, rfl⟩ := List.mem_map.mp h_mem
    rfl
  · intro f h_mem
    obtain ⟨field, h_field, rfl⟩ := List.mem_map.mp h_mem
    exact h field h_field

/-- **A value that is as good as its numbers**: what is encoded for it is well formed, has a null
exactly where a number is not finite, and is decoded exactly if the numbers are. -/
structure Coded {τ : Type} [Wire τ] (numbers : List Float) (v : τ) : Prop where
  wellFormed : (encode v).WellFormed
  hasNull_iff : (encode v).HasNull ↔ ∃ x ∈ numbers, x.isFinite ≠ true
  readable_iff : (∃ w, Reads v w) ↔ ∀ x ∈ numbers, ∃ y, Reads x y

theorem ofFloat?_eq_none {x : Float} : Number.ofFloat? x = none ↔ x.isFinite ≠ true := by
  change _ ↔ (Binary64.parts x).isFinite ≠ true
  rw [Number.ofFloat?, Binary64.decode_eq]
  cases h : Binary64.parts x with
  | notANumber => exact iff_of_true rfl (by decide)
  | infinity s => exact iff_of_true rfl (by simp [Float.Model.UnpackedFloat.isFinite])
  | zero s => exact iff_of_false (by simp [Binary64.named]) (fun h_not => h_not rfl)
  | finite s m e hm =>
    obtain ⟨m, rfl⟩ : ∃ k, m = k + 1 := ⟨m - 1, by omega⟩
    exact iff_of_false (by simp [Binary64.named]) (fun h_not => h_not rfl)

/-- A number that is decoded is finite, since no decoder of a number accepts a null. -/
theorem isFinite_of_reads {x y : Float} (h : Reads x y) : x.isFinite = true := by
  obtain ⟨n, h_written, -⟩ := reads_float.mp h
  by_contra h_not
  rw [ofFloat?_eq_none.mpr h_not] at h_written
  exact absurd h_written (by simp)

theorem exists_reads_float {x : Float} (h : Binary64.Below 1015 x) : ∃ y, Reads x y := by
  obtain ⟨n, y, h_written, h_read⟩ := Number.exists_toFloat? h
  exact ⟨y, reads_float.mpr ⟨n, h_written, h_read⟩⟩

theorem coded_float (x : Float) : Coded [x] x where
  -- a number that is finite is written in digits, and any other one as null
  wellFormed := by
    change (float x).WellFormed
    rw [float]
    split
    · next n h_written => exact .number (Number.wellFormed_ofFloat? h_written)
    · exact .null
  hasNull_iff := by
    change (float x).HasNull ↔ _
    simp only [List.mem_singleton, exists_eq_left, ← ofFloat?_eq_none, float]
    cases Number.ofFloat? x with
    | none => exact iff_of_true .null rfl
    | some n => exact iff_of_false (by rintro ⟨⟩) (by simp)
  readable_iff := by simp

/-- A count has digits, however large it is. -/
theorem wellFormed_count (k : Nat) : (count k).WellFormed := .number (Number.wellFormed_ofNat k)

@[simp] theorem not_hasNull_count (k : Nat) : ¬ (count k).HasNull := by rintro ⟨⟩

theorem coded_bool (b : Bool) : Coded [] b where
  wellFormed := .bool b
  hasNull_iff := iff_of_false (by rintro ⟨⟩) (by simp)
  readable_iff := by simp

theorem coded_string (s : String) : Coded [] s where
  wellFormed := .string s
  hasNull_iff := iff_of_false (by rintro ⟨⟩) (by simp)
  readable_iff := by simp

theorem Coded.list {τ : Type} [Wire τ] {numbers : τ → List Float} {l : List τ}
    (h : ∀ v ∈ l, Coded (numbers v) v) : Coded (l.flatMap numbers) l where
  wellFormed := by
    refine .array fun v h_mem => ?_
    obtain ⟨item, h_item, rfl⟩ := List.mem_map.mp h_mem
    exact (h item h_item).wellFormed
  hasNull_iff := by
    change (array (l.map encode)).HasNull ↔ _
    simp only [hasNull_array, List.mem_map, List.mem_flatMap]
    constructor
    · -- a null in the list is one in some item, and back
      rintro ⟨_, ⟨v, hv, rfl⟩, h_null⟩
      obtain ⟨x, hx, h_not⟩ := (h v hv).hasNull_iff.mp h_null
      exact ⟨x, ⟨v, hv, hx⟩, h_not⟩
    · rintro ⟨x, ⟨v, hv, hx⟩, h_not⟩
      exact ⟨_, ⟨v, hv, rfl⟩, (h v hv).hasNull_iff.mpr ⟨x, hx, h_not⟩⟩
  readable_iff := by
    rw [exists_reads_list, List.forall_mem_flatMap]
    exact forall₂_congr fun v hv => (h v hv).readable_iff

end ClipEdit.Json
