import ClipEdit.Proofs.Json.Lexeme

/-!
# Reading what was printed

The two layouts differ only in the blanks that they put in front of items and behind colons. A
`Layout` says which these are, and everything is proved once for all layouts.

* `text_compact`, `text_pretty` — the two printers are the layouts of that name;
* `parse?_text` — **reading undoes printing**, for every value without broken literals and numbers
  (`WellFormed`).

What carries the induction is `ReadsBack`: a value is read from the front of a text, whatever follows
it, with fuel for twice the characters it takes. The items of an array and the fields of an object
need less than that, because a bracket or a comma stands before each of them.
-/

namespace ClipEdit.Json

variable {fuel : Nat} {cs rest : List Char}

/-! ### Well-formed values -/

/-- **A well-formed value**: its numbers are as the reader accepts them, and its string literals
denote texts. -/
inductive WellFormed : Json → Prop
  | null : WellFormed null
  | bool (b : Bool) : WellFormed (bool b)
  | number {n : Number} (h : n.WellFormed) : WellFormed (number n)
  | string (s : String) : WellFormed (string (some s))
  | array {items : List Json} (h : ∀ v ∈ items, WellFormed v) : WellFormed (array items)
  | object {fields : List (Literal × Json)} (h_keys : ∀ f ∈ fields, f.1.isSome)
      (h : ∀ f ∈ fields, WellFormed f.2) : WellFormed (object fields)

/-! ### Blanks -/

/-- Nothing but blanks. -/
def Blank (cs : List Char) : Prop := ∀ c ∈ cs, isBlank c = true

theorem skipBlanks_append {gap : List Char} (h : Blank gap) (cs : List Char) :
    skipBlanks (gap ++ cs) = skipBlanks cs :=
  List.dropWhile_append_of_pos h

theorem skipBlanks_cons {c : Char} (h : isBlank c = false) (cs : List Char) :
    skipBlanks (c :: cs) = c :: cs := by
  rw [skipBlanks, List.dropWhile_cons_of_neg (by simp [h])]

/-- Blanks do not continue a number. -/
theorem follows_append {gap : List Char} (h : Blank gap) (h_rest : Follows rest) :
    Follows (gap ++ rest) := by
  cases gap with
  | nil => exact h_rest
  | cons c gap =>
    rintro c' ⟨⟩
    have h_blank := h c List.mem_cons_self
    simp only [isBlank, Bool.or_eq_true, decide_eq_true_eq] at h_blank
    rcases h_blank with ((rfl | rfl) | rfl) | rfl <;> decide

/-- What separates or closes ends a number. -/
theorem follows_cons {c : Char} (h : c ∈ [',', ']', '\x7d']) (cs : List Char) :
    Follows (c :: cs) := by
  rintro c' ⟨⟩
  simp only [List.mem_cons, List.not_mem_nil, or_false] at h
  rcases h with rfl | rfl | rfl <;> decide

/-! ### Layouts -/

/-- **A layout**: the blanks in front of an item that stands at a level, and behind a colon. -/
structure Layout where
  gap : Nat → List Char
  space : List Char
  blank_gap : ∀ level, Blank (gap level)
  blank_space : Blank space

namespace Layout

mutual

/-- A value that stands at `level`. -/
def text (l : Layout) (level : Nat) : Json → List Char
  | null => ['n', 'u', 'l', 'l']
  | .bool true => ['t', 'r', 'u', 'e']
  | .bool false => ['f', 'a', 'l', 's', 'e']
  | number n => n.text
  | string s => literalText s
  | array [] => ['[', ']']
  | array (item :: items) =>
      '[' :: l.gap (level + 1) ++ l.text (level + 1) item ++ l.itemsText level items
  | object [] => ['\x7b', '\x7d']
  | object ((key, value) :: fields) =>
      '\x7b' :: l.gap (level + 1) ++ literalText key ++ ':' :: l.space ++
        l.text (level + 1) value ++ l.fieldsText level fields

/-- The rest of an array, from behind its first item. -/
def itemsText (l : Layout) (level : Nat) : List Json → List Char
  | [] => l.gap level ++ [']']
  | item :: items =>
      ',' :: l.gap (level + 1) ++ l.text (level + 1) item ++ l.itemsText level items

/-- The rest of an object, from behind its first field. -/
def fieldsText (l : Layout) (level : Nat) : List (Literal × Json) → List Char
  | [] => l.gap level ++ ['\x7d']
  | (key, value) :: fields =>
      ',' :: l.gap (level + 1) ++ literalText key ++ ':' :: l.space ++
        l.text (level + 1) value ++ l.fieldsText level fields

end

/-- The layout on one line. -/
def compact : Layout where
  gap _ := []
  space := []
  blank_gap _ _ h := absurd h List.not_mem_nil
  blank_space _ h := absurd h List.not_mem_nil

/-- The layout on indented lines. -/
def pretty : Layout where
  gap := lineBreak
  space := [' ']
  blank_gap level c h := by
    rcases List.mem_cons.mp h with rfl | h
    · rfl
    · rw [List.eq_of_mem_replicate h]
      rfl
  blank_space c h := by
    rw [List.mem_singleton.mp h]
    rfl

@[simp] theorem gap_compact (level : Nat) : compact.gap level = [] := rfl
@[simp] theorem space_compact : compact.space = [] := rfl
@[simp] theorem gap_pretty (level : Nat) : pretty.gap level = lineBreak level := rfl
@[simp] theorem space_pretty : pretty.space = [' '] := rfl

mutual

theorem text_compact (level : Nat) : ∀ v, compact.text level v = compactText v
  | null => rfl
  | .bool true => rfl
  | .bool false => rfl
  | number _ => rfl
  | string _ => rfl
  | array [] => rfl
  | array (item :: items) => by
    simp [text, compactText, text_compact (level + 1) item, itemsText_compact level items]
  | object [] => rfl
  | object ((key, value) :: fields) => by
    simp [text, compactText, text_compact (level + 1) value, fieldsText_compact level fields]

theorem itemsText_compact (level : Nat) :
    ∀ items, compact.itemsText level items = compactItems items
  | [] => rfl
  | item :: items => by
    simp [itemsText, compactItems, text_compact (level + 1) item, itemsText_compact level items]

theorem fieldsText_compact (level : Nat) :
    ∀ fields, compact.fieldsText level fields = compactFields fields
  | [] => rfl
  | (key, value) :: fields => by
    simp [fieldsText, compactFields, text_compact (level + 1) value,
      fieldsText_compact level fields]

end

mutual

theorem text_pretty (level : Nat) : ∀ v, pretty.text level v = prettyText level v
  | null => rfl
  | .bool true => rfl
  | .bool false => rfl
  | number _ => rfl
  | string _ => rfl
  | array [] => rfl
  | array (item :: items) => by
    simp [text, prettyText, text_pretty (level + 1) item, itemsText_pretty level items]
  | object [] => rfl
  | object ((key, value) :: fields) => by
    simp [text, prettyText, text_pretty (level + 1) value, fieldsText_pretty level fields]

theorem itemsText_pretty (level : Nat) :
    ∀ items, pretty.itemsText level items = prettyItems level items
  | [] => rfl
  | item :: items => by
    simp [itemsText, prettyItems, text_pretty (level + 1) item, itemsText_pretty level items]

theorem fieldsText_pretty (level : Nat) :
    ∀ fields, pretty.fieldsText level fields = prettyFields level fields
  | [] => rfl
  | (key, value) :: fields => by
    simp [fieldsText, prettyFields, text_pretty (level + 1) value, fieldsText_pretty level fields]

end

end Layout

/-! ### Reading -/

theorem readValue_append {gap : List Char} (h : Blank gap) (cs : List Char) :
    readValue fuel (gap ++ cs) = readValue fuel cs := by
  cases fuel with
  | zero => rfl
  | succ fuel => rw [readValue, readValue, skipBlanks_append h]

theorem readItems_append {gap : List Char} (h : Blank gap) (cs : List Char) :
    readItems fuel (gap ++ cs) = readItems fuel cs := by
  cases fuel with
  | zero => rfl
  | succ fuel => rw [readItems, readItems, readValue_append h]

theorem readFields_append {gap : List Char} (h : Blank gap) (cs : List Char) :
    readFields fuel (gap ++ cs) = readFields fuel cs := by
  cases fuel with
  | zero => rfl
  | succ fuel => rw [readFields, readFields, skipBlanks_append h]

/-- The first character of a number: a sign or a digit. -/
def StartsNumber (c : Char) : Prop := c = '-' ∨ ∃ d : Decimal.Digit, c = d.toChar

theorem StartsNumber.ne {c : Char} (h : StartsNumber c) :
    isBlank c = false ∧ c ∉ ['n', 't', 'f', '"', '[', '\x7b', ']'] := by
  have h_digit : ∀ d : Decimal.Digit,
      isBlank d.toChar = false ∧ d.toChar ∉ ['n', 't', 'f', '"', '[', '\x7b', ']'] := by
    decide
  rcases h with rfl | ⟨d, rfl⟩
  · decide
  · exact h_digit d

theorem Number.text_cons {n : Number} (h : n.WellFormed) :
    ∃ c cs, n.text = c :: cs ∧ StartsNumber c := by
  obtain ⟨d, ds, h_whole⟩ := List.exists_cons_of_ne_nil h.whole_ne_nil
  rw [Number.text_eq, h_whole]
  cases n.negative with
  | true => exact ⟨'-', _, rfl, Or.inl rfl⟩
  | false => exact ⟨d.toChar, _, rfl, Or.inr ⟨d, rfl⟩⟩

/-- What begins like a number is read as one. -/
theorem readValue_number {c : Char} (h : StartsNumber c) :
    readValue (fuel + 1) (c :: cs)
      = (readNumber (c :: cs)).map fun (n, rest) => (number n, rest) := by
  obtain ⟨h_blank, h_ne⟩ := h.ne
  have h_head {c' : Char} {cs' : List Char} (h_eq : c :: cs = c' :: cs')
      (h_mem : c' ∈ ['n', 't', 'f', '"', '[', '\x7b', ']']) : False := by
    rw [(List.cons.inj h_eq).1] at h_ne
    exact h_ne h_mem
  rw [readValue, skipBlanks_cons h_blank]
  -- the reader asks for six other values first, and none of them begins like a number
  split
  · next h_eq => exact (h_head h_eq (by decide)).elim
  · next h_eq => exact (h_head h_eq (by decide)).elim
  · next h_eq => exact (h_head h_eq (by decide)).elim
  · next h_eq => exact (h_head h_eq (by decide)).elim
  · next h_eq => exact (h_head h_eq (by decide)).elim
  · next h_eq => exact (h_head h_eq (by decide)).elim
  · cases readNumber (c :: cs) <;> rfl

theorem literalText_append (s : String) (rest : List Char) :
    literalText (some s) ++ rest = '"' :: (s.toList.flatMap escapeChar ++ '"' :: rest) := by
  simp [literalText]

theorem readValue_string (s : String) :
    readValue (fuel + 1) (literalText (some s) ++ rest) = some (string (some s), rest) := by
  rw [literalText_append]
  change (readLiteral _).bind _ = _
  rw [readLiteral_text]
  rfl

/-- An array that does not end at once has items. -/
theorem readValue_array {c : Char} (h : skipBlanks cs = c :: rest) (hc : c ≠ ']') :
    readValue (fuel + 1) ('[' :: cs)
      = (readItems fuel (c :: rest)).map fun (items, rest) => (array items, rest) := by
  simp only [readValue, skipBlanks_cons (show isBlank '[' = false from rfl), h]
  split
  · next h_eq => exact absurd (List.cons.inj h_eq).1 hc
  · cases readItems fuel (c :: rest) <;> rfl

/-- An object that does not end at once has fields. -/
theorem readValue_object (h : skipBlanks cs = '"' :: rest) :
    readValue (fuel + 1) ('\x7b' :: cs)
      = (readFields fuel ('"' :: rest)).map fun (fields, rest) => (object fields, rest) := by
  simp only [readValue, skipBlanks_cons (show isBlank '\x7b' = false from rfl), h]
  cases h_read : readFields fuel ('"' :: rest) <;> simp [h_read]

namespace Layout

variable {l : Layout} {level : Nat} {v item : Json} {items : List Json} {key : String}
  {fields : List (Literal × Json)}

/-- **A value is read back** from the front of a text, with fuel for twice its length. -/
def ReadsBack (l : Layout) (v : Json) : Prop :=
  ∀ level fuel rest, 2 * (l.text level v).length ≤ fuel → Follows rest →
    readValue fuel (l.text level v ++ rest) = some (v, rest)

/-- A value does not begin with a blank, nor like the end of an array. -/
theorem text_cons (h : v.WellFormed) (level : Nat) :
    ∃ c cs, l.text level v = c :: cs ∧ isBlank c = false ∧ c ≠ ']' := by
  cases h with
  | null => exact ⟨'n', _, rfl, rfl, by decide⟩
  | bool b => cases b <;> exact ⟨_, _, rfl, rfl, by decide⟩
  | number h =>
    obtain ⟨c, cs, h_text, h_start⟩ := Number.text_cons h
    exact ⟨c, cs, h_text, h_start.ne.1, fun h_eq => h_start.ne.2 (by simp [h_eq])⟩
  | string s => exact ⟨'"', _, rfl, rfl, by decide⟩
  | @array items h => cases items <;> exact ⟨'[', _, rfl, rfl, by decide⟩
  | @object fields h_keys h =>
    rcases fields with _ | ⟨⟨key, value⟩, fields⟩ <;> exact ⟨'\x7b', _, rfl, rfl, by decide⟩

/-- A text is not empty, so there is fuel for one call at least. -/
theorem ReadsBack.of_succ (h : v.WellFormed)
    (h_read : ∀ level fuel rest, 2 * (l.text level v).length ≤ fuel + 1 → Follows rest →
      readValue (fuel + 1) (l.text level v ++ rest) = some (v, rest)) : l.ReadsBack v := by
  intro level fuel rest h_fuel h_rest
  obtain ⟨c, cs, h_text, -⟩ := text_cons (l := l) h level
  have h_length : (l.text level v).length = cs.length + 1 := by rw [h_text, List.length_cons]
  obtain ⟨fuel, rfl⟩ := Nat.exists_eq_add_one.mpr (show 0 < fuel by omega)
  exact h_read level fuel rest h_fuel h_rest

/-! ### Arrays -/

theorem follows_itemsText (l : Layout) (level : Nat) (items : List Json) (rest : List Char) :
    Follows (l.itemsText level items ++ rest) := by
  cases items with
  | nil =>
    rw [itemsText, List.append_assoc]
    exact follows_append (l.blank_gap level) (follows_cons (by decide) rest)
  | cons item items => exact follows_cons (by decide) _

/-- **One item or more are read back**, if each of them is. -/
theorem readItems_text (h : ∀ v ∈ item :: items, l.ReadsBack v)
    (h_fuel : 2 * (l.text (level + 1) item ++ l.itemsText level items).length ≤ fuel) :
    readItems fuel (l.text (level + 1) item ++ (l.itemsText level items ++ rest))
      = some (item :: items, rest) := by
  induction items generalizing item fuel with
  | nil =>
    rw [itemsText, List.length_append, List.length_append, List.length_singleton] at h_fuel
    obtain ⟨fuel, rfl⟩ := Nat.exists_eq_add_one.mpr (show 0 < fuel by omega)
    have h_item := h item List.mem_cons_self (level + 1) fuel _ (by omega)
      (l.follows_itemsText level [] rest)
    rw [readItems, h_item, itemsText, List.append_assoc, List.singleton_append]
    simp only [Option.bind_eq_bind, Option.bind_some, skipBlanks_append (l.blank_gap level),
      skipBlanks_cons (show isBlank ']' = false from rfl)]
  | cons next items ih =>
    rw [itemsText] at h_fuel
    simp only [List.length_append, List.length_cons] at h_fuel
    obtain ⟨fuel, rfl⟩ := Nat.exists_eq_add_one.mpr (show 0 < fuel by omega)
    -- the comma behind `item` has left fuel for two more calls
    have h_item := h item List.mem_cons_self (level + 1) fuel _ (by omega)
      (l.follows_itemsText level (next :: items) rest)
    have h_items : readItems fuel (l.text (level + 1) next ++ (l.itemsText level items ++ rest))
        = some (next :: items, rest) :=
      ih (fun v hv => h v (List.mem_cons_of_mem item hv)) (by rw [List.length_append]; omega)
    rw [readItems, h_item, itemsText]
    simp only [Option.bind_eq_bind, Option.bind_some, List.cons_append, List.append_assoc,
      skipBlanks_cons (show isBlank ',' = false from rfl), readItems_append (l.blank_gap _), h_items]

theorem ReadsBack.array (h : ∀ v ∈ items, v.WellFormed) (h_items : ∀ v ∈ items, l.ReadsBack v) :
    l.ReadsBack (.array items) := by
  refine .of_succ (.array h) fun level fuel rest h_fuel h_rest => ?_
  cases items with
  | nil => rfl
  | cons item items =>
    rw [text] at h_fuel ⊢
    simp only [List.length_append, List.length_cons] at h_fuel
    have h_read : readItems fuel (l.text (level + 1) item ++ (l.itemsText level items ++ rest))
        = some (item :: items, rest) :=
      readItems_text h_items (by rw [List.length_append]; omega)
    -- the first item does not begin with a bracket, which would close the array
    obtain ⟨c, cs, h_text, h_blank, h_ne⟩ :=
      text_cons (l := l) (h item List.mem_cons_self) (level + 1)
    have h_skip : skipBlanks (l.gap (level + 1) ++ c :: (cs ++ (l.itemsText level items ++ rest)))
        = c :: (cs ++ (l.itemsText level items ++ rest)) :=
      (skipBlanks_append (l.blank_gap _) _).trans (skipBlanks_cons h_blank _)
    rw [h_text] at h_read ⊢
    simp only [List.cons_append, List.append_assoc] at h_read ⊢
    rw [readValue_array h_skip h_ne, h_read]
    rfl

/-! ### Objects -/

theorem follows_fieldsText (l : Layout) (level : Nat) (fields : List (Literal × Json))
    (rest : List Char) : Follows (l.fieldsText level fields ++ rest) := by
  cases fields with
  | nil =>
    rw [fieldsText, List.append_assoc]
    exact follows_append (l.blank_gap level) (follows_cons (by decide) rest)
  | cons field fields => exact follows_cons (by decide) _

/-- The key of a field and its colon are read, and the value is next. -/
theorem readFields_key (key : String) (cs : List Char) :
    readFields (fuel + 1) (literalText (some key) ++ ':' :: cs) = (do
      let (value, rest) ← readValue fuel cs
      match skipBlanks rest with
      | ',' :: rest =>
          let (fields, rest) ← readFields fuel rest
          some ((some key, value) :: fields, rest)
      | '\x7d' :: rest => some ([(some key, value)], rest)
      | _ => none) := by
  rw [readFields, literalText_append, skipBlanks_cons (show isBlank '"' = false from rfl)]
  change (readLiteral (key.toList.flatMap escapeChar ++ '"' :: ':' :: cs)).bind _ = _
  rw [readLiteral_text]
  rfl

/-- **One field or more are read back**, if the value of each of them is. -/
theorem readFields_text (h : ∀ f ∈ (some key, v) :: fields, l.ReadsBack f.2)
    (h_keys : ∀ f ∈ fields, f.1.isSome)
    (h_fuel : 2 * (literalText (some key) ++ (l.text (level + 1) v
      ++ l.fieldsText level fields)).length ≤ fuel) :
    readFields fuel (literalText (some key) ++ ':' :: (l.space ++ (l.text (level + 1) v
      ++ (l.fieldsText level fields ++ rest)))) = some ((some key, v) :: fields, rest) := by
  induction fields generalizing key v fuel with
  | nil =>
    -- the last field: a brace follows its value
    rw [fieldsText] at h_fuel
    simp only [List.length_append, List.length_singleton] at h_fuel
    obtain ⟨fuel, rfl⟩ := Nat.exists_eq_add_one.mpr (show 0 < fuel by omega)
    have h_value := h _ List.mem_cons_self (level + 1) fuel _ (by dsimp only; omega)
      (l.follows_fieldsText level [] rest)
    rw [readFields_key, readValue_append l.blank_space, h_value, fieldsText, List.append_assoc,
      List.singleton_append]
    simp only [Option.bind_eq_bind, Option.bind_some, skipBlanks_append (l.blank_gap level),
      skipBlanks_cons (show isBlank '\x7d' = false from rfl)]
  | cons next fields ih =>
    -- more fields to come: a comma follows, and then the next key
    obtain ⟨next_key, next_value⟩ := next
    obtain ⟨next_key, rfl⟩ := Option.isSome_iff_exists.mp (h_keys _ List.mem_cons_self)
    rw [fieldsText] at h_fuel
    simp only [List.length_append, List.length_cons] at h_fuel
    obtain ⟨fuel, rfl⟩ := Nat.exists_eq_add_one.mpr (show 0 < fuel by omega)
    have h_value := h _ List.mem_cons_self (level + 1) fuel _ (by dsimp only; omega)
      (l.follows_fieldsText level ((some next_key, next_value) :: fields) rest)
    -- they are read with one step of fuel less
    have h_fields : readFields fuel (literalText (some next_key) ++ ':' :: (l.space
        ++ (l.text (level + 1) next_value ++ (l.fieldsText level fields ++ rest))))
          = some ((some next_key, next_value) :: fields, rest) :=
      ih (fun f hf => h f (List.mem_cons_of_mem _ hf))
        (fun f hf => h_keys f (List.mem_cons_of_mem _ hf))
        (by simp only [List.length_append]; omega)
    rw [readFields_key, readValue_append l.blank_space, h_value, fieldsText]
    simp only [Option.bind_eq_bind, Option.bind_some, List.cons_append, List.append_assoc,
      skipBlanks_cons (show isBlank ',' = false from rfl), readFields_append (l.blank_gap _),
      h_fields]

theorem ReadsBack.object (h_keys : ∀ f ∈ fields, f.1.isSome) (h : ∀ f ∈ fields, f.2.WellFormed)
    (h_fields : ∀ f ∈ fields, l.ReadsBack f.2) : l.ReadsBack (.object fields) := by
  refine .of_succ (.object h_keys h) fun level fuel rest h_fuel h_rest => ?_
  cases fields with
  | nil => rfl
  | cons field fields =>
    obtain ⟨key, v⟩ := field
    obtain ⟨key, rfl⟩ := Option.isSome_iff_exists.mp (h_keys _ List.mem_cons_self)
    rw [text] at h_fuel ⊢
    simp only [List.length_append, List.length_cons] at h_fuel
    have h_read : readFields fuel (literalText (some key) ++ ':' :: (l.space
        ++ (l.text (level + 1) v ++ (l.fieldsText level fields ++ rest))))
          = some ((some key, v) :: fields, rest) :=
      readFields_text h_fields (fun f hf => h_keys f (List.mem_cons_of_mem _ hf))
        (by simp only [List.length_append]; omega)
    -- a key begins with a quote, so it does not close the object
    rw [literalText_append] at h_read
    simp only [List.cons_append, List.append_assoc, literalText_append]
    rw [readValue_object ((skipBlanks_append (l.blank_gap _) _).trans
      (skipBlanks_cons (show isBlank '"' = false from rfl) _)), h_read]
    rfl

/-! ### Values -/

theorem ReadsBack.number {n : Number} (h : n.WellFormed) : l.ReadsBack (.number n) := by
  refine .of_succ (.number h) fun level fuel rest _ h_rest => ?_
  obtain ⟨c, cs, h_text, h_start⟩ := Number.text_cons h
  have h_read := readNumber_text h h_rest
  rw [h_text, List.cons_append] at h_read
  rw [text, h_text, List.cons_append, readValue_number h_start, h_read]
  rfl

/-- **Every well-formed value is read back.** -/
theorem readsBack (l : Layout) (h : v.WellFormed) : l.ReadsBack v := by
  induction h with
  | null => exact .of_succ .null fun _ _ _ _ _ => rfl
  | bool b => exact .of_succ (.bool b) fun _ _ _ _ _ => by cases b <;> rfl
  | number h => exact .number h
  | string s => exact .of_succ (.string s) fun _ _ _ _ _ => readValue_string s
  | array h ih => exact .array h ih
  | object h_keys h ih => exact .object h_keys h ih

/-- **Reading undoes printing.** -/
theorem parse?_text (l : Layout) (h : v.WellFormed) :
    parse? (String.ofList (l.text 0 v)) = some v := by
  have h_read := l.readsBack h 0 (2 * (l.text 0 v).length + 1) [] (by omega)
    (fun c hc => by simp at hc)
  rw [List.append_nil] at h_read
  rw [parse?, String.toList_ofList, h_read]
  rfl

end Layout

variable {v : Json}

theorem parse?_compact (h : v.WellFormed) : parse? v.compact = some v := by
  rw [compact, ← Layout.text_compact 0]
  exact Layout.parse?_text _ h

theorem parse?_pretty (h : v.WellFormed) : parse? v.pretty = some v := by
  rw [pretty, ← Layout.text_pretty 0]
  exact Layout.parse?_text _ h

end ClipEdit.Json
