import Runbook.Proofs.Json.Parts
import Runbook.Proofs.Json.Text
import Runbook.Proofs.Text.Decimal
import Runbook.Proofs.Text.Lines

/-!
JSON text without blanks: the compact text of a value is read back, as deep as the reader goes, as that value with its
doubles as their texts are read back.
-/

namespace Runbook.Json

open Runbook.Text

/-- A character that no number goes on with. -/
def EndsAt (c : Char) : Prop := isDigit c = false ∧ c ≠ '.' ∧ c ≠ 'e' ∧ c ≠ 'E'

/-- A text that no number in front of it goes on into. -/
def EndsNumber (rest : List Char) : Prop := ∀ c ∈ rest.head?, EndsAt c

theorem endsNumber_nil : EndsNumber [] := fun _ member => by cases member

theorem endsNumber_cons {c : Char} (other : EndsAt c) (rest : List Char) : EndsNumber (c :: rest) := fun d first => by
  obtain rfl : c = d := Option.some.inj first
  exact other

/-- A number ends where an item, a list of items or a list of fields ends. -/
theorem endsNumber_mark (rest : List Char) :
    EndsNumber (']' :: rest) ∧ EndsNumber ('\x7d' :: rest) ∧ EndsNumber (',' :: rest) :=
  ⟨endsNumber_cons ⟨rfl, by decide⟩ rest, endsNumber_cons ⟨rfl, by decide⟩ rest,
    endsNumber_cons ⟨rfl, by decide⟩ rest⟩

/-- What starts with a digit has no sign. -/
theorem signless_of_digit {text : List Char} (digit : ∃ c ∈ text.head?, isDigit c = true) : text.head? ≠ some '-' := by
  obtain ⟨c, first, digit⟩ := digit
  intro minus
  cases first.symm.trans minus
  cases digit

/-- A minus in front of what has no sign is taken for its sign. -/
theorem takeSign {negative : Prop} [Decidable negative] {text : List Char} (signless : text.head? ≠ some '-') :
    (match (if negative then ['-'] else []) ++ text with
      | '-' :: rest => (true, rest)
      | _ => (false, (if negative then ['-'] else []) ++ text)) = (decide negative, text) := by
  by_cases minus : negative
  · simp [minus]
  · simp only [minus, if_false, List.nil_append, decide_false]
    split
    · exact absurd rfl signless
    · rfl

/-- A written integer is read back as an integer. -/
theorem readNumber_toString {value : Int} {rest : List Char} (low : leastInt ≤ value) (high : value ≤ greatestInt)
    (ends : EndsNumber rest) : readNumber ((toString value).toList ++ rest) = some (.int value, rest) := by
  have digits : ∀ c ∈ (toString value.natAbs).toList, isDigit c = true := fun _ => isDigit_of_mem_toString
  have stops : ∀ c ∈ rest.head?, isDigit c = false := fun c first => (ends c first).1
  have run := takeWhile_run digits stops
  have behind := dropWhile_run digits stops
  have start : ((toString value.natAbs).toList.head? == some '0' &&
      decide (1 < (toString value.natAbs).toList.length)) = false := by
    rcases Nat.eq_zero_or_pos value.natAbs with zero | pos
    · rw [zero]
      decide
    · rw [beq_eq_false_iff_ne.mpr (head?_toString_ne pos), Bool.false_and]
  have filled : (toString value.natAbs).toList.isEmpty = false := List.isEmpty_eq_false_iff.mpr toList_toString_ne_nil
  have plain (negative : Bool) (kept : Significand) (sign : negative = decide (value < 0)) :
    readNumber.plain negative (toString value.natAbs).toList [] kept rest = some (.int value, rest) := by
    have signed : (if negative then -((value.natAbs : Nat) : Int) else value.natAbs) = value := by
      subst sign
      by_cases below : value < 0
      · rw [if_pos (decide_eq_true below)]
        omega
      · rw [if_neg (by simpa using below)]
        omega
    unfold readNumber.plain
    simp only [decimalValue_toString, signed]
    rw [if_pos]
    subst sign
    simp [low, high]
    omega
  rw [toList_toString_int, List.append_assoc]
  unfold readNumber
  split
  next x negative body sign =>
  obtain ⟨c, more, whole⟩ := List.exists_cons_of_ne_nil (toList_toString_ne_nil (n := value.natAbs))
  have signless := @signless_of_digit ((toString value.natAbs).toList ++ rest)
    ⟨c, by rw [whole]; rfl, digits c (by rw [whole]; exact List.mem_cons_self)⟩
  obtain ⟨rfl, rfl⟩ := Prod.mk.inj (sign.symm.trans (takeSign signless))
  simp only [run, behind, start, filled, Bool.or_false, Bool.false_eq_true, if_false]
  cases rest with
  | nil => exact plain _ _ rfl
  | cons c rest =>
    obtain ⟨-, point, lower, upper⟩ := ends c rfl
    split
    · next point' => exact absurd (List.cons.inj point').1 point
    · simp only [Option.bind_eq_bind, Option.bind_some, beq_eq_false_iff_ne.mpr lower, beq_eq_false_iff_ne.mpr upper,
        Bool.or_false, Bool.false_eq_true, if_false]
      exact plain _ _ rfl

/-- A number starts with a digit or a minus. -/
theorem head?_of_readNumber {text : List Char} (read : (readNumber text).isSome) :
    ∃ c, text.head? = some c ∧ (isDigit c = true ∨ c = '-') := by
  cases text with
  | nil => cases read
  | cons c text =>
    refine ⟨c, rfl, ?_⟩
    by_contra other
    obtain ⟨digit, minus⟩ := not_or.mp other
    unfold readNumber at read
    split at read
    next _ negative body sign =>
    split at sign
    · next same => exact minus (List.cons.inj same).1
    · cases sign
      simp [digit] at read

/-- A double whose text is read back as it was. -/
def Rereads (x : Double) : Prop :=
  ∀ rest, EndsNumber rest → readNumber ((realText x).toList ++ rest) = some (.real x, rest)

/-- The double that the text of a double is read as, where a double is all of it. -/
def rereadDouble (x : Double) : Option Double :=
  match readNumber (realText x).toList with
  | some (.real y, []) => some y
  | _ => none

/-- The text of a double is read alike whatever stands behind it. -/
structure Scans (x : Double) : Prop where
  start : ∃ c, (realText x).toList.head? = some c ∧ (isDigit c = true ∨ c = '-')
  reads : ∀ rest, EndsNumber rest →
    readNumber ((realText x).toList ++ rest) = (rereadDouble x).map fun y => (.real y, rest)

mutual
/-- A value with every double as its text is read. -/
def reread : Json → Option Json
  | real x => (rereadDouble x).map real
  | array items => (rereadItems items).map array
  | object fields => (rereadFields fields).map object
  | other => some other

/-- The items of a list with every double as its text is read. -/
def rereadItems : List Json → Option (List Json)
  | [] => some []
  | item :: rest => (reread item).bind fun read => (rereadItems rest).map (read :: ·)

/-- The fields of a list with every double as its text is read. -/
def rereadFields : List (String × Json) → Option (List (String × Json))
  | [] => some []
  | (name, value) :: rest => (reread value).bind fun read => (rereadFields rest).map ((name, read) :: ·)
end

/-- A number that is found where its text stands: an integer in range, or a double whose text is read alike everywhere. -/
def IsScanned : Json → Prop
  | int n => leastInt ≤ n ∧ n ≤ greatestInt
  | real x => Scans x
  | _ => False

mutual
/-- A value whose text is read back as it was: integers in range, and doubles that are read back. -/
def Writable : Json → Prop
  | int n => leastInt ≤ n ∧ n ≤ greatestInt
  | real x => Rereads x
  | array items => WritableItems items
  | object fields => WritableFields fields
  | _ => True

/-- Every item of a list can be written. -/
def WritableItems : List Json → Prop
  | [] => True
  | item :: rest => Writable item ∧ WritableItems rest

/-- Every field value of a list can be written. -/
def WritableFields : List (String × Json) → Prop
  | [] => True
  | (_, value) :: rest => Writable value ∧ WritableFields rest
end

theorem writableItems_iff {items : List Json} : WritableItems items ↔ ∀ item ∈ items, item.Writable := by
  induction items with
  | nil => simp [WritableItems]
  | cons item rest ih => simp [WritableItems, ih]

theorem canonicalItems_eq_self {items : List Json} (canonical : ∀ item ∈ items, item.canonical = item) :
    canonicalItems items = items := by
  induction items with
  | nil => rfl
  | cons item rest ih =>
    rw [canonicalItems, canonical item List.mem_cons_self, ih fun other member =>
      canonical other (List.mem_cons_of_mem item member)]

/-- What a number starts with starts no other value, and is no blank. -/
theorem start_apart {c : Char} (start : isDigit c = true ∨ c = '-') :
    isSpace c = false ∧ c ≠ '"' ∧ c ≠ '[' ∧ c ≠ '\x7b' ∧ c ≠ 'n' ∧ c ≠ 't' ∧ c ≠ 'f' ∧ c ≠ ']' := by
  rcases start with digit | rfl
  · rw [isDigit_iff] at digit
    have code {d : Char} (outside : d.toNat < 48 ∨ 57 < d.toNat) : c ≠ d := by
      rintro rfl
      omega
    refine ⟨?_, code (by decide), code (by decide), code (by decide), code (by decide), code (by decide),
      code (by decide), code (by decide)⟩
    simp only [isSpace, Bool.or_eq_false_iff, beq_eq_false_iff_ne]
    exact ⟨⟨⟨code (by decide), code (by decide)⟩, code (by decide)⟩, code (by decide)⟩
  · decide

/-- What starts like a number is read as a number or not at all. -/
theorem readValue_number {fuel limit : Nat} {text : List Char}
    (number : ∃ c, text.head? = some c ∧ (isDigit c = true ∨ c = '-')) :
    readValue (fuel + 1) limit text = readNumber text := by
  obtain ⟨c, first, start⟩ := number
  obtain ⟨solid, quote, bracket, brace, null, yes, no, -⟩ := start_apart start
  obtain ⟨more, rfl⟩ := List.head?_eq_some_iff.mp first
  rw [readValue, List.dropWhile_cons_of_neg (by simp [solid])]
  split
  · next same => exact absurd (List.cons.inj same).1 quote
  · next same => exact absurd (List.cons.inj same).1 bracket
  · next same => exact absurd (List.cons.inj same).1 brace
  · next same => exact absurd (List.cons.inj same).1 null
  · next same => exact absurd (List.cons.inj same).1 yes
  · next same => exact absurd (List.cons.inj same).1 no
  · rfl

theorem quote_append (text : String) (rest : List Char) :
    (quote text).toList ++ rest = '"' :: (text.toList.flatMap (fun c => (escaped c).toList) ++ '"' :: rest) := by
  rw [toList_quote]
  simp

theorem readValue_string (fuel limit : Nat) (text : String) (rest : List Char) :
    readValue (fuel + 1) limit ((quote text).toList ++ rest) = some (.string text, rest) := by
  rw [quote_append, readValue, List.dropWhile_cons_of_neg (by decide)]
  simp only [readString_quoted, Option.map_some, String.ofList_toList]

theorem toList_compact_array (items : List Json) :
    (compact (.array items)).toList = '[' :: ((compactItems items).toList ++ [']']) := by
  rw [compact, String.toList_append, String.toList_append, List.append_assoc]
  rfl

theorem toList_compact_object (fields : List (String × Json)) :
    (compact (.object fields)).toList = '\x7b' :: ((compactFields fields).toList ++ ['\x7d']) := by
  rw [compact, String.toList_append, String.toList_append, List.append_assoc]
  rfl

/-- The text of a value starts neither with a blank nor with a closing bracket. -/
theorem exists_head_compact {value : Json} (scanned : value.Every IsScanned) :
    ∃ c more, (compact value).toList = c :: more ∧ isSpace c = false ∧ c ≠ ']' := by
  have ofNumber {text : List Char} (number : ∃ c, text.head? = some c ∧ (isDigit c = true ∨ c = '-')) :
      ∃ c more, text = c :: more ∧ isSpace c = false ∧ c ≠ ']' := by
    obtain ⟨c, first, start⟩ := number
    obtain ⟨more, rfl⟩ := List.head?_eq_some_iff.mp first
    obtain ⟨solid, -, -, -, -, -, -, apart⟩ := start_apart start
    exact ⟨c, more, rfl, solid, apart⟩
  cases value with
  | null => exact ⟨'n', _, rfl, by decide, by decide⟩
  | bool value => cases value <;> exact ⟨_, _, rfl, by decide, by decide⟩
  | int n =>
    have read := readNumber_toString scanned.1 scanned.2 endsNumber_nil
    rw [List.append_nil] at read
    exact ofNumber (head?_of_readNumber (by rw [compact, read]; rfl))
  | real x => exact ofNumber (Scans.start scanned)
  | string text =>
    rw [compact, toList_quote]
    exact ⟨'"', _, rfl, by decide, by decide⟩
  | array items =>
    rw [toList_compact_array]
    exact ⟨'[', _, rfl, by decide, by decide⟩
  | object fields =>
    rw [toList_compact_object]
    exact ⟨'\x7b', _, rfl, by decide, by decide⟩

theorem toList_compactItems_cons (item next : Json) (items : List Json) :
    (compactItems (item :: next :: items)).toList =
      (compact item).toList ++ ',' :: (compactItems (next :: items)).toList := by
  rw [compactItems, String.toList_append, String.toList_append, List.append_assoc]
  · rfl
  · simp

theorem toList_field (name : String) (value : Json) :
    (quote name ++ ":" ++ compact value).toList = (quote name).toList ++ ':' :: (compact value).toList := by
  rw [String.toList_append, String.toList_append, List.append_assoc]
  rfl

theorem toList_compactFields_cons (name : String) (value : Json) (next : String × Json)
    (fields : List (String × Json)) : (compactFields ((name, value) :: next :: fields)).toList =
      (quote name).toList ++ ':' :: ((compact value).toList ++ ',' :: (compactFields (next :: fields)).toList) := by
  rw [compactFields, String.toList_append, String.toList_append, toList_field, List.append_assoc, List.append_assoc]
  · rfl
  · simp

mutual
/-- The compact text of a value is read with every double as its text is read, whatever stands behind it. -/
theorem readValue_compact : ∀ (value : Json) (fuel limit : Nat) (rest : List Char), value.Every IsScanned →
    (compact value).toList.length < fuel → value.depth ≤ limit → EndsNumber rest →
    readValue fuel limit ((compact value).toList ++ rest) = value.reread.map fun read => (read, rest)
  | _, 0 => fun _ _ _ room => absurd room (Nat.not_lt_zero _)
  | .null, _ + 1 | .bool true, _ + 1 | .bool false, _ + 1 => fun _ _ _ _ _ _ => rfl
  | .int n, fuel + 1 => by
    intro limit rest scanned _ _ ends
    have read := readNumber_toString scanned.1 scanned.2 ends
    rw [compact, readValue_number (head?_of_readNumber (by rw [read]; rfl)), read]
    rfl
  | .real x, fuel + 1 => by
    intro limit rest scanned _ _ ends
    have start : ∃ c, ((realText x).toList ++ rest).head? = some c ∧ (isDigit c = true ∨ c = '-') := by
      obtain ⟨c, first, start⟩ := Scans.start scanned
      exact ⟨c, by rw [List.head?_append, first]; rfl, start⟩
    rw [compact, readValue_number start, Scans.reads scanned rest ends, reread, Option.map_map]
    rfl
  | .string text, fuel + 1 => fun limit rest _ _ _ _ => readValue_string fuel limit text rest
  | .array [], _ + 1 => by
    intro limit rest _ _ deep _
    obtain ⟨limit, rfl⟩ := Nat.exists_eq_add_one.mpr (Nat.zero_lt_of_lt deep)
    rfl
  | .array (item :: items), fuel + 1 => by
    intro limit rest scanned room deep _
    obtain ⟨limit, rfl⟩ := Nat.exists_eq_add_one.mpr (Nat.zero_lt_of_lt deep)
    rw [toList_compact_array] at room ⊢
    simp only [List.length_cons, List.length_append, List.length_nil] at room
    have read := readItems_compact item items fuel limit rest scanned (by omega) (Nat.le_of_succ_le_succ deep)
    have start : ∃ c more, (compactItems (item :: items)).toList = c :: more ∧ isSpace c = false ∧ c ≠ ']' := by
      obtain ⟨c, more, first, start⟩ := exists_head_compact scanned.1
      cases items with
      | nil => exact ⟨c, more, first, start⟩
      | cons next items => exact ⟨c, _, by rw [toList_compactItems_cons, first, List.cons_append], start⟩
    obtain ⟨c, more, first, solid, apart⟩ := start
    rw [first] at read
    rw [first, List.cons_append, List.append_assoc, List.singleton_append, readValue,
      List.dropWhile_cons_of_neg (by decide)]
    simp only [List.cons_append, List.dropWhile_cons_of_neg (show ¬isSpace c = true by simp [solid])] at read ⊢
    split
    · next zero => exact absurd zero (Nat.succ_ne_zero limit)
    · next same => exact absurd (List.cons.inj same).1 apart
    · next inner same _ =>
      cases Nat.succ.inj same
      rw [read, reread, Option.map_map, Option.map_map]
      rfl
  | .object [], _ + 1 => by
    intro limit rest _ _ deep _
    obtain ⟨limit, rfl⟩ := Nat.exists_eq_add_one.mpr (Nat.zero_lt_of_lt deep)
    rfl
  | .object ((name, value) :: fields), fuel + 1 => by
    intro limit rest scanned room deep _
    obtain ⟨limit, rfl⟩ := Nat.exists_eq_add_one.mpr (Nat.zero_lt_of_lt deep)
    rw [toList_compact_object] at room ⊢
    simp only [List.length_cons, List.length_append, List.length_nil] at room
    have read := readFields_compact name value fields fuel limit rest scanned (by omega) (Nat.le_of_succ_le_succ deep)
    have start : ∃ more, (compactFields ((name, value) :: fields)).toList = '"' :: more := by
      cases fields with
      | nil => exact ⟨_, by rw [compactFields, toList_field, quote_append]⟩
      | cons next fields => exact ⟨_, by rw [toList_compactFields_cons, quote_append]⟩
    obtain ⟨more, first⟩ := start
    rw [first] at read
    rw [first, List.cons_append, List.append_assoc, List.singleton_append, readValue,
      List.dropWhile_cons_of_neg (by decide)]
    simp only [List.cons_append, List.dropWhile_cons_of_neg (show ¬isSpace '"' = true by decide)] at read ⊢
    rw [reread, Option.map_map]
    exact (congrArg (Option.map fun read => (Json.object read.1, read.2)) read).trans (Option.map_map _ _ _)
termination_by structural _ fuel => fuel

theorem readItems_compact : ∀ (item : Json) (items : List Json) (fuel limit : Nat) (rest : List Char),
    EveryItem IsScanned (item :: items) → (compactItems (item :: items)).toList.length + 1 < fuel →
    depthItems (item :: items) ≤ limit →
    readItems fuel limit ((compactItems (item :: items)).toList ++ ']' :: rest) =
      (rereadItems (item :: items)).map fun read => (read, rest)
  | _, _, 0 => fun _ _ _ room => absurd room (Nat.not_lt_zero _)
  | item, [], fuel + 1 => by
    intro limit rest scanned room deep
    have value := readValue_compact item fuel limit (']' :: rest) scanned.1 (by rw [compactItems] at room; omega)
      (Nat.max_le.mp deep).1 (endsNumber_mark rest).1
    rw [compactItems, readItems, value]
    cases read : item.reread <;> simp [rereadItems, read, isSpace]
  | item, next :: items, fuel + 1 => by
    intro limit rest scanned room deep
    rw [toList_compactItems_cons] at room ⊢
    simp only [List.length_append, List.length_cons] at room
    have value := readValue_compact item fuel limit (',' :: ((compactItems (next :: items)).toList ++ ']' :: rest))
      scanned.1 (by omega) (Nat.max_le.mp deep).1 (endsNumber_mark _).2.2
    have more := readItems_compact next items fuel limit rest scanned.2 (by omega) (Nat.max_le.mp deep).2
    rw [List.append_assoc, List.cons_append, readItems, value, rereadItems]
    cases item.reread with
    | none => rfl
    | some read =>
      simp only [Option.bind_eq_bind, Option.bind_some, Option.map_some,
        List.dropWhile_cons_of_neg (show ¬isSpace ',' = true by decide), more]
      cases rereadItems (next :: items) <;> rfl
termination_by structural _ _ fuel => fuel

theorem readFields_compact : ∀ (name : String) (value : Json) (fields : List (String × Json)) (fuel limit : Nat)
    (rest : List Char), EveryField IsScanned ((name, value) :: fields) →
    (compactFields ((name, value) :: fields)).toList.length + 1 < fuel →
    depthFields ((name, value) :: fields) ≤ limit →
    readFields fuel limit ((compactFields ((name, value) :: fields)).toList ++ '\x7d' :: rest) =
      (rereadFields ((name, value) :: fields)).map fun read => (read, rest)
  | _, _, _, 0 => fun _ _ _ room => absurd room (Nat.not_lt_zero _)
  | name, value, [], fuel + 1 => by
    intro limit rest scanned room deep
    rw [compactFields, toList_field] at room ⊢
    simp only [List.length_append, List.length_cons] at room
    have read := readValue_compact value fuel limit ('\x7d' :: rest) scanned.1 (by omega) (Nat.max_le.mp deep).1
      (endsNumber_mark rest).2.1
    rw [List.append_assoc, quote_append, readFields, List.dropWhile_cons_of_neg (by decide)]
    simp only [Option.bind_eq_bind, Option.bind_some, readString_quoted, List.cons_append,
      List.dropWhile_cons_of_neg (show ¬isSpace ':' = true by decide), read, String.ofList_toList, rereadFields]
    cases value.reread <;> rfl
  | name, value, (other, next) :: fields, fuel + 1 => by
    intro limit rest scanned room deep
    rw [toList_compactFields_cons] at room ⊢
    simp only [List.length_append, List.length_cons] at room
    have read := readValue_compact value fuel limit
      (',' :: ((compactFields ((other, next) :: fields)).toList ++ '\x7d' :: rest)) scanned.1 (by omega)
      (Nat.max_le.mp deep).1 (endsNumber_mark _).2.2
    have more := readFields_compact other next fields fuel limit rest scanned.2 (by omega) (Nat.max_le.mp deep).2
    rw [List.append_assoc, quote_append, readFields, List.dropWhile_cons_of_neg (by decide), rereadFields]
    simp only [Option.bind_eq_bind, Option.bind_some, readString_quoted, List.cons_append, List.append_assoc,
      List.dropWhile_cons_of_neg (show ¬isSpace ':' = true by decide), read, String.ofList_toList]
    cases value.reread with
    | none => rfl
    | some read =>
      simp only [Option.bind_some, Option.map_some, List.dropWhile_cons_of_neg (show ¬isSpace ',' = true by decide),
        more]
      cases rereadFields ((other, next) :: fields) <;> rfl
termination_by structural _ _ _ fuel => fuel
end

/-! Values that are read back as they were -/

theorem Rereads.scans {x : Double} (rereads : Rereads x) : Scans x ∧ rereadDouble x = some x := by
  have alone := rereads [] endsNumber_nil
  rw [List.append_nil] at alone
  have same : rereadDouble x = some x := by rw [rereadDouble, alone]
  refine ⟨⟨head?_of_readNumber (by rw [alone]; rfl), fun rest ends => ?_⟩, same⟩
  rw [rereads rest ends, same]
  rfl

mutual
/-- A value that can be written is found where it stands, and as it was. -/
theorem Writable.scanned : ∀ {value : Json}, value.Writable → value.Every IsScanned ∧ value.reread = some value
  | .null, _ | .bool _, _ | .string _, _ => ⟨trivial, rfl⟩
  | .int _, writable => ⟨writable, rfl⟩
  | .real x, writable => by
    obtain ⟨scans, same⟩ := Rereads.scans writable
    exact ⟨scans, by rw [reread, same]; rfl⟩
  | .array items, writable => by
    obtain ⟨scanned, same⟩ := WritableItems.scanned writable
    exact ⟨scanned, by rw [reread, same]; rfl⟩
  | .object fields, writable => by
    obtain ⟨scanned, same⟩ := WritableFields.scanned writable
    exact ⟨scanned, by rw [reread, same]; rfl⟩

theorem WritableItems.scanned : ∀ {items : List Json}, WritableItems items →
    EveryItem IsScanned items ∧ rereadItems items = some items
  | [], _ => ⟨trivial, rfl⟩
  | _ :: _, writable => by
    obtain ⟨first, read⟩ := writable.1.scanned
    obtain ⟨rest, more⟩ := WritableItems.scanned writable.2
    exact ⟨⟨first, rest⟩, by rw [rereadItems, read, more]; rfl⟩

theorem WritableFields.scanned : ∀ {fields : List (String × Json)}, WritableFields fields →
    EveryField IsScanned fields ∧ rereadFields fields = some fields
  | [], _ => ⟨trivial, rfl⟩
  | (_, _) :: _, writable => by
    obtain ⟨first, read⟩ := writable.1.scanned
    obtain ⟨rest, more⟩ := WritableFields.scanned writable.2
    exact ⟨⟨first, rest⟩, by rw [rereadFields, read, more]; rfl⟩
end

/-- A number ends at a blank. -/
theorem endsNumber_blanks {blanks : List Char} (blank : ∀ c ∈ blanks, isSpace c = true) : EndsNumber blanks := by
  cases blanks with
  | nil => exact endsNumber_nil
  | cons c rest =>
    have space := blank c List.mem_cons_self
    simp only [isSpace, Bool.or_eq_true, beq_iff_eq, or_assoc] at space
    rcases space with rfl | rfl | rfl | rfl <;> exact endsNumber_cons ⟨rfl, by decide⟩ rest

/-- A document is read from its compact text with blanks behind it, with its fields as they stand and every double as its
text is read. -/
theorem read?_compact_scanned {value : Json} (scanned : value.Every IsScanned) (deep : value.depth ≤ depthLimit)
    {blanks : String} (blank : ∀ c ∈ blanks.toList, isSpace c = true) :
    read? (compact value ++ blanks) = value.reread := by
  have fuel : (compact value).toList.length < (compact value ++ blanks).length + 1 := by
    rw [String.length_append, String.length_toList]
    omega
  have read := readValue_compact value ((compact value ++ blanks).length + 1) depthLimit blanks.toList scanned fuel
    deep (endsNumber_blanks blank)
  rw [read?, String.toList_append, read]
  cases value.reread with
  | none => rfl
  | some read => exact if_pos (List.all_eq_true.mpr blank)

/-- A document is read back from its compact text with blanks behind it, with its fields as they stand. -/
theorem read?_compact_append {value : Json} (writable : value.Writable) (deep : value.depth ≤ depthLimit)
    {blanks : String} (blank : ∀ c ∈ blanks.toList, isSpace c = true) :
    read? (compact value ++ blanks) = some value := by
  obtain ⟨scanned, same⟩ := writable.scanned
  rw [read?_compact_scanned scanned deep blank, same]

/-- A document is read back from its compact text. -/
theorem read?_compact {value : Json} (writable : value.Writable) (deep : value.depth ≤ depthLimit) :
    read? (compact value) = some value := by
  have read : read? (compact value ++ "") = some value := read?_compact_append writable deep (by simp)
  rwa [String.append_empty] at read

end Runbook.Json
