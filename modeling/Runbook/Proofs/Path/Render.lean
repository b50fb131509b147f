import Runbook.Proofs.Path.Grammar

/-!
Paths as they are printed. Segments that can be written at all are written by their printed form, so reading it gives
them back as long as no blank stands at either end; and the segments of a path that was read are always read back from
their printed form.
-/

namespace Runbook

open Text

/-- A segment that a path can hold: a key of the grammar, or a position in reach. -/
def Segment.Printable : Segment → Prop
  | .key name => Path.IsKey name.toList
  | .index position => position < Path.positionLimit

instance (segment : Segment) : Decidable segment.Printable :=
  match segment with
  | .key name => inferInstanceAs (Decidable (Path.IsKey name.toList))
  | .index position => inferInstanceAs (Decidable (position < Path.positionLimit))

namespace Path

variable {text part : List Char} {position : Nat} {segments group rest : List Segment}

theorem isDecimal_toString (n : Nat) : IsDecimal (toString n).toList n := by
  have decimal := IsDecimal.plain (toList_toString_ne_nil (n := n)) fun _ => isDigit_of_mem_toString
  rwa [decimalValue_toString] at decimal

/-- A position in brackets is a subscript. -/
theorem isSubscript_segmentText (fits : position < positionLimit) (first : Bool) :
    IsSubscript (segmentText first (.index position)).toList position := by
  have decimal : IsDecimal (trim (toString position).toList) position := by
    rw [(isSolid_toString position).isTrimmed]
    exact isDecimal_toString position
  have written : (segmentText first (.index position)).toList = '[' :: ((toString position).toList ++ [']']) := by
    simp [segmentText, String.toList_append]
  rw [written]
  exact .bracketed decimal fits

theorem AreSubscripts.snoc {more : List Char} (subscripts : AreSubscripts text segments)
    (last : IsSubscript more position) : AreSubscripts (text ++ more) (segments ++ [.index position]) := by
  induction subscripts with
  | nil => simpa using AreSubscripts.cons last .nil
  | cons first _ ih => simpa using AreSubscripts.cons first ih

/-- A subscript behind a part belongs to the part. -/
theorem IsPart.snoc {more : List Char} (isPart : IsPart part group) (last : IsSubscript more position) :
    IsPart (part ++ more) (group ++ [.index position]) := by
  cases isPart with
  | keyed isKey subscripts => simpa using IsPart.keyed isKey (subscripts.snoc last)
  | keyless filled subscripts => exact .keyless (by simp [filled]) (subscripts.snoc last)

theorem isPart_key {name : String} (isKey : IsKey name.toList) : IsPart name.toList [.key name] := by
  have alone := IsPart.keyed isKey .nil
  rwa [List.append_nil, String.ofList_toList] at alone

/-- The written form of segments that stand behind other ones. -/
def renderMore (segments : List Segment) : List Char := segments.flatMap fun segment => (segmentText false segment).toList

theorem toList_render (first : Segment) (rest : List Segment) :
    (render (first :: rest)).toList = (segmentText true first).toList ++ renderMore rest := by
  have joined (rest : List Segment) : (String.join (rest.map (segmentText false))).toList = renderMore rest := by
    induction rest with
    | nil => rfl
    | cons segment rest ih => simp [renderMore, String.join_cons, ih, String.toList_append]
  rw [render, String.toList_append, joined]

/-- Behind a part, segments go on with it or start parts of their own, by induction on the segments. -/
theorem IsPart.exists_parts (isPart : IsPart part group) (printable : ∀ segment ∈ rest, segment.Printable) :
    ∃ parts groups, parts ≠ [] ∧ List.Forall₂ IsPart parts groups ∧
      ['.'].intercalate parts = part ++ renderMore rest ∧ groups.flatten = group ++ rest := by
  induction rest generalizing part group with
  | nil => exact ⟨[part], [group], by simp, .cons isPart .nil, by simp [renderMore], by simp⟩
  | cons segment rest ih =>
    obtain ⟨own, others⟩ := List.forall_mem_cons.mp printable
    cases segment with
    | index position =>
      obtain ⟨parts, groups, filled, each, whole, all⟩ := ih (isPart.snoc (isSubscript_segmentText own false)) others
      exact ⟨parts, groups, filled, each, by simpa [renderMore] using whole, by simpa using all⟩
    | key name =>
      obtain ⟨parts, groups, filled, each, whole, all⟩ := ih (isPart_key own) others
      refine ⟨part :: parts, group :: groups, List.cons_ne_nil _ _, .cons isPart each, ?_, ?_⟩
      · rw [List.intercalate_cons_of_ne_nil filled, whole]
        simp [renderMore, segmentText, String.toList_append]
      · rw [List.flatten_cons, all]
        rfl

/-- Segments that a path can hold are written by their printed form. -/
theorem writes_render (printable : ∀ segment ∈ segments, segment.Printable) :
    Writes (render segments).toList segments := by
  cases segments with
  | nil => exact .empty
  | cons first rest =>
    obtain ⟨own, others⟩ := List.forall_mem_cons.mp printable
    have isPart : IsPart (segmentText true first).toList [first] := by
      cases first with
      | key name => exact isPart_key own
      | index position =>
        have subscript := isSubscript_segmentText own true
        obtain ⟨more, starts⟩ := subscript.exists_cons
        exact .keyless (by simp [starts]) (by simpa using AreSubscripts.cons subscript .nil)
    obtain ⟨parts, groups, filled, each, whole, all⟩ := isPart.exists_parts others
    have written := Writes.dotted filled each
    rwa [whole, all, ← toList_render] at written

/-! What a path that was read holds -/

theorem AreSubscripts.printable (subscripts : AreSubscripts text segments) :
    ∀ segment ∈ segments, segment.Printable := by
  induction subscripts with
  | nil => simp
  | cons first _ ih =>
    cases first with
    | bracketed _ fits => exact List.forall_mem_cons.mpr ⟨fits, ih⟩

theorem IsPart.printable (isPart : IsPart part group) : ∀ segment ∈ group, segment.Printable := by
  cases isPart with
  | @keyed key _ _ isKey subscripts =>
    have own : (Segment.key (String.ofList key)).Printable := by
      rw [Segment.Printable, String.toList_ofList]
      exact isKey
    exact List.forall_mem_cons.mpr ⟨own, subscripts.printable⟩
  | keyless _ subscripts => exact subscripts.printable

theorem Writes.printable (writes : Writes text segments) : ∀ segment ∈ segments, segment.Printable := by
  cases writes with
  | empty => simp
  | @dotted parts groups filled each =>
    clear filled
    have all : ∀ group ∈ groups, ∀ segment ∈ group, segment.Printable := by
      induction each with
      | nil => simp
      | cons first _ ih => exact List.forall_mem_cons.mpr ⟨first.printable, ih⟩
    intro segment member
    obtain ⟨group, inside, held⟩ := List.mem_flatten.mp member
    exact all group inside segment held

/-- The character that a text of a segment starts with. -/
def front? : Segment → Option Char
  | .key name => name.toList.head?
  | .index _ => some '['

/-- The character that a text of a segment ends with. -/
def back? : Segment → Option Char
  | .key name => name.toList.getLast?
  | .index _ => some ']'

theorem AreSubscripts.ends (subscripts : AreSubscripts text segments) :
    text.head? = segments.head?.bind front? ∧ text.getLast? = segments.getLast?.bind back? := by
  induction subscripts with
  | nil => exact ⟨rfl, rfl⟩
  | @cons text rest position segments first more ih =>
    have closed : text.getLast? = some ']' := by
      cases first
      simp [List.getLast?_cons]
    obtain ⟨inside, rfl⟩ := first.exists_cons
    refine ⟨rfl, ?_⟩
    cases more with
    | nil => simpa [back?] using closed
    | cons second =>
      obtain ⟨next, rfl⟩ := second.exists_cons
      rw [List.getLast?_append_of_ne_nil _ (by simp), ih.2, List.getLast?_cons_cons]

theorem IsPart.group_ne_nil (isPart : IsPart part group) : group ≠ [] := by
  cases isPart with
  | keyed => exact List.cons_ne_nil _ _
  | keyless filled subscripts =>
    rintro rfl
    cases subscripts
    exact filled rfl

/-- A part starts as its first segment does and ends as its last one does. -/
theorem IsPart.ends (isPart : IsPart part group) :
    part.head? = group.head?.bind front? ∧ part.getLast? = group.getLast?.bind back? := by
  cases isPart with
  | keyless _ subscripts => exact subscripts.ends
  | @keyed key rest segments isKey subscripts =>
    constructor
    · rw [List.head?_append_of_ne_nil _ isKey.filled]
      simp [front?]
    · cases subscripts with
      | nil => simp [back?]
      | cons first more =>
        have last := (AreSubscripts.cons first more).ends.2
        obtain ⟨inside, rfl⟩ := first.exists_cons
        rw [List.getLast?_append_of_ne_nil _ (by simp), last, List.getLast?_cons_cons]

/-- A text that writes segments starts as the first of them does and ends as the last one does. -/
theorem Writes.ends (writes : Writes text segments) :
    text.head? = segments.head?.bind front? ∧ text.getLast? = segments.getLast?.bind back? := by
  cases writes with
  | empty => exact ⟨rfl, rfl⟩
  | dotted filled each =>
    induction each with
    | nil => exact absurd rfl filled
    | @cons part group parts groups first others ih =>
      rw [List.flatten_cons, List.head?_append_of_ne_nil _ first.group_ne_nil]
      cases others with
      | nil => simpa using first.ends
      | @cons next _ rest _ second more =>
        obtain ⟨-, last⟩ := ih (List.cons_ne_nil _ _)
        have later := intercalate_ne_nil (List.cons_ne_nil next rest) (.cons second more)
        rw [List.intercalate_cons_of_ne_nil (List.cons_ne_nil _ _), List.append_assoc,
          List.head?_append_of_ne_nil _ first.filled, List.getLast?_append_of_ne_nil _ (by simp),
          List.getLast?_append_of_ne_nil _ later, List.getLast?_append_of_ne_nil _ (by simp [second.group_ne_nil])]
        exact ⟨first.ends.1, last⟩

/-- Whether blanks stand around a text depends on the segments alone that it writes. -/
theorem Writes.isTrimmed_congr {other : List Char} (writes : Writes text segments) (again : Writes other segments)
    (trimmed : IsTrimmed text) : IsTrimmed other := by
  rw [isTrimmed_iff] at trimmed ⊢
  rwa [again.ends.1, again.ends.2, ← writes.ends.1, ← writes.ends.2]

theorem parse_render (printable : ∀ segment ∈ segments, segment.Printable)
    (trimmed : IsTrimmed (render segments).toList) : parse (render segments) = .ok segments := by
  rw [parse_eq_ok_iff, trimmed]
  exact writes_render printable

/-- The grammar of paths and its inverse. A path is read as segments just when, without the blanks around it, it is empty
or made of parts between dots that write these segments. Segments that a path can hold are read back from their printed
form if no blank stands at either end of it; and those of a path that was read are always read back. -/
theorem parse_printed (path : String) (segments : List Segment) :
    (parse path = .ok segments ↔ Writes (trim path.toList) segments) ∧
      ((∀ segment ∈ segments, segment.Printable) →
        (∀ c ∈ (render segments).toList.head?, isBlank c = false) →
        (∀ c ∈ (render segments).toList.getLast?, isBlank c = false) → parse (render segments) = .ok segments) ∧
      (parse path = .ok segments → parse (render segments) = .ok segments) := by
  refine ⟨parse_eq_ok_iff, fun printable front back => ?_, fun read => ?_⟩
  · exact parse_render printable (isTrimmed_iff.mpr ⟨front, back⟩)
  · have writes := parse_eq_ok_iff.mp read
    have printed := writes_render writes.printable
    exact parse_render writes.printable (writes.isTrimmed_congr printed (isTrimmed_trim _))

/-- Blanks, a plus sign and zeros in front of a position are read and not printed again. -/
theorem padded_printed :
    Writes "data.items[ +01 ][2].id".toList [.key "data", .key "items", .index 1, .index 2, .key "id"] ∧
      parse "data.items[1][2].id" = .ok [.key "data", .key "items", .index 1, .index 2, .key "id"] ∧
      parse "[0] .[" ≠ .ok [.index 0] := by
  have read : parse " data.items[ +01 ][2].id\n" = .ok [.key "data", .key "items", .index 1, .index 2, .key "id"] := by
    rfl
  obtain ⟨written, -, again⟩ := parse_printed _ _
  exact ⟨written.mp read, again read, by decide⟩

end Path
end Runbook
