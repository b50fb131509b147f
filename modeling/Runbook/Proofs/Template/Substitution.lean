import Runbook.Proofs.Template.Placeholder
import Runbook.Template.Resolve

/-!
Templates as texts with gaps: between the placeholders of a template, taken from the left without overlap, stand the
characters that are kept. Filling a template puts the text of a value in place of each placeholder and changes nothing
else; what is put in is not looked at again.
-/

namespace Runbook

namespace Scope

/-- A name is bound by a capture or by a variable of the environment. -/
def Binds (scope : Scope) (name : String) : Prop :=
  (scope.captured.find? name).isSome ∨ (scope.environment.find? name).isSome

instance (scope : Scope) (name : String) : Decidable (scope.Binds name) := inferInstanceAs (Decidable (_ ∨ _))

/-- The value of a name, wherever it comes from. -/
def value? (scope : Scope) (name : String) : Option Json := (scope.find? name).map Prod.fst

theorem isSome_value?_iff (scope : Scope) (name : String) : (scope.value? name).isSome ↔ scope.Binds name := by
  unfold value? find? Binds
  cases scope.captured.find? name with
  | some value => simp
  | none => simp

theorem value?_eq_none_iff (scope : Scope) (name : String) : scope.value? name = none ↔ ¬scope.Binds name := by
  rw [← isSome_value?_iff, Option.not_isSome_iff_eq_none]

end Scope

namespace Template

/-- A placeholder of a text, with the characters between the placeholder before it and itself. -/
structure Occurrence where
  gap : List Char
  hole : List Char
  name : String

/-- What a placeholder and the characters in front of it are read as. -/
def Occurrence.pieces (occurrence : Occurrence) : List Piece :=
  occurrence.gap.map .char ++ [.hole occurrence.name]

/-- No placeholder starts in a text, whatever part of it stands in front of the rest. -/
def Bare (gap rest : List Char) : Prop := ∀ front back, gap = front ++ back → back ≠ [] → ¬StartsHole (back ++ rest)

/-- The placeholders of a text from left to right, without overlap, and the characters behind the last one. -/
inductive Occurs : List Char → List Occurrence → List Char → Prop
  | last {tail : List Char} (bare : Bare tail []) : Occurs tail [] tail
  | next {gap hole rest tail : List Char} {name : String} {occurrences : List Occurrence}
      (bare : Bare gap (hole ++ rest)) (isHole : IsHole hole name) (later : Occurs rest occurrences tail) :
      Occurs (gap ++ (hole ++ rest)) (⟨gap, hole, name⟩ :: occurrences) tail

/-- A text with values put in place of its placeholders. -/
def substitute (value : String → Json) (occurrences : List Occurrence) (tail : List Char) : List Char :=
  occurrences.flatMap (fun occurrence => occurrence.gap ++ (value occurrence.name).render.toList) ++ tail

variable {text tail rest gap : List Char} {occurrences others : List Occurrence} {draws : Draws} {scope : Scope}

theorem bare_cons_iff {c : Char} : Bare (c :: gap) rest ↔ ¬StartsHole (c :: (gap ++ rest)) ∧ Bare gap rest := by
  constructor
  · exact fun bare => ⟨bare [] (c :: gap) rfl (List.cons_ne_nil _ _),
      fun front back split some => bare (c :: front) back (congrArg (c :: ·) split) some⟩
  · rintro ⟨apart, bare⟩ front back split some
    cases front with
    | nil =>
      obtain rfl : c :: gap = back := split
      exact apart
    | cons d front => exact bare front back (List.cons.inj split).2 some

theorem bare_nil (rest : List Char) : Bare [] rest := fun _ _ split some =>
  absurd (List.append_eq_nil_iff.mp split.symm).2 some

instance decidableBare : (gap rest : List Char) → Decidable (Bare gap rest)
  | [], rest => .isTrue (bare_nil rest)
  | c :: gap, rest =>
    have := decidableBare gap rest
    decidable_of_iff (¬StartsHole (c :: (gap ++ rest)) ∧ Bare gap rest) bare_cons_iff.symm

/-- A text is bare up to its end, or up to its first placeholder. -/
theorem exists_first (text : List Char) : Bare text [] ∨
    ∃ gap hole rest name, text = gap ++ (hole ++ rest) ∧ IsHole hole name ∧ Bare gap (hole ++ rest) := by
  induction text with
  | nil => exact .inl (bare_nil _)
  | cons c text ih =>
    by_cases starts : StartsHole (c :: text)
    · obtain ⟨hole, name, rest, isHole, whole⟩ := starts
      exact .inr ⟨[], hole, rest, name, whole, isHole, bare_nil _⟩
    · rcases ih with bare | ⟨gap, hole, rest, name, rfl, isHole, bare⟩
      · exact .inl (bare_cons_iff.mpr ⟨by rwa [List.append_nil], bare⟩)
      · exact .inr ⟨c :: gap, hole, rest, name, rfl, isHole, bare_cons_iff.mpr ⟨starts, bare⟩⟩

/-- Every text has its placeholders. -/
theorem exists_occurs (text : List Char) : ∃ occurrences tail, Occurs text occurrences tail := by
  induction length : text.length using Nat.strongRecOn generalizing text with
  | _ length ih =>
    subst length
    rcases exists_first text with bare | ⟨gap, hole, rest, name, rfl, isHole, bare⟩
    · exact ⟨[], text, .last bare⟩
    · have shorter : rest.length < (gap ++ (hole ++ rest)).length := by
        obtain ⟨c, more, rfl⟩ := isHole.exists_cons
        simp only [List.length_append, List.length_cons]
        omega
      obtain ⟨occurrences, tail, later⟩ := ih rest.length shorter rest rfl
      exact ⟨_, tail, .next bare isHole later⟩

/-- The characters in front of the first placeholder are the same, however the text is written. -/
theorem Bare.unique {other hole second after : List Char} {name named : String} (bare : Bare gap (hole ++ rest))
    (isHole : IsHole hole name) (bareToo : Bare other (second ++ after)) (isSecond : IsHole second named)
    (same : gap ++ (hole ++ rest) = other ++ (second ++ after)) : gap = other := by
  rcases List.append_eq_append_iff.mp same with ⟨more, whole, starts⟩ | ⟨more, whole, starts⟩
  · by_contra different
    have some : more ≠ [] := by
      rintro rfl
      exact different (by simpa using whole.symm)
    exact bareToo gap more whole some ⟨hole, name, rest, isHole, starts.symm⟩
  · by_contra different
    have some : more ≠ [] := by
      rintro rfl
      exact different (by simpa using whole)
    exact bare other more whole some ⟨second, named, after, isSecond, starts.symm⟩

/-- The placeholders of a text are those of any other way to find them from the left. -/
theorem Occurs.unique {last : List Char} (occurs : Occurs text occurrences tail) (again : Occurs text others last) :
    others = occurrences ∧ last = tail := by
  -- A text that is bare to its end has no placeholder.
  have bounded {gap hole rest : List Char} {name : String} (isHole : IsHole hole name)
      (bare : Bare (gap ++ (hole ++ rest)) []) : False := by
    obtain ⟨c, more, rfl⟩ := isHole.exists_cons
    exact bare gap _ rfl (List.cons_ne_nil _ _) ⟨_, name, rest, isHole, List.append_nil _⟩
  induction occurs generalizing others with
  | @last tail bare =>
    generalize whole : tail = text at again
    cases again with
    | last => exact ⟨rfl, rfl⟩
    | next _ isHole _ =>
      subst whole
      exact (bounded isHole bare).elim
  | @next gap hole rest tail name occurrences bare isHole later ih =>
    generalize whole : gap ++ (hole ++ rest) = text at again
    cases again with
    | last bareToo =>
      subst whole
      exact (bounded isHole bareToo).elim
    | next bareToo isSecond laterToo =>
      obtain rfl := bare.unique isHole bareToo isSecond whole
      obtain ⟨rfl, rfl, rfl⟩ := isHole.unique isSecond (List.append_cancel_left whole)
      obtain ⟨rfl, rfl⟩ := ih laterToo
      exact ⟨rfl, rfl⟩

theorem Bare.piecesAfter_append (bare : Bare gap rest) :
    piecesAfter 0 (gap ++ rest) = gap.map .char ++ piecesAfter 0 rest := by
  induction gap with
  | nil => rfl
  | cons c gap ih =>
    obtain ⟨apart, later⟩ := bare_cons_iff.mp bare
    rw [List.cons_append, piecesAfter_cons apart, ih later, List.map_cons, List.cons_append]

/-- The pieces of a text are its characters outside of placeholders, and its placeholders. -/
theorem Occurs.piecesAfter_eq (occurs : Occurs text occurrences tail) :
    piecesAfter 0 text = occurrences.flatMap Occurrence.pieces ++ tail.map .char := by
  induction occurs with
  | last bare => simpa [piecesAfter] using bare.piecesAfter_append
  | next bare isHole later ih =>
    simp [Occurrence.pieces, bare.piecesAfter_append, isHole.piecesAfter_append, ih]

/-- A text is its gaps and placeholders, one after the other, and its tail. -/
theorem Occurs.text_eq (occurs : Occurs text occurrences tail) :
    text = occurrences.flatMap (fun occurrence => occurrence.gap ++ occurrence.hole) ++ tail := by
  induction occurs with
  | last => rfl
  | next _ _ _ ih => simp [← ih]

/-- The name of a piece that is a placeholder. -/
def Piece.name? : Piece → Option String
  | .hole name => some name
  | .char _ => none

theorem names_eq_filterMap (template : String) : names template = (pieces template).filterMap Piece.name? := by
  unfold names
  congr 1

theorem Occurs.names_eq {template : String} (occurs : Occurs template.toList occurrences tail) :
    names template = occurrences.map Occurrence.name := by
  have bare (text : List Char) : (text.map Piece.char).filterMap Piece.name? = [] := by
    rw [List.filterMap_map]
    exact List.filterMap_eq_nil_iff.mpr fun _ _ => rfl
  rw [names_eq_filterMap, pieces, occurs.piecesAfter_eq, List.filterMap_append, List.filterMap_flatMap, bare,
    List.append_nil, List.map_eq_flatMap]
  refine List.flatMap_congr fun occurrence _ => ?_
  rw [Occurrence.pieces, List.filterMap_append, bare]
  rfl

/-- A text without braces has no placeholders. -/
theorem hasHoles_eq_false {template : String} (plain : '\x7b' ∉ template.toList) : hasHoles template = false := by
  have bare : Bare template.toList [] := by
    rintro front back split - ⟨hole, name, rest, isHole, starts⟩
    rw [List.append_nil] at starts
    cases isHole
    exact plain (by simp [split, starts])
  rw [hasHoles, (Occurs.last bare).names_eq]
  rfl

theorem fill_char (c : Char) (pieces : List Piece) :
    fill draws scope (.char c :: pieces) = (fill draws scope pieces).map (c.toString ++ ·) := by
  rw [fill]
  cases fill draws scope pieces <;> rfl

/-- A placeholder is filled with the value that the scope has for its name, if that is not a generated one. -/
theorem fill_hole {name : String} (plain : isBuiltin name = false) (pieces : List Piece) :
    fill draws scope (.hole name :: pieces) =
      match scope.value? name with
      | some value => (fill draws scope pieces).map (value.render ++ ·)
      | none => .error ⟨name⟩ := by
  rw [fill, lookup, plain, Scope.value?]
  cases scope.find? name with
  | none => rfl
  | some found => cases fill draws scope pieces <;> rfl

theorem fill_chars (text : List Char) (pieces : List Piece) : fill draws scope (text.map .char ++ pieces) =
    (fill draws scope pieces).map (String.ofList text ++ ·) := by
  induction text with
  | nil => cases filled : fill draws scope pieces <;> simp [filled, Except.map]
  | cons c text ih =>
    rw [List.map_cons, List.cons_append, fill_char, ih]
    cases fill draws scope pieces <;> simp [Except.map, ← String.toList_inj]

/-- A placeholder behind some characters leaves these characters, and its value behind them. -/
theorem fill_occurrence {occurrence : Occurrence} (plain : isBuiltin occurrence.name = false) (pieces : List Piece) :
    fill draws scope (occurrence.pieces ++ pieces) =
      match scope.value? occurrence.name with
      | some value =>
        (fill draws scope pieces).map (String.ofList (occurrence.gap ++ value.render.toList) ++ ·)
      | none => .error ⟨occurrence.name⟩ := by
  rw [Occurrence.pieces, List.append_assoc, fill_chars, List.singleton_append, fill_hole plain]
  cases scope.value? occurrence.name with
  | none => rfl
  | some value => cases fill draws scope pieces <;> simp [Except.map, ← String.toList_inj]

/-- Where all names have values, filling puts these in place of the placeholders. -/
theorem fill_substitute {value : String → Json}
    (bound : ∀ occurrence ∈ occurrences, isBuiltin occurrence.name = false ∧
      scope.value? occurrence.name = some (value occurrence.name)) (tail : List Char) :
    fill draws scope (occurrences.flatMap Occurrence.pieces ++ tail.map .char) =
      .ok (String.ofList (substitute value occurrences tail)) := by
  induction occurrences with
  | nil =>
    have whole : fill draws scope (tail.map .char ++ []) = (fill draws scope []).map (String.ofList tail ++ ·) :=
      fill_chars tail []
    rw [List.append_nil] at whole
    rw [List.flatMap_nil, List.nil_append, whole]
    simp [fill, Except.map, substitute]
  | cons occurrence rest ih =>
    obtain ⟨⟨plain, own⟩, others⟩ := List.forall_mem_cons.mp bound
    rw [List.flatMap_cons, List.append_assoc, fill_occurrence plain, own, ih others]
    simp [Except.map, substitute, String.append_assoc]

/-- The first name without a value is the error. -/
theorem fill_unbound {front back : List Occurrence} {occurrence : Occurrence}
    (bound : ∀ earlier ∈ front, isBuiltin earlier.name = false ∧ (scope.value? earlier.name).isSome)
    (plain : isBuiltin occurrence.name = false) (unbound : scope.value? occurrence.name = none) (tail : List Char) :
    fill draws scope ((front ++ occurrence :: back).flatMap Occurrence.pieces ++ tail.map .char) =
      .error ⟨occurrence.name⟩ := by
  induction front with
  | nil => rw [List.nil_append, List.flatMap_cons, List.append_assoc, fill_occurrence plain, unbound]
  | cons earlier front ih =>
    obtain ⟨⟨plainToo, own⟩, others⟩ := List.forall_mem_cons.mp bound
    obtain ⟨value, found⟩ := Option.isSome_iff_exists.mp own
    rw [List.cons_append, List.flatMap_cons, List.append_assoc, fill_occurrence plainToo, found, ih others]
    rfl

/-- Of several placeholders the first one without a value, or none of them. -/
theorem first_unbound (scope : Scope) (occurrences : List Occurrence) :
    (∀ occurrence ∈ occurrences, (scope.value? occurrence.name).isSome) ∨
      ∃ front occurrence back, occurrences = front ++ occurrence :: back ∧
        (∀ earlier ∈ front, (scope.value? earlier.name).isSome) ∧ scope.value? occurrence.name = none := by
  by_cases all : ∀ occurrence ∈ occurrences, (scope.value? occurrence.name).isSome
  · exact .inl all
  · have some : (occurrences.find? fun occurrence => (scope.value? occurrence.name).isNone).isSome := by
      rw [List.find?_isSome]
      simpa using all
    obtain ⟨occurrence, found⟩ := Option.isSome_iff_exists.mp some
    obtain ⟨unbound, front, back, split, bound⟩ := List.find?_eq_some_iff_append.mp found
    exact .inr ⟨front, occurrence, back, split, fun earlier member => by simpa using bound earlier member,
      by simpa using unbound⟩

theorem exists_values (bound : ∀ occurrence ∈ occurrences, (scope.value? occurrence.name).isSome) :
    ∃ value : String → Json, ∀ occurrence ∈ occurrences,
      scope.value? occurrence.name = some (value occurrence.name) := by
  refine ⟨fun name => (scope.value? name).getD .null, fun occurrence member => ?_⟩
  obtain ⟨value, same⟩ := Option.isSome_iff_exists.mp (bound occurrence member)
  simp only [same, Option.getD_some]

theorem Occurs.resolve_eq {template : String} (occurs : Occurs template.toList occurrences tail) :
    resolve draws scope template = fill draws scope (occurrences.flatMap Occurrence.pieces ++ tail.map .char) := by
  rw [resolve, pieces, occurs.piecesAfter_eq]

theorem Occurs.resolve_bound {template : String} (occurs : Occurs template.toList occurrences tail)
    (plain : ∀ occurrence ∈ occurrences, isBuiltin occurrence.name = false) {value : String → Json}
    (bound : ∀ occurrence ∈ occurrences, scope.value? occurrence.name = some (value occurrence.name)) :
    resolve draws scope template = .ok (String.ofList (substitute value occurrences tail)) := by
  rw [occurs.resolve_eq]
  exact fill_substitute (fun occurrence member => ⟨plain occurrence member, bound occurrence member⟩) tail

theorem Occurs.resolve_unbound {template : String} {front back : List Occurrence} {occurrence : Occurrence}
    (occurs : Occurs template.toList (front ++ occurrence :: back) tail)
    (plain : ∀ other ∈ front ++ occurrence :: back, isBuiltin other.name = false)
    (bound : ∀ earlier ∈ front, (scope.value? earlier.name).isSome) (unbound : scope.value? occurrence.name = none) :
    resolve draws scope template = .error ⟨occurrence.name⟩ := by
  rw [occurs.resolve_eq]
  have own := plain occurrence (List.mem_append_right _ List.mem_cons_self)
  exact fill_unbound (fun earlier member => ⟨plain earlier (List.mem_append_left _ member), bound earlier member⟩) own
    unbound tail

/-- A template without generated values is filled in the same way in scopes that give its names the same values. -/
theorem Occurs.resolve_congr {template : String} (occurs : Occurs template.toList occurrences tail)
    (plain : ∀ occurrence ∈ occurrences, isBuiltin occurrence.name = false) {others : Draws} {other : Scope}
    (agree : ∀ occurrence ∈ occurrences, other.value? occurrence.name = scope.value? occurrence.name) :
    resolve others other template = resolve draws scope template := by
  rcases first_unbound scope occurrences with bound | ⟨front, occurrence, back, rfl, bound, unbound⟩
  · obtain ⟨value, found⟩ := exists_values bound
    have foundToo (occurrence : Occurrence) (member : occurrence ∈ occurrences) :
        other.value? occurrence.name = some (value occurrence.name) :=
      (agree occurrence member).trans (found occurrence member)
    rw [occurs.resolve_bound plain found, occurs.resolve_bound plain foundToo]
  · rw [occurs.resolve_unbound plain bound unbound]
    refine occurs.resolve_unbound plain (fun earlier member => ?_) ?_
    · rw [agree earlier (List.mem_append_left _ member)]
      exact bound earlier member
    · rw [agree occurrence (List.mem_append_right _ List.mem_cons_self), unbound]

/-- A template is filled in one pass. Its placeholders are found from the left without overlap, in one way only; they
and the characters between them are the template. Without placeholders it is returned as it is. If no value is
generated, the first placeholder whose name is not bound is the error, and where all names are bound the text of each
value stands in place of its placeholder and all else is kept. What is put in is not read again, whatever it holds,
and only the values of the names in the template matter. -/
theorem resolve_substitutes (template : String) :
    ∃ occurrences tail, Occurs template.toList occurrences tail ∧
      (∀ others last, Occurs template.toList others last → others = occurrences ∧ last = tail) ∧
      template.toList = occurrences.flatMap (fun occurrence => occurrence.gap ++ occurrence.hole) ++ tail ∧
      (hasHoles template = false → ∀ draws scope, resolve draws scope template = .ok template) ∧
      ((∀ occurrence ∈ occurrences, isBuiltin occurrence.name = false) → ∀ draws scope,
        (∀ front occurrence back, occurrences = front ++ occurrence :: back →
          (∀ earlier ∈ front, scope.Binds earlier.name) → ¬scope.Binds occurrence.name →
          resolve draws scope template = .error ⟨occurrence.name⟩) ∧
        ((∀ occurrence ∈ occurrences, scope.Binds occurrence.name) →
          ∃ value, (∀ occurrence ∈ occurrences, scope.value? occurrence.name = some (value occurrence.name)) ∧
            resolve draws scope template = .ok (String.ofList (substitute value occurrences tail))) ∧
        (∀ text : String → String,
          (∀ occurrence ∈ occurrences, scope.value? occurrence.name = some (.string (text occurrence.name))) →
          resolve draws scope template = .ok (String.ofList
            (occurrences.flatMap (fun occurrence => occurrence.gap ++ (text occurrence.name).toList) ++ tail))) ∧
        ∀ others other, (∀ name ∈ names template, other.value? name = scope.value? name) →
          resolve others other template = resolve draws scope template) := by
  obtain ⟨occurrences, tail, occurs⟩ := exists_occurs template.toList
  refine ⟨occurrences, tail, occurs, fun others last => occurs.unique, occurs.text_eq, fun none draws scope => ?_,
    fun plain draws scope => ⟨?_, fun bound => ?_, fun text bound => ?_, fun others other agree => ?_⟩⟩
  · have empty : occurrences = [] := by
      rw [hasHoles, occurs.names_eq] at none
      simpa using none
    subst empty
    have whole : template.toList = tail := by simpa using occurs.text_eq
    have filled : resolve draws scope template = .ok (String.ofList (substitute (fun _ => .null) [] tail)) :=
      occurs.resolve_bound (by simp) (by simp)
    rw [filled, substitute, List.flatMap_nil, List.nil_append, ← whole, String.ofList_toList]
  · rintro front occurrence back rfl bound unbound
    exact occurs.resolve_unbound plain (fun earlier member => (scope.isSome_value?_iff _).mpr (bound earlier member))
      ((scope.value?_eq_none_iff _).mpr unbound)
  · obtain ⟨value, found⟩ := exists_values fun occurrence member =>
      (scope.isSome_value?_iff _).mpr (bound occurrence member)
    exact ⟨value, found, occurs.resolve_bound plain found⟩
  · have filled : resolve draws scope template =
        .ok (String.ofList (substitute (fun name => .string (text name)) occurrences tail)) :=
      occurs.resolve_bound plain bound
    simpa only [substitute, Json.render] using filled
  · refine occurs.resolve_congr plain fun occurrence member => agree occurrence.name ?_
    rw [occurs.names_eq]
    exact List.mem_map_of_mem member

/-- A template with a pair of braces in front of a placeholder, and a brace behind the last one. -/
def nested : String := "\x7b\x7b \x7b\x7ba\x7d\x7d-\x7b\x7b b \x7d\x7d\x7d"

theorem nested_occurs : Occurs nested.toList
    [⟨['\x7b', '\x7b', ' '], ['\x7b', '\x7b', 'a', '\x7d', '\x7d'], "a"⟩,
      ⟨['-'], ['\x7b', '\x7b', ' ', 'b', ' ', '\x7d', '\x7d'], "b"⟩] ['\x7d'] := by
  have blank : ∀ c ∈ [' '], Text.isBlank c = true := List.forall_mem_singleton.mpr (by decide)
  have first : IsHole ['\x7b', '\x7b', 'a', '\x7d', '\x7d'] "a" :=
    @IsHole.braced [] ['a'] [] (by simp) (.plain (by decide) (by simp)) (by simp)
  have second : IsHole ['\x7b', '\x7b', ' ', 'b', ' ', '\x7d', '\x7d'] "b" :=
    @IsHole.braced [' '] ['b'] [' '] blank (.plain (by decide) (by simp)) blank
  have ends : Occurs ['\x7d'] [] ['\x7d'] := .last (by decide)
  have behind : Occurs ['-', '\x7b', '\x7b', ' ', 'b', ' ', '\x7d', '\x7d', '\x7d']
      [⟨['-'], ['\x7b', '\x7b', ' ', 'b', ' ', '\x7d', '\x7d'], "b"⟩] ['\x7d'] :=
    @Occurs.next ['-'] _ ['\x7d'] _ _ _ (by decide) second ends
  have whole : nested.toList = ['\x7b', '\x7b', ' '] ++ (['\x7b', '\x7b', 'a', '\x7d', '\x7d'] ++
      ['-', '\x7b', '\x7b', ' ', 'b', ' ', '\x7d', '\x7d', '\x7d']) := rfl
  rw [whole]
  exact .next (by decide) first behind

/-- A captured text with a placeholder and braces of its own is put in as it is. In a scope without the second name that
name is the error, and in an empty scope the first one; braces alone are kept in every scope. -/
theorem nested_substitutes :
    (∀ draws, resolve draws ⟨[("a", .string "\x7b\x7bb\x7d\x7d\x7b\x7b")], [("b", "c")]⟩ nested =
        .ok "\x7b\x7b \x7b\x7bb\x7d\x7d\x7b\x7b-c\x7d") ∧
      (∀ draws, resolve draws ⟨[("a", .string "")], []⟩ nested = .error ⟨"b"⟩) ∧
      (∀ draws, resolve draws ⟨[], []⟩ nested = .error ⟨"a"⟩) ∧
      ∀ draws scope, resolve draws scope "\x7b\x7b \x7d\x7d" = .ok "\x7b\x7b \x7d\x7d" := by
  obtain ⟨occurrences, tail, -, unique, -, -, fills⟩ := resolve_substitutes nested
  obtain ⟨rfl, rfl⟩ := unique _ _ nested_occurs
  have plain := fills (by decide)
  obtain ⟨_, _, -, -, -, kept, -⟩ := resolve_substitutes "\x7b\x7b \x7d\x7d"
  refine ⟨fun draws => ?_, fun draws => ?_, fun draws => ?_, kept (by decide)⟩
  · refine (plain draws _).2.2.1 (fun name => if name = "a" then "\x7b\x7bb\x7d\x7d\x7b\x7b" else "c") ?_
    rw [List.forall_mem_cons, List.forall_mem_singleton]
    exact ⟨rfl, rfl⟩
  · exact (plain draws _).1 [_] _ [] rfl (by decide) (by decide)
  · exact (plain draws _).1 [] _ [_] rfl (by simp) (by decide)

end Template
end Runbook
