import Runbook.Proofs.Template.Substitution

/-!
Templates that are filled. One can be filled where its names are all known, to the scope or as names of generated values;
what is drawn for the generated values does not matter to that.
-/

namespace Runbook

open Template

namespace Template

/-- The names that stand for generated values. -/
def builtinNames : List String :=
  ["$timestamp", "$timestampMs", "$isoTimestamp", "$randomInt", "$randomString", "$uuid"]

theorem isSome_builtin?_iff (draws : Draws) (name : String) : (builtin? draws name).isSome ↔ name ∈ builtinNames := by
  unfold builtin? builtinNames
  split <;> simp_all

end Template

/-- A name stands for a value: a name with a dollar sign for a generated one, any other for one of the scope. -/
def Scope.Knows (scope : Scope) (name : String) : Prop :=
  if isBuiltin name then name ∈ builtinNames else scope.Binds name

namespace Template

variable {draws : Draws} {scope : Scope} {name : String}

theorem exists_lookup_iff : (∃ found, lookup draws scope name = .ok found) ↔ scope.Knows name := by
  unfold lookup Scope.Knows
  split
  · rw [← isSome_builtin?_iff draws]
    cases builtin? draws name <;> simp
  · rw [← Scope.isSome_value?_iff, Scope.value?, Option.isSome_map]
    cases scope.find? name <;> simp

/-- Pieces can be filled just when every name in them is known, by induction along the pieces. -/
theorem exists_fill_iff {pieces : List Piece} :
    (∃ text, fill draws scope pieces = .ok text) ↔ ∀ name, .hole name ∈ pieces → scope.Knows name := by
  induction pieces with
  | nil => simp [fill]
  | cons piece rest ih =>
    cases piece with
    | char c =>
      rw [fill_char]
      cases filled : fill draws scope rest <;> simp [filled, Except.map] at ih ⊢ <;> exact ih
    | hole name =>
      have parts : (∃ text, fill draws scope (.hole name :: rest) = .ok text) ↔
          (∃ found, lookup (draws.part (rest.length + 1)) scope name = .ok found) ∧
            ∃ text, fill draws scope rest = .ok text := by
        rw [fill]
        cases lookup (draws.part (rest.length + 1)) scope name <;> cases fill draws scope rest <;>
          simp [bind, Except.bind, pure, Except.pure]
      rw [parts, exists_lookup_iff, ih]
      simp

theorem mem_names_iff {template : String} : name ∈ names template ↔ .hole name ∈ pieces template := by
  rw [names_eq_filterMap, List.mem_filterMap]
  constructor
  · rintro ⟨piece, member, named⟩
    cases piece with
    | char => cases named
    | hole other =>
      cases named
      exact member
  · exact fun member => ⟨_, member, rfl⟩

/-- A template can be filled just when every name in it is known. -/
theorem exists_resolve_iff {template : String} :
    (∃ text, resolve draws scope template = .ok text) ↔ ∀ name ∈ names template, scope.Knows name := by
  rw [resolve, exists_fill_iff]
  exact forall_congr' fun name => imp_congr_left mem_names_iff.symm

end Template
end Runbook

/-!
The value of a template and its text. They are found in two ways: the value looks at the leftmost placeholder alone and
keeps its kind if nothing else stands in the template, the text fills all placeholders one after the other. On templates
without blanks around them that generate nothing, the value and the text are the same in writing.
-/

namespace Runbook.Template

open Runbook.Text

variable {draws others : Draws} {scope : Scope} {template name : String}

/-- The value of a name that is not generated is that of the scope. -/
theorem lookup_plain (plain : isBuiltin name = false) : (lookup draws scope name).map Prod.fst =
    match scope.value? name with
    | some value => .ok value
    | none => .error ⟨name⟩ := by
  rw [lookup, plain, Scope.value?]
  cases scope.find? name <;> rfl

/-- A text that is one placeholder has no other name than that of the placeholder. -/
theorem IsHole.names_eq (isHole : IsHole template.toList name) : names template = [name] := by
  rw [names, isHole.pieces_eq]
  rfl

/-- A template that is one placeholder has the value of its name, with its kind. -/
theorem IsHole.resolveValue_eq (isHole : IsHole template.toList name) (trimmed : IsTrimmed template.toList) :
    resolveValue draws scope template = (lookup draws scope name).map Prod.fst := by
  have same : Text.trimmed template = template := by rw [Text.trimmed, trimmed, String.ofList_toList]
  rw [resolveValue, same, soleHole?_eq_some_iff.mpr isHole]

/-- The text of a template that is one placeholder is that of the value of its name. -/
theorem IsHole.resolve_eq (isHole : IsHole template.toList name) (plain : isBuiltin name = false) :
    resolve draws scope template =
      match scope.value? name with
      | some value => .ok value.render
      | none => .error ⟨name⟩ := by
  rw [resolve, isHole.pieces_eq, fill_hole plain]
  cases scope.value? name with
  | none => rfl
  | some value => simp [fill, Except.map]

/-- A template that is not one placeholder has a text as its value. -/
theorem resolveValue_text (trimmed : IsTrimmed template.toList) (mixed : ∀ name, ¬IsHole template.toList name) :
    resolveValue draws scope template = (resolve draws scope template).map .string := by
  have same : Text.trimmed template = template := by rw [Text.trimmed, trimmed, String.ofList_toList]
  have none : soleHole? template = none :=
    Option.eq_none_iff_forall_ne_some.mpr fun name sole => mixed name (soleHole?_eq_some_iff.mp sole)
  rw [resolveValue, same, none]

/-- What is generated does not matter to a template that generates nothing. -/
theorem resolve_draws (plain : ∀ name ∈ names template, isBuiltin name = false) :
    resolve others scope template = resolve draws scope template := by
  obtain ⟨occurrences, tail, occurs⟩ := exists_occurs template.toList
  rw [occurs.names_eq, List.forall_mem_map] at plain
  exact occurs.resolve_congr plain fun _ _ => rfl

/-- The value and the text of a template, which generates nothing and has no blanks around it, fail with the same name,
or the value is written as the text. A value that is not a text is that of a placeholder which is the whole template,
and of its name in the scope. -/
theorem resolveValue_agrees (trimmed : IsTrimmed template.toList)
    (plain : ∀ name ∈ names template, isBuiltin name = false) (draws others : Draws) (scope : Scope) :
    ((∃ name, resolveValue draws scope template = .error ⟨name⟩ ∧ resolve others scope template = .error ⟨name⟩) ∨
      ∃ value, resolveValue draws scope template = .ok value ∧ resolve others scope template = .ok value.render) ∧
    ∀ value, resolveValue draws scope template = .ok value → (∀ text, value ≠ .string text) →
      ∃ name, IsHole template.toList name ∧ scope.value? name = some value := by
  by_cases sole : ∃ name, IsHole template.toList name
  · obtain ⟨name, isHole⟩ := sole
    have own : isBuiltin name = false := plain name (by simp [isHole.names_eq])
    rw [isHole.resolveValue_eq trimmed, lookup_plain own, isHole.resolve_eq own]
    cases found : scope.value? name with
    | none => exact ⟨.inl ⟨name, rfl, rfl⟩, nofun⟩
    | some value =>
      refine ⟨.inr ⟨value, rfl, rfl⟩, fun other same _ => ⟨name, isHole, ?_⟩⟩
      cases same
      exact found
  · have text : resolve others scope template = resolve draws scope template := resolve_draws plain
    rw [resolveValue_text trimmed fun name isHole => sole ⟨name, isHole⟩, text]
    cases resolve draws scope template with
    | error error => exact ⟨.inl ⟨error.name, rfl, rfl⟩, nofun⟩
    | ok text =>
      refine ⟨.inr ⟨.string text, rfl, rfl⟩, fun value same apart => ?_⟩
      cases same
      exact absurd rfl (apart text)

/-- A template that is one placeholder. -/
def lone : String := "\x7b\x7b id \x7d\x7d"

/-- A template of two placeholders next to each other, and a brace. -/
def paired : String := "\x7b\x7bid\x7d\x7d\x7b\x7bto\x7d\x7d\x7d"

/-- A captured number stays a number as the value of its placeholder and is written out in the text. Next to a
placeholder without a value, both ways name that one. -/
theorem lone_and_paired_agree :
    (∀ draws others, resolveValue draws ⟨[("id", .int 42)], []⟩ lone = .ok (.int 42) ∧
      resolve others ⟨[("id", .int 42)], []⟩ lone = .ok "42") ∧
    ∀ draws others, resolve others ⟨[("id", .int 42)], []⟩ paired = .error ⟨"to"⟩ ∧
      resolveValue draws ⟨[("id", .int 42)], []⟩ paired = .error ⟨"to"⟩ := by
  refine ⟨fun draws others => ?_, fun draws others => ?_⟩
  · have value : resolveValue draws ⟨[("id", .int 42)], []⟩ lone = .ok (.int 42) := rfl
    refine ⟨value, ?_⟩
    rcases (@resolveValue_agrees lone (by decide) (by decide) draws others _).1 with ⟨_, fails, -⟩ | ⟨_, same, text⟩
    · cases value.symm.trans fails
    · cases value.symm.trans same
      exact text
  · have fails : resolve others ⟨[("id", .int 42)], []⟩ paired = .error ⟨"to"⟩ := rfl
    refine ⟨fails, ?_⟩
    rcases (@resolveValue_agrees paired (by decide) (by decide) draws others _).1 with ⟨_, value, same⟩ | ⟨_, -, text⟩
    · cases fails.symm.trans same
      exact value
    · cases fails.symm.trans text

end Runbook.Template
