import Runbook.Proofs.Script.Blocks
import Runbook.Proofs.Script.Reading

/-!
Scripts that are refused, and the line that the error names. An error of the script as a whole names none. A block that
is not closed and one without a request line are told with the line that opens them, and any other error with the line
in the first refused block at which it was found.
-/

namespace Runbook.Script

open Runbook.Text

/-- What can be wrong with a line of a request block, and how it is told. -/
inductive Faulty (line : String) : Defect → Prop where
  | method {word : List Char} (first : (words line.toList).head? = some word) :
      Faulty line (.invalidMethod (String.ofList word))
  | url {word : List Char} (alone : words line.toList = [word]) : Faulty line .emptyUrl
  | version : Faulty line (.malformed ("unexpected text in request line '" ++ line ++ "'"))
  | header : Faulty line (.invalidHeader (trimmed line))
  | capture (text : String) : Faulty line (.invalidCapture text)
  | captureName {name path : String} (pair : pair? (trim line.toList) = some (name, path)) :
      Faulty line (.invalidCaptureName name)
  | assertion (reason : String) : Faulty line (.invalidAssertion (trimmed line ++ ": " ++ reason))
  | option : Faulty line (.invalidOption (trimmed line))

variable {line : String} {defect : Defect}

/-- A line that is not inert has words. -/
theorem words_ne_nil_of_isInert (active : isInert line = false) : words line.toList ≠ [] := by
  intro wordless
  have blank : trim line.toList = [] := trim_eq_nil_iff.mpr fun c member => by
    by_contra solid
    obtain ⟨word, inside, -⟩ := exists_mem_words member (by simpa using solid)
    rw [wordless] at inside
    cases inside
  rw [isInert, blank] at active
  cases active

/-- A line that is not inert and no request line has a wrong method, no URL, or more text behind its URL. -/
theorem faulty_of_readRequestLine (active : isInert line = false) (refused : readRequestLine line = .error defect) :
    Faulty line defect := by
  unfold readRequestLine at refused
  dsimp only at refused
  split at refused
  · next none => exact absurd none (words_ne_nil_of_isInert active)
  · next word alone =>
    rcases bind_eq_error_iff.mp refused with failed | ⟨_, _, thrown⟩
    · split at failed
      · cases failed
      · cases failed
        exact .method (by rw [alone]; rfl)
    · cases thrown
      exact .url alone
  · next word url rest split =>
    rcases bind_eq_error_iff.mp refused with failed | ⟨_, _, ends⟩
    · split at failed
      · cases failed
      · cases failed
        exact .method (by rw [split]; rfl)
    · cases rest with
      | nil => cases ends
      | cons version more =>
        dsimp only at ends
        split at ends
        · cases ends
        · cases ends
          exact .version

/-- A capture is refused for its name or for its path. -/
theorem check_eq_error {name path : String} (refused : Capture.check name path = .error defect) :
    defect = .invalidCaptureName name ∨ ∃ text, defect = .invalidCapture text := by
  unfold Capture.check at refused
  split at refused
  · cases refused
    exact .inl rfl
  split at refused
  · cases refused
    exact .inr ⟨_, rfl⟩
  split at refused
  · cases refused
  split at refused
  · cases refused
  · cases refused
    exact .inr ⟨_, rfl⟩

theorem faulty_of_readCapture (refused : readCapture (trimmed line) = .error defect) : Faulty line defect := by
  unfold readCapture at refused
  split at refused
  · next name path pair =>
    rw [toList_trimmed] at pair
    obtain failed | ⟨_, _, ⟨⟩⟩ := bind_eq_error_iff.mp refused
    rcases check_eq_error failed with rfl | ⟨text, rfl⟩
    · exact .captureName pair
    · exact .capture text
  · cases refused
    exact .capture _

theorem faulty_of_readSetting (refused : readSetting (trimmed line) = .error defect) : Faulty line defect := by
  unfold readSetting at refused
  dsimp only at refused
  split at refused
  · cases refused
  · cases refused
    exact .option

/-- A line that a draft does not take is at fault. -/
theorem faulty_of_next {draft : Draft} (refused : draft.next line = .error defect) : Faulty line defect := by
  unfold Draft.next at refused
  split at refused
  · cases refused
  obtain ⟨place, headers, bodyLines, captures, asserts, options, id⟩ := draft
  cases place with
  | headers =>
    simp only [Draft.addLine] at refused
    split at refused
    · cases refused
    · split at refused
      · cases refused
      · split at refused
        · cases refused
        · cases refused
          exact .header
  | body => cases refused
  | captures =>
    simp only [Draft.addLine] at refused
    split at refused
    · cases refused
    · obtain failed | ⟨_, _, ⟨⟩⟩ := bind_eq_error_iff.mp refused
      exact faulty_of_readCapture failed
  | asserts =>
    simp only [Draft.addLine] at refused
    split at refused
    · cases refused
    · split at refused
      · cases refused
      · cases refused
        exact .assertion _
  | options =>
    simp only [Draft.addLine] at refused
    split at refused
    · cases refused
    · obtain failed | ⟨_, _, ⟨⟩⟩ := bind_eq_error_iff.mp refused
      exact faulty_of_readSetting failed

/-! Refused blocks -/

variable {document : String} {hint : Option String} {block : Block} {error : ScenarioError}

/-- A block without a step has nothing but inert lines, or a line that is at fault. -/
theorem Block.step_eq_error (refused : block.step = .error error) :
    ((∀ line ∈ block.lines, isInert line.text = true) ∧
      error = .atLine block.label block.line .missingRequestLine) ∨
    ∃ line ∈ block.lines, ∃ defect, Faulty line.text defect ∧ error = .atLine block.label line.number defect := by
  unfold Block.step at refused
  cases found : block.lines.find? (!isInert ·.text) with
  | none =>
    rw [found] at refused
    cases refused
    exact .inl ⟨by simpa using found, rfl⟩
  | some request =>
    rw [found] at refused
    have member := List.mem_of_find?_eq_some found
    have active : isInert request.text = false := by simpa using List.find?_some found
    refine .inr ?_
    rcases bind_eq_error_iff.mp refused with failed | ⟨⟨method, url⟩, -, behind⟩
    · obtain ⟨defect, unread, rfl⟩ := mapError_eq_error_iff.mp failed
      exact ⟨request, member, defect, faulty_of_readRequestLine active unread, rfl⟩
    · obtain failed | ⟨_, _, ⟨⟩⟩ := bind_eq_error_iff.mp behind
      obtain ⟨line, inRest, draft, stuck⟩ := exists_of_foldlM_eq_error failed
      obtain ⟨defect, unread, rfl⟩ := mapError_eq_error_iff.mp stuck
      have inBlock : line ∈ block.lines := (List.dropWhile_suffix _).subset (List.mem_of_mem_drop inRest)
      exact ⟨line, inBlock, defect, faulty_of_next unread, rfl⟩

/-- The first block of a document that has no step, and why it has none. -/
def FirstRefused (document : String) (block : Block) (error : ScenarioError) : Prop :=
  ∃ earlier later, blocks document = .ok (earlier ++ block :: later) ∧
    (∀ other ∈ earlier, ∃ step, other.step = .ok step) ∧ block.step = .error error

/-- The four ways in which a script is refused. -/
theorem parse_eq_error (refused : parse document hint = .error error) :
    blocks document = .error error ∨ error = .general .noSteps ∨ (∃ block, FirstRefused document block error) ∨
      ∃ step : Step, error = .inStep step.name (.duplicateStepId step.id) := by
  unfold parse at refused
  rcases bind_eq_error_iff.mp refused with unread | ⟨found, accepted, refused⟩
  · exact .inl unread
  cases found with
  | nil =>
    cases refused
    exact .inr (.inl rfl)
  | cons first rest =>
    rcases bind_eq_error_iff.mp refused with failed | ⟨declared, -, refused⟩
    · obtain ⟨earlier, block, later, split, passed, failed⟩ := mapM_eq_error_iff.mp failed
      exact .inr (.inr (.inl ⟨block, earlier, later, accepted.trans (congrArg Except.ok split), passed, failed⟩))
    · dsimp only at refused
      split at refused
      · next step _ =>
        cases refused
        exact .inr (.inr (.inr ⟨step, rfl⟩))
      · cases refused

/-- The scan refuses a document for a request fence, outside of all other fences, that is not closed. -/
theorem blocks_eq_error (refused : blocks document = .error error) :
    ∃ (parts : List Part) (opening : Line) (inner : List Line) (label : String),
      (∀ part ∈ parts, part.Sound) ∧ linesOf document = parts.flatMap Part.lines ++ opening :: inner ∧
      opening.Requests ∧ (∀ line ∈ inner, ¬line.Closes) ∧
      error = .atLine label opening.number .unterminatedBlock := by
  obtain ⟨parts, tail, layout⟩ := exists_layout (linesOf document)
  have follows := Scan.follows_foldl layout.sound
  unfold blocks at refused
  rw [layout.lines, List.foldl_append] at refused
  rcases layout.ending with rfl | ⟨opens, unclosed⟩
  · simp [follows.place] at refused
  · next opening inner =>
    rw [Scan.foldl_open follows.place opens unclosed] at refused
    by_cases requests : opening.Requests
    · rw [if_pos requests] at refused
      cases refused
      exact ⟨parts, opening, inner, _, layout.sound, layout.lines, requests, unclosed, rfl⟩
    · rw [if_neg requests] at refused
      cases refused

/-! Where the block of an error stands -/

/-- A line of a document is the one that its number tells. -/
theorem text_of_linesOf {line : Line} {front back : List Line} (split : linesOf document = front ++ line :: back) :
    (Text.lines document.toList)[line.number - 1]? = some line.text.toList := by
  have here : (linesOf document)[front.length]? = some line := by simp [split]
  rw [getElem?_linesOf] at here
  obtain ⟨text, found, rfl⟩ := Option.map_eq_some_iff.mp here
  simpa using found

/-- A block stands in a document between the two lines of a request fence. -/
structure Block.Between (block : Block) (document : String) (opening closing : Line) : Prop where
  requests : opening.Requests
  closes : closing.Closes
  line : block.line = opening.number
  cut : ∃ front back, linesOf document = front ++ opening :: (block.lines ++ closing :: back)

theorem FirstRefused.exists_between (first : FirstRefused document block error) :
    ∃ opening closing, block.Between document opening closing := by
  obtain ⟨earlier, later, accepted, -⟩ := first
  obtain ⟨parts, tail, scan, layout, -, follows, same⟩ := exists_follows accepted
  obtain ⟨before, after, -, stands⟩ := follows.stands layout same
  obtain ⟨opening, closing, back, requests, closes, cut⟩ := stands.cut
  exact ⟨opening, closing, requests, closes, stands.line.trans (number_eq_of_linesOf cut).symm, _, back, cut⟩

/-- The lines of a block are lines of the document, and their numbers are between those of the fence. -/
theorem Block.Between.of_mem {opening closing line : Line} (between : block.Between document opening closing)
    (member : line ∈ block.lines) : opening.number < line.number ∧ line.number < closing.number ∧
      (Text.lines document.toList)[line.number - 1]? = some line.text.toList := by
  obtain ⟨front, back, cut⟩ := between.cut
  obtain ⟨ahead, behind, inside⟩ := List.append_of_mem member
  have here : linesOf document = (front ++ opening :: ahead) ++ line :: (behind ++ closing :: back) := by
    simp [cut, inside]
  have ends : linesOf document = (front ++ opening :: block.lines) ++ closing :: back := by simp [cut]
  have first := number_eq_of_linesOf cut
  have own := number_eq_of_linesOf here
  have last := number_eq_of_linesOf ends
  rw [inside] at last
  simp only [List.length_append, List.length_cons] at own last
  exact ⟨by omega, by omega, text_of_linesOf here⟩

/-- A fault of a line is told of no block and of no script. -/
theorem Faulty.apart (faulty : Faulty line defect) : defect ≠ .missingRequestLine ∧ defect ≠ .unterminatedBlock ∧
    defect ≠ .noSteps ∧ ∀ id, defect ≠ .duplicateStepId id := by
  cases faulty <;> simp

/-- For the headers and the settings an error tells the line itself. -/
theorem Faulty.eq_trimmed (faulty : Faulty line defect) {text : String}
    (told : defect = .invalidHeader text ∨ defect = .invalidOption text) : text = trimmed line := by
  cases faulty <;> simp_all

/-- The line of an error. A script is refused without a line exactly if it has no steps or two steps of one id. A block
that is not closed, and the first refused one if it has no request line, are told with the line of the request fence
that opens them; and any other error with the number of an input line inside of the first refused block and with the
label of this block, where the text of a wrong header or setting is that line without the blanks around it. -/
theorem parse_refused (refused : parse document hint = .error error) :
    (error.line = none ↔ error.defect = .noSteps ∨ ∃ id, error.defect = .duplicateStepId id) ∧
    (error.defect = .unterminatedBlock → ∃ (parts : List Part) (opening : Line) (inner : List Line),
      (∀ part ∈ parts, part.Sound) ∧ linesOf document = parts.flatMap Part.lines ++ opening :: inner ∧
      opening.Requests ∧ (∀ line ∈ inner, ¬line.Closes) ∧ error.line = some opening.number) ∧
    (error.defect = .missingRequestLine → ∃ block opening closing, FirstRefused document block error ∧
      block.Between document opening closing ∧ error.line = some opening.number) ∧
    (error.line ≠ none → error.defect ≠ .unterminatedBlock → error.defect ≠ .missingRequestLine →
      ∃ block opening closing line, FirstRefused document block error ∧ block.Between document opening closing ∧
        line ∈ block.lines ∧ opening.number < line.number ∧ line.number < closing.number ∧
        (Text.lines document.toList)[line.number - 1]? = some line.text.toList ∧
        error.line = some line.number ∧ error.step = some block.label ∧ Faulty line.text error.defect ∧
        ∀ text, error.defect = .invalidHeader text ∨ error.defect = .invalidOption text →
          text = trimmed line.text) := by
  rcases parse_eq_error refused with unread | rfl | ⟨block, first⟩ | ⟨step, rfl⟩
  · obtain ⟨parts, opening, inner, label, sound, split, requests, unclosed, rfl⟩ := blocks_eq_error unread
    simp only [ScenarioError.atLine]
    exact ⟨by simp, fun _ => ⟨parts, opening, inner, sound, split, requests, unclosed, rfl⟩, nofun,
      fun _ other => absurd rfl other⟩
  · simp [ScenarioError.general]
  · obtain ⟨opening, closing, between⟩ := first.exists_between
    have ⟨_, _, _, _, failed⟩ := first
    rcases Block.step_eq_error failed with ⟨-, rfl⟩ | ⟨line, member, defect, faulty, rfl⟩
    · simp only [ScenarioError.atLine]
      exact ⟨by simp, nofun, fun _ => ⟨block, opening, closing, first, between, congrArg some between.line⟩,
        fun _ _ other => absurd rfl other⟩
    · obtain ⟨missing, unclosed, empty, repeated⟩ := faulty.apart
      obtain ⟨above, below, text⟩ := between.of_mem member
      refine ⟨by simp [ScenarioError.atLine, empty, repeated], fun same => absurd same unclosed,
        fun same => absurd same missing, fun _ _ _ => ?_⟩
      exact ⟨block, opening, closing, line, first, between, member, above, below, text, rfl, rfl, faulty,
        fun _ => faulty.eq_trimmed⟩
  · simp [ScenarioError.inStep]

/-- A script whose second block has a header without a colon. -/
def spoiled : String := "```kest\nGET /\n```\n## Step 2: pay\n```kest\nPOST /pay\n  Token\n```\n"

theorem spoiled_refused :
    parse spoiled none = .error (.atLine "Step 2: pay" 7 (.invalidHeader "Token")) ∧
      ∃ block line, FirstRefused spoiled block (.atLine "Step 2: pay" 7 (.invalidHeader "Token")) ∧
        line ∈ block.lines ∧ line.number = 7 ∧ "Token" = trimmed line.text := by
  have refused : parse spoiled none = .error (.atLine "Step 2: pay" 7 (.invalidHeader "Token")) := by rfl
  obtain ⟨-, -, -, located⟩ := parse_refused refused
  obtain ⟨block, _, _, line, first, -, member, -, -, -, number, -, -, text⟩ := located nofun nofun nofun
  exact ⟨refused, block, line, first, member, (Option.some.inj number).symm, text _ (.inl rfl)⟩

end Runbook.Script
