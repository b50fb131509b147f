import Runbook.Proofs.Assertion.Source
import Runbook.Proofs.Script.Edits
import Runbook.Proofs.Script.Refused

/-!
The grammar of request lines: a method in any case, a URL of one word, and behind it nothing or a word that begins like
a protocol version. What stands behind that word is not looked at.
-/

namespace Runbook.Script

open Runbook.Text

/-- A word that begins like a protocol version, in any case. -/
def IsVersion (word : List Char) : Prop :=
  "HTTP/".toList <+: word.map upperChar

instance (word : List Char) : Decidable (IsVersion word) :=
  inferInstanceAs (Decidable (_ <+: _))

/-- A method written in any case. -/
def IsMethod (method : Method) (word : List Char) : Prop :=
  method.name = upper (String.ofList word)

instance (method : Method) (word : List Char) : Decidable (IsMethod method word) :=
  inferInstanceAs (Decidable (_ = _))

/-- A line that asks for a URL with a method: these are its first two words, and a third one is a version. -/
def IsRequest (line : String) (method : Method) (url : String) : Prop :=
  ∃ word rest, words line.toList = word :: url.toList :: rest ∧ IsMethod method word ∧
    ∀ third ∈ rest.head?, IsVersion third

/-- What is wrong with a line that says something and asks for nothing. -/
inductive Unasked (line : String) : Defect → Prop where
  | method {word : List Char} {rest : List (List Char)} (split : words line.toList = word :: rest)
      (unknown : ∀ method, ¬IsMethod method word) : Unasked line (.invalidMethod (String.ofList word))
  | url {word : List Char} {method : Method} (alone : words line.toList = [word]) (known : IsMethod method word) :
      Unasked line .emptyUrl
  | third {word url third : List Char} {rest : List (List Char)} {method : Method}
      (split : words line.toList = word :: url :: third :: rest) (known : IsMethod method word)
      (other : ¬IsVersion third) : Unasked line (.malformed ("unexpected text in request line '" ++ line ++ "'"))

variable {line : String} {method : Method} {url : String} {defect : Defect}

theorem IsRequest.read (asks : IsRequest line method url) : readRequestLine line = .ok (method, url) := by
  obtain ⟨word, rest, split, known, version⟩ := asks
  unfold readRequestLine
  simp only [split, Method.read?_eq_some_iff.mpr known, String.ofList_toList]
  cases rest with
  | nil => rfl
  | cons third more =>
    have begins : (afterFront? "HTTP/".toList (third.map upperChar)).isSome = true :=
      isSome_afterFront?_iff.mpr (version third rfl)
    simp only [bind, Except.bind, begins, if_true]
    rfl

theorem Unasked.read (unasked : Unasked line defect) : readRequestLine line = .error defect := by
  unfold readRequestLine
  cases unasked with
  | @method word rest split unknown =>
    have none : Method.read? (String.ofList word) = none := by
      cases found : Method.read? (String.ofList word) with
      | none => rfl
      | some method => exact absurd (Method.read?_eq_some_iff.mp found) (unknown method)
    cases rest <;> simp only [split, none] <;> rfl
  | url alone known =>
    simp only [alone, Method.read?_eq_some_iff.mpr known]
    rfl
  | third split known other =>
    have begins := Bool.not_eq_true _ ▸ mt isSome_afterFront?_iff.mp other
    simp only [split, Method.read?_eq_some_iff.mpr known, bind, Except.bind, begins, Bool.false_eq_true, if_false]
    rfl

/-- A line that says something asks for something or is wrong in one of these ways. -/
theorem isRequest_or_unasked (said : isInert line = false) :
    (∃ method url, IsRequest line method url) ∨ ∃ defect, Unasked line defect := by
  obtain ⟨word, rest, split⟩ := List.exists_cons_of_ne_nil (words_ne_nil_of_isInert said)
  by_cases known : ∃ method, IsMethod method word
  · obtain ⟨method, known⟩ := known
    match rest with
    | [] => exact .inr ⟨_, .url split known⟩
    | [url] => exact .inl ⟨method, String.ofList url, word, [], by simpa using split, known, nofun⟩
    | url :: third :: more =>
      by_cases version : IsVersion third
      · refine .inl ⟨method, String.ofList url, word, third :: more, by simpa using split, known, ?_⟩
        rintro _ ⟨⟩
        exact version
      · exact .inr ⟨_, .third split known version⟩
  · exact .inr ⟨_, .method split (not_exists.mp known)⟩

/-- A block whose request line is refused is refused for it. -/
theorem Block.step_of_unasked {block : Block} {request : Line}
    (first : block.lines.find? (!isInert ·.text) = some request) (unasked : Unasked request.text defect) :
    block.step = .error (.atLine block.label request.number defect) := by
  unfold Block.step
  simp only [first, unasked.read]
  rfl

/-- A block whose request line is read is refused for no more than a line behind it. -/
theorem Block.error_of_isRequest {block : Block} {request : Line}
    (first : block.lines.find? (!isInert ·.text) = some request) (asks : IsRequest request.text method url)
    {error : ScenarioError} (refused : block.step = .error error) :
    ∃ line ∈ (block.lines.dropWhile (·.number != request.number)).drop 1, error.line = some line.number := by
  unfold Block.step at refused
  rw [first] at refused
  rcases bind_eq_error_iff.mp refused with failed | ⟨_, -, behind⟩
  · obtain ⟨defect, unread, -⟩ := mapError_eq_error_iff.mp failed
    rw [asks.read] at unread
    cases unread
  · obtain failed | ⟨_, _, ⟨⟩⟩ := bind_eq_error_iff.mp behind
    obtain ⟨line, member, draft, stuck⟩ := exists_of_foldlM_eq_error failed
    obtain ⟨defect, -, rfl⟩ := mapError_eq_error_iff.mp stuck
    exact ⟨line, member, rfl⟩

/-- No line behind the request line has its number. -/
theorem Block.Consecutive.number_ne {block : Block} (consecutive : block.Consecutive) {request line : Line}
    (behind : line ∈ (block.lines.dropWhile (·.number != request.number)).drop 1) : line.number ≠ request.number := by
  obtain ⟨start, numbers⟩ := consecutive
  have distinct : (block.lines.map Line.number).Nodup := numbers ▸ List.nodup_range'
  have suffix : block.lines.dropWhile (·.number != request.number) <:+ block.lines := List.dropWhile_suffix _
  have apart := (suffix.map Line.number).sublist.nodup distinct
  cases dropped : block.lines.dropWhile (·.number != request.number) with
  | nil => simp [dropped] at behind
  | cons found rest =>
    have stopped : found.number = request.number := by
      have head := List.head?_dropWhile_not (·.number != request.number) block.lines
      simpa [dropped] using head
    rw [dropped, List.map_cons, List.nodup_cons] at apart
    rw [dropped, List.drop_one, List.tail_cons] at behind
    exact fun same => apart.1 (List.mem_map.mpr ⟨line, behind, same.trans stopped.symm⟩)

/-- The grammar of request lines. A block is not refused for the first of its lines that says something exactly if this
line asks for a URL with a method: its first word is a method in any case, it has a second word, and a third word, if
there is one, begins like a protocol version; a step of the block has the method and this second word. A line that asks
for nothing is refused under its own number, with more text behind the URL as malformed. What stands behind a protocol
version is not looked at. -/
theorem Block.request_line {block : Block} (consecutive : block.Consecutive) {request : Line}
    (first : block.lines.find? (!isInert ·.text) = some request) :
    ((∃ method url, IsRequest request.text method url) ↔
      ∀ error, block.step = .error error → error.line ≠ some request.number) ∧
    (∀ method url, IsRequest request.text method url →
      ∀ step, block.step = .ok step → step.method = method ∧ step.url = url) ∧
    (∀ defect, Unasked request.text defect →
      block.step = .error (.atLine block.label request.number defect)) := by
  have said : isInert request.text = false := by simpa using List.find?_some first
  refine ⟨⟨?_, fun past => ?_⟩, ?_, fun defect unasked => Block.step_of_unasked first unasked⟩
  · rintro ⟨method, url, asks⟩ error refused same
    obtain ⟨line, behind, told⟩ := Block.error_of_isRequest first asks refused
    exact consecutive.number_ne behind (Option.some.inj (told.symm.trans same))
  · rcases isRequest_or_unasked said with asks | ⟨defect, unasked⟩
    · exact asks
    · exact absurd rfl (past _ (Block.step_of_unasked first unasked))
  · intro method url asks step accepted
    obtain ⟨other, _, _, _, found, requestLine, -, rfl⟩ := Block.step_eq_ok_iff.mp accepted
    obtain rfl := Option.some.inj (first.symm.trans found)
    rw [asks.read] at requestLine
    cases requestLine
    exact ⟨rfl, rfl⟩

/-- A block whose request line goes on behind the protocol version. -/
def overlong : Block :=
  ⟨1, none, 1, [⟨2, "GET /x http/1.1 extra"⟩]⟩

theorem overlong_request_line :
    (words "GET /x http/1.1 extra".toList).length = 4 ∧
      ∃ step, overlong.step = .ok step ∧ step.method = .get ∧ step.url = "/x" := by
  have first : overlong.lines.find? (!isInert ·.text) = some ⟨2, "GET /x http/1.1 extra"⟩ := by decide
  have asks : IsRequest "GET /x http/1.1 extra" .get "/x" :=
    ⟨"GET".toList, ["http/1.1".toList, "extra".toList], by decide, by decide, by decide⟩
  obtain ⟨-, given, -⟩ := Block.request_line ⟨2, rfl⟩ first
  have accepted : overlong.step.toOption.isSome = true := by decide +kernel
  refine ⟨by decide, ?_⟩
  cases read : overlong.step with
  | error error => simp [read, Except.toOption] at accepted
  | ok step => exact ⟨step, rfl, given _ _ asks step read⟩

end Runbook.Script
