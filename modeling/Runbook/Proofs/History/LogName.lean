import Runbook.History.Log
import Runbook.Proofs.Files.Directory
import Runbook.Proofs.Time.Reading

/-!
The names of log files. Whatever the URL of an entry is, the name of its log file leads to no other directory than that
of the logs: it is made of letters, digits and a few marks, none of which means anything in a pathname, and it is as
short as a directory wants it.
-/

namespace Runbook

open Runbook.Text

/-- A text in ASCII has as many octets as characters. -/
theorem Text.utf8ByteSize_ofList {text : List Char} (ascii : ∀ c ∈ text, c.toNat < 128) :
    (String.ofList text).utf8ByteSize = text.length := by
  induction text with
  | nil => rfl
  | cons c rest ih =>
    obtain ⟨first, others⟩ := List.forall_mem_cons.mp ascii
    have one : c.utf8Size = 1 := Char.utf8Size_eq_one_iff.mpr (UInt32.le_iff_toNat_le.mpr (Nat.le_of_lt_succ first))
    have whole : String.ofList (c :: rest) = String.singleton c ++ String.ofList rest := by simp
    rw [whole, String.utf8ByteSize_append, String.utf8ByteSize_singleton, one, ih others, List.length_cons,
      Nat.add_comm]

/-- An entry that can be logged: its method is known, its year has six digits at most, it is within a second or the leap
second behind it, and its numbers fit. -/
structure HistoryEntry.Loggable (entry : HistoryEntry) : Prop where
  method : (Method.read? entry.method).isSome
  year : entry.timestamp.date.year.natAbs < Nat.pow 10 6
  nanos : entry.timestamp.nanos < 2 * Time.Instant.nanosPerSecond
  status : ∀ status ∈ entry.status, status < Document.wordBound 16
  millis : entry.millis < Document.wordBound 64

theorem HistoryEntry.Loggable.withId {entry : HistoryEntry} (loggable : entry.Loggable) (id : Int) :
    { entry with id }.Loggable :=
  ⟨loggable.method, loggable.year, loggable.nanos, loggable.status, loggable.millis⟩

namespace History

/-! The characters of a log name -/

/-- A character of a log name. -/
def isLogChar (c : Char) : Bool := isNameChar c || c == '_' || c == '+'

/-- A text made of such characters. -/
def IsLogText (text : String) : Prop := ∀ c ∈ text.toList, isLogChar c = true

instance (text : String) : Decidable (IsLogText text) :=
  decidable_of_iff (text.toList.all isLogChar = true) List.all_eq_true

@[simp] theorem isLogText_append_iff {first second : String} :
    IsLogText (first ++ second) ↔ IsLogText first ∧ IsLogText second := by
  simp only [IsLogText, String.toList_append, List.mem_append, or_imp, forall_and]

theorem isLogText_padded (width n : Nat) : IsLogText (padded width n) := fun c member => by
  simp [isLogChar, isNameChar, isDigit_of_mem_padded member]

theorem isLogChar_ascii {c : Char} (plain : isLogChar c = true) : c.toNat < 128 := by
  simp only [isLogChar, isNameChar, Bool.or_eq_true, beq_iff_eq, isLetter_iff, isDigit_iff] at plain
  rcases plain with (((range | rfl) | rfl) | rfl) | rfl
  · omega
  all_goals decide

namespace IsLogText

variable {text : String} (plain : IsLogText text)
include plain

/-- No other character stands in such a text. -/
theorem notMem {c : Char} (other : isLogChar c = false) : c ∉ text.toList := fun member => by
  rw [plain c member] at other
  cases other

theorem utf8ByteSize_eq : text.utf8ByteSize = text.length := by
  have size := utf8ByteSize_ofList fun c member => isLogChar_ascii (plain c member)
  rwa [String.ofList_toList, String.length_toList] at size

end IsLogText

/-! The path in a log name -/

theorem underscored_chars {marked : Bool} {text : List Char} {c : Char} (member : c ∈ underscored marked text) :
    isNameChar c = true ∨ c = '_' := by
  induction text generalizing marked with
  | nil => cases member
  | cons d rest ih =>
    rw [underscored] at member
    split at member
    · next kept =>
      rcases List.mem_cons.mp member with rfl | later
      · exact .inl kept
      · exact ih later
    · split at member
      · exact ih member
      · rcases List.mem_cons.mp member with rfl | later
        · exact .inr rfl
        · exact ih later

/-- A text that can be the path in a log name. -/
structure IsPathPart (text : String) : Prop where
  filled : text ≠ ""
  short : text.length ≤ 80
  plain : ∀ c ∈ text.toList, isLetter c = true ∨ isDigit c = true ∨ c ∈ ['-', '.', '_']

/-- Every URL has such a path. -/
theorem isPathPart_pathSlug (url : String) : IsPathPart (pathSlug url) := by
  unfold pathSlug
  dsimp only
  split
  · have letters : "root".toList.all isLetter = true := by decide
    exact ⟨by decide, by decide, fun c member => .inl (List.all_eq_true.mp letters c member)⟩
  · next filled =>
    refine ⟨?_, ?_, fun c member => ?_⟩
    · simpa using filled
    · rw [String.length_ofList]
      exact List.length_take_le _ _
    · rw [String.toList_ofList] at member
      rcases underscored_chars (mem_of_mem_strip (List.mem_of_mem_take member)) with kept | rfl
      · simp only [isNameChar, Bool.or_eq_true, beq_iff_eq] at kept
        rcases kept with ((letter | digit) | rfl) | rfl
        · exact .inl letter
        · exact .inr (.inl digit)
        all_goals exact .inr (.inr (by decide))
      · exact .inr (.inr (by decide))

theorem IsPathPart.isLogText {text : String} (part : IsPathPart text) : IsLogText text := by
  intro c member
  rcases part.plain c member with letter | digit | mark
  · simp [isLogChar, isNameChar, letter]
  · simp [isLogChar, isNameChar, digit]
  · simp only [List.mem_cons, List.not_mem_nil, or_false] at mark
    rcases mark with rfl | rfl | rfl <;> decide

/-! The time in a log name -/

theorem isLogText_yearText (year : Int) : IsLogText (Time.Instant.yearText year) := by
  unfold Time.Instant.yearText
  split
  · exact isLogText_padded _ _
  · refine isLogText_append_iff.mpr ⟨?_, isLogText_padded _ _⟩
    split <;> decide

theorem isLogText_stamp (instant : Time.Instant) : IsLogText instant.stamp := by
  have nothing : IsLogText "" := by decide
  have dash : IsLogText "-" := by decide
  simp only [Time.Instant.stamp, Time.Instant.dateText, Time.Instant.timeText, isLogText_append_iff, isLogText_padded,
    isLogText_yearText, nothing, dash, and_self]

theorem length_padded_two {n : Nat} (small : n < 100) : (padded 2 n).length = 2 := by
  rw [← String.length_toList]
  exact length_padded (by decide) small

theorem length_yearText_le {year : Int} (near : year.natAbs < Nat.pow 10 6) :
    (Time.Instant.yearText year).length ≤ 7 := by
  have width {n : Nat} (small : n < Nat.pow 10 6) : (padded 4 n).length ≤ 6 := by
    have digits := length_toString_le (by decide) small
    rw [← String.length_toList, length_padded_eq]
    omega
  unfold Time.Instant.yearText
  split
  · exact Nat.le_succ_of_le (width (Nat.lt_of_le_of_lt (by omega) near))
  · have sign : (if year < 0 then "-" else "+").length = 1 := by split <;> rfl
    rw [String.length_append, sign, Nat.add_comm]
    exact Nat.succ_le_succ (width near)

theorem length_dateText_le {instant : Time.Instant} (near : instant.date.year.natAbs < Nat.pow 10 6) :
    (instant.dateText "").length ≤ 11 := by
  have isDay : instant.date.isDay = true := (Time.toDays_ofDays (instant.seconds.fdiv Time.Instant.daySeconds)).2
  simp only [Time.Date.isDay, Bool.and_eq_true, decide_eq_true_eq] at isDay
  have days := Time.Instant.monthLength_le instant.date.year instant.date.month
  have year := length_yearText_le near
  simp only [Time.Instant.dateText, String.length_append, String.length_empty,
    length_padded_two (show instant.date.month < 100 by omega),
    length_padded_two (show instant.date.day < 100 by omega)]
  omega

theorem length_timeText {instant : Time.Instant} (within : instant.nanos < 2 * Time.Instant.nanosPerSecond) :
    (instant.timeText "").length = 6 := by
  obtain ⟨inside, -⟩ := instant.secondOfDay_spec
  have leap : instant.nanos / Time.Instant.nanosPerSecond < 2 := Nat.div_lt_of_lt_mul (by rwa [Nat.mul_comm])
  simp only [Time.Instant.timeText, String.length_append, String.length_empty,
    length_padded_two (show instant.secondOfDay / 3600 < 100 by omega),
    length_padded_two (show instant.secondOfDay / 60 % 60 < 100 by omega),
    length_padded_two (show instant.secondOfDay % 60 + instant.nanos / Time.Instant.nanosPerSecond < 100 by omega)]

/-- A time that a clock tells takes no more than twenty-two characters. -/
theorem length_stamp_le {instant : Time.Instant} (near : instant.date.year.natAbs < Nat.pow 10 6)
    (within : instant.nanos < 2 * Time.Instant.nanosPerSecond) : instant.stamp.length ≤ 22 := by
  have fraction : instant.millis < Nat.pow 10 3 :=
    Nat.div_lt_of_lt_mul (Nat.mod_lt instant.nanos (by decide : 0 < Time.Instant.nanosPerSecond))
  have millis : (padded 3 instant.millis).length = 3 := by
    rw [← String.length_toList]
    exact length_padded (by decide) fraction
  have dash : "-".length = 1 := rfl
  have date := length_dateText_le near
  rw [Time.Instant.stamp, String.length_append, String.length_append, String.length_append, String.length_append,
    length_timeText within, millis, dash]
  omega

/-! The whole name -/

/-- A text that is one component of a pathname, wherever pathnames are cut at slashes, at backslashes or at both. -/
structure IsComponent (name : String) : Prop where
  slash : '/' ∉ name.toList
  backslash : '\\' ∉ name.toList
  zero : '\x00' ∉ name.toList
  notHere : name ≠ "."
  notAbove : name ≠ ".."
  pieces : FileTree.pieces name = [name]

/-- The name of the log file of an entry: one component, made of the time, the method and the path of the request. -/
structure NamesLog (entry : HistoryEntry) (name : String) : Prop where
  component : IsComponent name
  parts : ∃ method : Method, Method.read? entry.method = some method ∧
    name = entry.timestamp.stamp ++ "_" ++ method.name ++ "_" ++ pathSlug entry.url ++ ".log"
  path : IsPathPart (pathSlug entry.url)

variable {entry : HistoryEntry}

theorem logName_eq {method : Method} (read : Method.read? entry.method = some method) :
    logName entry = entry.timestamp.stamp ++ "_" ++ method.name ++ "_" ++ pathSlug entry.url ++ ".log" := by
  rw [Method.read?_eq_some_iff.mp read, logName]

theorem isLogText_logName (known : (Method.read? entry.method).isSome) : IsLogText (logName entry) := by
  obtain ⟨method, read⟩ := Option.isSome_iff_exists.mp known
  have name : IsLogText method.name := by cases method <;> decide
  have underscore : IsLogText "_" := by decide
  have ending : IsLogText ".log" := by decide
  rw [logName_eq read]
  simp only [isLogText_append_iff, isLogText_stamp, name, underscore, ending,
    (isPathPart_pathSlug entry.url).isLogText, and_self]

/-- The ending alone makes a log name longer than the names that lead to other directories. -/
theorem logName_ne {other : String} (short : other.length < 4) : logName entry ≠ other := by
  rintro rfl
  have ending : ".log".length = 4 := rfl
  rw [logName, String.length_append, ending] at short
  omega

/-- The log file of every entry has such a name, whatever its URL is. -/
theorem namesLog_logName (known : (Method.read? entry.method).isSome) : NamesLog entry (logName entry) := by
  have plain := isLogText_logName known
  obtain ⟨method, read⟩ := Option.isSome_iff_exists.mp known
  refine ⟨?_, ⟨method, read, logName_eq read⟩, isPathPart_pathSlug entry.url⟩
  exact {
    slash := plain.notMem (by decide)
    backslash := plain.notMem (by decide)
    zero := plain.notMem (by decide)
    notHere := logName_ne (by decide)
    notAbove := logName_ne (by decide)
    pieces := by
      rw [FileTree.pieces, splitAt_of_notMem (plain.notMem (by decide)), List.map_singleton, String.ofList_toList] }

/-- A directory takes the name of the log file of an entry. -/
theorem isEntryName_logName (loggable : entry.Loggable) : FileTree.IsEntryName (logName entry) := by
  obtain ⟨component, ⟨method, read, parts⟩, path⟩ := namesLog_logName loggable.method
  have stamp := length_stamp_le loggable.year loggable.nanos
  have name : method.name.length ≤ 7 := by cases method <;> decide
  have slug := path.short
  have underscore : "_".length = 1 := rfl
  have ending : ".log".length = 4 := rfl
  refine ⟨logName_ne (by decide), component.notHere, component.notAbove, component.slash, component.zero, ?_⟩
  rw [(isLogText_logName loggable.method).utf8ByteSize_eq, parts]
  simp only [String.length_append, underscore, ending, FileTree.nameLimit]
  omega

end History
end Runbook
