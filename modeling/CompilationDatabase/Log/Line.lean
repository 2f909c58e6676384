/-
The lines of the log.

An event is written as one line if the log lets it through.  Without a filter
that is decided by the level; a filter decides for itself, and one that cannot
be read is reported and passed over.  How filters are read and what a line looks like
is a parameter (`Format`): a line may tell the time it was written at, so it
depends on how many events there were before.

* `Format.opened` — the log for a level and a filter;
* `lines` — what is written for events;
* `Format.plain` — a simple look.
-/
import CompilationDatabase.Log.Event

namespace CompilationDatabase

/-- What is written for events, and which of them. -/
structure Log where
  /-- What is written first. -/
  notice : String := ""
  /-- Whether the event is let through. -/
  admits : Log.Event → Bool
  /-- The line for an event that has so many before it. -/
  line : Nat → Log.Event → String

namespace Log

/-- The text written for events, if there were so many before them. -/
def lines (log : Log) (before : Nat) (events : List Event) : String :=
  String.join <| ((events.zipIdx before).filter fun (event, _) => log.admits event).map
    fun (event, count) => log.line count event

/-- Nothing is written for events that are not let through. -/
theorem lines_eq_empty {log : Log} {events : List Event}
    (h : ∀ event ∈ events, log.admits event = false) (before : Nat) :
    log.lines before events = "" := by
  rw [lines, List.filter_eq_nil_iff.mpr]
  · rfl
  · rintro ⟨event, count⟩ hmem
    simp [h event (List.fst_mem_of_mem_zipIdx hmem)]

/-- How filters are read and lines are written. -/
structure Format where
  /-- Which events a filter lets through, or why it cannot be read. -/
  filter : String → Except String (Event → Bool)
  /-- A filter as it is shown. -/
  shown : String → String
  /-- The line for an event that has so many before it. -/
  line : Nat → Event → String

/-- The log that lets through what matters as much as the level, unless there is
a filter that can be read. -/
def Format.opened (format : Format) (level : Level) (filter : Option String) : Log :=
  let byLevel : Log :=
    { admits := fun event => (compare event.level level).isLE, line := format.line }
  match filter with
  | none => byLevel
  | some filter =>
    match format.filter filter with
    | .ok admits => { byLevel with admits }
    | .error reason =>
      { byLevel with
        notice :=
          "cdb: ignoring invalid CDB_LOG " ++ format.shown filter ++ ": " ++ reason ++ "\n" }

/-- The level as it stands in a line, five characters wide. -/
def Level.shown : Level → String
  | warn => " WARN"
  | info => " INFO"
  | debug => "DEBUG"
  | trace => "TRACE"

/-- The value as it stands in a line. -/
def Value.shown : Value → String
  | plain text => text
  | quoted text => "\"" ++ text ++ "\""
  | number value => toString value

/-- Lines without colours, with the time before each.  A filter is the name of a
level; no other is read. -/
def Format.plain (clock : Nat → String) : Format where
  filter name :=
    match [Level.warn, .info, .debug, .trace].find? (·.name = name) with
    | some level => .ok fun event => (compare event.level level).isLE
    | none => .error "no level has this name"
  shown filter := (Value.quoted filter).shown
  line before event :=
    let values := event.fields.map fun (name, value) => " " ++ name ++ "=" ++ value.shown
    clock before ++ " " ++ event.level.shown ++ " " ++ event.message ++ String.join values ++ "\n"

end Log

end CompilationDatabase
