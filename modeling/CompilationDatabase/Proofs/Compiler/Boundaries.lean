/-
Arguments that end where a segment ends.

What is taken at an argument is told by the arguments from there on.  So segments
that are put one after the other are found again, whatever follows
(`segments_flatMap_append`), and what follows arguments without a flag that has
too few behind it is read as if it stood alone (`segments_append`).

* `classifyIn_append` — an invocation of such arguments and what follows does what
  the first do, and then what the others do.
-/
import CompilationDatabase.Proofs.Compiler.Segments

namespace CompilationDatabase.Compiler

/-- The arguments that the segment takes. -/
def Segment.arguments (segment : Segment) : List String := segment.token :: segment.values

/-- Whether the arguments are segments to the end. -/
def EndsAtBoundary (arguments : List String) : Prop :=
  (segments arguments).flatMap Segment.arguments = arguments

variable {segment : Segment} {met : List Segment} {front : List String}

theorem segments_arguments_append (h : segment.IsComplete) (rest : List String) :
    segments (segment.arguments ++ rest) = segment :: segments rest := by
  cases segment with
  | unmatched token => exact segments_unmatched h
  | matched rule flag values =>
    obtain ⟨hrule, hlength⟩ := h
    have henough : rule.extra flag ≤ (values ++ rest).length := by
      rw [List.length_append, hlength]
      exact Nat.le_add_right _ _
    show segments (flag :: (values ++ rest)) = _
    rw [segments_matched hrule henough, ← hlength, List.take_left, List.drop_left]

theorem segments_flatMap_append (h : ∀ segment ∈ met, segment.IsComplete) (rest : List String) :
    segments (met.flatMap Segment.arguments ++ rest) = met ++ segments rest := by
  induction met with
  | nil => rfl
  | cons segment behind ih =>
    rw [List.forall_mem_cons] at h
    rw [List.flatMap_cons, List.append_assoc, segments_arguments_append h.1, ih h.2,
      List.cons_append]

theorem segments_flatMap (h : ∀ segment ∈ met, segment.IsComplete) :
    segments (met.flatMap Segment.arguments) = met := by
  have happend := segments_flatMap_append h []
  rwa [List.append_nil, segments, List.append_nil] at happend

/-- What follows is read as if it stood alone. -/
theorem segments_append (h : EndsAtBoundary front) (rest : List String) :
    segments (front ++ rest) = segments front ++ segments rest := by
  have happend := segments_flatMap_append (segments_cover front).1 rest
  rwa [h] at happend

theorem classifyIn_cons (fs : FileSystem) (directory executable : String)
    (arguments : List String) :
    classifyIn fs directory (executable :: arguments) =
      (segments arguments).foldlM (Segment.effectOn fs directory) { isCxx := isCxx executable } :=
  classifyIn_eq_foldlM fs directory (executable :: arguments)

theorem classifyIn_append (fs : FileSystem) (directory executable : String)
    (h : EndsAtBoundary front) (rest : List String) :
    classifyIn fs directory (executable :: (front ++ rest)) =
      (classifyIn fs directory (executable :: front)).bind
        fun reached => (segments rest).foldlM (Segment.effectOn fs directory) reached := by
  rw [classifyIn_cons, classifyIn_cons, segments_append h, List.foldlM_append]
  rfl

theorem classifyIn_append_segment (fs : FileSystem) (directory executable : String)
    (hfront : EndsAtBoundary front) (h : segment.IsComplete) (rest : List String) :
    classifyIn fs directory (executable :: (front ++ segment.arguments ++ rest)) =
      (classifyIn fs directory (executable :: front)).bind fun reached =>
        (segment.effectOn fs directory reached).bind fun next =>
          (segments rest).foldlM (Segment.effectOn fs directory) next := by
  rw [List.append_assoc, classifyIn_append fs directory executable hfront,
    segments_arguments_append h]
  exact congrArg (Except.bind _) (funext fun reached => List.foldlM_cons)

end CompilationDatabase.Compiler
