/-
Spans of a source text, in UTF-8 bytes.

A span may be any pair of offsets: one that is reversed, out of range or not
on the borders of characters covers no text.
-/
import CompilationDatabase.Text.Utf8

namespace CompilationDatabase.CommandLine

/-- A half-open range of byte offsets. -/
structure Span where
  /-- The offset of the first byte. -/
  start : Nat
  /-- The offset just past the last byte. -/
  stop : Nat
deriving DecidableEq, Repr

namespace Span

/-- The number of bytes covered, zero for a reversed span. -/
def length (s : Span) : Nat := s.stop - s.start

/-- Whether the span starts where it stops. -/
def isEmpty (s : Span) : Bool := s.start == s.stop

/-- The text covered, empty if the span is reversed, out of range or off the
borders of characters. -/
def slice (s : Span) (source : String) : String :=
  if s.start ≤ s.stop then
    let covered := (Text.dropBytes s.start source.toList).bind (Text.takeBytes s.length)
    String.ofList (covered.getD [])
  else ""

/-- The span moved by `n` bytes. -/
def shift (s : Span) (n : Nat) : Span := ⟨s.start + n, s.stop + n⟩

end Span

end CompilationDatabase.CommandLine
