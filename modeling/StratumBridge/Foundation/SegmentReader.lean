import Mathlib.Data.List.Basic

/-! # Reading from a stream in segments

A stream arrives in segments that have nothing to do with what the reader asks for. A read of an
exact count takes as many segments as it needs and leaves the rest of the last one.
-/

/-- What is still to be read, and how the stream ends behind it. No ending means that nothing
more arrives in time. -/
structure SegmentReader (ε α : Type) where
  segments : List (List α)
  ending : Option ε

namespace SegmentReader

variable {ε α : Type}

/-- Everything that is still to be read. -/
def unread (reader : SegmentReader ε α) : List α := reader.segments.flatten

def takeSegments : List (List α) → Nat → List α × List (List α)
  | [], _ => ([], [])
  | segment :: rest, count =>
      if count < segment.length then (segment.take count, segment.drop count :: rest)
      else
        let behind := takeSegments rest (count - segment.length)
        (segment ++ behind.1, behind.2)

/-- Read exactly this many. Where the stream is too short, what it had is lost. -/
def readExact (reader : SegmentReader ε α) (count : Nat) :
    Except (Option ε) (List α) × SegmentReader ε α :=
  let taken := takeSegments reader.segments count
  let left := { reader with segments := taken.2 }
  if taken.1.length = count then (.ok taken.1, left) else (.error reader.ending, left)

theorem takeSegments_fst (segments : List (List α)) (count : Nat) :
    (takeSegments segments count).1 = segments.flatten.take count := by
  induction segments generalizing count with
  | nil => rw [takeSegments, List.flatten_nil, List.take_nil]
  | cons segment rest ih =>
      rw [takeSegments, List.flatten_cons]
      split
      next within => rw [List.take_append_of_le_length (Nat.le_of_lt within)]
      next beyond =>
        change segment ++ (takeSegments rest _).1 = _
        rw [ih, List.take_append, List.take_of_length_le (Nat.le_of_not_lt beyond)]

theorem flatten_takeSegments_snd (segments : List (List α)) (count : Nat) :
    (takeSegments segments count).2.flatten = segments.flatten.drop count := by
  induction segments generalizing count with
  | nil => rw [takeSegments, List.flatten_nil, List.drop_nil]
  | cons segment rest ih =>
      rw [takeSegments, List.flatten_cons]
      split
      next within =>
        rw [List.flatten_cons, List.drop_append_of_le_length (Nat.le_of_lt within)]
      next beyond =>
        change (takeSegments rest _).2.flatten = _
        rw [ih, List.drop_append, List.drop_eq_nil_of_le (Nat.le_of_not_lt beyond),
          List.nil_append]

/-- A read of what is there yields it and leaves what follows, however it is cut. -/
theorem readExact_append {reader : SegmentReader ε α} {front back : List α}
    (there : reader.unread = front ++ back) :
    ∃ left, reader.readExact front.length = (.ok front, left) ∧ left.unread = back := by
  have taken : (takeSegments reader.segments front.length).1 = front := by
    rw [takeSegments_fst, ← unread, there, List.take_left]
  refine ⟨{ reader with segments := (takeSegments reader.segments front.length).2 }, ?_, ?_⟩
  · simp only [readExact, taken, if_true]
  · rw [unread, flatten_takeSegments_snd, ← unread, there, List.drop_left]

end SegmentReader
