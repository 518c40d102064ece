import Mathlib.Data.List.Basic

/-!
# Framed streams

A stream of frames is cut by a measure, which reads the length of the frame in
front.  Of frames that it measures the reader gets whole ones in order, however
much of the stream has arrived.
-/

namespace Framing

variable {Symbol : Type}

/-- Frames are taken off the front until one has not arrived whole. -/
def cut (measure : List Symbol → Nat) :
    Nat → List Symbol → List (List Symbol) × List Symbol
  | 0, stream => ([], stream)
  | fuel + 1, stream =>
      let size := measure stream
      if size = 0 ∨ stream.length < size then ([], stream)
      else
        let (frames, rest) := cut measure fuel (stream.drop size)
        (stream.take size :: frames, rest)

/-- The frames that have arrived, and what is behind them. -/
def split (measure : List Symbol → Nat) (stream : List Symbol) :
    List (List Symbol) × List Symbol :=
  cut measure stream.length stream

/-- The measure reads the length of the frame whatever is behind it, and more
than there is off a part of the frame. -/
structure Measured (measure : List Symbol → Nat) (frame : List Symbol) : Prop where
  nonempty : frame ≠ []
  whole : ∀ rest, measure (frame ++ rest) = frame.length
  waits : ∀ front behind, frame = front ++ behind → behind ≠ [] →
    front.length < measure front

/-- The rest is a part of the frame that comes next, if there is any. -/
def Begins (frames : List (List Symbol)) (rest : List Symbol) : Prop :=
  rest = [] ∨ ∃ next behind, frames.head? = some next ∧ next = rest ++ behind ∧ behind ≠ []

theorem cut_of_waits {measure : List Symbol → Nat} {stream : List Symbol} (fuel : Nat)
    (waits : measure stream = 0 ∨ stream.length < measure stream) :
    cut measure fuel stream = ([], stream) := by
  cases fuel with
  | zero => rfl
  | succ fuel => exact if_pos waits

theorem cut_of_measured {measure : List Symbol → Nat} {frame : List Symbol}
    (measured : Measured measure frame) (fuel : Nat) (rest : List Symbol) :
    cut measure (fuel + 1) (frame ++ rest) =
      (frame :: (cut measure fuel rest).1, (cut measure fuel rest).2) := by
  have positive := List.length_pos_iff.mpr measured.nonempty
  have arrived : ¬ (frame.length = 0 ∨ (frame ++ rest).length < frame.length) := by
    rw [List.length_append]
    omega
  simp only [cut, measured.whole rest, if_neg arrived, List.drop_left, List.take_left]

/-- Two ways to split a stream in two, by which part comes first. -/
theorem append_eq_append_cases {stream later front behind : List Symbol}
    (same : stream ++ later = front ++ behind) :
    (∃ missing, missing ≠ [] ∧ front = stream ++ missing) ∨
      ∃ arrived, stream = front ++ arrived ∧ behind = arrived ++ later := by
  rcases List.append_eq_append_iff.mp same with ⟨missing, isFront, -⟩ | ⟨arrived, both⟩
  · by_cases whole : missing = []
    · rw [whole, List.append_nil] at isFront
      rw [isFront] at same
      exact Or.inr ⟨[], by rw [isFront, List.append_nil],
        (List.append_cancel_left same).symm⟩
    · exact Or.inl ⟨missing, whole, isFront⟩
  · exact Or.inr ⟨arrived, both⟩

theorem cut_of_front {measure : List Symbol → Nat} {frames : List (List Symbol)}
    (measured : ∀ frame ∈ frames, Measured measure frame) {stream later : List Symbol}
    (front : stream ++ later = frames.flatten) {fuel : Nat}
    (enough : stream.length ≤ fuel) :
    ∃ count rest,
      cut measure fuel stream = (frames.take count, rest) ∧
        stream = (frames.take count).flatten ++ rest ∧ Begins (frames.drop count) rest := by
  induction frames generalizing stream fuel with
  | nil =>
      obtain ⟨rfl, -⟩ := List.append_eq_nil_iff.mp front
      exact ⟨0, [], cut_of_waits fuel (Nat.eq_zero_or_pos _), rfl, Or.inl rfl⟩
  | cons frame frames inductionHypothesis =>
      obtain ⟨isMeasured, others⟩ := List.forall_mem_cons.mp measured
      rcases append_eq_append_cases front with
        ⟨missing, remains, isFrame⟩ | ⟨arrived, rfl, behind⟩
      · exact ⟨0, stream,
          cut_of_waits fuel (Or.inr (isMeasured.waits _ _ isFrame remains)), rfl,
          Or.inr ⟨frame, missing, rfl, isFrame, remains⟩⟩
      · have positive := List.length_pos_iff.mpr isMeasured.nonempty
        rw [List.length_append] at enough
        obtain ⟨spare, rfl⟩ := Nat.exists_eq_add_one.mpr (Nat.lt_of_lt_of_le positive
          (Nat.le_trans (Nat.le_add_right _ _) enough))
        obtain ⟨count, rest, isCut, isArrived, begins⟩ :=
          inductionHypothesis others behind.symm (by omega : arrived.length ≤ spare)
        refine ⟨count + 1, rest, ?_, ?_, begins⟩
        · rw [cut_of_measured isMeasured, isCut, List.take_succ_cons]
        · rw [List.take_succ_cons, List.flatten_cons, List.append_assoc, ← isArrived]

/-- However much of a stream of measured frames has arrived, the reader gets the
first of them, whole and in order, and the rest is a part of the next. -/
theorem split_of_front {measure : List Symbol → Nat} {frames : List (List Symbol)}
    (measured : ∀ frame ∈ frames, Measured measure frame) {stream later : List Symbol}
    (front : stream ++ later = frames.flatten) :
    ∃ count rest,
      split measure stream = (frames.take count, rest) ∧
        stream = (frames.take count).flatten ++ rest ∧ Begins (frames.drop count) rest :=
  cut_of_front measured front (Nat.le_refl _)

end Framing
