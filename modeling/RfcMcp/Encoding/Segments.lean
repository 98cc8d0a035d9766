import Mathlib.Data.List.Count
import Mathlib.Data.List.Basic
import Mathlib.Algebra.Ring.Nat

namespace Encoding

section Join

variable {α : Type} [DecidableEq α] {sep : α}

/-- Where pieces are joined, the segments of the whole are those of the pieces. -/
theorem splitOn_join {pieces : List (List α)} (h : pieces ≠ []) :
    ([sep].intercalate pieces).splitOn sep = pieces.flatMap (·.splitOn sep) := by
  induction pieces with
  | nil => exact absurd rfl h
  | cons piece pieces ih =>
    cases pieces with
    | nil => simp
    | cons next rest =>
      have hjoin : [sep].intercalate (piece :: next :: rest) =
          piece ++ sep :: [sep].intercalate (next :: rest) := by
        simp [List.intercalate]
      rw [hjoin, List.splitOn_append_cons_self, ih (by simp)]
      rfl

theorem length_splitOn (sep : α) (piece : List α) :
    (piece.splitOn sep).length = piece.count sep + 1 := by
  induction piece with
  | nil => simp
  | cons a piece ih =>
    rw [List.splitOn_cons_eq_if_modifyHead, List.count_cons]
    by_cases ha : a == sep
    · simp [ha, ih]
    · simp [ha, ih]

theorem length_segments (pieces : List (List α)) :
    (pieces.flatMap (·.splitOn sep)).length =
      pieces.length + (pieces.map (List.count sep)).sum := by
  induction pieces with
  | nil => rfl
  | cons piece pieces ih =>
    have hpiece := length_splitOn sep piece
    simp only [List.flatMap_cons, List.length_append, List.length_cons, List.map_cons,
      List.sum_cons, ih, hpiece]
    omega

/-- Pieces without a separator are the segments. -/
theorem segments_eq_pieces {pieces : List (List α)} (h : ∀ piece ∈ pieces, sep ∉ piece) :
    pieces.flatMap (·.splitOn sep) = pieces := by
  induction pieces with
  | nil => rfl
  | cons piece pieces ih =>
    have hrest := ih fun piece hpiece => h piece (List.mem_cons_of_mem _ hpiece)
    rw [List.flatMap_cons, List.splitOn_eq_singleton (h piece List.mem_cons_self), hrest]
    rfl

/-- Any separator in a piece adds a segment. -/
theorem notMem_of_length {pieces : List (List α)}
    (h : (pieces.flatMap (·.splitOn sep)).length = pieces.length) :
    ∀ piece ∈ pieces, sep ∉ piece := by
  rw [length_segments] at h
  have hnone : (pieces.map (List.count sep)).sum = 0 := by omega
  intro piece hpiece hsep
  have hzero := List.sum_eq_zero_iff_forall_eq_nat.mp hnone _ (List.mem_map_of_mem hpiece)
  exact List.count_eq_zero.mp hzero hsep

end Join

section Dots

def isDotSegment (segment : List Char) : Bool := segment = ['.'] ∨ segment = ['.', '.']

/-- One step in the removal of dot segments. -/
def putSegment (output : List (List Char)) (segment : List Char) : List (List Char) :=
  if segment = ['.'] then output
  else if segment = ['.', '.'] then
    if output = [] ∨ output = [[]] then output else output.dropLast
  else output ++ [segment]

/-- The segments of a path when it is resolved: `.` stays at a segment and `..` goes one back. -/
def removeDotSegments (segments : List (List Char)) : List (List Char) :=
  segments.foldl putSegment []

theorem length_putSegment (output : List (List Char)) (segment : List Char) :
    (putSegment output segment).length + (if isDotSegment segment then 1 else 0) ≤
      output.length + 1 := by
  unfold putSegment isDotSegment
  by_cases hdot : segment = ['.']
  · simp [hdot]
  · by_cases hdots : segment = ['.', '.']
    · by_cases houtput : output = [] ∨ output = [[]]
      · simp [hdots, houtput]
      · simp [hdots, houtput]
    · simp [hdot, hdots]

theorem length_foldl_putSegment (segments output : List (List Char)) :
    (segments.foldl putSegment output).length + segments.countP isDotSegment ≤
      output.length + segments.length := by
  induction segments generalizing output with
  | nil => simp
  | cons segment segments ih =>
    have hstep := length_putSegment output segment
    have hrest := ih (putSegment output segment)
    rw [List.foldl_cons, List.countP_cons, List.length_cons]
    omega

/-- A path resolves to itself unless it has a dot segment. -/
theorem removeDotSegments_eq_self {segments : List (List Char)} :
    removeDotSegments segments = segments ↔
      ∀ segment ∈ segments, segment ≠ ['.'] ∧ segment ≠ ['.', '.'] := by
  constructor
  · intro h segment hsegment
    have hlength := length_foldl_putSegment segments []
    have hsame : segments.foldl putSegment [] = segments := h
    rw [hsame] at hlength
    have hnone : segments.countP isDotSegment = 0 := by
      rw [List.length_nil] at hlength
      omega
    have hnot := List.countP_eq_zero.mp hnone segment hsegment
    simpa [isDotSegment] using hnot
  · intro h
    have hkeep : ∀ output, segments.foldl putSegment output = output ++ segments := by
      induction segments with
      | nil => simp
      | cons segment segments ih =>
        intro output
        obtain ⟨hdot, hdots⟩ := h segment List.mem_cons_self
        have hput : putSegment output segment = output ++ [segment] := by
          simp [putSegment, hdot, hdots]
        have hrest := ih fun segment hsegment => h segment (List.mem_cons_of_mem _ hsegment)
        rw [List.foldl_cons, hput, hrest, List.append_assoc]
        rfl
    exact hkeep []

end Dots

end Encoding
