import Mathlib.Computability.Language

namespace Framework

/-- A place in a wildcard pattern: any text, or one letter. -/
inductive Slot (α : Type)
  | star
  | one (p : α → Bool)

namespace Pattern

variable {α : Type}

/-- What a place stands for. -/
def words : Slot α → Language α
  | .star => Set.univ
  | .one p => {x | ∃ a, p a = true ∧ x = [a]}

/-- The texts that a pattern stands for. -/
def language (slots : List (Slot α)) : Language α := (slots.map words).prod

@[simp] theorem language_nil : language ([] : List (Slot α)) = 1 := rfl

@[simp] theorem language_cons (slot : Slot α) (slots : List (Slot α)) :
    language (slot :: slots) = words slot * language slots := by
  simp [language]

theorem mem_star {slots : List (Slot α)} {x : List α} :
    x ∈ language (.star :: slots) ↔ ∃ y, y <:+ x ∧ y ∈ language slots := by
  rw [language_cons, Language.mem_mul]
  constructor
  · rintro ⟨a, _, y, hy, rfl⟩
    exact ⟨y, List.suffix_append a y, hy⟩
  · rintro ⟨y, ⟨a, rfl⟩, hy⟩
    exact ⟨a, trivial, y, hy, rfl⟩

theorem mem_one_cons {p : α → Bool} {slots : List (Slot α)} {x : List α} :
    x ∈ language (.one p :: slots) ↔ ∃ a y, x = a :: y ∧ p a = true ∧ y ∈ language slots := by
  rw [language_cons, Language.mem_mul]
  constructor
  · rintro ⟨_, ⟨a, ha, rfl⟩, y, hy, rfl⟩
    exact ⟨a, y, rfl, ha, hy⟩
  · rintro ⟨a, y, rfl, ha, hy⟩
    exact ⟨[a], ⟨a, ha, rfl⟩, y, hy, rfl⟩

section Word

variable [DecidableEq α]

/-- The pattern of a single text. -/
def word (w : List α) : List (Slot α) := w.map fun a => .one (a == ·)

theorem mem_word_append {w x : List α} {slots : List (Slot α)} :
    x ∈ language (word w ++ slots) ↔ ∃ y, x = w ++ y ∧ y ∈ language slots := by
  induction w generalizing x with
  | nil => simp [word]
  | cons a w ih =>
    have hcons : word (a :: w) ++ slots = .one (a == ·) :: (word w ++ slots) := rfl
    rw [hcons, mem_one_cons]
    constructor
    · rintro ⟨b, y, rfl, hb, hy⟩
      obtain rfl : a = b := by simpa using hb
      obtain ⟨z, rfl, hz⟩ := ih.mp hy
      exact ⟨z, rfl, hz⟩
    · rintro ⟨y, rfl, hy⟩
      exact ⟨a, w ++ y, rfl, by simp, ih.mpr ⟨y, rfl, hy⟩⟩

/-- A text alone. -/
theorem mem_word {w x : List α} : x ∈ language (word w) ↔ x = w := by
  have happend : x ∈ language (word w ++ []) ↔ ∃ y, x = w ++ y ∧ y ∈ language [] :=
    mem_word_append
  rw [List.append_nil] at happend
  rw [happend]
  simp

/-- A text, and anything after it. -/
theorem mem_word_star {w x : List α} : x ∈ language (word w ++ [.star]) ↔ w <+: x := by
  rw [mem_word_append]
  constructor
  · rintro ⟨y, rfl, _⟩
    exact List.prefix_append w y
  · rintro ⟨y, rfl⟩
    exact ⟨y, rfl, mem_star.mpr ⟨[], List.nil_suffix, rfl⟩⟩

/-- A text with anything around it. -/
theorem mem_star_word_star {w x : List α} :
    x ∈ language (.star :: (word w ++ [.star])) ↔ w <:+: x := by
  rw [mem_star]
  constructor
  · rintro ⟨y, hy, hmem⟩
    exact (mem_word_star.mp hmem).isInfix.trans hy.isInfix
  · rintro ⟨a, b, rfl⟩
    refine ⟨w ++ b, ⟨a, by simp⟩, mem_word_star.mpr (List.prefix_append w b)⟩

end Word

section Trailing

variable (b : α)

def accepts : Slot α → Bool
  | .star => true
  | .one p => p b

def isStar : Slot α → Bool
  | .star => true
  | .one _ => false

/-- The letters that a pattern stands for besides its stars. -/
def ones (slots : List (Slot α)) : ℕ := slots.countP fun slot => !isStar slot

/-- What may come before a long run of `b`s that a pattern ends with. Each cut leaves the run to
slots that accept `b`, one of which is a star; the star itself may begin before the run. -/
def openEnds : List (Slot α) → List (List (Slot α))
  | [] => []
  | .star :: slots =>
    (if slots.all (accepts b) then [[.star]] else []) ++ (openEnds slots).map (.star :: ·)
  | .one p :: slots =>
    (if p b && slots.all (accepts b) && slots.any isStar then [[]] else []) ++
      (openEnds slots).map (.one p :: ·)

variable {b} {slots : List (Slot α)} {x : List α} {n : ℕ}

theorem ones_le_length : ones slots ≤ slots.length := List.countP_le_length

/-- The runs of one letter that a pattern stands for. -/
theorem mem_replicate : List.replicate n b ∈ language slots ↔
    slots.all (accepts b) = true ∧ ones slots ≤ n ∧ (slots.any isStar = true ∨ ones slots = n) := by
  induction slots generalizing n with
  | nil => cases n <;> simp [ones, List.replicate_succ]
  | cons slot slots ih =>
    cases slot with
    | star =>
      have hones : ones (.star :: slots) = ones slots := by simp [ones, isStar]
      rw [mem_star, hones]
      constructor
      · rintro ⟨y, hy, hmem⟩
        obtain ⟨hlength, hrun⟩ := List.suffix_replicate_iff.mp hy
        rw [hrun] at hmem
        obtain ⟨haccepts, hle, _⟩ := ih.mp hmem
        exact ⟨by simpa [accepts] using haccepts, hle.trans hlength, .inl (by simp [isStar])⟩
      · rintro ⟨haccepts, hle, _⟩
        refine ⟨List.replicate (ones slots) b, ?_, ih.mpr ⟨?_, le_refl _, .inr rfl⟩⟩
        · exact List.suffix_replicate_iff.mpr ⟨by simpa using hle, by simp⟩
        · simpa [accepts] using haccepts
    | one p =>
      have hones : ones (.one p :: slots) = ones slots + 1 := by simp [ones, isStar]
      rw [mem_one_cons, hones]
      cases n with
      | zero => simp
      | succ n =>
        have hfirst : (∃ a y, List.replicate (n + 1) b = a :: y ∧ p a = true ∧ y ∈ language slots) ↔
            p b = true ∧ List.replicate n b ∈ language slots := by
          rw [List.replicate_succ]
          constructor
          · rintro ⟨a, y, hy, hp, hmem⟩
            cases hy
            exact ⟨hp, hmem⟩
          · rintro ⟨hp, hmem⟩
            exact ⟨b, _, rfl, hp, hmem⟩
        rw [hfirst, ih]
        simp [accepts, isStar, and_assoc]

theorem mem_openEnds_star {e : List (Slot α)} : e ∈ openEnds b (.star :: slots) ↔
    (slots.all (accepts b) = true ∧ e = [.star]) ∨ ∃ e' ∈ openEnds b slots, e = .star :: e' := by
  rw [openEnds, List.mem_append, List.mem_ite_nil_right, List.mem_singleton, List.mem_map]
  simp only [eq_comm]

theorem mem_openEnds_one {p : α → Bool} {e : List (Slot α)} :
    e ∈ openEnds b (.one p :: slots) ↔
      ((p b = true ∧ slots.all (accepts b) = true ∧ slots.any isStar = true) ∧ e = []) ∨
        ∃ e' ∈ openEnds b slots, e = .one p :: e' := by
  rw [openEnds, List.mem_append, List.mem_ite_nil_right, List.mem_singleton, List.mem_map,
    Bool.and_eq_true, Bool.and_eq_true, and_assoc]
  simp only [eq_comm (a := e), and_assoc]

/-- A long run alone. -/
theorem mem_replicate_of_lt (hn : slots.length < n) : List.replicate n b ∈ language slots ↔
    slots.all (accepts b) = true ∧ slots.any isStar = true := by
  rw [mem_replicate]
  constructor
  · rintro ⟨haccepts, _, hstar | hones⟩
    · exact ⟨haccepts, hstar⟩
    · exact absurd hones (ones_le_length.trans_lt hn).ne
  · rintro ⟨haccepts, hstar⟩
    exact ⟨haccepts, ones_le_length.trans hn.le, .inl hstar⟩

/-- Before a run that is longer than a pattern stands what its open ends stand for. -/
theorem mem_append_replicate (hn : slots.length < n) :
    x ++ List.replicate n b ∈ language slots ↔ ∃ e ∈ openEnds b slots, x ∈ language e := by
  induction slots generalizing x n with
  | nil =>
    obtain ⟨m, rfl⟩ := Nat.exists_eq_add_of_lt hn
    simp [openEnds, List.replicate_succ]
  | cons slot slots ih =>
    have hshorter : slots.length < n := (Nat.lt_succ_self _).trans hn
    cases slot with
    | star =>
      rw [mem_star]
      constructor
      · rintro ⟨y, hy, hmem⟩
        rcases List.suffix_or_suffix_of_suffix hy (List.suffix_append x _) with hrun | ⟨z, rfl⟩
        · -- the star takes in all that comes before the run
          rw [(List.suffix_replicate_iff.mp hrun).2] at hmem
          have haccepts := (mem_replicate.mp hmem).1
          refine ⟨[.star], mem_openEnds_star.mpr (.inl ⟨haccepts, rfl⟩), ?_⟩
          exact mem_star.mpr ⟨[], List.nil_suffix, rfl⟩
        · obtain ⟨w, hw⟩ := hy
          rw [← List.append_assoc] at hw
          obtain ⟨e, he, hze⟩ := (ih hshorter).mp hmem
          refine ⟨.star :: e, mem_openEnds_star.mpr (.inr ⟨e, he, rfl⟩), ?_⟩
          exact mem_star.mpr ⟨z, ⟨w, List.append_cancel_right hw⟩, hze⟩
      · rintro ⟨e, he, hmem⟩
        rcases mem_openEnds_star.mp he with ⟨haccepts, rfl⟩ | ⟨e', he', rfl⟩
        · have hle : ones slots ≤ n := ones_le_length.trans hshorter.le
          have hrun : List.replicate (ones slots) b <:+ List.replicate n b :=
            List.suffix_replicate_iff.mpr ⟨by simpa using hle, by simp⟩
          exact ⟨_, hrun.trans (List.suffix_append x _),
            mem_replicate.mpr ⟨haccepts, le_refl _, .inr rfl⟩⟩
        · obtain ⟨z, ⟨w, rfl⟩, hz⟩ := mem_star.mp hmem
          refine ⟨z ++ List.replicate n b, ?_, (ih hshorter).mpr ⟨e', he', hz⟩⟩
          exact ⟨w, (List.append_assoc ..).symm⟩
    | one p =>
      rw [mem_one_cons]
      cases x with
      | nil =>
        obtain ⟨m, rfl⟩ : ∃ m, n = m + 1 := ⟨n - 1, by omega⟩
        have hlong : slots.length < m := Nat.succ_lt_succ_iff.mp hn
        constructor
        · rintro ⟨a, y, hy, hp, hmem⟩
          rw [List.nil_append, List.replicate_succ] at hy
          cases hy
          have hcut := (mem_replicate_of_lt hlong).mp hmem
          exact ⟨[], mem_openEnds_one.mpr (.inl ⟨⟨hp, hcut⟩, rfl⟩), by simp⟩
        · rintro ⟨e, he, hmem⟩
          rcases mem_openEnds_one.mp he with ⟨⟨hp, hcut⟩, rfl⟩ | ⟨e', _, rfl⟩
          · exact ⟨b, List.replicate m b, rfl, hp, (mem_replicate_of_lt hlong).mpr hcut⟩
          · obtain ⟨_, _, hnever, _⟩ := mem_one_cons.mp hmem
            cases hnever
      | cons c x =>
        constructor
        · rintro ⟨a, y, hy, hp, hmem⟩
          cases hy
          obtain ⟨e, he, hx⟩ := (ih hshorter).mp hmem
          refine ⟨.one p :: e, mem_openEnds_one.mpr (.inr ⟨e, he, rfl⟩), ?_⟩
          exact mem_one_cons.mpr ⟨c, x, rfl, hp, hx⟩
        · rintro ⟨e, he, hmem⟩
          rcases mem_openEnds_one.mp he with ⟨_, rfl⟩ | ⟨e', he', rfl⟩
          · simp at hmem
          · obtain ⟨a, y, hy, hp, hx⟩ := mem_one_cons.mp hmem
            cases hy
            exact ⟨c, _, rfl, hp, (ih hshorter).mpr ⟨e', he', hx⟩⟩

/-- A pattern without a star comes to its end before a long run does. -/
theorem openEnds_eq_nil (h : slots.any isStar = false) : openEnds b slots = [] := by
  induction slots with
  | nil => rfl
  | cons slot slots ih =>
    cases slot with
    | star => simp [isStar] at h
    | one p =>
      have hrest : slots.any isStar = false := by simpa [isStar] using h
      simp [openEnds, hrest, ih hrest]

/-- A pattern that ends with a star, and with another letter before it, ends as it is. -/
theorem openEnds_one_star {p : α → Bool} (hp : p b = false) (front : List (Slot α)) :
    openEnds b (front ++ [.one p, .star]) = [front ++ [.one p, .star]] := by
  induction front with
  | nil => simp [openEnds, hp]
  | cons slot front ih =>
    have hstops : (front ++ [Slot.one p, Slot.star]).all (accepts b) = false := by
      simp [accepts, hp]
    cases slot with
    | star => simp [openEnds, hstops, ih]
    | one q => simp [openEnds, hstops, ih]

end Trailing

end Pattern

end Framework
