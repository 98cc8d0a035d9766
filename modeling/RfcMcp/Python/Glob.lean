import RfcMcp.Framework.Pattern
import RfcMcp.Python.Fnmatch

namespace RfcMcp

namespace Fnmatch

open Framework Framework.Pattern

def Piece.slot : Piece → Slot Char
  | .star => .star
  | p => .one p.accepts

theorem anySuffix_iff {f : List Char → Bool} {cs : List Char} :
    anySuffix f cs = true ↔ ∃ y, y <:+ cs ∧ f y = true := by
  induction cs with
  | nil => simp [anySuffix]
  | cons c cs ih => simp [anySuffix, ih, List.suffix_cons_iff]

theorem language_slot_cons {p : Piece} (hp : p ≠ .star) {ps : List Piece} {cs : List Char} :
    cs ∈ language ((p :: ps).map Piece.slot) ↔
      ∃ c rest, cs = c :: rest ∧ p.accepts c = true ∧ rest ∈ language (ps.map Piece.slot) := by
  have hslot : p.slot = .one p.accepts := by cases p <;> first | rfl | exact absurd rfl hp
  rw [List.map_cons, hslot, mem_one_cons]

/-- The matcher accepts the texts that the pieces stand for, one after the other. -/
theorem matchPieces_iff {ps : List Piece} {cs : List Char} :
    matchPieces ps cs = true ↔ cs ∈ language (ps.map Piece.slot) := by
  induction ps generalizing cs with
  | nil => cases cs <;> simp [matchPieces]
  | cons p ps ih =>
    by_cases hp : p = .star
    · subst hp
      have hslots : (Piece.star :: ps).map Piece.slot = .star :: ps.map Piece.slot := rfl
      rw [hslots, mem_star]
      simp only [matchPieces, anySuffix_iff, ih]
    · rw [language_slot_cons hp]
      cases cs with
      | nil => cases p <;> simp [matchPieces] at hp ⊢
      | cons c cs =>
        have hcons : matchPieces (p :: ps) (c :: cs) = (p.accepts c && matchPieces ps cs) := by
          cases p <;> first | rfl | exact absurd rfl hp
        rw [hcons, Bool.and_eq_true, ih]
        constructor
        · rintro ⟨hc, hcs⟩
          exact ⟨c, cs, rfl, hc, hcs⟩
        · rintro ⟨c', cs', heq, hc, hcs⟩
          cases heq
          exact ⟨hc, hcs⟩

/-- A character with no meaning of its own in a pattern. -/
def isPlain (c : Char) : Bool := c != '*' && c != '?' && c != '['

theorem translateAux_plain {w rest : List Char} (hw : w.all isPlain = true) {fuel : ℕ} :
    translateAux (w.length + fuel) (w ++ rest) = w.map .lit ++ translateAux fuel rest := by
  induction w with
  | nil => simp
  | cons c w ih =>
    simp only [List.all_cons, Bool.and_eq_true] at hw
    obtain ⟨hc, hw⟩ := hw
    simp only [isPlain, Bool.and_eq_true, bne_iff_ne, ne_eq] at hc
    have hlength : (c :: w).length + fuel = (w.length + fuel) + 1 := by
      simp only [List.length_cons]
      omega
    rw [hlength, List.cons_append, translateAux, if_neg hc.1.1, if_neg hc.1.2, if_neg hc.2, ih hw]
    rfl

theorem slots_lit (w : List Char) : (w.map Piece.lit).map Piece.slot = word w := by
  rw [List.map_map]
  rfl

end Fnmatch

open Fnmatch Framework.Pattern

/-- The patterns in use: part of a name, the start of a name, a whole name. -/
inductive PatternShape
  | contains (w : String)
  | startsWith (w : String)
  | exactly (w : String)
deriving DecidableEq, Repr

namespace PatternShape

def text : PatternShape → String
  | .contains w | .startsWith w | .exactly w => w

def pattern : PatternShape → String
  | .contains w => "*" ++ w ++ "*"
  | .startsWith w => w ++ "*"
  | .exactly w => w

/-- What the pattern is meant to say about a name. -/
def Holds (name : String) : PatternShape → Prop
  | .contains w => w.toList <:+: name.toList
  | .startsWith w => w.toList <+: name.toList
  | .exactly w => name = w

def isPlain (shape : PatternShape) : Bool := shape.text.toList.all Fnmatch.isPlain

theorem translate_plain {w : List Char} (hw : w.all Fnmatch.isPlain = true) :
    Fnmatch.translate w = w.map .lit := by
  have htranslate : translateAux (w.length + 0) (w ++ []) = w.map .lit ++ translateAux 0 [] :=
    translateAux_plain hw
  simpa [Fnmatch.translate, translateAux] using htranslate

theorem translate_prefix {w : List Char} (hw : w.all Fnmatch.isPlain = true) :
    Fnmatch.translate (w ++ ['*']) = w.map .lit ++ [.star] := by
  have htranslate : translateAux (w.length + 1) (w ++ ['*']) =
      w.map .lit ++ translateAux 1 ['*'] := translateAux_plain hw
  simpa [Fnmatch.translate, translateAux] using htranslate

theorem translate_infix {w : List Char} (hw : w.all Fnmatch.isPlain = true) :
    Fnmatch.translate ('*' :: (w ++ ['*'])) = .star :: (w.map .lit ++ [.star]) := by
  have hstar : Fnmatch.translate ('*' :: (w ++ ['*'])) =
      .star :: Fnmatch.translate (w ++ ['*']) := rfl
  rw [hstar, translate_prefix hw]

def slots : PatternShape → List (Framework.Slot Char)
  | .contains w => .star :: (word w.toList ++ [.star])
  | .startsWith w => word w.toList ++ [.star]
  | .exactly w => word w.toList

theorem slots_pattern {shape : PatternShape} (hplain : shape.isPlain = true) :
    (Fnmatch.translate shape.pattern.toList).map Piece.slot = shape.slots := by
  cases shape with
  | contains w =>
    have hw : w.toList.all Fnmatch.isPlain = true := hplain
    have hpattern : (contains w).pattern.toList = '*' :: (w.toList ++ ['*']) := by
      simp [pattern]
    rw [hpattern, translate_infix hw, List.map_cons, List.map_append, slots_lit]
    rfl
  | startsWith w =>
    have hw : w.toList.all Fnmatch.isPlain = true := hplain
    have hpattern : (startsWith w).pattern.toList = w.toList ++ ['*'] := by simp [pattern]
    rw [hpattern, translate_prefix hw, List.map_append, slots_lit]
    rfl
  | exactly w =>
    have hw : w.toList.all Fnmatch.isPlain = true := hplain
    rw [pattern, translate_plain hw, slots_lit]
    rfl

theorem mem_slots {shape : PatternShape} {name : String} :
    name.toList ∈ language shape.slots ↔ shape.Holds name := by
  cases shape with
  | contains w => exact mem_star_word_star
  | startsWith w => exact mem_word_star
  | exactly w =>
    rw [slots, mem_word]
    exact String.toList_inj

/-- A pattern without wildcards of its own means what its shape says. -/
theorem fnmatchcase_iff {shape : PatternShape} (hplain : shape.isPlain = true) {name : String} :
    fnmatchcase name shape.pattern = true ↔ shape.Holds name := by
  unfold fnmatchcase
  rw [matchPieces_iff, slots_pattern hplain]
  exact mem_slots

/-- Whether the pattern ends in a wildcard. -/
def isOpen : PatternShape → Bool
  | .contains _ | .startsWith _ => true
  | .exactly _ => false

theorem any_isStar_word (w : List Char) : (word w).any isStar = false := by
  simp [word, isStar]

/-- The last letter of a text is another one, so that the star after it takes the whole run. -/
theorem openEnds_word_star {b : Char} {w : List Char} (hw : w.getLast? ≠ some b)
    (front : List (Framework.Slot Char)) (hfront : w = [] → front = []) :
    openEnds b (front ++ (word w ++ [.star])) = [front ++ (word w ++ [.star])] := by
  rcases List.eq_nil_or_concat w with rfl | ⟨w, c, rfl⟩
  · rw [hfront rfl]
    rfl
  · have hc : (c == b) = false := by simpa using hw
    have hsplit : front ++ (word (w.concat c) ++ [.star]) =
        (front ++ word w) ++ [.one (c == ·), .star] := by
      simp [word]
    rw [hsplit]
    exact openEnds_one_star hc _

/-- A pattern that ends in a wildcard is not told by a run of letters at the end of a name whether
there are any; a pattern that does not ends before a long run. -/
theorem mem_openEnds_slots {b : Char} {shape : PatternShape} {name : String}
    (hend : shape.text.toList.getLast? ≠ some b) :
    (∃ e ∈ openEnds b shape.slots, name.toList ∈ language e) ↔
      shape.isOpen = true ∧ shape.Holds name := by
  rw [← mem_slots]
  cases shape with
  | exactly w => simp [slots, isOpen, openEnds_eq_nil (any_isStar_word w.toList)]
  | startsWith w =>
    have hends : openEnds b (startsWith w).slots = [(startsWith w).slots] :=
      openEnds_word_star hend [] fun _ => rfl
    simp [isOpen, hends]
  | contains w =>
    by_cases hempty : w.toList = []
    · have hslots : (contains w).slots = [.star, .star] := by rw [slots, hempty]; rfl
      have hends : openEnds b (contains w).slots = [[.star], [.star, .star]] := by
        rw [hslots]
        rfl
      have hall : name.toList ∈ language [.star] := mem_star.mpr ⟨[], List.nil_suffix, rfl⟩
      have hall' : name.toList ∈ language (contains w).slots := by
        rw [hslots]
        exact mem_star.mpr ⟨_, List.suffix_refl _, hall⟩
      exact iff_of_true ⟨_, hends ▸ List.mem_cons_self, hall⟩ ⟨rfl, hall'⟩
    · have hends : openEnds b (contains w).slots = [(contains w).slots] :=
        openEnds_word_star hend [.star] fun h => absurd h hempty
      simp [isOpen, hends]

end PatternShape

end RfcMcp
