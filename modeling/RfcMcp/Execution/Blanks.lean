import RfcMcp.Execution.Policy
import RfcMcp.Python.Glob
import Mathlib.Data.List.Forall2
import Mathlib.Algebra.Order.BigOperators.Group.List
import Mathlib.Algebra.Order.Group.Nat

namespace RfcMcp

open Framework

/-- `" " * n`. -/
def blanks (n : ℕ) : String := String.ofList (List.replicate n ' ')

namespace ExecutionPolicy

section Decision

variable (T : PyText) (settings : PolicySettings) (functionName mode : String)
  (parameters : PyDict)

/-- Whether `authorize` lets a call through. -/
def allows : Bool :=
  (authorizeUnlogged T settings functionName mode
    (genericTableReaderTarget T settings functionName parameters)).isOk

/-- The part of the decision that sees the function's name only. -/
def allowsFunction : Bool :=
  (mode == "read" && settings.isReadAllowed T functionName) ||
    (mode == "write" && settings.isWriteAllowed T functionName)

variable {T settings functionName mode parameters}

theorem authorize_of_allows (h : allows T settings functionName mode parameters = true) :
    authorize T settings functionName mode parameters =
      log (allowedRecord functionName mode
        (genericTableReaderTarget T settings functionName parameters)) := by
  unfold allows at h
  unfold authorize
  cases hresult : authorizeUnlogged T settings functionName mode
      (genericTableReaderTarget T settings functionName parameters) with
  | ok done => simp only [hresult]
  | error exc =>
    rw [hresult] at h
    cases h

theorem authorize_of_not_allows (h : allows T settings functionName mode parameters = false) :
    (∃ record exc, authorize T settings functionName mode parameters = (do
      log record
      Action.raise exc)) ∨
    ∃ exc, authorize T settings functionName mode parameters = Action.raise exc := by
  unfold allows at h
  unfold authorize
  cases hresult : authorizeUnlogged T settings functionName mode
      (genericTableReaderTarget T settings functionName parameters) with
  | ok done =>
    rw [hresult] at h
    cases h
  | error exc =>
    simp only [hresult]
    cases exc with
    | policyDenied function mode' reason => exact Or.inl ⟨_, _, rfl⟩
    | _ => exact Or.inr ⟨_, rfl⟩

/-- A call is let through when its function is, and the guard does not object to its table. -/
theorem allows_eq : allows T settings functionName mode parameters =
    (allowsFunction T settings functionName mode && !isTargetDenied T settings
      (genericTableReaderTarget T settings functionName parameters)) := by
  unfold allows authorizeUnlogged allowsFunction
  cases isTargetDenied T settings (genericTableReaderTarget T settings functionName parameters) with
  | true => simp [Except.isOk, Except.toBool]
  | false =>
    by_cases hread : mode = "read"
    · subst hread
      cases hallowed : settings.isReadAllowed T functionName <;> rfl
    · by_cases hwrite : mode = "write"
      · subst hwrite
        cases hallowed : settings.isWriteAllowed T functionName with
        | false => cases settings.mode <;> rfl
        | true =>
          have hmode := settings.isWriteAllowed_mode T hallowed
          simp [hmode, Except.isOk, Except.toBool]
      · simp [hread, hwrite, Except.isOk, Except.toBool]

theorem target_of_not_reader (h : settings.isGenericTableReader T functionName = false) :
    genericTableReaderTarget T settings functionName parameters = none := by
  simp [genericTableReaderTarget, h]

theorem allows_of_not_reader (h : settings.isGenericTableReader T functionName = false) :
    allows T settings functionName mode parameters =
      allowsFunction T settings functionName mode := by
  rw [allows_eq, target_of_not_reader h]
  simp [isTargetDenied]

end Decision

section Patterns

variable (T : PyText)

def slotsOf (pattern : String) : List (Slot Char) :=
  (Fnmatch.translate (T.upper pattern).toList).map Fnmatch.Piece.slot

/-- A pattern stands for the name if enough blanks are left for the end of the pattern. -/
def MatchesOpen (patterns : List String) (name : String) : Prop :=
  ∃ pattern ∈ patterns, ∃ e ∈ Pattern.openEnds ' ' (slotsOf T pattern),
    (T.upper name).toList ∈ Pattern.language e

/-- The patterns allow the same names as their open ends. -/
def EndsOpen (allow deny : List String) : Prop :=
  ∀ name, (PolicySettings.matchesAny T allow name = true ∧
      PolicySettings.matchesAny T deny name = false) ↔
    (MatchesOpen T allow name ∧ ¬ MatchesOpen T deny name)

/-- More blanks than any pattern has places. -/
def enough : List String → ℕ
  | [] => 1
  | pattern :: patterns => (slotsOf T pattern).length + enough patterns

variable {T} {patterns allow deny : List String} {name : String} {n : ℕ}

theorem toList_blanks (n : ℕ) : (blanks n).toList = List.replicate n ' ' := by
  simp [blanks]

theorem blanks_add (m n : ℕ) : blanks m ++ blanks n = blanks (m + n) := by
  apply String.toList_inj.mp
  rw [String.toList_append, toList_blanks, toList_blanks, toList_blanks,
    List.replicate_append_replicate]

theorem upper_blanks (n : ℕ) : T.upper (blanks n) = blanks n := by
  have hspace : T.upperChar ' ' = [' '] := T.upperChar_space ' ' (by decide)
  rw [PyText.upper, toList_blanks, blanks]
  congr 1
  induction n with
  | zero => rfl
  | succ n ih => rw [List.replicate_succ, List.flatMap_cons, hspace, ih]; rfl

/-- With enough blanks only the open ends of a pattern matter. -/
theorem fnmatchcase_blanks {pattern : String}
    (hn : (Fnmatch.translate pattern.toList).length < n) :
    fnmatchcase (name ++ blanks n) pattern = true ↔
      ∃ e ∈ Pattern.openEnds ' ' ((Fnmatch.translate pattern.toList).map Fnmatch.Piece.slot),
        name.toList ∈ Pattern.language e := by
  unfold fnmatchcase
  rw [Fnmatch.matchPieces_iff, String.toList_append, toList_blanks]
  exact Pattern.mem_append_replicate (by rwa [List.length_map])

theorem lt_enough {p : String} (hp : p ∈ patterns) :
    (slotsOf T p).length < enough T patterns := by
  have hpos : ∀ patterns, 0 < enough T patterns := by
    intro patterns
    induction patterns with
    | nil => exact Nat.one_pos
    | cons p patterns ih => exact Nat.add_pos_right _ ih
  induction patterns with
  | nil => cases hp
  | cons q patterns ih =>
    change _ < (slotsOf T q).length + enough T patterns
    cases List.mem_cons.mp hp with
    | inl hq => rw [hq]; exact Nat.lt_add_of_pos_right (hpos patterns)
    | inr hp => exact (ih hp).trans_le (Nat.le_add_left _ _)

theorem matchesAny_blanks (hn : enough T patterns ≤ n) :
    PolicySettings.matchesAny T patterns (name ++ blanks n) = true ↔
      MatchesOpen T patterns name := by
  unfold PolicySettings.matchesAny MatchesOpen
  rw [List.any_eq_true]
  refine exists_congr fun p => and_congr_right fun hp => ?_
  rw [upper_append, upper_blanks]
  have hlong : (slotsOf T p).length < n := (lt_enough hp).trans_le hn
  exact fnmatchcase_blanks (by rwa [slotsOf, List.length_map] at hlong)

theorem matchesOpen_blanks (m : ℕ) :
    MatchesOpen T patterns (name ++ blanks m) ↔ MatchesOpen T patterns name := by
  rw [← matchesAny_blanks (le_refl _), String.append_assoc, blanks_add]
  exact matchesAny_blanks (Nat.le_add_left _ m)

/-- Blanks at the end of a name do not matter to such patterns, and to no others. -/
theorem endsOpen_iff : EndsOpen T allow deny ↔ ∀ name n,
    (PolicySettings.matchesAny T allow (name ++ blanks n) = true ∧
      PolicySettings.matchesAny T deny (name ++ blanks n) = false) ↔
    (PolicySettings.matchesAny T allow name = true ∧
      PolicySettings.matchesAny T deny name = false) := by
  constructor
  · intro h name n
    rw [h, h, matchesOpen_blanks, matchesOpen_blanks]
  · intro h name
    have hallow : PolicySettings.matchesAny T allow
        (name ++ blanks (enough T allow + enough T deny)) = true ↔ MatchesOpen T allow name :=
      matchesAny_blanks (Nat.le_add_right _ _)
    have hdeny : PolicySettings.matchesAny T deny
        (name ++ blanks (enough T allow + enough T deny)) = true ↔ MatchesOpen T deny name :=
      matchesAny_blanks (Nat.le_add_left _ _)
    rw [← h name (enough T allow + enough T deny), hallow, ← hdeny, Bool.not_eq_true]

/-- Patterns that nobody has put a wildcard or a blank into, but for the stars around them. -/
def isPlainList (shapes : List PatternShape) : Bool :=
  shapes.all fun shape => shape.isPlain && isUpperAscii shape.pattern &&
    shape.text.toList.getLast? != some ' '

/-- Of such patterns those that end in `*` end open, and no others. -/
theorem matchesOpen_shapes {shapes : List PatternShape} (h : isPlainList shapes = true) :
    MatchesOpen T (shapes.map PatternShape.pattern) name ↔
      ∃ shape ∈ shapes, shape.isOpen = true ∧ shape.Holds (T.upper name) := by
  unfold MatchesOpen
  simp only [List.mem_map, exists_exists_and_eq_and]
  refine exists_congr fun shape => and_congr_right fun hshape => ?_
  have hplain := List.all_eq_true.mp h shape hshape
  rw [Bool.and_eq_true, Bool.and_eq_true, bne_iff_ne] at hplain
  obtain ⟨⟨hplain, hupper⟩, hend⟩ := hplain
  rw [slotsOf, upper_of_isUpperAscii T hupper, PatternShape.slots_pattern hplain]
  exact PatternShape.mem_openEnds_slots hend

theorem matchesAny_shapes {shapes : List PatternShape} (h : isPlainList shapes = true) :
    PolicySettings.matchesAny T (shapes.map PatternShape.pattern) name = true ↔
      ∃ shape ∈ shapes, shape.Holds (T.upper name) := by
  simp only [isPlainList, List.all_eq_true, Bool.and_eq_true] at h
  refine matchesAny_iff T ?_ ?_
  · exact List.all_eq_true.mpr fun shape hshape => (h shape hshape).1.1
  · exact List.all_eq_true.mpr fun shape hshape => (h shape hshape).1.2

/-- For such patterns the condition speaks of the parts of a name only. -/
theorem endsOpen_shapes {shapes shapes' : List PatternShape} (h : isPlainList shapes = true)
    (h' : isPlainList shapes' = true) :
    EndsOpen T (shapes.map PatternShape.pattern) (shapes'.map PatternShape.pattern) ↔ ∀ name,
      ((∃ shape ∈ shapes, shape.Holds (T.upper name)) ∧
        ¬ ∃ shape ∈ shapes', shape.Holds (T.upper name)) ↔
      ((∃ shape ∈ shapes, shape.isOpen = true ∧ shape.Holds (T.upper name)) ∧
        ¬ ∃ shape ∈ shapes', shape.isOpen = true ∧ shape.Holds (T.upper name)) := by
  unfold EndsOpen
  simp only [← Bool.not_eq_true, matchesAny_shapes h, matchesAny_shapes h', matchesOpen_shapes h,
    matchesOpen_shapes h']

/-- Patterns that all end in `*` are blind to blanks. -/
theorem endsOpen_of_isOpen {shapes shapes' : List PatternShape} (h : isPlainList shapes = true)
    (h' : isPlainList shapes' = true) (hopen : ∀ shape ∈ shapes ++ shapes', shape.isOpen = true) :
    EndsOpen T (shapes.map PatternShape.pattern) (shapes'.map PatternShape.pattern) := by
  have hsame : ∀ (list : List PatternShape) name, (∀ shape ∈ list, shape.isOpen = true) →
      ((∃ shape ∈ list, shape.Holds name) ↔
        ∃ shape ∈ list, shape.isOpen = true ∧ shape.Holds name) := by
    intro list name hlist
    refine exists_congr fun shape => and_congr_right fun hshape => ?_
    rw [hlist shape hshape, eq_self_iff_true, true_and]
  rw [endsOpen_shapes h h']
  intro name
  rw [hsame shapes _ fun shape hshape => hopen shape (List.mem_append_left _ hshape),
    hsame shapes' _ fun shape hshape => hopen shape (List.mem_append_right _ hshape)]

end Patterns

section Spelling

variable (T : PyText) (settings : PolicySettings)

/-- One entry of the parameters, its value maybe spelled with more blanks at the end. -/
inductive PaddedEntry : String × PyValue → String × PyValue → Prop
  | same (e : String × PyValue) : PaddedEntry e e
  | padded (key value : String) (n : ℕ) (hkey : T.upper key = genericTableReaderParam) :
    PaddedEntry (key, .str value) (key, .str (value ++ blanks n))

/-- What a caller may expect of the guard where SAP ignores trailing blanks. -/
def BlindToBlanks : Prop :=
  ∀ (mode functionName : String) (n : ℕ) (parameters parameters' : PyDict),
    List.Forall₂ (PaddedEntry T) parameters parameters' →
      allows T settings (functionName ++ blanks n) mode parameters' =
        allows T settings functionName mode parameters

/-- The function patterns end open, and no function that may be called is subject to the table
guard, or the guard has nothing to object to. -/
structure BlanksDecideNothing : Prop where
  read : EndsOpen T settings.readAllowPatterns settings.denyPatterns
  write : settings.mode = .readWrite →
    EndsOpen T settings.writeAllowPatterns settings.denyPatterns
  guard : (∀ functionName, settings.isGenericTableReader T functionName = true →
      settings.isReadAllowed T functionName = false ∧
        settings.isWriteAllowed T functionName = false) ∨
    ∀ value : PyValue, value.truthy = true → settings.isTableDenied T (T.str value) = false

variable {T settings}

theorem readBlind_iff : (∀ functionName n,
      settings.isReadAllowed T (functionName ++ blanks n) =
        settings.isReadAllowed T functionName) ↔
    EndsOpen T settings.readAllowPatterns settings.denyPatterns := by
  have hallowed : ∀ f, settings.isReadAllowed T f = true ↔
      PolicySettings.matchesAny T settings.readAllowPatterns f = true ∧
        PolicySettings.matchesAny T settings.denyPatterns f = false := by
    intro f
    unfold PolicySettings.isReadAllowed PolicySettings.isDenied
    split <;> simp_all
  rw [endsOpen_iff]
  simp only [← hallowed, ← Bool.eq_iff_iff]

theorem writeBlind_iff : (∀ functionName n,
      settings.isWriteAllowed T (functionName ++ blanks n) =
        settings.isWriteAllowed T functionName) ↔
    (settings.mode = .readWrite →
      EndsOpen T settings.writeAllowPatterns settings.denyPatterns) := by
  by_cases hmode : settings.mode = .readWrite
  · have hallowed : ∀ f, settings.isWriteAllowed T f = true ↔
        PolicySettings.matchesAny T settings.writeAllowPatterns f = true ∧
          PolicySettings.matchesAny T settings.denyPatterns f = false := by
      intro f
      unfold PolicySettings.isWriteAllowed PolicySettings.isDenied
      rw [if_neg (not_not.mpr hmode)]
      split <;> simp_all
    rw [endsOpen_iff]
    simp only [← hallowed, ← Bool.eq_iff_iff, hmode, forall_const]
  · have hnever : ∀ f, settings.isWriteAllowed T f = false := by
      intro f
      unfold PolicySettings.isWriteAllowed
      rw [if_pos hmode]
    simp [hnever, hmode]

/-- The reader list is finite: with enough blanks no name is on it. -/
theorem exists_not_reader (functionName : String) :
    ∃ n, settings.isGenericTableReader T (functionName ++ blanks n) = false := by
  let lengths := settings.genericTableReaderFunctions.map fun f => (T.upper f).length
  refine ⟨lengths.sum + 1, ?_⟩
  unfold PolicySettings.isGenericTableReader
  rw [List.any_eq_false]
  intro f hf hsame
  have hupper : T.upper functionName ++ blanks (lengths.sum + 1) = T.upper f := by
    rw [← @upper_blanks T, ← upper_append]
    exact beq_iff_eq.mp hsame
  have hlength := congrArg String.length hupper
  have hle : (T.upper f).length ≤ lengths.sum :=
    List.le_sum_of_mem (List.mem_map.mpr ⟨f, hf, rfl⟩)
  rw [String.length_append, ← String.length_toList (s := blanks _), toList_blanks,
    List.length_replicate] at hlength
  omega

theorem allows_nil (functionName mode : String) : allows T settings functionName mode [] =
    allowsFunction T settings functionName mode := by
  rw [allows_eq, genericTableReaderTarget]
  split <;> simp [lastUpper, isTargetDenied]

theorem forall₂_same (parameters : PyDict) :
    List.Forall₂ (PaddedEntry T) parameters parameters := by
  induction parameters with
  | nil => exact List.Forall₂.nil
  | cons e parameters ih => exact List.Forall₂.cons (PaddedEntry.same e) ih

/-- A name whose function is let through stays so under blanks that take it off the reader list. -/
theorem guard_of_blind (h : BlindToBlanks T settings) {functionName : String} (mode : String)
    (hallowed : allowsFunction T settings functionName mode = true) {value : PyValue}
    (hvalue : value.truthy = true)
    (hreader : settings.isGenericTableReader T functionName = true) :
    settings.isTableDenied T (T.str value) = false := by
  obtain ⟨n, hn⟩ := @exists_not_reader T settings functionName
  have hblind := h mode functionName n [] [] List.Forall₂.nil
  rw [allows_nil, allows_nil, hallowed] at hblind
  have hkey : T.upper genericTableReaderParam = genericTableReaderParam := by
    have hascii : (genericTableReaderParam.toList.all fun c => decide (c.toNat < 128)) = true := by
      decide
    rw [upper_ascii T fun c hc => of_decide_eq_true (List.all_eq_true.mp hascii c hc)]
    decide
  have hguard := h mode functionName n [(genericTableReaderParam, value)] _ (forall₂_same _)
  rw [allows_of_not_reader hn, hblind, allows_eq, hallowed] at hguard
  have htarget : genericTableReaderTarget T settings functionName
      [(genericTableReaderParam, value)] = some (T.str value) := by
    simp [genericTableReaderTarget, hreader, lastUpper, hkey, hvalue]
  rw [htarget] at hguard
  simpa [isTargetDenied] using hguard.symm

/-- Then the guard never changes a decision. -/
theorem BlanksDecideNothing.allows (h : BlanksDecideNothing T settings)
    (functionName mode : String) (parameters : PyDict) :
    ExecutionPolicy.allows T settings functionName mode parameters =
      allowsFunction T settings functionName mode := by
  cases hreader : settings.isGenericTableReader T functionName with
  | false => exact allows_of_not_reader hreader
  | true =>
    rw [allows_eq]
    cases h.guard with
    | inl hnone =>
      obtain ⟨hread, hwrite⟩ := hnone functionName hreader
      simp [allowsFunction, hread, hwrite]
    | inr hnone =>
      have htarget : isTargetDenied T settings
          (genericTableReaderTarget T settings functionName parameters) = false := by
        rw [genericTableReaderTarget, hreader]
        cases lastUpper T parameters genericTableReaderParam with
        | none => rfl
        | some e =>
          cases hvalue : e.2.truthy with
          | false => simp [hvalue, isTargetDenied]
          | true => simpa [hvalue, isTargetDenied] using hnone e.2 hvalue
      rw [htarget, Bool.not_false, Bool.and_true]

theorem blindToBlanks_iff :
    BlindToBlanks T settings ↔ BlanksDecideNothing T settings := by
  constructor
  · intro h
    have hfunction : ∀ mode functionName n,
        allowsFunction T settings (functionName ++ blanks n) mode =
          allowsFunction T settings functionName mode := by
      intro mode functionName n
      have hblind := h mode functionName n [] [] List.Forall₂.nil
      rw [allows_nil, allows_nil] at hblind
      exact hblind
    constructor
    · refine readBlind_iff.mp fun functionName n => ?_
      simpa [allowsFunction] using hfunction "read" functionName n
    · refine writeBlind_iff.mp fun functionName n => ?_
      simpa [allowsFunction] using hfunction "write" functionName n
    · by_cases hnone : ∀ value : PyValue, value.truthy = true →
          settings.isTableDenied T (T.str value) = false
      · exact Or.inr hnone
      · push Not at hnone
        obtain ⟨value, hvalue, hdenied⟩ := hnone
        refine Or.inl ?_
        intro functionName hreader
        constructor
        · by_contra hread
          refine hdenied (guard_of_blind h "read" ?_ hvalue hreader)
          simpa [allowsFunction] using hread
        · by_contra hwrite
          refine hdenied (guard_of_blind h "write" ?_ hvalue hreader)
          simpa [allowsFunction] using hwrite
  · intro h mode functionName n parameters parameters' _
    have hfunction : allowsFunction T settings (functionName ++ blanks n) mode =
        allowsFunction T settings functionName mode := by
      rw [allowsFunction, readBlind_iff.mpr h.read, writeBlind_iff.mpr h.write, allowsFunction]
    rw [h.allows, h.allows, hfunction]

/-- `UST04` is refused, `UST04` with a blank is not. -/
theorem guard_bypassed_with_blank :
    ¬ BlindToBlanks asciiText { readAllowPatterns := ["RFC_READ_TABLE"] } := by
  intro h
  have hpadded : List.Forall₂ (PaddedEntry asciiText) [("QUERY_TABLE", .str "UST04")]
      [("QUERY_TABLE", .str ("UST04" ++ blanks 1))] :=
    List.Forall₂.cons (PaddedEntry.padded _ _ 1 (by decide)) List.Forall₂.nil
  have hsame := h "read" "RFC_READ_TABLE" 0 _ _ hpadded
  have hallowed : allows asciiText { readAllowPatterns := ["RFC_READ_TABLE"] }
      ("RFC_READ_TABLE" ++ blanks 0) "read" [("QUERY_TABLE", .str ("UST04" ++ blanks 1))] =
        true := by
    decide +kernel
  have hdenied : allows asciiText { readAllowPatterns := ["RFC_READ_TABLE"] }
      "RFC_READ_TABLE" "read" [("QUERY_TABLE", .str "UST04")] = false := by
    decide +kernel
  rw [hallowed, hdenied] at hsame
  cases hsame

end Spelling

end ExecutionPolicy

end RfcMcp
