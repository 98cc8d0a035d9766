import RfcMcp.Discovery.StructureResolver
import RfcMcp.Framework.Oracle
import Mathlib.Data.Set.Card
import Mathlib.Logic.Relation

namespace RfcMcp

open Framework Framework.Action

/-- A call of an `RfcCaller`. -/
structure RfcCall where
  function : String
  kwargs : PyDict

/-- What an `RfcCaller` does: it answers calls, or raises. -/
abbrev Calls : Signature := ⟨RfcCall, fun _ => Except PyExc PyDict⟩

def RfcCaller.call (function : String) (kwargs : PyDict) : Action Calls PyExc PyDict := do
  let result ← Action.perform (S := Calls) ⟨function, kwargs⟩
  Action.ofExcept result

section Graph

variable (T : PyText) (answers : RfcCall → Except PyExc PyDict)

/-- `resolve_structure_fields` in front of a caller with fixed answers; a depth below zero is like
zero. -/
def expansion (tabname : String) (maxDepth : Int) : Except PyExc (List FieldInfo) :=
  (resolveStructureFields T RfcCaller.call tabname maxDepth.toNat).outcome answers

/-- The request for the definition of a structure. -/
def definitionOf (tabname : String) : RfcCall :=
  ⟨"RFC_GET_STRUCTURE_DEFINITION", [("TABNAME", .str tabname)]⟩

def definedRows (tabname : String) : Except PyExc (List PyValue) := do
  let result ← answers (definitionOf tabname)
  (result.getD "FIELDS" (.list [])).iterate

/-- The form in which names are compared. -/
def structureName (name : String) : String := T.upper (strip name)

/-- The structure that a row of `tabname` refers to, if any is to be expanded. -/
def reference (tabname : String) (row : PyValue) : Option String :=
  match row.asRow with
  | .ok row =>
    let nested := row.text T "TABNAME"
    if row.text T "FIELDNAME" ≠ "" ∧ nested ≠ "" ∧ T.upper nested ≠ structureName T tabname then
      some nested
    else none
  | .error _ => none

def Refers (name nested : String) : Prop :=
  ∃ rows, definedRows answers name = .ok rows ∧ ∃ row ∈ rows, reference T name row = some nested

/-- The names of the structures that can be reached from `start`. -/
def reachableStructures (start : String) : Set String :=
  {x | x ≠ "" ∧ ∃ name, Relation.ReflTransGen (Refers T answers) start name ∧
    structureName T name = x}

/-- The field that a row stands for itself. -/
def ownField (row : PyValue) : Except PyExc (List FieldInfo) := do
  let row ← row.asRow
  let fieldName := row.text T "FIELDNAME"
  return if fieldName = "" then [] else [fieldInfo T fieldName row]

end Graph

section Steps

variable {T : PyText} {answers : RfcCall → Except PyExc PyDict} {tabname : String}
  {seen : List String} {depth : ℕ}

variable (nested : String → Action Calls PyExc (List FieldInfo)) {row : PyValue}

theorem outcome_resolveRow_none (h : reference T tabname row = none) :
    (resolveRow T (structureName T tabname) nested row).outcome answers = ownField T row := by
  unfold reference at h
  unfold resolveRow ownField
  cases hrow : row.asRow with
  | error exc => rfl
  | ok fields =>
    by_cases hname : fields.text T "FIELDNAME" = ""
    · simp [outcome_bind, hname, Except.bind]
    · have htab : ¬(fields.text T "TABNAME" ≠ "" ∧
          T.upper (fields.text T "TABNAME") ≠ structureName T tabname) := by
        intro htab
        simp [hrow, hname, htab] at h
      simp [outcome_bind, hname, htab, Except.bind]

theorem outcome_resolveRow_some {name : String} (h : reference T tabname row = some name) :
    (resolveRow T (structureName T tabname) nested row).outcome answers =
      (ownField T row).bind fun own => ((nested name).outcome answers).map (own ++ ·) := by
  unfold reference at h
  unfold resolveRow ownField
  cases hrow : row.asRow with
  | error exc => rfl
  | ok fields =>
    rw [hrow] at h
    obtain ⟨⟨hname, htab⟩, hnested⟩ := Option.ite_none_right_eq_some.mp h
    cases hnested
    simp [outcome_bind, hname, htab, Except.bind, Except.map]

theorem resolve_succ : resolve T RfcCaller.call (depth + 1) tabname seen =
    if structureName T tabname = "" ∨ structureName T tabname ∈ seen then pure []
    else (do
      let result ← RfcCaller.call "RFC_GET_STRUCTURE_DEFINITION" [("TABNAME", .str tabname)]
      let rawFields ← Action.ofExcept (result.getD "FIELDS" (.list [])).iterate
      collect rawFields (resolveRow T (structureName T tabname) fun name =>
        resolve T RfcCaller.call depth name (structureName T tabname :: seen)) :
      Action Calls PyExc (List FieldInfo)) := by
  rw [resolve]
  rfl

/-- A structure that is visited already, or that has no name, adds nothing. -/
theorem resolve_visited (h : structureName T tabname = "" ∨ structureName T tabname ∈ seen) :
    resolve T RfcCaller.call depth tabname seen = pure [] := by
  cases depth with
  | zero => simp only [resolve]
  | succ depth => simp only [resolve_succ, if_pos h]

theorem outcome_resolve (h : ¬(structureName T tabname = "" ∨ structureName T tabname ∈ seen)) :
    (resolve T RfcCaller.call (depth + 1) tabname seen).outcome answers =
      (definedRows answers tabname).bind fun rows =>
        (collect rows (resolveRow T (structureName T tabname) fun name =>
          resolve T RfcCaller.call depth name (structureName T tabname :: seen))).outcome
            answers := by
  have hcall : (RfcCaller.call "RFC_GET_STRUCTURE_DEFINITION" [("TABNAME", .str tabname)]).outcome
      answers = answers (definitionOf tabname) := rfl
  rw [resolve_succ, if_neg h, outcome_bind, hcall]
  unfold definedRows
  cases answers (definitionOf tabname) with
  | error exc => rfl
  | ok result => exact outcome_bind

section Except

variable {α β : Type} {x : Except PyExc α}

theorem bind_ok {a : α} {f : α → Except PyExc β} : (Except.ok a).bind f = f a := rfl

theorem eq_ok_of_bind {f : α → Except PyExc β} {b : β} (h : x.bind f = .ok b) :
    ∃ a, x = .ok a ∧ f a = .ok b := by
  cases x with
  | error exc => cases h
  | ok a => exact ⟨a, rfl, h⟩

theorem eq_ok_of_map {f : α → β} {b : β} (h : x.map f = .ok b) : ∃ a, x = .ok a ∧ f a = b := by
  cases x with
  | error exc => cases h
  | ok a =>
    cases h
    exact ⟨a, rfl, rfl⟩

theorem bind_congr_ok {f g : α → Except PyExc β} (h : ∀ a, x = .ok a → f a = g a) :
    x.bind f = x.bind g := by
  cases x with
  | error exc => rfl
  | ok a => exact h a rfl

end Except

theorem mem_unvisited {start : String}
    (hreach : Relation.ReflTransGen (Refers T answers) start tabname)
    (h : ¬(structureName T tabname = "" ∨ structureName T tabname ∈ seen)) :
    structureName T tabname ∈ reachableStructures T answers start \ {x | x ∈ seen} := by
  obtain ⟨hname, hseen⟩ := not_or.mp h
  exact ⟨⟨hname, tabname, hreach, rfl⟩, hseen⟩

/-- A visit leaves one structure less to visit. -/
theorem encard_unvisited {reachable : Set String} {name : String}
    (hname : name ∈ reachable \ {x | x ∈ seen})
    (h : (reachable \ {x | x ∈ seen}).encard ≤ (depth + 1 : ℕ)) :
    (reachable \ {x | x ∈ name :: seen}).encard ≤ depth := by
  have hless : reachable \ {x | x ∈ name :: seen} = (reachable \ {x | x ∈ seen}) \ {name} := by
    ext x
    simp only [Set.mem_sdiff, Set.mem_ofPred_eq, List.mem_cons, Set.mem_singleton_iff]
    tauto
  have hone := Set.encard_sdiff_singleton_add_one hname
  rw [← hless] at hone
  rw [← hone, Nat.cast_add, Nat.cast_one] at h
  exact (ENat.add_le_add_iff_right ENat.one_ne_top).mp h

/-- The fields at one depth are among the fields at the next, in the same order. -/
theorem resolve_sublist {fields' : List FieldInfo}
    (h : (resolve T RfcCaller.call (depth + 1) tabname seen).outcome answers = .ok fields') :
    ∃ fields, (resolve T RfcCaller.call depth tabname seen).outcome answers = .ok fields ∧
      fields.Sublist fields' := by
  induction depth generalizing tabname seen fields' with
  | zero => exact ⟨[], rfl, List.nil_sublist fields'⟩
  | succ depth ih =>
    by_cases hvisited : structureName T tabname = "" ∨ structureName T tabname ∈ seen
    · rw [resolve_visited hvisited] at h ⊢
      exact ⟨fields', h, List.Sublist.refl fields'⟩
    · rw [outcome_resolve hvisited] at h ⊢
      cases hrows : definedRows answers tabname with
      | error exc =>
        rw [hrows] at h
        cases h
      | ok rows =>
        rw [hrows] at h
        apply outcome_collect_sublist _ h
        intro row _ found' hfound'
        cases href : reference T tabname row with
        | none =>
          rw [outcome_resolveRow_none _ href] at hfound' ⊢
          exact ⟨found', hfound', List.Sublist.refl found'⟩
        | some name =>
          rw [outcome_resolveRow_some _ href] at hfound' ⊢
          obtain ⟨own, hown, hmap⟩ := eq_ok_of_bind hfound'
          obtain ⟨deeper', hdeeper', happend⟩ := eq_ok_of_map hmap
          obtain ⟨deeper, hdeeper, hsub⟩ := ih hdeeper'
          have happended := (List.Sublist.refl own).append hsub
          rw [happend] at happended
          rw [hown, bind_ok, hdeeper]
          exact ⟨own ++ deeper, rfl, happended⟩

/-- A depth that is at least the number of structures not visited yet makes no difference. -/
theorem resolve_saturated {start : String}
    (hreach : Relation.ReflTransGen (Refers T answers) start tabname)
    (hdepth : (reachableStructures T answers start \ {x | x ∈ seen}).encard ≤ depth) :
    (resolve T RfcCaller.call (depth + 1) tabname seen).outcome answers =
      (resolve T RfcCaller.call depth tabname seen).outcome answers := by
  induction depth generalizing tabname seen with
  | zero =>
    by_cases hvisited : structureName T tabname = "" ∨ structureName T tabname ∈ seen
    · rw [resolve_visited hvisited, resolve_visited hvisited]
    · have hmem := mem_unvisited hreach hvisited
      have hempty : (reachableStructures T answers start \ {x | x ∈ seen}) = ∅ := by
        apply Set.encard_eq_zero.mp
        simpa using hdepth
      rw [hempty] at hmem
      cases hmem
  | succ depth ih =>
    by_cases hvisited : structureName T tabname = "" ∨ structureName T tabname ∈ seen
    · rw [resolve_visited hvisited, resolve_visited hvisited]
    · rw [outcome_resolve hvisited, outcome_resolve hvisited]
      apply bind_congr_ok
      intro rows hrows
      apply outcome_collect_congr
      intro row hrow
      cases href : reference T tabname row with
      | none => rw [outcome_resolveRow_none _ href, outcome_resolveRow_none _ href]
      | some name =>
        have hrefers : Refers T answers tabname name := ⟨rows, hrows, row, hrow, href⟩
        have hfewer := encard_unvisited (mem_unvisited hreach hvisited) hdepth
        rw [outcome_resolveRow_some _ href, outcome_resolveRow_some _ href,
          ih (hreach.tail hrefers) hfewer]

end Steps

section Depths

variable {T : PyText} {answers : RfcCall → Except PyExc PyDict} {start : String}

theorem expansion_succ_sublist {depth : ℕ} {fields' : List FieldInfo}
    (h : expansion T answers start (depth + 1 : ℕ) = .ok fields') :
    ∃ fields, expansion T answers start depth = .ok fields ∧ fields.Sublist fields' := by
  unfold expansion resolveStructureFields at h ⊢
  by_cases hstart : start = ""
  · simp only [hstart, if_true] at h ⊢
    exact ⟨fields', h, List.Sublist.refl fields'⟩
  · simp only [hstart, if_false, Int.toNat_natCast] at h ⊢
    exact resolve_sublist h

theorem expansion_succ {depth : ℕ} (h : (reachableStructures T answers start).encard ≤ depth) :
    expansion T answers start (depth + 1 : ℕ) = expansion T answers start depth := by
  unfold expansion resolveStructureFields
  by_cases hstart : start = ""
  · simp only [hstart, if_true]
  · simp only [hstart, if_false, Int.toNat_natCast]
    apply resolve_saturated Relation.ReflTransGen.refl
    simpa using h

/-- A deeper expansion keeps the fields of a shallower one in their order, and from as many levels
on as there are structures to reach, the depth makes no difference. -/
theorem expansion_saturates (T : PyText) (answers : RfcCall → Except PyExc PyDict)
    (start : String) :
    (∀ (maxDepth : Int) (fields' : List FieldInfo),
      expansion T answers start (maxDepth + 1) = .ok fields' →
      ∃ fields, expansion T answers start maxDepth = .ok fields ∧ fields.Sublist fields') ∧
    ∀ n : ℕ, (reachableStructures T answers start).encard ≤ n →
      ∀ maxDepth : Int, (n : Int) ≤ maxDepth →
        expansion T answers start maxDepth = expansion T answers start n := by
  constructor
  · intro maxDepth fields' h
    by_cases hdepth : 0 ≤ maxDepth
    · obtain ⟨depth, rfl⟩ := Int.eq_ofNat_of_zero_le hdepth
      exact expansion_succ_sublist h
    · have hless : (maxDepth + 1).toNat = maxDepth.toNat := by omega
      unfold expansion at h ⊢
      rw [hless] at h
      exact ⟨fields', h, List.Sublist.refl fields'⟩
  · intro n hn maxDepth hdepth
    obtain ⟨more, rfl⟩ := Int.le.dest hdepth
    induction more with
    | zero => simp
    | succ more ih =>
      have hmore : (reachableStructures T answers start).encard ≤ (n + more : ℕ) := by
        apply hn.trans
        exact_mod_cast Nat.le_add_right n more
      have hstep := expansion_succ hmore
      have hbefore := ih (by omega)
      rw [← hbefore]
      exact_mod_cast hstep

end Depths

end RfcMcp
