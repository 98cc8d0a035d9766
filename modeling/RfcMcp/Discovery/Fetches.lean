import RfcMcp.Discovery.Expansion
import RfcMcp.Framework.Keyed

namespace RfcMcp

open Framework Framework.Action

section Chains

variable (T : PyText) (answers : RfcCall → Except PyExc PyDict)

/-- The requests of `resolve_structure_fields`, the first one first. -/
def requests (tabname : String) (maxDepth : Int) : List RfcCall :=
  (resolveStructureFields T RfcCaller.call tabname maxDepth.toNat).asked answers

/-- The structures along a chain of rows, given by their positions, from `name` on. -/
def chain : String → List ℕ → Option (List String)
  | name, [] => some [name]
  | name, i :: path => do
    let rows ← (definedRows answers name).toOption
    let row ← rows[i]?
    let nested ← reference T name row
    let names ← chain nested path
    return name :: names

/-- A chain of at most `depth` structures that are all different and not in `seen`. -/
structure Visit (depth : ℕ) (seen : List String) (start : String) (path : List ℕ)
    (names : List String) : Prop where
  leads : chain T answers start path = some names
  fresh : ∀ name ∈ names, structureName T name ≠ "" ∧ structureName T name ∉ seen
  distinct : (names.map (structureName T)).Nodup
  short : names.length ≤ depth

/-- The request for the last structure of a chain. -/
def Fetched (depth : ℕ) (seen : List String) (start : String) (path : List ℕ) (o : RfcCall) :
    Prop :=
  ∃ names name, Visit T answers depth seen start path names ∧ names.getLast? = some name ∧
    o = definitionOf name

end Chains

section Steps

variable {T : PyText} {answers : RfcCall → Except PyExc PyDict} {tabname : String}
  {seen : List String} {depth : ℕ} {path : List ℕ} {names : List String} {o : RfcCall}

theorem chain_cons {i : ℕ} (h : chain T answers tabname (i :: path) = some names) :
    ∃ rows row nested later, definedRows answers tabname = .ok rows ∧ rows[i]? = some row ∧
      reference T tabname row = some nested ∧ chain T answers nested path = some later ∧
      names = tabname :: later := by
  unfold chain at h
  cases hrows : definedRows answers tabname with
  | error exc =>
    rw [hrows] at h
    cases h
  | ok rows =>
    rw [hrows] at h
    obtain ⟨_, hsame, h⟩ := Option.bind_eq_some_iff.mp h
    cases hsame
    obtain ⟨row, hrow, h⟩ := Option.bind_eq_some_iff.mp h
    obtain ⟨nested, hnested, h⟩ := Option.bind_eq_some_iff.mp h
    obtain ⟨later, hlater, h⟩ := Option.bind_eq_some_iff.mp h
    cases h
    exact ⟨rows, row, nested, later, rfl, hrow, hnested, hlater, rfl⟩

theorem chain_head (h : chain T answers tabname path = some names) :
    ∃ later, names = tabname :: later := by
  cases path with
  | nil =>
    cases h
    exact ⟨[], rfl⟩
  | cons i path =>
    obtain ⟨_, _, _, later, _, _, _, _, hnames⟩ := chain_cons h
    exact ⟨later, hnames⟩

theorem fetched_unvisited (h : Fetched T answers depth seen tabname path o) :
    ¬(structureName T tabname = "" ∨ structureName T tabname ∈ seen) ∧ depth ≠ 0 := by
  obtain ⟨names, name, hvisit, -, -⟩ := h
  obtain ⟨later, rfl⟩ := chain_head hvisit.leads
  have hfresh := hvisit.fresh tabname List.mem_cons_self
  have hshort := hvisit.short
  rw [List.length_cons] at hshort
  exact ⟨not_or.mpr hfresh, by omega⟩

/-- The structure itself is requested for the empty chain. -/
theorem fetched_nil (h : ¬(structureName T tabname = "" ∨ structureName T tabname ∈ seen)) :
    Fetched T answers (depth + 1) seen tabname [] (definitionOf tabname) := by
  have hvisit : Visit T answers (depth + 1) seen tabname [] [tabname] := by
    constructor
    · rfl
    · intro name hname
      rw [List.mem_singleton] at hname
      rw [hname]
      exact not_or.mp h
    · simp
    · simp
  exact ⟨[tabname], tabname, hvisit, rfl, rfl⟩

theorem fetched_cons {rows : List PyValue} {i : ℕ}
    (hnew : ¬(structureName T tabname = "" ∨ structureName T tabname ∈ seen))
    (hrows : definedRows answers tabname = .ok rows) :
    Fetched T answers (depth + 1) seen tabname (i :: path) o ↔
      ∃ row nested, rows[i]? = some row ∧ reference T tabname row = some nested ∧
        Fetched T answers depth (structureName T tabname :: seen) nested path o := by
  constructor
  · rintro ⟨names, name, hvisit, hlast, ho⟩
    obtain ⟨rows', row, nested, later, hrows', hrow, hnested, hlater, rfl⟩ :=
      chain_cons hvisit.leads
    rw [hrows] at hrows'
    cases hrows'
    obtain ⟨rest, rfl⟩ := chain_head hlater
    have hdistinct := List.nodup_cons.mp hvisit.distinct
    have hvisit' : Visit T answers depth (structureName T tabname :: seen) nested path
        (nested :: rest) := by
      constructor
      · exact hlater
      · intro other hother
        have hfresh := hvisit.fresh other (List.mem_cons_of_mem tabname hother)
        have hne : structureName T other ≠ structureName T tabname := by
          intro heq
          apply hdistinct.1
          rw [← heq]
          exact List.mem_map_of_mem hother
        simp [hfresh, hne]
      · exact hdistinct.2
      · have hshort := hvisit.short
        rw [List.length_cons] at hshort
        omega
    rw [List.getLast?_cons_cons] at hlast
    exact ⟨row, nested, hrow, hnested, nested :: rest, name, hvisit', hlast, ho⟩
  · rintro ⟨row, nested, hrow, hnested, later, name, hvisit, hlast, ho⟩
    obtain ⟨rest, rfl⟩ := chain_head hvisit.leads
    have hvisit' : Visit T answers (depth + 1) seen tabname (i :: path)
        (tabname :: nested :: rest) := by
      constructor
      · simp [chain, hrows, hrow, hnested, hvisit.leads, Except.toOption]
      · intro other hother
        cases List.mem_cons.mp hother with
        | inl heq =>
          rw [heq]
          exact not_or.mp hnew
        | inr hother =>
          have hfresh := hvisit.fresh other hother
          simp only [List.mem_cons, not_or] at hfresh
          exact ⟨hfresh.1, hfresh.2.2⟩
      · apply List.nodup_cons.mpr
        refine ⟨?_, hvisit.distinct⟩
        intro hmem
        obtain ⟨other, hother, heq⟩ := List.mem_map.mp hmem
        have hfresh := hvisit.fresh other hother
        simp [heq] at hfresh
      · have hshort := hvisit.short
        simp only [List.length_cons] at hshort ⊢
        omega
    rw [← List.getLast?_cons_cons (a := tabname)] at hlast
    exact ⟨tabname :: nested :: rest, name, hvisit', hlast, ho⟩

section Rows

variable (nested : String → Action Calls PyExc (List FieldInfo)) {row : PyValue}

theorem asked_resolveRow_none (h : reference T tabname row = none) :
    (resolveRow T (structureName T tabname) nested row).asked answers = [] := by
  unfold reference at h
  unfold resolveRow
  cases hrow : row.asRow with
  | error exc => rfl
  | ok fields =>
    have hrowOk : (Action.ofExcept (.ok fields) : Action Calls PyExc PyDict).outcome answers =
        .ok fields := rfl
    rw [asked_bind_ok hrowOk]
    by_cases hname : fields.text T "FIELDNAME" = ""
    · simp [hname]
    · have htab : ¬(fields.text T "TABNAME" ≠ "" ∧
          T.upper (fields.text T "TABNAME") ≠ structureName T tabname) := by
        intro htab
        simp [hrow, hname, htab] at h
      simp [hname, htab]

theorem asked_resolveRow_some {name : String} (h : reference T tabname row = some name) :
    (resolveRow T (structureName T tabname) nested row).asked answers =
      (nested name).asked answers := by
  unfold reference at h
  unfold resolveRow
  cases hrow : row.asRow with
  | error exc =>
    rw [hrow] at h
    cases h
  | ok fields =>
    rw [hrow] at h
    obtain ⟨⟨hname, htab⟩, hnested⟩ := Option.ite_none_right_eq_some.mp h
    cases hnested
    have hrowOk : (Action.ofExcept (.ok fields) : Action Calls PyExc PyDict).outcome answers =
        .ok fields := rfl
    rw [asked_bind_ok hrowOk]
    simp only [hname, htab, if_false, asked_ofExcept, List.nil_append, ne_eq, not_false_eq_true,
      and_self, if_true]
    cases hdeeper : (nested (fields.text T "TABNAME")).outcome answers with
    | error exc => exact asked_bind_error hdeeper
    | ok deeper =>
      rw [asked_bind_ok hdeeper]
      exact List.append_nil _

end Rows

theorem asked_resolve_ok {rows : List PyValue}
    (hnew : ¬(structureName T tabname = "" ∨ structureName T tabname ∈ seen))
    (hrows : definedRows answers tabname = .ok rows) :
    (resolve T RfcCaller.call (depth + 1) tabname seen).asked answers =
      definitionOf tabname :: (collect rows (resolveRow T (structureName T tabname) fun name =>
        resolve T RfcCaller.call depth name (structureName T tabname :: seen))).asked answers := by
  obtain ⟨result, hresult, hfields⟩ := eq_ok_of_bind hrows
  have hcall : (RfcCaller.call "RFC_GET_STRUCTURE_DEFINITION" [("TABNAME", .str tabname)]).outcome
      answers = .ok result := hresult
  have hiterate : (Action.ofExcept (result.getD "FIELDS" (.list [])).iterate :
      Action Calls PyExc (List PyValue)).outcome answers = .ok rows := hfields
  rw [resolve_succ, if_neg hnew, asked_bind_ok hcall, asked_bind_ok hiterate]
  rfl

theorem asked_resolve_error {exc : PyExc}
    (hnew : ¬(structureName T tabname = "" ∨ structureName T tabname ∈ seen))
    (hrows : definedRows answers tabname = .error exc) :
    (resolve T RfcCaller.call (depth + 1) tabname seen).asked answers = [definitionOf tabname] := by
  rw [resolve_succ, if_neg hnew]
  cases hresult : answers (definitionOf tabname) with
  | error raised =>
    have hcall : (RfcCaller.call "RFC_GET_STRUCTURE_DEFINITION"
        [("TABNAME", .str tabname)]).outcome answers = .error raised := hresult
    rw [asked_bind_error hcall]
    rfl
  | ok result =>
    have hcall : (RfcCaller.call "RFC_GET_STRUCTURE_DEFINITION"
        [("TABNAME", .str tabname)]).outcome answers = .ok result := hresult
    have hiterate : (Action.ofExcept (result.getD "FIELDS" (.list [])).iterate :
        Action Calls PyExc (List PyValue)).outcome answers = .error exc := by
      unfold definedRows at hrows
      rw [hresult] at hrows
      exact hrows
    rw [asked_bind_ok hcall, asked_bind_error hiterate]
    rfl

/-- A row's requests are those of the structure it refers to. -/
theorem keyed_resolveRow {rows : List PyValue} {i : ℕ} {row : PyValue}
    (hnew : ¬(structureName T tabname = "" ∨ structureName T tabname ∈ seen))
    (hrows : definedRows answers tabname = .ok rows) (hrow : rows[i]? = some row)
    (ih : ∀ name, Keyed answers (Fetched T answers depth (structureName T tabname :: seen) name)
      (resolve T RfcCaller.call depth name (structureName T tabname :: seen))) :
    Keyed answers (fun path o => Fetched T answers (depth + 1) seen tabname (i :: path) o)
      (resolveRow T (structureName T tabname) (fun name =>
        resolve T RfcCaller.call depth name (structureName T tabname :: seen)) row) := by
  cases href : reference T tabname row with
  | none =>
    apply keyed_silent (asked_resolveRow_none _ href)
    intro _ _ path o hfetched
    obtain ⟨row', nested, hrow', href', -⟩ := (fetched_cons hnew hrows).mp hfetched
    rw [hrow] at hrow'
    cases hrow'
    rw [href] at href'
    cases href'
  | some name =>
    have hsame : (fun path o => Fetched T answers (depth + 1) seen tabname (i :: path) o) =
        Fetched T answers depth (structureName T tabname :: seen) name := by
      funext path o
      apply propext
      rw [fetched_cons hnew hrows]
      simp [hrow, href]
    rw [hsame]
    apply keyed_congr (asked_resolveRow_some _ href) _ (ih name)
    intro found hfound
    rw [outcome_resolveRow_some _ href] at hfound
    obtain ⟨own, -, hmap⟩ := eq_ok_of_bind hfound
    obtain ⟨deeper, hdeeper, -⟩ := eq_ok_of_map hmap
    exact ⟨deeper, hdeeper⟩

/-- The requests of `_resolve` are those of different chains. -/
theorem keyed_resolve (depth : ℕ) (tabname : String) (seen : List String) :
    Keyed answers (Fetched T answers depth seen tabname)
      (resolve T RfcCaller.call depth tabname seen) := by
  induction depth generalizing tabname seen with
  | zero =>
    apply keyed_silent rfl
    intro _ _ path o hfetched
    exact (fetched_unvisited hfetched).2 rfl
  | succ depth ih =>
    by_cases hvisited : structureName T tabname = "" ∨ structureName T tabname ∈ seen
    · rw [resolve_visited hvisited]
      apply keyed_silent rfl
      intro _ _ path o hfetched
      exact (fetched_unvisited hfetched).1 hvisited
    · cases hrows : definedRows answers tabname with
      | error exc =>
        refine ⟨[[]], List.nodup_singleton [], ?_, ?_⟩
        · rw [asked_resolve_error hvisited hrows]
          exact List.Forall₂.cons (fetched_nil hvisited) List.Forall₂.nil
        · intro fields hfields
          rw [outcome_resolve hvisited, hrows] at hfields
          cases hfields
      | ok rows =>
        have hloop : Keyed answers (fun key : ℕ × List ℕ =>
            Fetched T answers (depth + 1) seen tabname (key.1 :: key.2))
            (collect rows (resolveRow T (structureName T tabname) fun name =>
              resolve T RfcCaller.call depth name (structureName T tabname :: seen))) := by
          apply keyed_collect
          · intro i row hrow
            exact keyed_resolveRow hvisited hrows hrow fun name => ih name _
          · intro i path o hfetched
            obtain ⟨row, _, hrow, -⟩ := (fetched_cons hvisited hrows).mp hfetched
            exact (List.getElem?_eq_some_iff.mp hrow).1
        obtain ⟨keys, hnodup, hkeys, hall⟩ := hloop
        refine ⟨[] :: keys.map fun key => key.1 :: key.2, ?_, ?_, ?_⟩
        · apply List.nodup_cons.mpr
          constructor
          · simp
          · apply hnodup.map
            intro key key' heq
            simpa [Prod.ext_iff] using heq
        · rw [asked_resolve_ok hvisited hrows]
          apply List.Forall₂.cons (fetched_nil hvisited)
          exact List.forall₂_map_left_iff.mpr hkeys
        · intro fields hfields path o hfetched
          rw [outcome_resolve hvisited, hrows] at hfields
          cases path with
          | nil => exact List.mem_cons_self
          | cons i path =>
            apply List.mem_cons_of_mem
            exact List.mem_map.mpr ⟨(i, path), hall fields hfields (i, path) o hfetched, rfl⟩

end Steps

section Requests

theorem nodup_of_forall₂ {κ α β : Type} {R : κ → α → Prop} {f : α → β} {keys : List κ}
    {items : List α} (hkeys : keys.Nodup) (h : List.Forall₂ R keys items)
    (hone : ∀ key key' a a', R key a → R key' a' → f a = f a' → key = key') :
    (items.map f).Nodup := by
  induction h with
  | nil => exact List.nodup_nil
  | cons hfirst hrest ih =>
    obtain ⟨hkey, hkeys⟩ := List.nodup_cons.mp hkeys
    apply List.nodup_cons.mpr
    constructor
    · intro hmem
      obtain ⟨a, ha, heq⟩ := List.mem_map.mp hmem
      obtain ⟨i, hi, rfl⟩ := List.mem_iff_getElem.mp ha
      obtain ⟨hlength, hget⟩ := List.forall₂_iff_get.mp hrest
      have hi' := hi
      rw [← hlength] at hi'
      have hsame := hone _ _ _ _ (hget i hi' hi) hfirst heq
      apply hkey
      rw [← hsame]
      exact List.getElem_mem hi'
    · exact ih hkeys

variable (T : PyText) (answers : RfcCall → Except PyExc PyDict) (start : String) (maxDepth : Int)

theorem keyed_expansion : Keyed answers (Fetched T answers maxDepth.toNat [] start)
    (resolveStructureFields T RfcCaller.call start maxDepth.toNat) := by
  unfold resolveStructureFields
  by_cases hstart : start = ""
  · rw [if_pos hstart]
    apply keyed_silent rfl
    intro _ _ path o hfetched
    have hnamed := (fetched_unvisited hfetched).1
    rw [hstart] at hnamed
    exact hnamed (Or.inl rfl)
  · rw [if_neg hstart]
    exact keyed_resolve maxDepth.toNat start []

theorem requests_of_fetched {paths : List (List ℕ)} {asked : List RfcCall}
    (h : List.Forall₂ (Fetched T answers maxDepth.toNat [] start) paths asked) :
    ∃ names, asked = names.map definitionOf ∧ List.Forall₂ (fun path name =>
      Fetched T answers maxDepth.toNat [] start path (definitionOf name)) paths names := by
  induction h with
  | nil => exact ⟨[], rfl, List.Forall₂.nil⟩
  | cons hfirst _ ih =>
    obtain ⟨names, rfl, hnames⟩ := ih
    have hfirst' := hfirst
    obtain ⟨_, name, _, _, rfl⟩ := hfirst'
    exact ⟨name :: names, rfl, List.Forall₂.cons hfirst hnames⟩

/-- A structure is requested once for each chain of rows that leads to it; along a chain no
structure repeats. -/
theorem expansion_fetches :
    (∃ paths : List (List ℕ), paths.Nodup ∧
      List.Forall₂ (Fetched T answers maxDepth.toNat [] start) paths
        (requests T answers start maxDepth) ∧
      ∀ fields, expansion T answers start maxDepth = .ok fields →
        ∀ path o, Fetched T answers maxDepth.toNat [] start path o → path ∈ paths) ∧
    ((∀ path path' name name', Fetched T answers maxDepth.toNat [] start path (definitionOf name) →
        Fetched T answers maxDepth.toNat [] start path' (definitionOf name') →
        structureName T name = structureName T name' → path = path') →
      ∃ names : List String, requests T answers start maxDepth = names.map definitionOf ∧
        (names.map (structureName T)).Nodup) := by
  obtain ⟨paths, hnodup, hasked, hall⟩ := keyed_expansion T answers start maxDepth
  refine ⟨⟨paths, hnodup, hasked, hall⟩, ?_⟩
  intro hone
  obtain ⟨names, hnames, hfetched⟩ := requests_of_fetched T answers start maxDepth hasked
  exact ⟨names, hnames, nodup_of_forall₂ hnodup hfetched hone⟩

end Requests

/-- `A` has two fields of the structure `B`. -/
def siblingRows (tabname : String) : List PyValue :=
  if tabname = "A" then
    [.dict [("FIELDNAME", .str "FIRST"), ("TABNAME", .str "B")],
      .dict [("FIELDNAME", .str "SECOND"), ("TABNAME", .str "B")]]
  else []

def siblings (o : RfcCall) : Except PyExc PyDict :=
  .ok [("FIELDS", .list (siblingRows (asciiText.str (o.kwargs.getD "TABNAME" .none))))]

/-- `B` is requested for both fields. -/
theorem siblings_requested_twice :
    ¬∀ (T : PyText) (answers : RfcCall → Except PyExc PyDict) (start : String) (maxDepth : Int),
      ∃ names : List String, requests T answers start maxDepth = names.map definitionOf ∧
        (names.map (structureName T)).Nodup := by
  intro hall
  obtain ⟨names, hnames, hnodup⟩ := hall asciiText siblings "A" 8
  have hrequests : requests asciiText siblings "A" 8 = ["A", "B", "B"].map definitionOf := by
    rfl
  have hinjective : Function.Injective definitionOf := by
    intro name name' heq
    simpa [definitionOf] using heq
  rw [hrequests] at hnames
  have hsame := hinjective.list_map hnames
  rw [← hsame] at hnodup
  simp at hnodup

end RfcMcp
