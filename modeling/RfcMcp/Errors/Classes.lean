import RfcMcp.Errors.Causes
import RfcMcp.Execution.ResultLimits

namespace RfcMcp

open Framework

section Classes

variable {exc : PyExc}

/-- What the interpreter raises on a value of the wrong form. -/
def PyExc.isOrdinary : PyExc → Bool
  | .valueError _ | .typeError _ | .attributeError _ => true
  | _ => false

theorem ordinary_of_iterate {v : PyValue} (h : v.iterate = .error exc) : exc.isOrdinary = true := by
  cases v <;> cases h <;> rfl

theorem ordinary_of_asRow {v : PyValue} (h : v.asRow = .error exc) : exc.isOrdinary = true := by
  cases v <;> cases h <;> rfl

theorem ordinary_of_sliceTo {v : PyValue} {limit : Int} (h : v.sliceTo limit = .error exc) :
    exc.isOrdinary = true := by
  cases v <;> cases h <;> rfl

theorem NotRows.ordinary {raw : PyDict} {key : String} (h : NotRows raw key exc) :
    exc.isOrdinary = true := by
  cases h with
  | value h => exact ordinary_of_iterate h
  | row _ _ h => exact ordinary_of_asRow h

theorem ordinary_of_summaries {T : PyText} {rows : List PyValue}
    (h : FunctionCatalog.searchSummaries T rows = .error exc) : exc.isOrdinary = true := by
  induction rows with
  | nil => cases h
  | cons row rows ih =>
    rw [FunctionCatalog.searchSummaries, bind_eq_error] at h
    rcases h with hrow | ⟨d, _, h⟩
    · exact ordinary_of_asRow hrow
    · dsimp only at h
      split at h
      · exact ih h
      · exact ih (map_eq_error.mp h)

theorem ordinary_of_searchRows {T : PyText} {limit : Int} {raw : PyDict}
    (h : FunctionCatalog.searchRows T limit raw = .error exc) : exc.isOrdinary = true := by
  rw [FunctionCatalog.searchRows, bind_eq_error] at h
  rcases h with hslice | ⟨rows, _, h⟩
  · exact ordinary_of_sliceTo hslice
  rw [bind_eq_error] at h
  rcases h with hiterate | ⟨items, _, h⟩
  · exact ordinary_of_iterate hiterate
  · exact ordinary_of_summaries h

theorem Malformed.ordinary {T : PyText} {raw : PyDict} {f : String} (h : Malformed T raw exc f) :
    exc.isOrdinary = true := by
  cases h with
  | search h => exact ordinary_of_searchRows h
  | interface _ h => exact h.ordinary
  | fields h => exact h.ordinary

theorem ordinary_of_lineItems {lines : List PyValue}
    (h : SourceReader.lineItems lines = .error exc) : exc.isOrdinary = true := by
  induction lines with
  | nil => cases h
  | cons line lines ih =>
    rw [SourceReader.lineItems, bind_eq_error] at h
    rcases h with hrow | ⟨row, _, h⟩
    · exact ordinary_of_asRow hrow
    · exact ih (map_eq_error.mp h)

theorem ordinary_of_joinItems {i : ℕ} {items : List PyValue}
    (h : SourceReader.joinItems i items = .error exc) : exc.isOrdinary = true := by
  induction items generalizing i with
  | nil => cases h
  | cons item items ih =>
    cases item with
    | str s => exact ih (map_eq_error.mp h)
    | _ =>
      cases h
      rfl

theorem ordinary_of_lineTexts {lines : List PyValue}
    (h : SourceReader.lineTexts lines = .error exc) : exc.isOrdinary = true := by
  rw [SourceReader.lineTexts, bind_eq_error] at h
  rcases h with hitems | ⟨items, _, h⟩
  · exact ordinary_of_lineItems hitems
  · exact ordinary_of_joinItems h

theorem ordinary_of_sourceLines {value : PyValue} {key : String}
    (h : SourceReader.sourceLines value key = .error exc) : exc.isOrdinary = true := by
  rw [SourceReader.sourceLines, bind_eq_error] at h
  rcases h with hrow | ⟨row, _, h⟩
  · exact ordinary_of_asRow hrow
  rw [bind_eq_error] at h
  rcases h with hiterate | ⟨lines, _, h⟩
  · exact ordinary_of_iterate hiterate
  · exact ordinary_of_lineTexts (map_eq_error.mp h)

theorem Misread.ordinary {value : PyValue} (h : Misread value exc) : exc.isOrdinary = true := by
  cases h with
  | lines h => exact ordinary_of_sourceLines h
  | row h => exact ordinary_of_asRow h
  | includes _ h => exact h.ordinary

theorem ordinary_of_jsonDumps {v : PyValue} (h : jsonDumps v = .error exc) :
    exc.isOrdinary = true := by
  induction v using PyValue.induct with
  | scalar v hscalar =>
    cases v with
    | list xs => cases hscalar
    | dict items => cases hscalar
    | float x => cases x <;> cases h <;> rfl
    | _ => cases h <;> rfl
  | list xs ih =>
    rw [jsonDumps_list_error] at h
    induction xs with
    | nil => cases h
    | cons v xs ihs =>
      rcases jsonElements_cons_error h with hhead | hrest
      · exact ih v List.mem_cons_self hhead
      · exact ihs (fun w hw => ih w (List.mem_cons_of_mem _ hw)) hrest
  | dict items ih =>
    rw [jsonDumps_dict_error] at h
    induction items with
    | nil => cases h
    | cons e items ihs =>
      rcases jsonMembers_cons_error h with hhead | hrest
      · exact ih e List.mem_cons_self hhead
      · exact ihs (fun w hw => ih w (List.mem_cons_of_mem _ hw)) hrest

end Classes

end RfcMcp
