import RfcMcp.Response.Programs

namespace RfcMcp

open Framework Framework.Protocol

/-- What the read of one include comes to: the lines of its source, or why there are none. -/
structure IncludeRead where
  name : String
  outcome : Except String (List String)

namespace IncludeRead

def header (r : IncludeRead) : String :=
  match r.outcome with
  | .ok _ => "* === INCLUDE " ++ r.name ++ " ==="
  | .error text => "* === INCLUDE " ++ r.name ++ " (unreadable: " ++ text ++ ") ==="

/-- The parts of the source that the include adds. -/
def parts (r : IncludeRead) : List String :=
  match r.outcome with
  | .ok lines => [r.header, "\n".intercalate lines]
  | .error _ => [r.header]

/-- The bytes that the include adds: its header, and four for each blank line, two for each
line break. -/
def bytes (r : IncludeRead) : ℕ :=
  match r.outcome with
  | .ok lines => escapedBytes r.header + 4 + joinedBytes escapedBytes 2 lines
  | .error _ => escapedBytes r.header

end IncludeRead

/-- The bytes of the source of a class, include by include. -/
def sourceBytes (reads : List IncludeRead) : ℕ :=
  2 + ((reads.map IncludeRead.bytes).sum + 4 * (reads.length - 1))

section Lines

/-- The lines that `_source_lines` joins. -/
def resultLines (result : PyValue) (tableKey : String) : Except PyExc (List String) := do
  let row ← result.asRow
  let lines ← (row.getD tableKey (.list [])).iterate
  SourceReader.lineTexts lines

theorem sourceLines_eq (result : PyValue) (tableKey : String) :
    SourceReader.sourceLines result tableKey =
      (resultLines result tableKey).map fun lines => "\n".intercalate lines := by
  unfold SourceReader.sourceLines resultLines
  cases result.asRow with
  | error exc => rfl
  | ok row =>
    simp only [bind, Except.bind]
    cases (row.getD tableKey (.list [])).iterate with
    | error exc => rfl
    | ok elements => cases SourceReader.lineTexts elements <;> rfl

end Lines

section Reads

variable (cfg : AppSettings)

/-- The read of an include, from its name and what has been answered; `none` where it fails. -/
def includeRead (name : PyValue) : Except String PyDict → Option IncludeRead
  | .error text => some ⟨cfg.text.str name, .error text⟩
  | .ok result =>
    match cfg.limits.apply (.dict result) with
    | .error _ => none
    | .ok v =>
      match resultLines v "SOURCE_EXTENDED" with
      | .error _ => none
      | .ok lines => some ⟨cfg.text.str name, .ok lines⟩

def includeReads : List PyValue → List (Except String PyDict) → Option (List IncludeRead)
  | [], [] => some []
  | name :: names, answer :: answers => do
    let read ← includeRead cfg name answer
    let reads ← includeReads names answers
    pure (read :: reads)
  | _, _ => none

/-- The include names in the answer for a class pool. -/
def listedIncludes (result : PyValue) : Except PyExc (List PyValue) := do
  let row ← result.asRow
  let rows ← (row.getD "INCLUDE_TAB" (.list [])).iterate
  SourceReader.includeNames rows

/-- The includes that a class read goes through to its end; `none` where it fails before. -/
def classReads : List (Except String PyDict) → Option (List IncludeRead)
  | .ok result :: answers =>
    match cfg.limits.apply (.dict result) with
    | .error _ => none
    | .ok v =>
      match listedIncludes v with
      | .error _ => none
      | .ok names => includeReads cfg names answers
  | _ => none

end Reads

section Accounting

/-- Joining the joins of parts, with the same separator. -/
theorem joinedBytes_flatMap {α : Type} (size : String → ℕ) (separator : ℕ) (f : α → List String)
    (xs : List α) (h : ∀ x ∈ xs, f x ≠ []) :
    joinedBytes size separator (xs.flatMap f) =
      (xs.map fun x => joinedBytes size separator (f x)).sum + separator * (xs.length - 1) := by
  have happend : ∀ as bs : List String, as ≠ [] → bs ≠ [] →
      joinedBytes size separator (as ++ bs) =
        joinedBytes size separator as + separator + joinedBytes size separator bs := by
    intro as bs has hbs
    have hlength : as.length + bs.length - 1 = as.length - 1 + 1 + (bs.length - 1) := by
      have ha := List.length_pos_of_ne_nil has
      have hb := List.length_pos_of_ne_nil hbs
      omega
    simp only [joinedBytes, List.map_append, List.sum_append, List.length_append, hlength,
      Nat.mul_add, Nat.mul_one]
    omega
  induction xs with
  | nil => rfl
  | cons x xs ih =>
    have hrest := ih fun y hy => h y (List.mem_cons_of_mem _ hy)
    cases xs with
    | nil => simp
    | cons y ys =>
      have hne : (y :: ys).flatMap f ≠ [] := by
        rw [List.flatMap_cons]
        exact List.append_ne_nil_of_left_ne_nil (h y (by simp)) _
      rw [List.flatMap_cons, happend _ _ (h x (by simp)) hne, hrest]
      simp only [List.map_cons, List.sum_cons, List.length_cons, Nat.add_sub_cancel, Nat.mul_add,
        Nat.mul_one]
      omega

theorem IncludeRead.bytes_eq (r : IncludeRead) : joinedBytes escapedBytes 4 r.parts = r.bytes := by
  have hnewline : escapedBytes "\n" = 2 := by decide
  unfold IncludeRead.parts IncludeRead.bytes
  cases r.outcome with
  | error text => simp [joinedBytes]
  | ok lines =>
    have hlines : escapedBytes ("\n".intercalate lines) = joinedBytes escapedBytes 2 lines := by
      rw [escapedBytes_intercalate, hnewline]
    rw [joinedBytes_cons_cons]
    simp [joinedBytes, hlines]

/-- The bytes of an assembled source are those of its includes. -/
theorem assembled_bytes (reads : List IncludeRead) :
    (jsonString ("\n\n".intercalate (reads.flatMap IncludeRead.parts))).utf8ByteSize =
      sourceBytes reads := by
  have hblank : escapedBytes "\n\n" = 4 := by decide
  have hne : ∀ r ∈ reads, r.parts ≠ [] := by
    intro r _
    unfold IncludeRead.parts
    cases r.outcome <;> simp
  have hbytes : reads.map (fun r => joinedBytes escapedBytes 4 r.parts) =
      reads.map IncludeRead.bytes := List.map_congr_left fun r _ => r.bytes_eq
  rw [jsonString_bytes, escapedBytes_intercalate, hblank, joinedBytes_flatMap _ _ _ _ hne, hbytes,
    sourceBytes, Nat.add_comm]

theorem includeReads_length {cfg : AppSettings} {names : List PyValue}
    {answers : List (Except String PyDict)} {reads : List IncludeRead}
    (h : includeReads cfg names answers = some reads) : reads.length = names.length := by
  induction names generalizing answers reads with
  | nil =>
    cases answers with
    | nil => cases h; rfl
    | cons answer answers => cases h
  | cons name names ih =>
    cases answers with
    | nil => cases h
    | cons answer answers =>
      obtain ⟨read, _, hrest⟩ := Option.bind_eq_some_iff.mp h
      obtain ⟨more, hmore, hreads⟩ := Option.bind_eq_some_iff.mp hrest
      cases hreads
      rw [List.length_cons, List.length_cons, ih hmore]

end Accounting

section Errors

open SourceReader (isSapError)

theorem jsonElements_notSap {xs : List PyValue}
    (h : ∀ v ∈ xs, ∀ exc, jsonDumps v = .error exc → isSapError exc = false) {exc : PyExc}
    (herror : jsonElements xs = .error exc) : isSapError exc = false := by
  induction xs with
  | nil => cases herror
  | cons v xs ih =>
    cases jsonElements_cons_error herror with
    | inl hhead => exact h v List.mem_cons_self exc hhead
    | inr hrest => exact ih (fun w hw => h w (List.mem_cons_of_mem v hw)) hrest

theorem jsonMembers_notSap {items : List (String × PyValue)}
    (h : ∀ e ∈ items, ∀ exc, jsonDumps e.2 = .error exc → isSapError exc = false) {exc : PyExc}
    (herror : jsonMembers items = .error exc) : isSapError exc = false := by
  induction items with
  | nil => cases herror
  | cons e items ih =>
    cases jsonMembers_cons_error herror with
    | inl hhead => exact h e List.mem_cons_self exc hhead
    | inr hrest => exact ih (fun w hw => h w (List.mem_cons_of_mem e hw)) hrest

/-- The encoder raises no SAP error. -/
theorem jsonDumps_notSap (v : PyValue) {exc : PyExc} (herror : jsonDumps v = .error exc) :
    isSapError exc = false := by
  induction v using PyValue.induct generalizing exc with
  | scalar v hscalar =>
    cases v with
    | list xs => cases hscalar
    | dict items => cases hscalar
    | float x =>
      rw [jsonDumps] at herror
      cases x <;> cases herror <;> rfl
    | _ =>
      rw [jsonDumps] at herror
      cases herror
      try rfl
  | list xs ih =>
    exact jsonElements_notSap (fun v hv exc hv' => ih v hv hv') (jsonDumps_list_error.mp herror)
  | dict items ih =>
    exact jsonMembers_notSap (fun e he exc he' => ih e he he') (jsonDumps_dict_error.mp herror)

theorem apply_notSap {limits : ResultLimitPolicy} {value : PyValue} {exc : PyExc}
    (h : limits.apply value = .error exc) : isSapError exc = false := by
  have happlied := applied limits value
  rw [h] at happlied
  cases happlied with
  | rows | bytes => rfl
  | encoder _ hdumps => exact jsonDumps_notSap _ hdumps

end Errors

section Programs

variable {cfg : AppSettings} {answers : List (Except String PyDict)} {g : Ledger}

/-- A failed read has not been answered by anything beyond the limits, unless that is why. -/
def Blamed (limits : ResultLimitPolicy) (new : List (Except String PyDict)) (exc : PyExc) : Prop :=
  ∀ result, .ok result ∈ new → Exceeds limits (.dict result) → isLimitExceeded exc = true

theorem blamed_of_passed {limits : ResultLimitPolicy} {result : PyDict} {v : PyValue} (exc : PyExc)
    (h : limits.apply (.dict result) = .ok v) : Blamed limits [.ok result] exc := by
  intro result' hmem hexceeds
  simp only [List.mem_singleton, Except.ok.injEq] at hmem
  subst hmem
  exact absurd hexceeds (not_exceeds h)

theorem blamed_of_stopped {limits : ResultLimitPolicy} {exc : PyExc}
    (h : Stopped limits answers exc g) :
    ∃ new, g.answers = answers ++ new ∧ Blamed limits new exc ∧
      (new = [] ∨ ∃ result, new = [.ok result] ∧ limits.apply (.dict result) = .error exc) := by
  cases h with
  | inl hnone => exact ⟨[], by rw [hnone, List.append_nil], nofun, .inl rfl⟩
  | inr hresult =>
    obtain ⟨result, hanswers, happly⟩ := hresult
    refine ⟨_, hanswers, ?_, .inr ⟨result, rfl, happly⟩⟩
    intro result' hmem hexceeds
    simp only [List.mem_singleton, Except.ok.injEq] at hmem
    subst hmem
    exact limitExceeded_of_apply happly hexceeds

/-- The read of an include answers once, and gives the parts of what has been answered. -/
theorem ledger_readInclude (className : String) (name : PyValue) (hg : g.answers = answers) :
    ledger.Meets (SourceReader.readInclude cfg (connectionPool cfg) className name)
      (fun parts g' => ∃ answer read, g'.answers = answers ++ [answer] ∧
        includeRead cfg name answer = some read ∧ parts = read.parts ∧
        ∀ exc, Blamed cfg.limits [answer] exc)
      (fun exc g' => ∃ new, g'.answers = answers ++ new ∧ Blamed cfg.limits new exc ∧
        (new = [] ∨ ∃ answer, new = [answer] ∧ includeRead cfg name answer = none)) g := by
  unfold SourceReader.readInclude
  dsimp only
  rw [meets_bind, meets_tryExcept, meets_bind]
  refine (ledger_invokerCall "RPY_PROGRAM_READ" [("PROGRAM_NAME", name)] "read" hg).mono
    (fun v g' hpassed => ?_) fun exc g' hstopped => ?_
  · obtain ⟨result, hanswers, happly⟩ := hpassed
    rw [meets_pure, meets_bind, meets_ofExcept, sourceLines_eq]
    cases hlines : resultLines v "SOURCE_EXTENDED" with
    | error exc =>
      refine ⟨nofun, fun exc' _ => ⟨_, hanswers, blamed_of_passed _ happly, .inr ⟨_, rfl, ?_⟩⟩⟩
      simp only [includeRead, happly, hlines]
    | ok lines =>
      refine ⟨fun source hsource => ?_, nofun⟩
      cases hsource
      refine ⟨_, ⟨cfg.text.str name, .ok lines⟩, hanswers, ?_, rfl,
        fun exc => blamed_of_passed exc happly⟩
      simp only [includeRead, happly, hlines]
  · obtain ⟨new, hanswers, hblamed, hnew⟩ := blamed_of_stopped hstopped
    split
    · rename_i hsap
      -- an error of SAP is no refusal by the limits, so that nothing was answered
      have hempty : new = [] := by
        refine hnew.resolve_right fun hresult => ?_
        obtain ⟨result, rfl, happly⟩ := hresult
        rw [apply_notSap happly] at hsap
        cases hsap
      subst hempty
      rw [List.append_nil] at hanswers
      rw [meets_bind]
      refine ledger_step (o := .log _) fun _ => ?_
      rw [meets_pure, meets_pure]
      refine ⟨.error (exc.text cfg.text), ⟨cfg.text.str name, .error (exc.text cfg.text)⟩, ?_, rfl,
        rfl, ?_⟩
      · rw [Ledger.after, if_pos rfl, hanswers]
        rfl
      · intro exc' result hmem
        simp at hmem
    · refine ⟨new, hanswers, hblamed, hnew.imp id fun hresult => ?_⟩
      obtain ⟨result, rfl, happly⟩ := hresult
      exact ⟨_, rfl, by simp only [includeRead, happly]⟩

theorem Blamed.append {limits : ResultLimitPolicy} {new new' : List (Except String PyDict)}
    {exc : PyExc} (h : Blamed limits new exc) (h' : Blamed limits new' exc) :
    Blamed limits (new ++ new') exc := by
  intro result hmem
  cases List.mem_append.mp hmem with
  | inl hleft => exact h result hleft
  | inr hright => exact h' result hright

/-- The accounting over the loop: by induction on the names, the parts so far are those of the
answers so far. -/
theorem ledger_readIncludes (className : String) (names : List PyValue) (hg : g.answers = answers) :
    ledger.Meets
      (Action.collect names (SourceReader.readInclude cfg (connectionPool cfg) className))
      (fun parts g' => ∃ new reads, g'.answers = answers ++ new ∧
        includeReads cfg names new = some reads ∧ parts = reads.flatMap IncludeRead.parts ∧
        ∀ exc, Blamed cfg.limits new exc)
      (fun exc g' => ∃ new, g'.answers = answers ++ new ∧ Blamed cfg.limits new exc ∧
        includeReads cfg names new = none) g := by
  induction names generalizing g answers with
  | nil => exact ⟨[], [], by rw [hg, List.append_nil], rfl, rfl, nofun⟩
  | cons name names ih =>
    unfold Action.collect
    rw [meets_bind]
    refine (ledger_readInclude className name hg).mono (fun parts g' hread => ?_)
      fun exc g' hfailed => ?_
    · obtain ⟨answer, read, hanswers, hincluded, rfl, hblamed⟩ := hread
      rw [meets_bind]
      refine (ih hanswers).mono (fun more g'' hmore => ?_) fun exc g'' hfailed => ?_
      · obtain ⟨new, reads, hanswers', hreads, rfl, hblamed'⟩ := hmore
        refine ⟨answer :: new, read :: reads, ?_, ?_, rfl, fun exc => ?_⟩
        · rw [hanswers', List.append_assoc, List.singleton_append]
        · simp [includeReads, hincluded, hreads]
        · exact (hblamed exc).append (hblamed' exc)
      · obtain ⟨new, hanswers', hblamed', hreads⟩ := hfailed
        refine ⟨answer :: new, ?_, (hblamed exc).append hblamed', ?_⟩
        · rw [hanswers', List.append_assoc, List.singleton_append]
        · simp [includeReads, hincluded, hreads]
    · obtain ⟨new, hanswers, hblamed, hnew⟩ := hfailed
      refine ⟨new, hanswers, hblamed, ?_⟩
      cases hnew with
      | inl hempty =>
        subst hempty
        rfl
      | inr hanswer =>
        obtain ⟨answer, rfl, hnone⟩ := hanswer
        simp [includeReads, hnone]

end Programs

end RfcMcp
