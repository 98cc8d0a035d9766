import RfcMcp.Adt.Client
import RfcMcp.Encoding.Percent
import RfcMcp.Encoding.Segments
import Mathlib.Data.List.Forall2

namespace RfcMcp

open Encoding

/-- What a source is read of. -/
inductive SourceRequest
  | program (programName : CodePoints)
  | classPool (className : CodePoints)
  | functionModule (functionGroup functionModule : CodePoints)
deriving DecidableEq

/-- A part of a path template. -/
inductive Part
  | fixed (text : String)
  | name (points : CodePoints)

namespace SourceRequest

def uri : SourceRequest → Except SourceExc String
  | .program programName => programSourceUri programName
  | .classPool className => classSourceUri className
  | .functionModule group name => functionModuleSourceUri group name

def names : SourceRequest → List CodePoints
  | .program programName => [programName]
  | .classPool className => [className]
  | .functionModule group name => [group, name]

/-- The segments that the path of a request should have. -/
def template : SourceRequest → List Part
  | .program programName =>
    [.fixed "", .fixed "sap", .fixed "bc", .fixed "adt", .fixed "programs", .fixed "programs",
      .name programName, .fixed "source", .fixed "main"]
  | .classPool className =>
    [.fixed "", .fixed "sap", .fixed "bc", .fixed "adt", .fixed "oo", .fixed "classes",
      .name className, .fixed "source", .fixed "main"]
  | .functionModule group name =>
    [.fixed "", .fixed "sap", .fixed "bc", .fixed "adt", .fixed "functions", .fixed "groups",
      .name group, .fixed "fmodules", .name name, .fixed "source", .fixed "main"]

end SourceRequest

/-- The characters of a name without surrogates. -/
def scalars (name : CodePoints) : List Char := name.map fun c => Char.ofNat c.val

def codePoints (text : List Char) : CodePoints := text.map fun c => Fin.ofNat 0x110000 c.toNat

def Part.quoted : Part → List Char
  | .fixed text => text.toList
  | .name points => encode isQuoteSafe (scalars points)

/-- A segment is the fixed text, or decodes to the name. -/
def Part.Stands : Part → List Char → Prop
  | .fixed text, segment => segment = text.toList
  | .name points, segment => (decode segment).map codePoints = some points

section Quote

variable {name : CodePoints}

theorem isAlphanum_ascii {c : Char} (h : c.isAlphanum = true) : c.toNat < 128 := by
  have hranges : (decide (c.val ≥ 'A'.val ∧ c.val ≤ 'Z'.val) ||
      (decide (c.val ≥ 'a'.val) && decide (c.val ≤ 'z'.val)) ||
      (decide (c.val ≥ '0'.val) && decide (c.val ≤ '9'.val))) = true := h
  simp only [Bool.or_eq_true, Bool.and_eq_true, decide_eq_true_eq, UInt32.le_iff_toNat_le]
    at hranges
  change c.val.toNat < 128
  rcases hranges with (hupper | hlower) | hdigit
  · exact Nat.lt_of_le_of_lt hupper.2 (by decide)
  · exact Nat.lt_of_le_of_lt hlower.2 (by decide)
  · exact Nat.lt_of_le_of_lt hdigit.2 (by decide)

theorem isQuoteSafe_ascii (c : Char) (h : isQuoteSafe c = true) : c ≠ '%' ∧ c.toNat < 128 := by
  constructor
  · intro hpercent
    rw [hpercent] at h
    exact absurd h (by decide)
  · unfold isQuoteSafe at h
    cases Bool.or_eq_true_iff.mp h with
    | inl halphanum => exact isAlphanum_ascii halphanum
    | inr hother =>
      have hmem : c ∈ "_.-~/".toList := by simpa using hother
      have hall : "_.-~/".toList.all (fun x => decide (x.toNat < 128)) = true := rfl
      exact of_decide_eq_true (List.all_eq_true.mp hall c hmem)

theorem toList_quoteChar (c : Char) : (quoteChar c).toList = encodeChar isQuoteSafe c := by
  unfold quoteChar encodeChar
  by_cases hc : isQuoteSafe c = true
  · simp [hc]
  · have hbyte : ∀ b, (percentByte b).toList = Encoding.percentByte b := by
      intro b
      exact String.toList_ofList
    rw [if_neg hc, if_neg hc, String.toList_join, List.flatMap_map]
    simp only [hbyte]

theorem codePoint_back {c : Fin 0x110000} (h : isSurrogate c = false) :
    Fin.ofNat 0x110000 (Char.ofNat c.val).toNat = c := by
  have hvalid : c.val.isValidChar := by
    have hc := c.isLt
    unfold isSurrogate at h
    rw [decide_eq_false_iff_not] at h
    unfold Nat.isValidChar
    omega
  have hback : (Char.ofNat c.val).toNat = c.val := by
    unfold Char.ofNat
    rw [dif_pos hvalid]
    rfl
  rw [hback]
  exact Fin.ofNat_val_eq_self c

theorem quoteFrom_ok {position : ℕ} {quoted : String} (h : quoteFrom position name = .ok quoted) :
    quoted.toList = encode isQuoteSafe (scalars name) ∧ codePoints (scalars name) = name := by
  induction name generalizing position quoted with
  | nil =>
    cases h
    exact ⟨rfl, rfl⟩
  | cons c rest ih =>
    unfold quoteFrom at h
    cases hc : isSurrogate c with
    | true =>
      rw [if_pos hc] at h
      cases h
    | false =>
      rw [if_neg (by simp [hc])] at h
      cases hrest : quoteFrom (position + 1) rest with
      | error exc =>
        rw [hrest] at h
        cases h
      | ok more =>
        rw [hrest] at h
        cases h
        obtain ⟨hmore, hback⟩ := ih hrest
        constructor
        · rw [String.toList_append, toList_quoteChar, hmore]
          rfl
        · unfold scalars codePoints at hback ⊢
          rw [List.map_cons, List.map_cons, codePoint_back hc, hback]

end Quote

section Paths

variable {r r' : SourceRequest} {path : String}

theorem except_bind_eq_ok {ε α β : Type} {x : Except ε α} {f : α → Except ε β} {b : β}
    (h : (x >>= f) = .ok b) : ∃ a, x = .ok a ∧ f a = .ok b := by
  cases x with
  | error e => cases h
  | ok a => exact ⟨a, rfl, h⟩

/-- A path joins the parts of its template, each name quoted. -/
theorem uri_ok (h : r.uri = .ok path) :
    path.toList = ['/'].intercalate (r.template.map Part.quoted) ∧
      ∀ name ∈ r.names, codePoints (scalars name) = name := by
  cases r with
  | program name =>
    obtain ⟨quoted, hquoted, hpath⟩ := except_bind_eq_ok h
    cases hpath
    obtain ⟨hlist, hback⟩ := quoteFrom_ok hquoted
    constructor
    · rw [String.toList_append, String.toList_append, hlist, List.append_assoc]
      rfl
    · simpa [SourceRequest.names] using hback
  | classPool name =>
    obtain ⟨quoted, hquoted, hpath⟩ := except_bind_eq_ok h
    cases hpath
    obtain ⟨hlist, hback⟩ := quoteFrom_ok hquoted
    constructor
    · rw [String.toList_append, String.toList_append, hlist, List.append_assoc]
      rfl
    · simpa [SourceRequest.names] using hback
  | functionModule group name =>
    obtain ⟨quotedGroup, hgroup, hpath⟩ := except_bind_eq_ok h
    obtain ⟨quoted, hquoted, hpath⟩ := except_bind_eq_ok hpath
    cases hpath
    obtain ⟨hlistGroup, hbackGroup⟩ := quoteFrom_ok hgroup
    obtain ⟨hlist, hback⟩ := quoteFrom_ok hquoted
    constructor
    · simp only [String.toList_append, hlistGroup, hlist, List.append_assoc]
      rfl
    · simp [SourceRequest.names, hbackGroup, hback]

/-- The segments of a path are those of its parts. -/
theorem segments_of_uri (h : r.uri = .ok path) :
    path.toList.splitOn '/' = (r.template.map Part.quoted).flatMap (·.splitOn '/') := by
  rw [(uri_ok h).1]
  apply splitOn_join
  cases r <;> simp [SourceRequest.template]

end Paths

def slash : Fin 0x110000 := 0x2F

def dot : Fin 0x110000 := 0x2E

/-- A name that is one segment of a path and no dot segment. -/
def Plain (name : CodePoints) : Prop := slash ∉ name ∧ name ≠ [dot] ∧ name ≠ [dot, dot]

instance : DecidablePred Plain := fun name =>
  inferInstanceAs (Decidable (slash ∉ name ∧ name ≠ [dot] ∧ name ≠ [dot, dot]))

/-- A path with the segments of its template, which resolves to itself and belongs to no other
request. -/
structure NameSafe (r : SourceRequest) (path : String) : Prop where
  segments : List.Forall₂ Part.Stands r.template (path.toList.splitOn '/')
  straight : removeDotSegments (path.toList.splitOn '/') = path.toList.splitOn '/'
  only : ∀ r' : SourceRequest, r'.uri = .ok path → r' = r

section Names

variable {name : CodePoints}

theorem scalars_injective {name' : CodePoints} (hname : codePoints (scalars name) = name)
    (hname' : codePoints (scalars name') = name') (h : scalars name = scalars name') :
    name = name' := by
  rw [← hname, h, hname']

theorem slash_mem_quoted (hname : codePoints (scalars name) = name) :
    '/' ∈ encode isQuoteSafe (scalars name) ↔ slash ∈ name := by
  have hencode : '/' ∈ encode isQuoteSafe (scalars name) ↔ '/' ∈ scalars name :=
    mem_encode (by decide) (by decide) (by decide) (scalars name)
  rw [hencode]
  constructor
  · intro hmem
    rw [← hname]
    exact List.mem_map.mpr ⟨'/', hmem, by decide⟩
  · intro hmem
    exact List.mem_map.mpr ⟨slash, hmem, by decide⟩

theorem quoted_eq_dot (hname : codePoints (scalars name) = name) :
    encode isQuoteSafe (scalars name) = ['.'] ↔ name = [dot] := by
  constructor
  · intro h
    have hdot : encode isQuoteSafe ['.'] = ['.'] := by decide
    rw [← hdot] at h
    have hscalars := encode_injective isQuoteSafe_ascii h
    rw [← hname, hscalars]
    decide
  · intro h
    rw [h]
    decide

theorem quoted_eq_dots (hname : codePoints (scalars name) = name) :
    encode isQuoteSafe (scalars name) = ['.', '.'] ↔ name = [dot, dot] := by
  constructor
  · intro h
    have hdots : encode isQuoteSafe ['.', '.'] = ['.', '.'] := by decide
    rw [← hdots] at h
    have hscalars := encode_injective isQuoteSafe_ascii h
    rw [← hname, hscalars]
    decide
  · intro h
    rw [h]
    decide

theorem plain_iff (hname : codePoints (scalars name) = name) : Plain name ↔
    '/' ∉ encode isQuoteSafe (scalars name) ∧ encode isQuoteSafe (scalars name) ≠ ['.'] ∧
      encode isQuoteSafe (scalars name) ≠ ['.', '.'] := by
  rw [slash_mem_quoted hname, ne_eq, quoted_eq_dot hname, ne_eq, quoted_eq_dots hname]
  rfl

end Names

section Templates

variable {r r' : SourceRequest} {path : String} {part : Part}

theorem mem_template (h : part ∈ r.template) :
    (∃ name ∈ r.names, part = .name name) ∨ ∃ text, part = .fixed text ∧
      '/' ∉ text.toList ∧ text.toList ≠ ['.'] ∧ text.toList ≠ ['.', '.'] := by
  cases r with
  | program name =>
    simp only [SourceRequest.template, List.mem_cons, List.not_mem_nil, or_false] at h
    rcases h with rfl | rfl | rfl | rfl | rfl | rfl | rfl | rfl | rfl
    case inr.inr.inr.inr.inr.inr.inl => exact Or.inl ⟨name, List.mem_cons_self, rfl⟩
    all_goals exact Or.inr ⟨_, rfl, by decide, by decide, by decide⟩
  | classPool name =>
    simp only [SourceRequest.template, List.mem_cons, List.not_mem_nil, or_false] at h
    rcases h with rfl | rfl | rfl | rfl | rfl | rfl | rfl | rfl | rfl
    case inr.inr.inr.inr.inr.inr.inl => exact Or.inl ⟨name, List.mem_cons_self, rfl⟩
    all_goals exact Or.inr ⟨_, rfl, by decide, by decide, by decide⟩
  | functionModule group name =>
    simp only [SourceRequest.template, List.mem_cons, List.not_mem_nil, or_false] at h
    rcases h with rfl | rfl | rfl | rfl | rfl | rfl | rfl | rfl | rfl | rfl | rfl
    case inr.inr.inr.inr.inr.inr.inl => exact Or.inl ⟨group, List.mem_cons_self, rfl⟩
    case inr.inr.inr.inr.inr.inr.inr.inr.inl =>
      exact Or.inl ⟨name, List.mem_cons_of_mem _ List.mem_cons_self, rfl⟩
    all_goals exact Or.inr ⟨_, rfl, by decide, by decide, by decide⟩

theorem name_mem_template {name : CodePoints} (h : name ∈ r.names) : .name name ∈ r.template := by
  cases r <;> simp [SourceRequest.names] at h <;> simp [SourceRequest.template, h]

/-- Plain names are single segments, and leave no dot segment. -/
theorem quoted_plain (hback : ∀ name ∈ r.names, codePoints (scalars name) = name)
    (h : ∀ name ∈ r.names, Plain name) :
    ∀ piece ∈ r.template.map Part.quoted, '/' ∉ piece ∧ piece ≠ ['.'] ∧ piece ≠ ['.', '.'] := by
  intro piece hpiece
  obtain ⟨part, hpart, rfl⟩ := List.mem_map.mp hpiece
  cases mem_template hpart with
  | inl hname =>
    obtain ⟨name, hname, rfl⟩ := hname
    exact (plain_iff (hback name hname)).mp (h name hname)
  | inr hfixed =>
    obtain ⟨text, rfl, hplain⟩ := hfixed
    exact hplain

theorem stands_quoted (hback : ∀ name ∈ r.names, codePoints (scalars name) = name) :
    List.Forall₂ Part.Stands r.template (r.template.map Part.quoted) := by
  rw [List.forall₂_map_right_iff, List.forall₂_same]
  intro part hpart
  cases mem_template hpart with
  | inl hname =>
    obtain ⟨name, hname, rfl⟩ := hname
    have hdecode := decode_encode isQuoteSafe_ascii (scalars name)
    simp [Part.Stands, Part.quoted, hdecode, hback name hname]
  | inr hfixed =>
    obtain ⟨text, rfl, _⟩ := hfixed
    rfl

/-- The segment that tells the kinds of objects apart. -/
def SourceRequest.area : SourceRequest → String
  | .program _ => "programs"
  | .classPool _ => "oo"
  | .functionModule _ _ => "functions"

theorem area_quoted (r : SourceRequest) :
    (r.template.map Part.quoted)[4]? = some r.area.toList := by
  cases r <;> rfl

theorem fifth_segment {a b c d e : List Char} {rest : List (List Char)} (ha : '/' ∉ a)
    (hb : '/' ∉ b) (hc : '/' ∉ c) (hd : '/' ∉ d) (he : '/' ∉ e) :
    ((a :: b :: c :: d :: e :: rest).flatMap (·.splitOn '/'))[4]? = some e := by
  simp only [List.flatMap_cons, List.splitOn_eq_singleton ha, List.splitOn_eq_singleton hb,
    List.splitOn_eq_singleton hc, List.splitOn_eq_singleton hd, List.splitOn_eq_singleton he]
  rfl

theorem area_segments (r : SourceRequest) :
    ((r.template.map Part.quoted).flatMap (·.splitOn '/'))[4]? = some r.area.toList := by
  cases r <;>
    exact fifth_segment (by decide) (by decide) (by decide) (by decide) (by decide)

theorem program_of_area {name : CodePoints}
    (h : (SourceRequest.program name).area = r'.area) : ∃ name', r' = .program name' := by
  cases r' with
  | program name' => exact ⟨name', rfl⟩
  | classPool _ => simp [SourceRequest.area] at h
  | functionModule _ _ => simp [SourceRequest.area] at h

theorem classPool_of_area {name : CodePoints}
    (h : (SourceRequest.classPool name).area = r'.area) : ∃ name', r' = .classPool name' := by
  cases r' with
  | program _ => simp [SourceRequest.area] at h
  | classPool name' => exact ⟨name', rfl⟩
  | functionModule _ _ => simp [SourceRequest.area] at h

theorem functionModule_of_area {group name : CodePoints}
    (h : (SourceRequest.functionModule group name).area = r'.area) :
    ∃ group' name', r' = .functionModule group' name' := by
  cases r' with
  | program _ => simp [SourceRequest.area] at h
  | classPool _ => simp [SourceRequest.area] at h
  | functionModule group' name' => exact ⟨group', name', rfl⟩

theorem length_template (h : r.area = r'.area) : r.template.length = r'.template.length := by
  cases r with
  | program name =>
    obtain ⟨name', rfl⟩ := program_of_area h
    rfl
  | classPool name =>
    obtain ⟨name', rfl⟩ := classPool_of_area h
    rfl
  | functionModule group name =>
    obtain ⟨group', name', rfl⟩ := functionModule_of_area h
    rfl

theorem quoted_injective {name name' : CodePoints} (hname : codePoints (scalars name) = name)
    (hname' : codePoints (scalars name') = name')
    (h : encode isQuoteSafe (scalars name) = encode isQuoteSafe (scalars name')) : name = name' :=
  scalars_injective hname hname' (encode_injective isQuoteSafe_ascii h)

theorem eq_of_quoted (hback : ∀ name ∈ r.names, codePoints (scalars name) = name)
    (hback' : ∀ name ∈ r'.names, codePoints (scalars name) = name) (harea : r.area = r'.area)
    (h : r.template.map Part.quoted = r'.template.map Part.quoted) : r' = r := by
  cases r with
  | program name =>
    obtain ⟨name', rfl⟩ := program_of_area harea
    have hquoted : encode isQuoteSafe (scalars name) = encode isQuoteSafe (scalars name') :=
      Option.some.inj (congrArg (·[6]?) h)
    rw [quoted_injective (hback _ List.mem_cons_self) (hback' _ List.mem_cons_self) hquoted]
  | classPool name =>
    obtain ⟨name', rfl⟩ := classPool_of_area harea
    have hquoted : encode isQuoteSafe (scalars name) = encode isQuoteSafe (scalars name') :=
      Option.some.inj (congrArg (·[6]?) h)
    rw [quoted_injective (hback _ List.mem_cons_self) (hback' _ List.mem_cons_self) hquoted]
  | functionModule group name =>
    obtain ⟨group', name', rfl⟩ := functionModule_of_area harea
    have hgroup : encode isQuoteSafe (scalars group) = encode isQuoteSafe (scalars group') :=
      Option.some.inj (congrArg (·[6]?) h)
    have hname : encode isQuoteSafe (scalars name) = encode isQuoteSafe (scalars name') :=
      Option.some.inj (congrArg (·[8]?) h)
    rw [quoted_injective (hback _ List.mem_cons_self) (hback' _ List.mem_cons_self) hgroup,
      quoted_injective (hback _ (List.mem_cons_of_mem _ List.mem_cons_self))
        (hback' _ (List.mem_cons_of_mem _ List.mem_cons_self)) hname]

/-- The path of plain names belongs to no other request, whatever its names are. -/
theorem only_request (h : r.uri = .ok path) (h' : r'.uri = .ok path)
    (hplain : ∀ name ∈ r.names, Plain name) : r' = r := by
  have hback := (uri_ok h).2
  have hnone : ∀ piece ∈ r.template.map Part.quoted, '/' ∉ piece :=
    fun piece hpiece => (quoted_plain hback hplain piece hpiece).1
  have hsegments := segments_of_uri h
  rw [segments_of_uri h', segments_eq_pieces hnone] at hsegments
  have harea : r.area = r'.area := by
    have hfifth := area_segments r'
    rw [hsegments, area_quoted] at hfifth
    exact String.toList_injective (Option.some.inj hfifth)
  have hlength : ((r'.template.map Part.quoted).flatMap (·.splitOn '/')).length =
      (r'.template.map Part.quoted).length := by
    rw [hsegments, List.length_map, List.length_map]
    exact length_template harea
  rw [segments_eq_pieces (notMem_of_length hlength)] at hsegments
  exact eq_of_quoted hback (uri_ok h').2 harea hsegments.symm

end Templates

/-- A path is safe exactly when no name has a slash or is a dot segment. -/
theorem nameSafe_iff (r : SourceRequest) (path : String) (h : r.uri = .ok path) :
    NameSafe r path ↔ ∀ name ∈ r.names, Plain name := by
  obtain ⟨_, hback⟩ := uri_ok h
  have hsegments := segments_of_uri h
  constructor
  · intro hsafe name hname
    have hlength := hsafe.segments.length_eq
    rw [hsegments] at hlength
    have hnone : ∀ piece ∈ r.template.map Part.quoted, '/' ∉ piece := by
      apply notMem_of_length
      rw [← hlength, List.length_map]
    have hstraight := hsafe.straight
    rw [hsegments, segments_eq_pieces hnone] at hstraight
    have hpiece : encode isQuoteSafe (scalars name) ∈ r.template.map Part.quoted :=
      List.mem_map.mpr ⟨.name name, name_mem_template hname, rfl⟩
    exact (plain_iff (hback name hname)).mpr
      ⟨hnone _ hpiece, removeDotSegments_eq_self.mp hstraight _ hpiece⟩
  · intro hplain
    have hpieces := quoted_plain hback hplain
    rw [segments_eq_pieces fun piece hpiece => (hpieces piece hpiece).1] at hsegments
    constructor
    · rw [hsegments]
      exact stands_quoted hback
    · rw [hsegments]
      apply removeDotSegments_eq_self.mpr
      intro piece hpiece
      exact (hpieces piece hpiece).2
    · intro r' h'
      exact only_request h h' hplain

/-- The namespace name `/SDF/X` adds segments. -/
theorem namespace_name_unsafe : ¬∀ (r : SourceRequest) (path : String), r.uri = .ok path →
    (∀ name ∈ r.names, name ≠ []) → NameSafe r path := by
  intro hall
  have hsafe := hall (.program (codePoints "/SDF/X".toList))
    "/sap/bc/adt/programs/programs//SDF/X/source/main" rfl (by decide)
  have hlength := hsafe.segments.length_eq
  exact absurd hlength (by decide)

example : (SourceRequest.functionModule (codePoints "A/fmodules/B".toList)
      (codePoints "C".toList)).uri =
    (SourceRequest.functionModule (codePoints "A".toList)
      (codePoints "B/fmodules/C".toList)).uri := rfl

/-- A function module in its group. -/
theorem function_module_safe : NameSafe
    (.functionModule (codePoints "ZFG".toList) (codePoints "Z_FOO".toList))
    "/sap/bc/adt/functions/groups/ZFG/fmodules/Z_FOO/source/main" :=
  (nameSafe_iff _ _ rfl).mpr (by decide)

end RfcMcp
