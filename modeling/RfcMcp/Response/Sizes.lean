import RfcMcp.Execution.ResultLimits
import RfcMcp.Execution.SourceReader
import Mathlib.Algebra.Order.BigOperators.Group.List
import Mathlib.Algebra.Order.Group.Nat

namespace RfcMcp

open Framework (bind_eq_ok map_eq_ok)

section Sizes

/-- The bytes of a string inside the quotes of its JSON form. -/
def escapedBytes (s : String) : ℕ := (String.ofList (s.toList.flatMap jsonChar)).utf8ByteSize

/-- The bytes of texts that are joined with a separator. -/
def joinedBytes (size : String → ℕ) (separator : ℕ) (texts : List String) : ℕ :=
  (texts.map size).sum + separator * (texts.length - 1)

theorem joinedBytes_cons_cons (size : String → ℕ) (separator : ℕ) (a b : String)
    (rest : List String) : joinedBytes size separator (a :: b :: rest) =
      size a + separator + joinedBytes size separator (b :: rest) := by
  simp only [joinedBytes, List.map_cons, List.sum_cons, List.length_cons, Nat.add_sub_cancel,
    Nat.mul_add, Nat.mul_one]
  omega

/-- A size that adds up over concatenation adds up over a join. -/
theorem size_intercalate {size : String → ℕ} (hempty : size "" = 0)
    (happend : ∀ s t, size (s ++ t) = size s + size t) (separator : String) (texts : List String) :
    size (separator.intercalate texts) = joinedBytes size (size separator) texts := by
  induction texts with
  | nil => simp [joinedBytes, hempty]
  | cons a rest ih =>
    cases rest with
    | nil => simp [joinedBytes]
    | cons b rest =>
      rw [String.intercalate_cons_cons, happend, happend, ih, joinedBytes_cons_cons]

theorem utf8ByteSize_intercalate (separator : String) (texts : List String) :
    (separator.intercalate texts).utf8ByteSize =
      joinedBytes String.utf8ByteSize separator.utf8ByteSize texts :=
  size_intercalate rfl (fun _ _ => String.utf8ByteSize_append) separator texts

theorem escapedBytes_append (s t : String) :
    escapedBytes (s ++ t) = escapedBytes s + escapedBytes t := by
  simp only [escapedBytes, String.toList_append, List.flatMap_append, String.ofList_append,
    String.utf8ByteSize_append]

theorem escapedBytes_intercalate (separator : String) (texts : List String) :
    escapedBytes (separator.intercalate texts) =
      joinedBytes escapedBytes (escapedBytes separator) texts :=
  size_intercalate rfl escapedBytes_append separator texts

theorem jsonString_bytes (s : String) : (jsonString s).utf8ByteSize = escapedBytes s + 2 := by
  have hquote : ("\"" : String).utf8ByteSize = 1 := rfl
  simp only [jsonString, String.utf8ByteSize_append, hquote, escapedBytes]
  omega

end Sizes

section Source

theorem size_le_intercalate {text separator : String} {texts : List String} (h : text ∈ texts) :
    text.utf8ByteSize ≤ (separator.intercalate texts).utf8ByteSize := by
  have hsum : text.utf8ByteSize ≤ (texts.map String.utf8ByteSize).sum :=
    List.le_sum_of_mem (List.mem_map_of_mem h)
  rw [utf8ByteSize_intercalate, joinedBytes]
  omega

theorem jsonMembers_member {items : List (String × PyValue)} {members : List String} {key : String}
    {value : PyValue} (hmembers : jsonMembers items = .ok members)
    (hget : items.lookup key = some value) :
    ∃ text, jsonDumps value = .ok text ∧ jsonString key ++ ":" ++ text ∈ members := by
  induction items generalizing members with
  | nil => cases hget
  | cons item items ih =>
    obtain ⟨k, v⟩ := item
    obtain ⟨text, rest, hhead, hrest, rfl⟩ := jsonMembers_cons_ok.mp hmembers
    rw [List.lookup_cons] at hget
    by_cases hkey : key = k
    · subst hkey
      simp only [beq_self_eq_true] at hget
      cases hget
      exact ⟨text, hhead, List.mem_cons_self⟩
    · simp only [beq_eq_false_iff_ne.mpr hkey] at hget
      obtain ⟨text', htext', hmem⟩ := ih hrest hget
      exact ⟨text', htext', List.mem_cons_of_mem _ hmem⟩

/-- An object is longer than each of its members. -/
theorem jsonDumps_member {items : List (String × PyValue)} {text key : String} {value : PyValue}
    (hdumps : jsonDumps (.dict items) = .ok text) (hget : items.lookup key = some value) :
    ∃ inner, jsonDumps value = .ok inner ∧ inner.utf8ByteSize + 2 ≤ text.utf8ByteSize := by
  obtain ⟨members, hmembers, rfl⟩ := jsonDumps_dict_eq_ok.mp hdumps
  obtain ⟨inner, hinner, hmem⟩ := jsonMembers_member hmembers hget
  refine ⟨inner, hinner, ?_⟩
  have hle := @size_le_intercalate _ "," _ hmem
  have hopen : ("\x7b" : String).utf8ByteSize = 1 := rfl
  have hclose : ("\x7d" : String).utf8ByteSize = 1 := rfl
  simp only [String.utf8ByteSize_append] at hle ⊢
  omega

theorem jsonDumps_dict_two {items : List (String × PyValue)} {text : String}
    (hdumps : jsonDumps (.dict items) = .ok text) : 2 ≤ text.utf8ByteSize := by
  obtain ⟨members, _, rfl⟩ := jsonDumps_dict_eq_ok.mp hdumps
  have hopen : ("\x7b" : String).utf8ByteSize = 1 := rfl
  have hclose : ("\x7d" : String).utf8ByteSize = 1 := rfl
  simp only [String.utf8ByteSize_append]
  omega

/-- The row of a line is longer than the line. -/
theorem line_bytes {line : PyValue} {row : PyDict} {s text : String} (hrow : line.asRow = .ok row)
    (hline : row.getD "LINE" (.str "") = .str s) (hdumps : jsonDumps line = .ok text) :
    escapedBytes s + 2 ≤ text.utf8ByteSize := by
  cases line with
  | dict items =>
    cases hrow
    cases hget : row.lookup "LINE" with
    | none =>
      have hempty : s = "" := by simpa [PyDict.getD, PyDict.get?, hget] using hline.symm
      subst hempty
      exact jsonDumps_dict_two hdumps
    | some value =>
      have hvalue : value = .str s := by simpa [PyDict.getD, PyDict.get?, hget] using hline
      subst hvalue
      obtain ⟨inner, hinner, hle⟩ := jsonDumps_member hdumps hget
      cases hinner
      rw [jsonString_bytes] at hle
      omega
  | _ => cases hrow

/-- The items of a join are the texts that it joins. -/
theorem joinItems_eq_ok {i : ℕ} {items : List PyValue} {lines : List String}
    (h : SourceReader.joinItems i items = .ok lines) : items = lines.map .str := by
  induction items generalizing i lines with
  | nil =>
    cases h
    rfl
  | cons item items ih =>
    cases item with
    | str s =>
      obtain ⟨more, hmore, rfl⟩ := map_eq_ok.mp h
      rw [List.map_cons, ← ih hmore]
    | _ => cases h

theorem joinItems_map (i : ℕ) (lines : List String) :
    SourceReader.joinItems i (lines.map .str) = .ok lines := by
  induction lines generalizing i with
  | nil => rfl
  | cons line lines ih => exact map_eq_ok.mpr ⟨lines, ih (i + 1), rfl⟩

theorem lineTexts_cons {element : PyValue} {elements : List PyValue} {lines : List String}
    (h : SourceReader.lineTexts (element :: elements) = .ok lines) : ∃ row s more,
      element.asRow = .ok row ∧ row.getD "LINE" (.str "") = .str s ∧
        SourceReader.lineTexts elements = .ok more ∧ lines = s :: more := by
  obtain ⟨items, hitems, hjoin⟩ := bind_eq_ok.mp h
  obtain ⟨row, hrow, hitems⟩ := bind_eq_ok.mp hitems
  obtain ⟨rest, hrest, rfl⟩ := map_eq_ok.mp hitems
  have htexts := joinItems_eq_ok hjoin
  cases lines with
  | nil => cases htexts
  | cons s more =>
    obtain ⟨hline, hmore⟩ := List.cons.inj htexts
    refine ⟨row, s, more, hrow, hline, ?_, rfl⟩
    exact bind_eq_ok.mpr ⟨rest, hrest, hmore ▸ joinItems_map 0 more⟩

theorem lineTexts_bytes {elements : List PyValue} {lines texts : List String}
    (hlines : SourceReader.lineTexts elements = .ok lines)
    (htexts : jsonElements elements = .ok texts) :
    lines.length = texts.length ∧
      (lines.map escapedBytes).sum + 2 * lines.length ≤ (texts.map String.utf8ByteSize).sum := by
  induction elements generalizing lines texts with
  | nil =>
    cases hlines
    cases htexts
    exact ⟨rfl, Nat.le_refl 0⟩
  | cons element elements ih =>
    obtain ⟨text, rest, hdumps, hrest, rfl⟩ := jsonElements_cons_ok.mp htexts
    obtain ⟨row, s, more, hrow, hline, hmore, rfl⟩ := lineTexts_cons hlines
    obtain ⟨hlength, hbytes⟩ := ih hmore hrest
    have hhead := line_bytes hrow hline hdumps
    simp only [List.length_cons, List.map_cons, List.sum_cons, hlength, Nat.mul_add]
    rw [hlength] at hbytes
    exact ⟨trivial, by omega⟩

/-- Only a list has rows to read lines from. -/
theorem list_of_lineTexts {value element : PyValue} {elements : List PyValue} {lines : List String}
    (helements : value.iterate = .ok (element :: elements))
    (hlines : SourceReader.lineTexts (element :: elements) = .ok lines) :
    value = .list (element :: elements) := by
  cases value with
  | list xs =>
    cases helements
    rfl
  | dict items =>
    cases items with
    | nil => cases helements
    | cons item items =>
      cases helements
      cases hlines
  | str s =>
    cases hs : s.toList with
    | nil => simp [PyValue.iterate, hs] at helements
    | cons c cs =>
      simp only [PyValue.iterate, hs, List.map_cons, Except.ok.injEq] at helements
      cases helements
      cases hlines
  | bytes bs =>
    cases bs with
    | nil => cases helements
    | cons b bs =>
      cases helements
      cases hlines
  | _ => cases helements

/-- The JSON form of the lines of a result is no longer than that of the result. -/
theorem sourceLines_bytes {result : PyValue} {tableKey source text : String}
    (hsource : SourceReader.sourceLines result tableKey = .ok source)
    (hdumps : jsonDumps result = .ok text) :
    (jsonString source).utf8ByteSize ≤ text.utf8ByteSize := by
  have hnewline : escapedBytes "\n" = 2 := by decide
  obtain ⟨row, hrow, hsource⟩ := bind_eq_ok.mp hsource
  obtain ⟨elements, helements, hsource⟩ := bind_eq_ok.mp hsource
  obtain ⟨lines, hlines, rfl⟩ := map_eq_ok.mp hsource
  cases result with
  | dict row =>
    cases hrow
    have htwo := jsonDumps_dict_two hdumps
    rw [jsonString_bytes, escapedBytes_intercalate, hnewline, joinedBytes]
    cases elements with
    | nil =>
      cases hlines
      exact htwo
    | cons element elements =>
      have hvalue := list_of_lineTexts helements hlines
      cases hget : row.lookup tableKey with
      | none => simp [PyDict.getD, PyDict.get?, hget] at hvalue
      | some value =>
        simp only [PyDict.getD, PyDict.get?, hget, Option.getD_some] at hvalue
        subst hvalue
        obtain ⟨inner, hinner, hle⟩ := jsonDumps_member hdumps hget
        obtain ⟨texts, htexts, rfl⟩ := jsonDumps_list_eq_ok.mp hinner
        obtain ⟨hlength, hbytes⟩ := lineTexts_bytes hlines htexts
        have hopen : ("[" : String).utf8ByteSize = 1 := rfl
        have hclose : ("]" : String).utf8ByteSize = 1 := rfl
        simp only [String.utf8ByteSize_append, hopen, hclose, utf8ByteSize_intercalate,
          joinedBytes] at hle
        omega
  | _ => cases hrow

end Source

end RfcMcp
