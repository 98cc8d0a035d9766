import Mathlib.Data.Nat.Notation

namespace RfcMcp.Fnmatch

/-- A translated pattern: `*`, `?`, a character class, or one character. -/
inductive Piece
  | star
  | any
  | never
  | lit (c : Char)
  | cls (negated : Bool) (ranges : List (Char × Char))
deriving DecidableEq, Repr

def Piece.accepts : Piece → Char → Bool
  | .star, _ => false
  | .any, _ => true
  | .never, _ => false
  | .lit d, c => d == c
  | .cls negated ranges, c => negated != ranges.any fun r => r.1 ≤ c && c ≤ r.2

/-- The text between `[` and its `]`, and what follows; a `]` right at the start is a member. -/
def closeBracket (cs : List Char) : Option (List Char × List Char) :=
  let bang := cs.head? == some '!'
  let cs₁ := if bang then cs.tail else cs
  let bracket := cs₁.head? == some ']'
  let cs₂ := if bracket then cs₁.tail else cs₁
  match cs₂.dropWhile (· != ']') with
  | [] => none
  | _ :: rest =>
    some ((if bang then ['!'] else []) ++ (if bracket then [']'] else []) ++
      cs₂.takeWhile (· != ']'), rest)

/-- Cut a class at its range hyphens. The first search starts `skip` characters in, the later ones
two; a hyphen that ends the class belongs to the chunk before it. -/
def chunks : ℕ → ℕ → List Char → List (List Char)
  | 0, _, cs => [cs]
  | fuel + 1, skip, cs =>
    let rest := cs.drop skip
    match rest.dropWhile (· != '-') with
    | [] => [cs]
    | [_] => [cs]
    | _ :: after => (cs.take skip ++ rest.takeWhile (· != '-')) :: chunks fuel 2 after

/-- Drop the ranges whose ends are in the wrong order, from the right. -/
def mergeChunks : List (List Char) → List (List Char)
  | [] => []
  | c :: cs =>
    match mergeChunks cs with
    | [] => [c]
    | d :: ds =>
      match c.getLast?, d.head? with
      | some x, some y => if x > y then (c.dropLast ++ d.tail) :: ds else c :: d :: ds
      | _, _ => c :: d :: ds

/-- A class for the regular expression; `none` is a hyphen that makes a range. -/
def classTokens (stuff : List Char) : List (Option Char) :=
  if stuff.contains '-' then
    let skip := if stuff.head? == some '!' then 2 else 1
    [none].intercalate ((mergeChunks (chunks stuff.length skip stuff)).map (·.map some))
  else stuff.map some

def classRanges : List (Option Char) → List (Char × Char)
  | [] => []
  | t :: none :: u :: rest => (t.getD '-', u.getD '-') :: classRanges rest
  | t :: rest => (t.getD '-', t.getD '-') :: classRanges rest

def classPiece (stuff : List Char) : Piece :=
  match classTokens stuff with
  | [] => .never
  | [some '!'] => .any
  | some '!' :: rest => .cls true (classRanges rest)
  | toks => .cls false (classRanges toks)

def translateAux : ℕ → List Char → List Piece
  | 0, _ => []
  | _ + 1, [] => []
  | fuel + 1, c :: cs =>
    if c = '*' then .star :: translateAux fuel cs
    else if c = '?' then .any :: translateAux fuel cs
    else if c = '[' then
      match closeBracket cs with
      | none => .lit '[' :: translateAux fuel cs
      | some (stuff, rest) => classPiece stuff :: translateAux fuel rest
    else .lit c :: translateAux fuel cs

/-- `fnmatch.translate`: every step uses up a character, so the length is fuel enough. -/
def translate (pat : List Char) : List Piece := translateAux pat.length pat

def anySuffix (f : List Char → Bool) : List Char → Bool
  | [] => f []
  | c :: cs => f (c :: cs) || anySuffix f cs

def matchPieces : List Piece → List Char → Bool
  | [], cs => cs.isEmpty
  | .star :: ps, cs => anySuffix (matchPieces ps) cs
  | _ :: _, [] => false
  | p :: ps, c :: cs => p.accepts c && matchPieces ps cs

end RfcMcp.Fnmatch

namespace RfcMcp

/-- `fnmatch.fnmatchcase(name, pat)`. -/
def fnmatchcase (name pat : String) : Bool :=
  Fnmatch.matchPieces (Fnmatch.translate pat.toList) name.toList

example : fnmatchcase "BAPI_CUSTOMER_CHANGE2" "*_CHANGE*" = true := by decide
example : fnmatchcase "USR02" "USR[!0-1]?" = false := by decide

end RfcMcp
