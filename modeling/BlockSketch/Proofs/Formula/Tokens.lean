import BlockSketch.Identifier

namespace BlockSketch.Formula

inductive Operator
  | add | subtract | multiply | divide
  deriving DecidableEq

inductive Token
  | word (text : String)
  | sign (operator : Operator)
  | opening | closing | point
  deriving DecidableEq

def signOf? : Char → Option Operator
  | '+' => some .add
  | '-' => some .subtract
  | '*' => some .multiply
  | '/' => some .divide
  | _ => none

/-- Two characters that are one sign of the language, or that begin a comment. -/
def joins : Char → Char → Bool
  | '+', c => c == '+' || c == '='
  | '-', c => c == '-' || c == '=' || c == '>'
  | '*', c => c == '='
  | '/', c => c == '=' || c == '/' || c == '*'
  | _, _ => false

/-- What a character is that belongs to no word. Signs of more than one character are none of an
expression. -/
def mark? (c : Char) (following : Option Char) : Option (List Token) :=
  if c = ' ' then some []
  else if c = '(' then some [.opening]
  else if c = ')' then some [.closing]
  else if c = '.' then some [.point]
  else if following.any (joins c) then none
  else (signOf? c).map fun operator => [.sign operator]

def endWord (letters : List Char) : List Token :=
  if letters = [] then [] else [.word (String.ofList letters)]

/-- `letters` are those of the word that is being read. -/
def scan (letters : List Char) : List Char → Option (List Token)
  | [] => some (endWord letters)
  | c :: rest =>
    if Identifier.isNameChar c then scan (letters ++ [c]) rest
    else (mark? c rest.head?).bind fun marks =>
      (scan [] rest).map fun tokens => endWord letters ++ marks ++ tokens

def tokens (code : String) : Option (List Token) := scan [] code.toList

/-- No token goes on where such a text begins. -/
def Parted (text : List Char) : Prop := ∀ c ∈ text.head?, c = ' ' ∨ c = '(' ∨ c = ')'

theorem Parted.isNameChar {c : Char} {text : List Char} (h : Parted (c :: text)) :
    Identifier.isNameChar c = false := by
  rcases h c rfl with rfl | rfl | rfl <;> rfl

theorem Parted.joins {c : Char} {text : List Char} (h : Parted (c :: text)) (first : Char) :
    joins first c = false := by
  rcases h c rfl with rfl | rfl | rfl <;> (unfold Formula.joins; split <;> rfl)

theorem mark?_parted {text : List Char} (h : Parted text) (c : Char) :
    mark? c text.head? = mark? c none := by
  cases text with
  | nil => rfl
  | cons first rest => simp [mark?, h.joins]

theorem scan_append {text : List Char} (h : Parted text) (letters first : List Char) :
    scan letters (first ++ text) =
      (scan letters first).bind fun tokens => (scan [] text).map (tokens ++ ·) := by
  induction first generalizing letters with
  | nil =>
    cases text with
    | nil => simp [scan, endWord]
    | cons c rest =>
      simp only [List.nil_append, scan, h.isNameChar, Bool.false_eq_true, ↓reduceIte,
        Option.bind_some]
      cases mark? c rest.head? with
      | none => rfl
      | some marks => cases scan [] rest <;> simp [endWord]
  | cons c rest ih =>
    by_cases hc : Identifier.isNameChar c = true
    · simp only [List.cons_append, scan, hc, ↓reduceIte, ih]
    · have hm : mark? c (rest ++ text).head? = mark? c rest.head? := by
        cases rest with
        | nil => exact mark?_parted h c
        | cons => rfl
      simp only [List.cons_append, scan, hc, Bool.false_eq_true, ↓reduceIte, hm, ih]
      cases mark? c rest.head? with
      | none => rfl
      | some marks =>
        cases scan [] rest with
        | none => rfl
        | some _ => cases scan [] text <;> simp

theorem scan_name {letters : List Char} (h : letters.all Identifier.isNameChar = true)
    (before : List Char) : scan before letters = some (endWord (before ++ letters)) := by
  induction letters generalizing before with
  | nil => simp [scan]
  | cons c rest ih =>
    rw [List.all_cons, Bool.and_eq_true] at h
    simp only [scan, h.1, ↓reduceIte]
    rw [ih h.2]
    simp

theorem tokens_name {name : String} (h : name.toList.all Identifier.isNameChar = true)
    (hn : name ≠ "") : tokens name = some [.word name] := by
  unfold tokens
  rw [scan_name h]
  simp [endWord, hn]

/-- A text of which a mark parts the rest. -/
theorem tokens_append {first text : String} (h : Parted text.toList)
    (hf : tokens first = some row) (ht : tokens text = some more) :
    tokens (first ++ text) = some (row ++ more) := by
  unfold tokens at *
  rw [String.toList_append, scan_append h, hf, ht]
  rfl

theorem tokens_inParens {code : String} (h : tokens code = some row) :
    tokens ("(" ++ code ++ ")") = some ([.opening] ++ row ++ [.closing]) := by
  have hc : tokens (code ++ ")") = some (row ++ [.closing]) :=
    tokens_append (by simp [Parted]) h rfl
  rw [String.append_assoc]
  unfold tokens at hc ⊢
  rw [String.toList_append]
  change scan [] ('(' :: (code ++ ")").toList) = _
  simp only [scan, hc]
  rfl

end BlockSketch.Formula
