import BlockSketch.Proofs.Formula.Tokens

namespace BlockSketch

inductive Formula
  | number (digits : String)
  | read (name : String)
  | call (name : String)
  | transfer (data : Formula)
  | negate (operand : Formula)
  | binary (operator : Formula.Operator) (left right : Formula)
  deriving DecidableEq

namespace Formula

inductive Level
  | primary | unary | product | sum
  deriving DecidableEq

/-- A smaller rank binds tighter. -/
def Level.rank : Level → Nat
  | primary => 0
  | unary => 1
  | product => 2
  | sum => 3

def Operator.level : Operator → Level
  | add | subtract => .sum
  | multiply | divide => .product

/-- The grammar. Sums and products grow to the right, so of two equal operators the first binds. -/
inductive Derives : Level → List Token → Formula → Prop
  | number {digits : String} : digits ≠ "" → digits.toList.all Char.isDigit = true →
    Derives .primary [.word digits] (.number digits)
  | read {name : String} : Identifier.IsValid name → Derives .primary [.word name] (.read name)
  | call {name : String} : Identifier.IsValid name →
    Derives .primary [.word name, .opening, .closing] (.call name)
  | transfer {row : List Token} {data : Formula} : Derives .sum row data →
    Derives .primary
      ([.word "SPI", .point, .word "transfer", .opening] ++ row ++ [.closing]) (.transfer data)
  | parens {row : List Token} {formula : Formula} : Derives .sum row formula →
    Derives .primary ([.opening] ++ row ++ [.closing]) formula
  | ofPrimary {row : List Token} {formula : Formula} : Derives .primary row formula →
    Derives .unary row formula
  | negate {row : List Token} {operand : Formula} : Derives .unary row operand →
    Derives .unary (.sign .subtract :: row) (.negate operand)
  | ofUnary {row : List Token} {formula : Formula} : Derives .unary row formula →
    Derives .product row formula
  | product {before after : List Token} {left right : Formula} {operator : Operator} :
    operator.level = .product → Derives .product before left → Derives .unary after right →
    Derives .product (before ++ .sign operator :: after) (.binary operator left right)
  | ofProduct {row : List Token} {formula : Formula} : Derives .product row formula →
    Derives .sum row formula
  | sum {before after : List Token} {left right : Formula} {operator : Operator} :
    operator.level = .sum → Derives .sum before left → Derives .product after right →
    Derives .sum (before ++ .sign operator :: after) (.binary operator left right)

/-- What binds tighter can stand where something looser can. -/
theorem Derives.loosen {row : List Token} {formula : Formula} {level looser : Level}
    (h : Derives level row formula) (hl : level.rank ≤ looser.rank) :
    Derives looser row formula := by
  cases level with
  | primary =>
    cases looser with
    | primary => exact h
    | unary => exact .ofPrimary h
    | product => exact .ofUnary (.ofPrimary h)
    | sum => exact .ofProduct (.ofUnary (.ofPrimary h))
  | unary =>
    cases looser with
    | primary => simp [Level.rank] at hl
    | unary => exact h
    | product => exact .ofUnary h
    | sum => exact .ofProduct (.ofUnary h)
  | product =>
    cases looser with
    | primary | unary => simp [Level.rank] at hl
    | product => exact h
    | sum => exact .ofProduct h
  | sum =>
    cases looser with
    | primary | unary | product => simp [Level.rank] at hl
    | sum => exact h

/-- What a reader has met and not finished, the innermost first. -/
inductive Frame
  | negate
  | left (operand : Formula) (operator : Operator)
  | parens
  | transfer
  deriving DecidableEq

/-- Finishes all that binds at least as tight as the level. -/
def settle (level : Level) : List Frame → Formula → List Frame × Formula
  | .negate :: outer, formula => settle level outer (.negate formula)
  | .left operand operator :: outer, formula =>
    if operator.level.rank ≤ level.rank then settle level outer (.binary operator operand formula)
    else (.left operand operator :: outer, formula)
  | stack, formula => (stack, formula)

def wordFormula (text : String) : Formula :=
  if text.toList.all Char.isDigit then .number text else .read text

mutual

/-- Reads on where an operand begins. -/
def operand (stack : List Frame) : List Token → Option Formula
  | .sign .subtract :: rest => operand (.negate :: stack) rest
  | .opening :: rest => operand (.parens :: stack) rest
  | .word _ :: .point :: .word _ :: .opening :: rest => operand (.transfer :: stack) rest
  | .word name :: .opening :: .closing :: rest => operator stack (.call name) rest
  | .word text :: rest => operator stack (wordFormula text) rest
  | _ => none

/-- Reads on behind an operand. -/
def operator (stack : List Frame) (formula : Formula) : List Token → Option Formula
  | [] =>
    match settle .sum stack formula with
    | ([], whole) => some whole
    | _ => none
  | .closing :: rest =>
    match settle .sum stack formula with
    | (.parens :: outer, inner) => operator outer inner rest
    | (.transfer :: outer, inner) => operator outer (.transfer inner) rest
    | _ => none
  | .sign sign :: rest =>
    operand (.left (settle sign.level stack formula).2 sign ::
      (settle sign.level stack formula).1) rest
  | _ => none

end

/-- Nothing in the stack can be finished at the level. -/
def Settled (level : Level) : List Frame → Prop
  | .negate :: _ => False
  | .left _ operator :: _ => level.rank < operator.level.rank
  | _ => True

theorem Settled.settle {level : Level} {stack : List Frame} (h : Settled level stack)
    (formula : Formula) : Formula.settle level stack formula = (stack, formula) := by
  cases stack with
  | nil => rfl
  | cons frame outer =>
    cases frame with
    | negate => exact h.elim
    | left operand operator => simp only [Formula.settle, Nat.not_le.mpr h, ↓reduceIte]
    | parens | transfer => rfl

theorem Settled.product {stack : List Frame} (h : Settled .sum stack) : Settled .product stack := by
  cases stack with
  | nil => exact h
  | cons frame outer =>
    cases frame with
    | negate | parens | transfer => exact h
    | left operand operator => exact Nat.lt_trans (Nat.lt_succ_self 2) h

/-- Where a sum or a product may begin, no operator waits that would take its first part alone. -/
def Ready : Level → List Frame → Prop
  | .primary, _ | .unary, _ => True
  | .product, stack => Settled .product stack
  | .sum, stack => Settled .sum stack

/-- No word goes on with such tokens. -/
def Ended (rest : List Token) : Prop := ∀ token ∈ rest.head?, token ≠ .opening ∧ token ≠ .point

theorem ended_sign (sign : Operator) (rest : List Token) : Ended (.sign sign :: rest) := by
  simp [Ended]

theorem ended_closing (rest : List Token) : Ended (.closing :: rest) := by
  simp [Ended]

theorem operand_word {rest : List Token} (h : Ended rest) (stack : List Frame) (text : String) :
    operand stack (.word text :: rest) = operator stack (wordFormula text) rest := by
  cases rest with
  | nil => simp [operand]
  | cons token rest =>
    obtain ⟨ho, hp⟩ := h token rfl
    cases token with
    | opening => exact absurd rfl ho
    | point => exact absurd rfl hp
    | word | sign | closing => simp [operand]

theorem wordFormula_read {name : String} (h : Identifier.IsValid name) :
    wordFormula name = .read name := by
  obtain ⟨_, c, hc, hd⟩ := h
  unfold wordFormula
  cases ht : name.toList with
  | nil => simp [ht] at hc
  | cons first rest =>
    simp only [ht, List.head?_cons, Option.some.injEq] at hc
    simp [hc, hd]

/-- From the row on, the reader comes to a state that differs from having the formula as its operand
only in what is still to be finished at the level. -/
def LeadsTo (level : Level) (stack : List Frame) (row rest : List Token) (formula : Formula) :
    Prop :=
  ∃ stack' formula', operand stack (row ++ rest) = operator stack' formula' rest ∧
    ∀ looser : Level, level.rank ≤ looser.rank →
      settle looser stack' formula' = settle looser stack formula

theorem LeadsTo.of_eq {stack : List Frame} {row rest : List Token} {formula : Formula}
    (h : operand stack (row ++ rest) = operator stack formula rest) (level : Level) :
    LeadsTo level stack row rest formula :=
  ⟨stack, formula, h, fun _ _ => rfl⟩

theorem LeadsTo.loosen {level looser : Level} {stack : List Frame} {row rest : List Token}
    {formula : Formula} (h : LeadsTo level stack row rest formula)
    (hl : level.rank ≤ looser.rank) : LeadsTo looser stack row rest formula := by
  obtain ⟨stack', formula', he, hset⟩ := h
  exact ⟨stack', formula', he, fun _ hn => hset _ (Nat.le_trans hl hn)⟩

/-- Where nothing waits that could be finished, the state is that of the formula itself. -/
theorem LeadsTo.settled {level : Level} {stack : List Frame} {row rest : List Token}
    {formula : Formula} (h : LeadsTo level stack row rest formula) (hs : Settled level stack) :
    ∃ stack' formula', operand stack (row ++ rest) = operator stack' formula' rest ∧
      settle level stack' formula' = (stack, formula) := by
  obtain ⟨stack', formula', he, hset⟩ := h
  refine ⟨stack', formula', he, ?_⟩
  rw [hset level (Nat.le_refl _)]
  exact hs.settle formula

theorem LeadsTo.binary {level tighter : Level} {stack : List Frame} {before after rest : List Token}
    {left right : Formula} {sign : Operator} (hop : sign.level = level) (hs : Settled level stack)
    (hl : LeadsTo level stack before (.sign sign :: (after ++ rest)) left)
    (hr : LeadsTo tighter (.left left sign :: stack) after rest right)
    (ht : tighter.rank ≤ level.rank) :
    LeadsTo level stack (before ++ .sign sign :: after) rest (.binary sign left right) := by
  obtain ⟨stack₁, formula₁, he₁, hset₁⟩ := hl.settled hs
  obtain ⟨stack₂, formula₂, he₂, hset₂⟩ := hr
  refine ⟨stack₂, formula₂, ?_, ?_⟩
  · simp only [List.append_assoc, List.cons_append, he₁, operator, hop, hset₁, he₂]
  · intro looser hn
    rw [hset₂ looser (Nat.le_trans ht hn)]
    simp only [settle, hop, hn, ↓reduceIte]

theorem Derives.leadsTo {level : Level} {row : List Token} {formula : Formula}
    (h : Derives level row formula) (stack : List Frame) (rest : List Token)
    (hs : Ready level stack) (hr : Ended rest) : LeadsTo level stack row rest formula := by
  induction h generalizing stack rest with
  | number hn hd =>
    apply LeadsTo.of_eq
    rw [List.singleton_append, operand_word hr, wordFormula, if_pos hd]
  | read hv =>
    apply LeadsTo.of_eq
    rw [List.singleton_append, operand_word hr, wordFormula_read hv]
  | call hv =>
    apply LeadsTo.of_eq
    simp [Formula.operand]
  | transfer _ ih =>
    obtain ⟨stack', formula', he, hset⟩ :=
      (ih (.transfer :: stack) (.closing :: rest) trivial (ended_closing rest)).settled trivial
    apply LeadsTo.of_eq
    simp only [List.append_assoc, List.cons_append, List.nil_append, operand, he, operator, hset]
  | parens _ ih =>
    obtain ⟨stack', formula', he, hset⟩ :=
      (ih (.parens :: stack) (.closing :: rest) trivial (ended_closing rest)).settled trivial
    apply LeadsTo.of_eq
    simp only [List.append_assoc, List.cons_append, List.nil_append, operand, he, operator, hset]
  | ofPrimary _ ih => exact (ih stack rest trivial hr).loosen (Nat.zero_le _)
  | negate _ ih =>
    obtain ⟨stack', formula', he, hset⟩ := ih (.negate :: stack) rest trivial hr
    refine ⟨stack', formula', ?_, ?_⟩
    · simp only [List.cons_append, operand, he]
    · intro looser hl
      rw [hset looser hl, settle]
  | ofUnary _ ih => exact (ih stack rest trivial hr).loosen (by decide)
  | ofProduct _ ih => exact (ih stack rest hs.product hr).loosen (by decide)
  | product hop _ _ ihl ihr =>
    apply LeadsTo.binary hop hs (ihl stack _ hs (ended_sign _ _))
    · exact ihr _ rest trivial hr
    · decide
  | @sum before after left right sign hop _ _ ihl ihr =>
    have hready : Ready .product (.left left sign :: stack) := by
      simp [Ready, Settled, hop, Level.rank]
    apply LeadsTo.binary hop hs (ihl stack _ hs (ended_sign _ _))
    · exact ihr _ rest hready hr
    · decide

/-- The reader finds every expression of the grammar. -/
theorem Derives.reads {row : List Token} {formula : Formula} (h : Derives .sum row formula) :
    operand [] row = some formula := by
  obtain ⟨stack, formula', he, hset⟩ := (h.leadsTo [] [] trivial (by simp [Ended])).settled trivial
  rw [List.append_nil] at he
  rw [he, operator, hset]

theorem Derives.unique {row : List Token} {formula other : Formula} (h : Derives .sum row formula)
    (h' : Derives .sum row other) : formula = other :=
  Option.some.inj (h.reads.symm.trans h'.reads)

end Formula

end BlockSketch
