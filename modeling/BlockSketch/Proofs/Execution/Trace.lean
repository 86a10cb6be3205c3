import BlockSketch.Proofs.Calls.Meaning
import BlockSketch.Proofs.Names.Capture

namespace BlockSketch

inductive Event
  | switched (pin level : String)
  /-- A byte goes over the bus, and one comes back. -/
  | exchanged
  deriving DecidableEq

/-- The third list has the entries of the first two, each two in the order that they had. -/
inductive Interleaved {α : Type} : List α → List α → List α → Prop
  | nil : Interleaved [] [] []
  | left {first : α} {as bs cs : List α} : Interleaved as bs cs →
    Interleaved (first :: as) bs (first :: cs)
  | right {first : α} {as bs cs : List α} : Interleaved as bs cs →
    Interleaved as (first :: bs) (first :: cs)

namespace Interleaved

theorem mem_iff {α : Type} {as bs cs : List α} (h : Interleaved as bs cs) {a : α} :
    a ∈ cs ↔ a ∈ as ∨ a ∈ bs := by
  induction h with
  | nil => simp
  | left _ ih => simp only [List.mem_cons, ih, or_assoc]
  | right _ ih => simp only [List.mem_cons, ih, or_left_comm]

theorem append {α : Type} (as bs : List α) : Interleaved as bs (as ++ bs) := by
  induction as with
  | nil =>
    induction bs with
    | nil => exact .nil
    | cons _ _ ih => exact .right ih
  | cons _ _ ih => exact .left ih

end Interleaved

/-- The events of a call, where evaluating what is sent causes events of its own. What is sent is
evaluated before it is sent. -/
def Call.caused (sent : List Event) : Call → List Event
  | ⟨"digitalWrite", [pin, level]⟩ => [.switched pin level]
  | ⟨"SPI.transfer", [_]⟩ => sent ++ [.exchanged]
  | _ => []

def Statement.caused (sent : List Event) : Statement → List Event
  | call c | assign _ (.call c) => c.caused sent
  | _ => []

/-- The events of statements that run in their order. -/
def Sequence.caused (sent : List Event) (statements : Sequence) : List Event :=
  statements.flatMap (Statement.caused sent)

/-- A function of the sketch: its statements, and the expression whose value they send. -/
structure Routine where
  name : String
  body : Sequence
  data : Formula

/-- The function as it stands in a draft. -/
def Routine.helper (routine : Routine) : Helper :=
  ⟨routine.name, Text.substitute Draft.namePlaceholder routine.name ("\n".intercalate
    (["int " ++ Draft.namePlaceholder ++ "() \x7b"] ++ routine.body.lines 2 ++ ["\x7d"]))⟩

namespace Formula

/-- The events that evaluating an expression causes. Those of one call stay together; otherwise the
operands of an operator may be evaluated in any order, also by turns. -/
inductive Causes (routines : List Routine) : Formula → List (List Event) → Prop
  | number {digits : String} : Causes routines (.number digits) []
  | read {name : String} : Causes routines (.read name) []
  | call {routine : Routine} {sent : List (List Event)} : routine ∈ routines →
    Causes routines routine.data sent →
    Causes routines (.call routine.name) [routine.body.caused sent.flatten]
  | transfer {data : Formula} {sent : List (List Event)} : Causes routines data sent →
    Causes routines (.transfer data) (sent ++ [[.exchanged]])
  | negate {operand : Formula} {events : List (List Event)} : Causes routines operand events →
    Causes routines (.negate operand) events
  | binary {operator : Operator} {left right : Formula} {first second events : List (List Event)} :
    Causes routines left first → Causes routines right second → Interleaved first second events →
    Causes routines (.binary operator left right) events

/-- Nothing in the expression is a transfer or a call. -/
def Quiet : Formula → Prop
  | number _ | read _ => True
  | call _ | transfer _ => False
  | negate operand => operand.Quiet
  | binary _ left right => left.Quiet ∧ right.Quiet

theorem quiet_ofNumeral (text : String) : (ofNumeral text).Quiet := by
  unfold ofNumeral
  split <;> trivial

theorem Causes.of_quiet {routines : List Routine} {formula : Formula} {events : List (List Event)}
    (h : Causes routines formula events) (hq : formula.Quiet) : events = [] := by
  induction h with
  | number | read => rfl
  | call | transfer => exact hq.elim
  | negate _ ih => exact ih hq
  | binary _ _ hi ihl ihr =>
    obtain ⟨hl, hr⟩ := hq
    rw [ihl hl, ihr hr] at hi
    cases hi
    rfl

/-- Where every routine makes an exchange, an expression makes one unless it is quiet. -/
theorem Causes.exchanges {routines : List Routine} {formula : Formula}
    {events : List (List Event)} (h : Causes routines formula events)
    (hr : ∀ routine ∈ routines, ∀ sent, Event.exchanged ∈ routine.body.caused sent)
    (hq : ¬ formula.Quiet) : Event.exchanged ∈ events.flatten := by
  induction h with
  | number | read => exact absurd trivial hq
  | call hm => simp [hr _ hm]
  | transfer => simp
  | negate _ ih => exact ih hq
  | @binary _ left _ _ _ _ _ _ hi ihl ihr =>
    -- The operand that is not quiet makes the exchange.
    rw [List.mem_flatten]
    by_cases hl : left.Quiet
    · obtain ⟨events, hm, he⟩ := List.mem_flatten.mp (ihr fun hright => hq ⟨hl, hright⟩)
      exact ⟨events, hi.mem_iff.mpr (Or.inr hm), he⟩
    · obtain ⟨events, hm, he⟩ := List.mem_flatten.mp (ihl hl)
      exact ⟨events, hi.mem_iff.mpr (Or.inl hm), he⟩

theorem exists_causes {routines : List Routine} {formula : Formula}
    (h : ∀ name ∈ formula.calledNames, ∃ routine ∈ routines, routine.name = name ∧
      ∃ sent, Causes routines routine.data sent) : ∃ events, Causes routines formula events := by
  induction formula with
  | number | read => exact ⟨[], by constructor⟩
  | call name =>
    obtain ⟨routine, hm, rfl, sent, hs⟩ := h name (List.mem_singleton_self name)
    exact ⟨_, .call hm hs⟩
  | transfer data ih =>
    obtain ⟨sent, hs⟩ := ih h
    exact ⟨_, .transfer hs⟩
  | negate operand ih =>
    obtain ⟨events, he⟩ := ih h
    exact ⟨_, .negate he⟩
  | binary operator left right ihl ihr =>
    obtain ⟨first, hf⟩ := ihl fun name hm => h name (List.mem_append_left _ hm)
    obtain ⟨second, hs⟩ := ihr fun name hm => h name (List.mem_append_right _ hm)
    exact ⟨_, .binary hf hs (.append first second)⟩

end Formula

namespace Bus

theorem caused_transferSequence (pin data : String) (sent : List Event) :
    (transferSequence (some pin) data).caused sent =
      .switched pin "HIGH" :: (sent ++ [.exchanged] ++ [.switched pin "LOW"]) := by
  simp [transferSequence, Sequence.caused, Statement.caused, switchPin, transferCall,
    transferCallee, Call.caused]

/-- A helper's variable for the answer is nothing that a device sees. -/
theorem caused_helperBody (pin data : String) (sent : List Event) :
    (helperBody pin data).caused sent =
      .switched pin "HIGH" :: (sent ++ [.exchanged] ++ [.switched pin "LOW"]) := by
  simp [helperBody, answerSequence, Sequence.caused, Statement.caused, switchPin, transferCall,
    transferCallee, Call.caused]

end Bus

end BlockSketch
