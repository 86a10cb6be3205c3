import BlockSketch.Proofs.Evaluation.Program

namespace BlockSketch

namespace Board

/-- What transfers use a pin of the board for. -/
def useOf (board : Board) (pin : String) : PinUse :=
  if pin ∈ board.spiPins.map Prod.snd then .spi else .output

/-- What there is to say of a pin that selects a device. -/
def doubts (board : Board) (location pin : String) : List Finding :=
  (if pin ∈ board.digitalPins then []
    else [.unknownPin pin Bus.selectLabel board.name location]) ++
  if board.useOf pin = .output then []
  else [.conflict pin Bus.selectLabel PinUse.output.label (board.useOf pin).label location]

end Board

/-- How many of the findings are of this kind and at this location. -/
def reports (findings : List Finding) (code location : String) : Nat :=
  findings.countP fun finding => finding.code == code && finding.location == location

namespace Board

theorem reports_unknownPin (board : Board) (location pin : String) :
    reports (board.doubts location pin) "UNKNOWN_PIN" location =
      if pin ∈ board.digitalPins then 0 else 1 := by
  unfold reports doubts
  split <;> split <;> simp [Finding.unknownPin, Finding.conflict]

theorem reports_conflict (board : Board) (location pin : String) :
    reports (board.doubts location pin) "PIN_CONFLICT" location =
      if pin ∈ board.spiPins.map Prod.snd then 1 else 0 := by
  unfold reports doubts useOf
  split <;> split <;> simp [Finding.unknownPin, Finding.conflict]

theorem location_of_doubt {board : Board} {location pin : String} {finding : Finding}
    (h : finding ∈ board.doubts location pin) : finding.location = location := by
  unfold doubts at h
  rcases List.mem_append.mp h with h | h
  · split at h
    · cases h
    · rw [List.mem_singleton.mp h]
      rfl
  · split at h
    · cases h
    · rw [List.mem_singleton.mp h]
      rfl

theorem length_doubts (board : Board) (location pin : String) :
    (board.doubts location pin).length ≤ 2 := by
  unfold doubts
  split <;> split <;> simp

end Board

namespace Block

def doubts (board : Board) (block : Block) : List Finding :=
  block.switchedPin?.elim [] (board.doubts block.location)

end Block

namespace Block

theorem reports_elsewhere {board : Board} {block : Block} {location : String}
    (h : block.location ≠ location) (code : String) :
    reports (block.doubts board) code location = 0 := by
  rw [reports, List.countP_eq_zero]
  intro finding hm
  unfold doubts at hm
  cases hp : block.switchedPin? with
  | none => simp [hp] at hm
  | some pin =>
    rw [hp] at hm
    simp [Board.location_of_doubt hm, h]

theorem length_doubts (board : Board) (block : Block) :
    (block.doubts board).length ≤ if block.switchedPin?.isSome then 2 else 0 := by
  unfold doubts
  cases block.switchedPin? with
  | none => exact Nat.le_refl 0
  | some pin => exact board.length_doubts block.location pin

end Block

namespace Draft

/-- Every reservation is for the use that transfers have for the pin. -/
def Consistent (draft : Draft) : Prop :=
  ∀ pin standing, draft.pins.get? pin = some standing → standing.use = draft.board.useOf pin

/-- From a draft to a later one there are these findings more. -/
structure Finds (before : Draft) (findings : List Finding) (after : Draft) : Prop where
  board : after.board = before.board
  found : after.findings = before.findings ++ findings
  consistent : after.Consistent
  reserved : ∀ pin, (before.pins.get? pin).isSome → (after.pins.get? pin).isSome

namespace Finds

theorem of_same_pins {before after : Draft} (h : before.Consistent)
    (hb : after.board = before.board) (hp : after.pins = before.pins)
    (hf : after.findings = before.findings) : before.Finds [] after where
  board := hb
  found := by rw [hf, List.append_nil]
  consistent := by
    intro pin standing hg
    rw [hb]
    exact h pin standing (hp ▸ hg)
  reserved := by simp [hp]

theorem refl {draft : Draft} (h : draft.Consistent) : draft.Finds [] draft :=
  of_same_pins h rfl rfl rfl

theorem trans {a b c : Draft} {first second : List Finding} (hab : a.Finds first b)
    (hbc : b.Finds second c) : a.Finds (first ++ second) c where
  board := hbc.board.trans hab.board
  found := by rw [hbc.found, hab.found, List.append_assoc]
  consistent := hbc.consistent
  reserved pin h := hbc.reserved pin (hab.reserved pin h)

/-- A pin that is not reserved yet may be reserved for its use only. -/
theorem reserve {draft : Draft} (h : draft.Consistent) {pin : String} {use : PinUse}
    (hk : use = draft.board.useOf pin ∨ (draft.pins.get? pin).isSome) (location label : String) :
    draft.Finds
      (if draft.board.useOf pin = use then []
        else [.conflict pin label use.label (draft.board.useOf pin).label location])
      (draft.reserve location pin use label) ∧
    ((draft.reserve location pin use label).pins.get? pin).isSome := by
  unfold Draft.reserve
  cases hg : draft.pins.get? pin with
  | none =>
    have hu : use = draft.board.useOf pin := hk.resolve_right (by simp [hg])
    rw [if_pos hu.symm]
    dsimp only
    rw [Table.put_of_missing hg]
    refine ⟨⟨rfl, by simp, ?_, ?_⟩, by simp [Table.get?_append, Table.get?]⟩
    · intro other standing ho
      rw [Table.get?_append, Option.or_eq_some_iff] at ho
      rcases ho with ho | ⟨-, ho⟩
      · exact h other standing ho
      · simp only [Table.get?, Option.ite_none_right_eq_some, Option.some.injEq] at ho
        obtain ⟨rfl, rfl⟩ := ho
        exact hu
    · intro other ho
      simp [Table.get?_append, ho]
  | some standing =>
    rw [← h pin standing hg]
    by_cases he : standing.use = use
    · simp only [he, ↓reduceIte]
      exact ⟨refl h, by simp [hg]⟩
    · simp only [he, ↓reduceIte]
      exact ⟨⟨rfl, rfl, h, fun _ ho => ho⟩, by simp [hg]⟩

theorem checkPin {draft : Draft} (h : draft.Consistent) (location pin label : String) :
    draft.Finds
      (if pin ∈ draft.board.digitalPins then []
        else [.unknownPin pin label draft.board.name location])
      (draft.checkPin location pin label) := by
  unfold Draft.checkPin
  by_cases hp : pin ∈ draft.board.digitalPins
  · simpa [hp] using refl h
  · simp only [hp, List.contains_eq_mem, decide_false, Bool.false_eq_true, ↓reduceIte]
    exact ⟨rfl, rfl, h, fun _ ho => ho⟩

/-- To reserve the pins of the bus again finds nothing. -/
theorem reserveBus {draft : Draft} (h : draft.Consistent) (location : String)
    {entries : List (String × String)}
    (he : ∀ entry ∈ entries, draft.board.useOf entry.2 = .spi) :
    draft.Finds []
      (entries.foldl (fun draft (part, pin) => draft.reserve location pin .spi ("SPI " ++ part))
        draft) ∧
    ∀ entry ∈ entries, ((entries.foldl
      (fun draft (part, pin) => draft.reserve location pin .spi ("SPI " ++ part))
        draft).pins.get? entry.2).isSome := by
  induction entries generalizing draft with
  | nil => exact ⟨refl h, by simp⟩
  | cons entry rest ih =>
    have hu := he entry List.mem_cons_self
    obtain ⟨hfirst, hreserved⟩ := reserve h (Or.inl hu.symm) location ("SPI " ++ entry.1)
    rw [if_pos hu] at hfirst
    obtain ⟨hrest, hall⟩ := ih hfirst.consistent fun other hm => by
      rw [hfirst.board]
      exact he other (List.mem_cons_of_mem _ hm)
    refine ⟨hfirst.trans hrest, ?_⟩
    intro other hm
    rcases List.mem_cons.mp hm with rfl | hm
    · exact hrest.reserved _ hreserved
    · exact hall other hm

/-- A transfer reserves the pins of the bus ahead of its own, so it is known which of them is on the
bus. -/
theorem prepare {draft : Draft} (h : draft.Consistent) (location : String)
    (pin? : Option String) :
    draft.Finds (pin?.elim [] (draft.board.doubts location)) (Bus.prepare location pin? draft) := by
  have hbegin : draft.Finds [] (Bus.begin (Bus.includeLibrary draft) true) :=
    of_same_pins h rfl rfl rfl
  have huse : ∀ entry ∈ draft.board.spiPins, draft.board.useOf entry.2 = .spi := by
    intro entry hm
    rw [Board.useOf, if_pos (List.mem_map_of_mem hm)]
  obtain ⟨hbus, hreserved⟩ := reserveBus hbegin.consistent location huse
  have hbus : draft.Finds [] (Bus.reservePins location draft) := hbegin.trans hbus
  cases pin? with
  | none => exact hbus
  | some pin =>
    have hcheck := checkPin hbus.consistent location pin Bus.selectLabel
    have hboard := hcheck.board.trans hbus.board
    have hk : .output = draft.board.useOf pin ∨
        ((Bus.reservePins location draft).pins.get? pin).isSome := by
      unfold Board.useOf
      split
      · rename_i hm
        obtain ⟨entry, he, rfl⟩ := List.mem_map.mp hm
        exact Or.inr (hreserved entry he)
      · exact Or.inl rfl
    rw [← hboard] at hk
    obtain ⟨hselect, -⟩ :=
      reserve hcheck.consistent (hk.imp_right (hcheck.reserved pin)) location Bus.selectLabel
    have hsetup : Finds _ [] (Bus.reserveSelect location pin (Bus.reservePins location draft)) :=
      of_same_pins hselect.consistent rfl rfl rfl
    have hall := hbus.trans (hcheck.trans (hselect.trans hsetup))
    rw [hboard, hbus.board] at hall
    simpa [Board.doubts, Bus.prepare] using hall

theorem addHelper {draft : Draft} (h : draft.Consistent) (wanted code : String) :
    draft.Finds [] (draft.addHelper wanted code).2 := by
  unfold Draft.addHelper
  split
  · exact refl h
  · exact of_same_pins h rfl rfl rfl

theorem perform {draft : Draft} (h : draft.Consistent) (block : Block) :
    draft.Finds (block.doubts draft.board) (draft.perform block) := by
  unfold Draft.perform Block.doubts
  rw [Block.switchedPin?_eq]
  cases hr : block.role? with
  | none => exact refl h
  | some role =>
    cases role with
    | number | arithmetic => exact refl h
    | busSetup | variableRead => exact of_same_pins h rfl rfl rfl
    | transfer => exact prepare h block.location _
    | transferAnswer =>
      have hp := prepare h block.location (Bus.selectPin? block)
      cases hs : Bus.selectPin? block with
      | none =>
        rw [hs] at hp
        exact hp
      | some pin =>
        rw [hs] at hp
        simpa using hp.trans (addHelper hp.consistent _ _)

theorem performAll {draft : Draft} (h : draft.Consistent) (blocks : List Block) :
    draft.Finds (blocks.flatMap (Block.doubts draft.board)) (draft.performAll blocks) := by
  induction blocks generalizing draft with
  | nil => exact refl h
  | cons block rest ih =>
    have hb := perform h block
    have hrest := ih hb.consistent
    rw [hb.board] at hrest
    exact hb.trans hrest

theorem addVariables {draft : Draft} (h : draft.Consistent) (blocks : List Block) :
    draft.Finds [] (draft.addVariables blocks) := by
  unfold Draft.addVariables
  induction Block.variablesRead blocks generalizing draft with
  | nil => exact refl h
  | cons name rest ih =>
    have hn : draft.Finds [] (draft.addVariable name) := of_same_pins h rfl rfl rfl
    exact hn.trans (ih hn.consistent)

end Finds

end Draft

namespace Program

/-- Whether a pass comes to its end or not. -/
theorem pass_finds (program : Program) :
    (Draft.start program.board).Finds
      (program.plan.evaluations.flatMap (Block.doubts program.board))
      (Drafting.draftLeft program.pass) := by
  have hempty : (Draft.start program.board).Consistent := by
    intro pin standing hg
    simp [Draft.start, Table.get?] at hg
  have hfirst := Draft.Finds.addVariables hempty program.blocks
  have hpass := Draft.Finds.performAll hfirst.consistent program.plan.evaluations
  rw [hfirst.board] at hpass
  rw [pass_eq, Plan.draftLeft_outcome]
  exact hfirst.trans hpass

theorem pass_findings (program : Program) :
    (Drafting.draftLeft program.pass).findings =
      program.plan.evaluations.flatMap (Block.doubts program.board) :=
  program.pass_finds.found

end Program

end BlockSketch
