import BlockSketch.Proofs.Evaluation.Outcome

namespace BlockSketch.Draft

/-- One registration. -/
inductive Step (draft : Draft) : Draft → Prop
  | addInclude (key code : String) : Step draft (draft.addInclude key code)
  | addSetup (key code : String) (runFirst : Bool) : Step draft (draft.addSetup key code runFirst)
  | addVariable (name : String) : Step draft (draft.addVariable name)
  | addHelper (wanted code : String) : Step draft (draft.addHelper wanted code).2
  | reserve (location pin : String) (use : PinUse) (label : String) :
    Step draft (draft.reserve location pin use label)
  | checkPin (location pin label : String) : Step draft (draft.checkPin location pin label)

inductive Steps (draft : Draft) : Draft → Prop
  | refl : Steps draft draft
  | tail {mid after : Draft} : Steps draft mid → Step mid after → Steps draft after

/-- Drafts that registrations make of an empty one. Starting anew makes an empty one again. -/
def Reachable (draft : Draft) : Prop := ∃ board, Steps (start board) draft

theorem Step.steps {draft after : Draft} (h : Step draft after) : Steps draft after :=
  .tail .refl h

theorem Steps.trans {a b c : Draft} (hab : Steps a b) (hbc : Steps b c) : Steps a c := by
  induction hbc with
  | refl => exact hab
  | tail _ hs ih => exact .tail ih hs

theorem Reachable.start (board : Board) : Reachable (Draft.start board) := ⟨board, .refl⟩

theorem Reachable.steps {draft after : Draft} (h : Reachable draft) (hs : Steps draft after) :
    Reachable after := by
  obtain ⟨board, hb⟩ := h
  exact ⟨board, hb.trans hs⟩

/-- A property of empty drafts that every registration keeps holds of each reachable draft. -/
theorem Reachable.invariant {motive : Draft → Prop} {draft : Draft} (h : Reachable draft)
    (start : ∀ board, motive (Draft.start board))
    (step : ∀ before after, Step before after → motive before → motive after) : motive draft := by
  obtain ⟨board, hs⟩ := h
  induction hs with
  | refl => exact start board
  | tail _ hstep ih => exact step _ _ hstep ih

theorem Steps.foldl {operation : Draft → α → Draft} (h : ∀ draft a, Steps draft (operation draft a))
    (draft : Draft) (list : List α) : Steps draft (list.foldl operation draft) := by
  induction list generalizing draft with
  | nil => exact .refl
  | cons a rest ih => exact (h draft a).trans (ih _)

theorem Steps.addVariables (draft : Draft) (program : List Block) :
    Steps draft (draft.addVariables program) :=
  Steps.foldl (fun _ name => (Step.addVariable name).steps) draft _

theorem Steps.begin (draft : Draft) (runFirst : Bool) :
    Steps draft (Bus.begin (Bus.includeLibrary draft) runFirst) :=
  .tail (.tail .refl (.addInclude _ _)) (.addSetup _ _ _)

theorem Steps.configure (block : Block) (draft : Draft) :
    Steps draft (Bus.configure block draft) := by
  have hi : Steps draft (Bus.includeLibrary draft) := (Step.addInclude _ _).steps
  exact (((hi.tail (.addSetup _ _ _)).tail (.addSetup _ _ _)).tail (.addSetup _ _ _)).tail
    (.addSetup _ _ _)

theorem Steps.prepare (location : String) (pin? : Option String) (draft : Draft) :
    Steps draft (Bus.prepare location pin? draft) := by
  have hb : Steps draft (Bus.reservePins location draft) :=
    (Steps.begin draft true).trans
      (Steps.foldl (fun _ (part, pin) => (Step.reserve location pin .spi ("SPI " ++ part)).steps)
        _ _)
  cases pin? with
  | none => exact hb
  | some pin =>
    exact ((hb.tail (.checkPin _ _ _)).tail (.reserve _ _ _ _)).tail (.addSetup _ _ _)

theorem Steps.perform (draft : Draft) (block : Block) : Steps draft (draft.perform block) := by
  unfold Draft.perform
  split
  · exact Steps.configure block draft
  · exact (Step.addVariable _).steps
  · exact Steps.prepare _ _ draft
  · dsimp only
    have hp := Steps.prepare block.location (Bus.selectPin? block) draft
    split
    · exact hp
    · exact .tail hp (.addHelper _ _)
  · exact .refl

theorem Steps.after (plan : Plan) (draft : Draft) : Steps draft (plan.after draft) :=
  Steps.foldl Steps.perform draft plan.evaluations

end BlockSketch.Draft
