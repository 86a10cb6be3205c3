import BlockSketch.Proofs.Evaluation.Pass
import BlockSketch.Proofs.Names.Fresh
import BlockSketch.Proofs.Statement

namespace BlockSketch

theorem Draft.addHelper_eq {draft : Draft} {wanted : String} (h : draft.helpers.get? wanted = none)
    (code : String) :
    draft.addHelper wanted code =
      (Identifier.fresh wanted draft.taken,
        { draft with
          helpers := draft.helpers ++ [(wanted, ⟨Identifier.fresh wanted draft.taken,
            Text.substitute namePlaceholder (Identifier.fresh wanted draft.taken) code⟩)]
          taken := addName (Identifier.fresh wanted draft.taken) draft.taken }) := by
  simp only [addHelper, h]
  rw [Table.put_of_missing h]

namespace Bus

/-- Which statements are transfers whose answer is not yet kept. -/
def transfers (statements : Sequence) : Nat :=
  statements.count (Statement.isCallTo "SPI.transfer")

/-- Given statements are all that the block looks at, apart from its pin and its location. -/
theorem code_of_given {block : Block} {pin : String} (hk : block.kind = "spi_transfer_return")
    (hp : selectPin? block = some pin) (statements : Sequence) :
    block.code (Registry.standard.supplied (.given statements)) =
      answerFromHelper block.location pin statements := by
  have hfind : (Registry.standard.supplied (.given statements)).find block.kind =
      .ok (.transferAnswer (.given statements)) := by rw [hk]; rfl
  rw [Block.code_unfold, hfind]
  change answerOf block _ statements = _
  rw [answerOf, hp]

theorem answerFromHelper_of_miscount {statements : Sequence} (h : transfers statements ≠ 1)
    (location pin : String) (draft : Draft) :
    answerFromHelper location pin statements draft =
      .error (.transferCount location (transfers statements)) draft := by
  unfold answerFromHelper
  rw [Sequence.exchange_eq]
  exact congrFun (if_neg h) draft

theorem answerFromHelper_of_single {before after : Sequence}
    (h : ∀ other ∈ before ++ after, other.isCallTo transferCallee = false) (arguments : List String)
    (location pin : String) (draft : Draft) :
    answerFromHelper location pin (before ++ .call ⟨transferCallee, arguments⟩ :: after) draft =
      let added := draft.addHelper (helperWish pin) ("\n".intercalate (helperLines
        (before ++ .assign answerName (.call ⟨transferCallee, arguments⟩) :: after)))
      .ok (.value (added.1 ++ "()") .postfixUnary) added.2 := by
  have hcall : (Statement.call ⟨transferCallee, arguments⟩).isCallTo transferCallee = true := rfl
  unfold answerFromHelper
  rw [Sequence.exchange_single hcall h]
  rfl

theorem helperLines_capturing (before after : Sequence) (call : Call) :
    helperLines (before ++ .assign answerName (.call call) :: after) =
      ["int %%FUNCTION_NAME%%() \x7b", "  int spiReturn = 0;"] ++
        before.map (fun s => "  " ++ s.render) ++ ["  spiReturn = " ++ call.render ++ ";"] ++
        after.map (fun s => "  " ++ s.render) ++ ["  return spiReturn;", "\x7d"] := by
  have hkept : "  " ++ (Statement.assign answerName (.call call)).render =
      "  spiReturn = " ++ call.render ++ ";" := by
    apply String.toList_injective
    simp [Statement.render, answerName, Source.render]
  simp only [helperLines, Sequence.lines_two, List.cons_append, List.append_assoc, List.map_cons,
    List.map_append, hkept]
  rfl

/-- The lines of a helper for a pin, with its name. -/
def namedLines (name pin data : String) : List String :=
  ["int " ++ name ++ "() \x7b",
    "  int spiReturn = 0;",
    "  digitalWrite(" ++ pin ++ ", HIGH);",
    "  spiReturn = SPI.transfer(" ++ data ++ ");",
    "  digitalWrite(" ++ pin ++ ", LOW);",
    "  return spiReturn;",
    "\x7d"]

theorem helperLines_answer (pin data : String) :
    helperLines (answerSequence pin data) = namedLines Draft.namePlaceholder pin data := by
  have hswitch (level : String) : "  " ++ (switchPin pin level).render =
      "  digitalWrite(" ++ pin ++ (", " ++ level ++ ");") := by
    rw [render_switchPin]
    apply String.toList_injective
    simp
  have hcall : "  spiReturn = " ++ (transferCall data).render ++ ";" =
      "  spiReturn = SPI.transfer(" ++ data ++ ");" := by
    rw [render_transferCall]
    apply String.toList_injective
    simp
  have h := helperLines_capturing [switchPin pin "HIGH"] [switchPin pin "LOW"] (transferCall data)
  simp only [List.map_cons, List.map_nil, hswitch, hcall] at h
  exact h

/-- Unless exactly one of the given statements is a call of the transfer, the draft stays as it was.
Otherwise the helper for the pin, if there is none yet, keeps the answer where the call stood. -/
theorem answer_from_given {block : Block} {pin : String} (hk : block.kind = "spi_transfer_return")
    (hp : block.field? "SPI_SS" = some pin) (hn : pin ≠ "none") (statements : Sequence)
    (draft : Draft) :
    (transfers statements ≠ 1 → ∃ fault,
      block.code (Registry.standard.supplied (.given statements)) draft = .error fault draft ∧
      fault.category = .brokenPromise ∧
      fault.message = "Expected exactly one SPI.transfer call in " ++ Text.quoted block.location ++
        ", found " ++ toString (transfers statements)) ∧
    (transfers statements = 1 → ∃ before arguments after,
      statements = before ++ .call ⟨"SPI.transfer", arguments⟩ :: after ∧
      transfers before = 0 ∧ transfers after = 0 ∧
      (∀ helper, draft.helpers.get? ("spiReturnSlave" ++ pin) = some helper →
        block.code (Registry.standard.supplied (.given statements)) draft =
          .ok (.value (helper.name ++ "()") .postfixUnary) draft) ∧
      (draft.helpers.get? ("spiReturnSlave" ++ pin) = none → ∃ name,
        Identifier.LeastFree ("spiReturnSlave" ++ pin) draft.taken name ∧
        block.code (Registry.standard.supplied (.given statements)) draft =
          .ok (.value (name ++ "()") .postfixUnary)
            { draft with
              helpers := draft.helpers ++ [("spiReturnSlave" ++ pin, ⟨name,
                Text.substitute "%%FUNCTION_NAME%%" name ("\n".intercalate
                  (["int %%FUNCTION_NAME%%() \x7b", "  int spiReturn = 0;"] ++
                    before.map (fun s => "  " ++ s.render) ++
                    ["  spiReturn = " ++ Call.render ⟨"SPI.transfer", arguments⟩ ++ ";"] ++
                    after.map (fun s => "  " ++ s.render) ++ ["  return spiReturn;", "\x7d"]))⟩)]
              taken := Draft.addName name draft.taken })) := by
  rw [code_of_given hk (selectPin?_eq_some.mpr ⟨hp, hn⟩)]
  refine ⟨?_, ?_⟩
  · intro h
    exact ⟨_, answerFromHelper_of_miscount h block.location pin draft, rfl, rfl⟩
  · intro h
    obtain ⟨before, call, after, rfl, hcall, hothers⟩ := Sequence.exists_single h
    obtain ⟨arguments, rfl⟩ := Statement.isCallTo_iff.mp hcall
    have hnone {part : Sequence} (hpart : part ⊆ before ++ after) : transfers part = 0 :=
      List.countP_eq_zero.mpr fun other ho => by simp [hothers other (hpart ho)]
    have hrun := answerFromHelper_of_single hothers arguments block.location pin draft
    rw [helperLines_capturing] at hrun
    refine ⟨before, arguments, after, rfl, hnone (List.subset_append_left _ _),
      hnone (List.subset_append_right _ _), ?_, ?_⟩
    · intro helper hg
      have hknown : draft.helpers.get? (helperWish pin) = some helper := hg
      rw [Draft.addHelper_of_known hknown] at hrun
      exact hrun
    · intro hg
      have hnew : draft.helpers.get? (helperWish pin) = none := hg
      rw [Draft.addHelper_eq hnew] at hrun
      exact ⟨_, Identifier.fresh_leastFree _ _, hrun⟩

def asked : Block := ⟨"spi_transfer_return", "", [("SPI_SS", "8")], [], none⟩

/-- A transfer stored by an assignment, one that is a statement, and another call. -/
def logged : Sequence :=
  [.assign "log" (.call ⟨"SPI.transfer", ["0"]⟩), .call ⟨"SPI.transfer", ["x"]⟩,
    .call ⟨"delay", ["1"]⟩]

theorem logged_answer :
    (∃ fault, asked.code (Registry.standard.supplied (.given [])) (.start .uno) =
        .error fault (.start .uno) ∧
      fault.message =
        "Expected exactly one SPI.transfer call in 'spi_transfer_return', found 0") ∧
    ∃ name, asked.code (Registry.standard.supplied (.given logged)) (.start .uno) =
      .ok (.value (name ++ "()") .postfixUnary)
        { Draft.start .uno with
          helpers := [("spiReturnSlave8", ⟨name, Text.substitute "%%FUNCTION_NAME%%" name
            ("\n".intercalate
              ["int %%FUNCTION_NAME%%() \x7b",
                "  int spiReturn = 0;",
                "  log = SPI.transfer(0);",
                "  spiReturn = SPI.transfer(x);",
                "  delay(1);",
                "  return spiReturn;",
                "\x7d"])⟩)]
          taken := Draft.addName name reservedNames } := by
  have hkind : asked.kind = "spi_transfer_return" := rfl
  have hpin : ("8" : String) ≠ "none" := by decide
  refine ⟨?_, ?_⟩
  · obtain ⟨fault, hrun, -, hmessage⟩ :=
      (answer_from_given hkind rfl hpin [] (.start .uno)).1 (by decide)
    exact ⟨fault, hrun, hmessage⟩
  · obtain ⟨before, arguments, after, he, hbefore, -, -, hnew⟩ :=
      (answer_from_given hkind rfl hpin logged (.start .uno)).2 rfl
    obtain ⟨name, -, hrun⟩ := hnew rfl
    refine ⟨name, hrun.trans ?_⟩
    obtain ⟨first, rfl⟩ : ∃ first, before = [first] := by
      rcases before with _ | ⟨first, _ | ⟨second, rest⟩⟩
      · cases he
      · exact ⟨first, rfl⟩
      · simp only [logged, List.cons_append, List.cons.injEq] at he
        simp [transfers, Sequence.count, ← he.2.1, Statement.isCallTo, List.countP_cons] at hbefore
    cases he
    rfl

end Bus

end BlockSketch
