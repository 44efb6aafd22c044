import MixedCalculator.Evaluation.Basic
import MixedCalculator.Proofs.Outcome

namespace MixedCalculator

/-!
# Reading one member

Reading a member either moves an evaluation on or refuses it.  `Reads` and `Refuses` say once
in which cases it does what, over any arithmetic.  What holds of whole evaluations is derived
from them, not from the code of a step.
-/

variable {Value : Type} {arithmetic : Arithmetic Value}

theorem Operator.eq_ofSign {op : Operator} {sign : Sign} (isSign : op.sign? = some sign) :
    op = .ofSign sign := by
  cases op <;> cases isSign <;> rfl

namespace Evaluation

/-- Reading a member moves an evaluation on. -/
inductive Reads (arithmetic : Arithmetic Value) :
    Progress Value -> Member -> Progress Value -> Prop
  | first {position sum number product} :
      arithmetic.ofMixed number = .ok product ->
      Reads arithmetic ⟨position, sum, .opening⟩ (.number number)
        ⟨position + 1, sum, .term .positive product⟩
  | leading {position sum} (sign : Sign) :
      Reads arithmetic ⟨position, sum, .opening⟩ (.operator (.ofSign sign))
        ⟨position + 1, sum, .signed sign⟩
  | begun {position sum sign number product} :
      arithmetic.ofMixed number = .ok product ->
      Reads arithmetic ⟨position, sum, .signed sign⟩ (.number number)
        ⟨position + 1, sum, .term sign product⟩
  | added {position sum sign product total} (next : Sign) :
      arithmetic.apply (.ofSign sign) sum product = .ok total ->
      Reads arithmetic ⟨position, sum, .term sign product⟩ (.operator (.ofSign next))
        ⟨position + 1, total, .signed next⟩
  | continued {position sum sign product op} :
      op.sign? = none ->
      Reads arithmetic ⟨position, sum, .term sign product⟩ (.operator op)
        ⟨position + 1, sum, .factor sign product op⟩
  | applied {position sum sign product op number operand result} :
      arithmetic.ofMixed number = .ok operand ->
      arithmetic.apply op product operand = .ok result ->
      Reads arithmetic ⟨position, sum, .factor sign product op⟩ (.number number)
        ⟨position + 1, sum, .term sign result⟩

/-- Reading a member refuses an evaluation.  The first four cases break the grammar, the
others concern a value.  A finished term is added before the member after it is judged. -/
inductive Refuses (arithmetic : Arithmetic Value) :
    Progress Value -> Member -> Fault -> Prop
  | unsigned {position sum op} :
      op.sign? = none ->
      Refuses arithmetic ⟨position, sum, .opening⟩ (.operator op) (.unexpectedOperator position op)
  | afterSign {position sum sign op} :
      Refuses arithmetic ⟨position, sum, .signed sign⟩ (.operator op) (.numberExpected position)
  | afterOperator {position sum sign product before op} :
      Refuses arithmetic ⟨position, sum, .factor sign product before⟩ (.operator op)
        (.numberExpected position)
  | afterNumber {position sum sign product total number} :
      arithmetic.apply (.ofSign sign) sum product = .ok total ->
      Refuses arithmetic ⟨position, sum, .term sign product⟩ (.number number)
        (.operatorExpected position)
  | total {position sum sign product member fault} :
      arithmetic.apply (.ofSign sign) sum product = .error fault ->
      Refuses arithmetic ⟨position, sum, .term sign product⟩ member fault
  | first {position sum number fault} :
      arithmetic.ofMixed number = .error fault ->
      Refuses arithmetic ⟨position, sum, .opening⟩ (.number number) fault
  | begun {position sum sign number fault} :
      arithmetic.ofMixed number = .error fault ->
      Refuses arithmetic ⟨position, sum, .signed sign⟩ (.number number) fault
  | operand {position sum sign product op number fault} :
      arithmetic.ofMixed number = .error fault ->
      Refuses arithmetic ⟨position, sum, .factor sign product op⟩ (.number number) fault
  | applied {position sum sign product op number operand fault} :
      arithmetic.ofMixed number = .ok operand ->
      arithmetic.apply op product operand = .error fault ->
      Refuses arithmetic ⟨position, sum, .factor sign product op⟩ (.number number) fault

theorem outcome_addTerm (arithmetic : Arithmetic Value) (sum : Value) (sign : Sign)
    (product : Value) :
    (addTerm arithmetic sum sign product).outcome =
      arithmetic.apply (.ofSign sign) sum product := by
  simp only [addTerm, Traced.outcome_bind, Traced.outcome_silently, Traced.outcome_emit]
  cases arithmetic.apply (.ofSign sign) sum product <;> rfl

theorem outcome_applyFactor (arithmetic : Arithmetic Value) (product : Value) (op : Operator)
    (number : MixedNumber) :
    (applyFactor arithmetic product op number).outcome =
      (arithmetic.ofMixed number).bind (arithmetic.apply op product) := by
  simp only [applyFactor, Traced.outcome_bind, Traced.outcome_silently, Traced.outcome_emit]
  cases arithmetic.ofMixed number with
  | error fault => rfl
  | ok operand =>
      simp only [Except.bind]
      cases arithmetic.apply op product operand <;> rfl

theorem reads_of_step {progress next : Progress Value} {member : Member}
    (read : (step arithmetic progress member).outcome = .ok next) :
    Reads arithmetic progress member next := by
  rcases progress with ⟨position, sum, phase⟩
  cases phase with
  | opening =>
      cases member with
      | number number =>
          simp only [step, Traced.outcome_bind, Traced.outcome_silently] at read
          rcases Except.bind_eq_ok_iff.mp read with ⟨product, converted, same⟩
          cases same
          exact .first converted
      | operator op =>
          cases isSign : op.sign? with
          | none =>
              simp only [step, isSign] at read
              cases read
          | some sign =>
              simp only [step, isSign] at read
              cases read
              rw [Operator.eq_ofSign isSign]
              exact .leading sign
  | signed sign =>
      cases member with
      | number number =>
          simp only [step, Traced.outcome_bind, Traced.outcome_silently] at read
          rcases Except.bind_eq_ok_iff.mp read with ⟨product, converted, same⟩
          cases same
          exact .begun converted
      | operator op => cases read
  | term sign product =>
      cases member with
      | number number =>
          simp only [step, Traced.outcome_bind] at read
          rcases Except.bind_eq_ok_iff.mp read with ⟨total, added, impossible⟩
          cases impossible
      | operator op =>
          cases isSign : op.sign? with
          | none =>
              simp only [step, isSign] at read
              cases read
              exact .continued isSign
          | some next =>
              simp only [step, isSign, Traced.outcome_bind, outcome_addTerm] at read
              rcases Except.bind_eq_ok_iff.mp read with ⟨total, added, same⟩
              cases same
              rw [Operator.eq_ofSign isSign]
              exact .added next added
  | factor sign product op =>
      cases member with
      | number number =>
          simp only [step, Traced.outcome_bind, outcome_applyFactor] at read
          rcases Except.bind_eq_ok_iff.mp read with ⟨result, applied, same⟩
          rcases Except.bind_eq_ok_iff.mp applied with ⟨operand, converted, computed⟩
          cases same
          exact .applied converted computed
      | operator op => cases read

theorem refuses_of_step {progress : Progress Value} {member : Member} {fault : Fault}
    (refused : (step arithmetic progress member).outcome = .error fault) :
    Refuses arithmetic progress member fault := by
  rcases progress with ⟨position, sum, phase⟩
  cases phase with
  | opening =>
      cases member with
      | number number =>
          simp only [step, Traced.outcome_bind, Traced.outcome_silently] at refused
          rcases Except.bind_eq_error_iff.mp refused with failed | ⟨_, _, impossible⟩
          · exact .first failed
          · cases impossible
      | operator op =>
          cases isSign : op.sign? with
          | none =>
              simp only [step, isSign] at refused
              cases refused
              exact .unsigned isSign
          | some sign =>
              simp only [step, isSign] at refused
              cases refused
  | signed sign =>
      cases member with
      | number number =>
          simp only [step, Traced.outcome_bind, Traced.outcome_silently] at refused
          rcases Except.bind_eq_error_iff.mp refused with failed | ⟨_, _, impossible⟩
          · exact .begun failed
          · cases impossible
      | operator op =>
          cases refused
          exact .afterSign
  | term sign product =>
      cases member with
      | number number =>
          simp only [step, Traced.outcome_bind, outcome_addTerm] at refused
          rcases Except.bind_eq_error_iff.mp refused with failed | ⟨total, added, same⟩
          · exact .total failed
          · cases same
            exact .afterNumber added
      | operator op =>
          cases isSign : op.sign? with
          | none =>
              simp only [step, isSign] at refused
              cases refused
          | some next =>
              simp only [step, isSign, Traced.outcome_bind, outcome_addTerm] at refused
              rcases Except.bind_eq_error_iff.mp refused with failed | ⟨_, _, impossible⟩
              · exact .total failed
              · cases impossible
  | factor sign product op =>
      cases member with
      | number number =>
          simp only [step, Traced.outcome_bind, outcome_applyFactor] at refused
          rcases Except.bind_eq_error_iff.mp refused with failed | ⟨_, _, impossible⟩
          · rcases Except.bind_eq_error_iff.mp failed with failed | ⟨operand, converted, failed⟩
            · exact .operand failed
            · exact .applied converted failed
          · cases impossible
      | operator op =>
          cases refused
          exact .afterOperator

end Evaluation

end MixedCalculator
