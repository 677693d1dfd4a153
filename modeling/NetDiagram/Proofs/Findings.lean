import Mathlib.Tactic.Lemma
import NetDiagram.Flow.Fault

/-!
# The kinds of faults and notices

The labels and hints of a finding do not change its kind, so that the kind of a fault or a notice
can be read off its constructor.  Nor do they change its message or its severity, and a label is
added only where there is a place for it.
-/

namespace NetDiagram

/-- A code can be read back from its name. -/
lemma Code.ofName?_name (c : Code) : ofName? c.name = some c := by
  cases c <;> rfl

lemma Code.name_inj {c c' : Code} : c.name = c'.name ↔ c = c' := by
  constructor
  · intro h
    have hback := congrArg ofName? h
    rwa [ofName?_name, ofName?_name, Option.some.injEq] at hback
  · exact congrArg name

namespace Diagnostic

@[simp] lemma code_ofCode (code : Code) (message : String) :
    (ofCode code message).code = some code := rfl

@[simp] lemma code_mark (x : Diagnostic) (span : Option Span) (message : String) :
    (x.mark span message).code = x.code := by
  cases span <;> rfl

@[simp] lemma code_alsoMark (x : Diagnostic) (span : Option Span) (message : String) :
    (x.alsoMark span message).code = x.code := by
  cases span <;> rfl

@[simp] lemma code_hint (x : Diagnostic) (help : String) : (x.hint help).code = x.code := rfl

@[simp] lemma message_ofCode (code : Code) (message : String) :
    (ofCode code message).message = message := rfl

@[simp] lemma message_mark (x : Diagnostic) (span : Option Span) (message : String) :
    (x.mark span message).message = x.message := by
  cases span <;> rfl

@[simp] lemma message_alsoMark (x : Diagnostic) (span : Option Span) (message : String) :
    (x.alsoMark span message).message = x.message := by
  cases span <;> rfl

@[simp] lemma message_hint (x : Diagnostic) (help : String) :
    (x.hint help).message = x.message := rfl

@[simp] lemma labels_ofCode (code : Code) (message : String) :
    (ofCode code message).labels = [] := rfl

@[simp] lemma labels_mark (x : Diagnostic) (span : Option Span) (message : String) :
    (x.mark span message).labels =
      x.labels ++ (span.map fun place => ⟨place, message, true⟩).toList := by
  cases span with
  | none => exact (List.append_nil _).symm
  | some place => rfl

@[simp] lemma labels_alsoMark (x : Diagnostic) (span : Option Span) (message : String) :
    (x.alsoMark span message).labels =
      x.labels ++ (span.map fun place => ⟨place, message, false⟩).toList := by
  cases span with
  | none => exact (List.append_nil _).symm
  | some place => rfl

@[simp] lemma labels_hint (x : Diagnostic) (help : String) : (x.hint help).labels = x.labels := rfl

@[simp] lemma severity_ofCode (code : Code) (message : String) :
    (ofCode code message).severity = code.severity := rfl

@[simp] lemma severity_mark (x : Diagnostic) (span : Option Span) (message : String) :
    (x.mark span message).severity = x.severity := by
  cases span <;> rfl

@[simp] lemma severity_alsoMark (x : Diagnostic) (span : Option Span) (message : String) :
    (x.alsoMark span message).severity = x.severity := by
  cases span <;> rfl

@[simp] lemma severity_hint (x : Diagnostic) (help : String) :
    (x.hint help).severity = x.severity := rfl

end Diagnostic

namespace Flow

/-- The kind of a fault. -/
def Fault.code : Fault → Code
  | noEntrance => .noEntrance
  | noModel => .noModel
  | cyclic _ => .cyclicGraph
  | danglingLink _ _ | linkToValue _ _ | notAnInput _ _ | notARole _ _ => .badConnection
  | inlineInFlow _ _ => .inlineInFlow
  | missingRole _ _ | missingArgument _ _ => .missingArgument
  | danglingReference _ _ _ | badReference _ _ _ => .unresolvedReference
  | cyclicReference _ _ => .cyclicReference

@[simp] theorem Fault.code_diagnostic (fault : Fault) :
    fault.diagnostic.code = some fault.code := by
  cases fault <;> simp [diagnostic, code, connectionDiagnostic, referenceDiagnostic]

/-- The kind of a fault, by the name that is shown. -/
lemma Fault.code_eq_iff {fault : Fault} {c : Code} :
    fault.code = c ↔ fault.diagnostic.code.map Code.name = some c.name := by
  rw [code_diagnostic, Option.map_some, Option.some.injEq, Code.name_inj]

lemma Fault.severity_diagnostic (fault : Fault) :
    fault.diagnostic.severity = fault.code.severity := by
  cases fault <;> simp [diagnostic, code, connectionDiagnostic, referenceDiagnostic]

/-- The kind of a notice. -/
def Notice.code : Notice → Code
  | unusedLayer _ => .unusedLayer
  | unreleasedModel _ _ => .unreleasedModel
  | forwardReference _ _ _ => .forwardReference
  | coveredFile _ => .coveredFile

@[simp] theorem Notice.code_diagnostic (notice : Notice) :
    notice.diagnostic.code = some notice.code := by
  cases notice <;> simp [diagnostic, code]

/-- The kind of a notice, by the name that is shown. -/
lemma Notice.code_eq_iff {notice : Notice} {c : Code} :
    notice.code = c ↔ notice.diagnostic.code.map Code.name = some c.name := by
  rw [code_diagnostic, Option.map_some, Option.some.injEq, Code.name_inj]

lemma Notice.severity_diagnostic (notice : Notice) :
    notice.diagnostic.severity = notice.code.severity := by
  cases notice <;> simp [diagnostic, code]

end Flow

end NetDiagram
