import StyleCascade.Proofs.Engine.Restyling

namespace StyleCascade

namespace Outcome

variable {τ α : Type} {cause : StyleFault}

/-- The fault of an operation that was refused. -/
def fault? (outcome : Outcome τ α) : Option StyleFault :=
  match outcome.result with
  | .ok _ => none
  | .error cause => some cause

theorem fault?_eq_some_iff {outcome : Outcome τ α} :
    outcome.fault? = some cause ↔ outcome.result = .error cause := by
  unfold fault?
  cases outcome.result <;> simp

/-- What looks first whether a pass is running, and succeeds if not, is only refused during a pass;
then the state is the old one. -/
theorem refused_during_pass {running : Bool} {before : τ} {done : Outcome τ α} {value : α}
    (succeeds : done.result = .ok value)
    (refused : (if running then ⟨.error .reentrant, before, []⟩ else done :
      Outcome τ α).fault? = some cause) :
    (if running then ⟨.error .reentrant, before, []⟩ else done : Outcome τ α).state = before ∧
      running = true ∧ cause = .reentrant := by
  rw [fault?_eq_some_iff] at refused
  cases running with
  | true =>
    cases refused
    exact ⟨rfl, rfl, rfl⟩
  | false =>
    have impossible : Except.ok value = .error cause := succeeds.symm.trans refused
    cases impossible

end Outcome

variable {σ : Type}

namespace Engine

variable {engine : Engine σ} {held : Held} {doc : Document} {styled : Styled} {cause : StyleFault}

/-- A refused request has changed nothing, and it is refused for one of two reasons. -/
theorem restyle_refused {node : Nat}
    (refused : (engine.restyle held doc styled node).fault? = some cause) :
    (engine.restyle held doc styled node).state = (engine, styled) ∧
      (doc.contains node = false ∧ cause = .unknownNode node ∨
        engine.running = true ∧ cause = .reentrant) := by
  unfold restyle at refused ⊢
  cases known : doc.contains node with
  | false =>
    rw [known] at refused
    cases refused
    exact ⟨rfl, .inl ⟨rfl, rfl⟩⟩
  | true =>
    rw [known] at refused
    obtain ⟨stays, duringPass⟩ := Outcome.refused_during_pass rfl refused
    exact ⟨stays, .inr duringPass⟩

/-- A new state is written before restyling looks whether a pass is running. -/
theorem setNodeState_refused {node : Nat} {state : NodeState}
    (refused : (engine.setNodeState held doc styled node state).fault? = some cause) :
    ((engine.setNodeState held doc styled node state).state = (engine, doc, styled) ∧
        doc.contains node = false ∧ cause = .unknownNode node) ∨
      ∃ changed, doc.setState? node state = some changed ∧ doc.state node ≠ state ∧
        (engine.setNodeState held doc styled node state).state = (engine, changed, styled) ∧
        engine.running = true ∧ cause = .reentrant := by
  unfold setNodeState at refused ⊢
  cases written : doc.setState? node state with
  | none =>
    rw [written] at refused
    cases refused
    exact .inl ⟨rfl, by simpa [Document.setState?] using written, rfl⟩
  | some changed =>
    simp only [written] at refused ⊢
    by_cases same : doc.state node = state
    · rw [if_pos same] at refused
      cases refused
    · rw [if_neg same] at refused ⊢
      have alters := Document.alters_setState written
      have known : changed.contains node = true :=
        Document.contains_iff.mpr (alters.size ▸ alters.1)
      obtain ⟨stays, unknown | duringPass⟩ := restyle_refused refused
      · rw [known] at unknown
        cases unknown.1
      · exact .inr ⟨changed, rfl, same, by rw [stays], duringPass⟩

end Engine

/-- What the holder of a styled document asks of its engine. -/
inductive Request
  | addSheet (sheet : SheetId) (source : List UInt8)
  | removeSheet (sheet : SheetId)
  | styleDocument
  | restyle (node : Nat)
  | setNodeState (node : Nat) (state : NodeState)
  | purge

namespace Session

/-- Makes a request, while some records are held elsewhere: its fault, and what is there behind
it. -/
def request (held : Held) (session : Session σ) : Request → Option StyleFault × Session σ
  | .addSheet sheet source =>
    let outcome := session.engine.addSheet sheet source
    (outcome.fault?, { session with engine := outcome.state })
  | .removeSheet sheet =>
    let outcome := session.engine.removeSheet sheet
    (outcome.fault?, { session with engine := outcome.state })
  | .styleDocument =>
    let outcome := session.engine.styleDocument (held ++ session.styled.held) session.doc
    (outcome.fault?, ⟨outcome.state, session.doc, outcome.result.toOption.getD session.styled⟩)
  | .restyle node =>
    let outcome := session.engine.restyle held session.doc session.styled node
    (outcome.fault?, ⟨outcome.state.1, session.doc, outcome.state.2⟩)
  | .setNodeState node state =>
    let outcome := session.engine.setNodeState held session.doc session.styled node state
    (outcome.fault?, ⟨outcome.state.1, outcome.state.2.1, outcome.state.2.2⟩)
  | .purge =>
    let outcome := session.engine.purge (held ++ session.styled.held)
    (outcome.fault?, { session with engine := outcome.state })

variable {held : Held} {session : Session σ} {request : Request} {cause : StyleFault}

/-- A refused request leaves everything as it was, unless it is for the state of a node and comes
during a pass; then the document has the new state. -/
theorem request_refused (refused : (session.request held request).1 = some cause) :
    (session.request held request).2 = session ∨
      ∃ node state changed, request = .setNodeState node state ∧
        session.doc.setState? node state = some changed ∧ session.doc.state node ≠ state ∧
        (session.request held request).2 = { session with doc := changed } ∧
        session.engine.running = true ∧ cause = .reentrant := by
  cases request with
  | addSheet | removeSheet | purge =>
    obtain ⟨stays, _⟩ := Outcome.refused_during_pass rfl refused
    exact .inl (congrArg (fun engine => { session with engine := engine }) stays)
  | styleDocument =>
    have result := Outcome.fault?_eq_some_iff.mp refused
    obtain ⟨stays, _⟩ := Outcome.refused_during_pass rfl refused
    refine .inl ?_
    simp only [Session.request, result]
    exact congrArg (fun engine => { session with engine := engine }) stays
  | restyle node =>
    obtain ⟨stays, _⟩ := Engine.restyle_refused refused
    exact .inl (by simp only [Session.request, stays])
  | setNodeState node state =>
    rcases Engine.setNodeState_refused refused with ⟨stays, _⟩ | ⟨changed, written, other, left, during⟩
    · exact .inl (by simp only [Session.request, stays])
    · refine .inr ⟨node, state, changed, rfl, written, other, ?_, during⟩
      simp only [Session.request, left]

/-- Purging during a pass. -/
theorem request_refused_purge :
    let session : Session Unit :=
      ⟨(Engine.new .screen .plain ()).inPass, Document.empty.addElement none "p", .empty⟩
    (session.request [] .purge).1 = some .reentrant ∧ (session.request [] .purge).2 = session := by
  intro session
  have refused : (session.request [] .purge).1 = some .reentrant := by decide +kernel
  refine ⟨refused, ?_⟩
  rcases request_refused refused with stays | ⟨node, state, changed, other, _⟩
  · exact stays
  · cases other

/-- A paragraph is hovered over while its engine styles something else. -/
theorem request_refused_hover :
    let session : Session Unit :=
      ⟨(Engine.new .screen .plain ()).inPass, Document.empty.addElement none "p", .empty⟩
    let hovered := session.request [] (.setNodeState 0 (.ofNames ["hover"]))
    hovered.1 = some .reentrant ∧ hovered.2.doc ≠ session.doc ∧
      hovered.2.doc.state 0 = .ofNames ["hover"] := by
  decide +kernel

end Session

end StyleCascade
