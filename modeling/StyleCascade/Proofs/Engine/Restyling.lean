import StyleCascade.Proofs.Document.Agreement
import StyleCascade.Proofs.Document.Preorder
import StyleCascade.Proofs.Engine.Pass

namespace StyleCascade

variable {σ : Type} {answers : Answers}

namespace Engine

/-- The outline of a node, for hosts that always give the same answers. A text has that of its
parent. -/
def outline? (engine : Engine σ) (answers : Answers) (doc : Document) (node : Nat) :
    Option Record :=
  let above :=
    match doc.parent? node with
    | none => none
    | some older => if older < node then outline? engine answers doc older else none
  if doc.isElement node then
    some (Basis.outline ⟨engine.config, above⟩ answers (engine.setsOf doc node))
  else above
  termination_by node

variable {engine : Engine σ} {doc : Document}

/-- The equation the outlines solve: an element resolves its own declarations below the outline of
its parent, and a text has the outline of its parent. -/
theorem outline?_eq (forest : doc.Forest) (node : Nat) :
    engine.outline? answers doc node =
      if doc.isElement node then
        some (Basis.outline
          ⟨engine.config, (doc.parent? node).bind (engine.outline? answers doc)⟩ answers
          (engine.setsOf doc node))
      else (doc.parent? node).bind (engine.outline? answers doc) := by
  rw [outline?]
  cases under : doc.parent? node with
  | none => rfl
  | some older => simp only [if_pos (forest.parent_lt under), Option.bind_some]

/-- What was shared, and what the hosts did, has no say in outlines. -/
theorem outline?_moved (tables : Tables) (state : σ) (doc : Document) (node : Nat) :
    ({ engine with tables := tables, state := state } : Engine σ).outline? answers doc node =
      engine.outline? answers doc node := by
  induction node using Nat.strongRecOn with
  | _ node ih =>
    rw [outline?, outline?]
    cases doc.parent? node with
    | none => rfl
    | some older =>
      by_cases less : older < node
      · simp only [if_pos less, ih older less]
        rfl
      · simp only [if_neg less]
        rfl

/-- Where documents agree, outlines are the same. -/
theorem outline?_of_agree {inside : Nat → Prop} {one other : Document}
    (agree : one.AgreeOn inside other) {node : Nat} (here : inside node) :
    engine.outline? answers other node = engine.outline? answers one node := by
  induction node using Nat.strongRecOn with
  | _ node ih =>
    have sets : engine.setsOf other node = engine.setsOf one node := by
      have own : Pass.inlineStyle? other node = Pass.inlineStyle? one node := by
        rw [Pass.inlineStyle?, Pass.inlineStyle?, agree.attr? here]
      rw [setsOf, setsOf, own]
      exact Cascade.apply_of_agree agree.tree engine.store here _
    rw [outline?, outline?, agree.isElement here, agree.parent? here, sets]
    cases under : one.parent? node with
    | none => rfl
    | some older =>
      by_cases less : older < node
      · simp only [if_pos less, ih older less (agree.parent_inside here under)]
      · simp only [if_neg less]

/-- A node has the record that the tables show for its outline. -/
def Fits (engine : Engine σ) (answers : Answers) (tables : Tables) (doc : Document)
    (styled : Styled) (node : Nat) : Prop :=
  ∃ record outline, styled.get? node = some record ∧
    engine.outline? answers doc node = some outline ∧ tables.Shows record.value outline

end Engine

namespace Pass

variable {engine : Engine σ} {held : Held} {doc : Document} {start : Tables}

/-- A pass on its way: whatever is not to be styled any more has its record, and what is held beside
the pass has kept its handles since the start. -/
structure Underway (engine : Engine σ) (answers : Answers) (held : Held) (doc : Document)
    (start : Tables) (todo : List Nat) (pass : Pass σ) : Prop where
  backed : Backs engine held pass
  keeps : ∀ record ∈ held.map Handle.value, start.Keeps pass.tables record
  fits : ∀ node < doc.size, node ∉ todo → engine.Fits answers pass.tables doc pass.styled node

/-- A node whose record the pass did not touch still fits, as long as the tables kept what was held.
-/
theorem fits_of_keeps {pass next : Pass σ} {node : Nat}
    (sound : next.tables.Sound)
    (keeps : ∀ record ∈ (held ++ pass.styled.held).map Handle.value,
      pass.tables.Keeps next.tables record)
    (same : next.styled.get? node = pass.styled.get? node)
    (fits : engine.Fits answers pass.tables doc pass.styled node) :
    engine.Fits answers next.tables doc next.styled node := by
  obtain ⟨record, outline, has, isOutline, shows⟩ := fits
  have inside := Styled.mem_held_iff.mpr ⟨node, has⟩
  exact ⟨record, outline, same.trans has, isOutline,
    shows.of_keeps sound (keeps _ (List.mem_map_of_mem (List.mem_append_right _ inside)))⟩

/-- Below a parent that has its record, styling starts from the outline of the parent. -/
theorem meets_of_parent_fits {pass : Pass σ} {node : Nat}
    (parentFits : ∀ parent, doc.parent? node = some parent →
      engine.Fits answers pass.tables doc pass.styled parent) :
    Draft.Meets pass.tables ((pass.parentRecord? doc node).map Handle.value)
      ((doc.parent? node).bind (engine.outline? answers doc)) := by
  cases under : doc.parent? node with
  | none =>
    rw [parentRecord?, under]
    exact .root
  | some parent =>
    obtain ⟨record, outline, has, isOutline, shows⟩ := parentFits parent under
    rw [parentRecord?, under, Option.bind_some, Option.bind_some, has, isOutline]
    exact .child shows

/-- Parents are visited first, so that of the next node has its record. -/
theorem Underway.parent_fits (forest : doc.Forest) {node : Nat} {todo : List Nat} {pass : Pass σ}
    (underway : Underway engine answers held doc start (node :: todo) pass)
    (known : node < doc.size)
    (later : ∀ parent ∈ todo, doc.parent? node ≠ some parent) :
    ∀ parent, doc.parent? node = some parent →
      engine.Fits answers pass.tables doc pass.styled parent := by
  intro parent under
  have older := forest.parent_lt under
  refine underway.fits parent (Nat.lt_trans older known) fun listed => ?_
  rcases List.mem_cons.mp listed with same | listed
  · omega
  · exact later parent listed under

/-- The next node gets its record, and all others keep theirs. -/
theorem Underway.insert {node : Nat} {todo : List Nat} {pass next : Pass σ}
    (underway : Underway engine answers held doc start (node :: todo) pass)
    (backed : Backs engine held next)
    (keeps : ∀ record ∈ (held ++ pass.styled.held).map Handle.value,
      pass.tables.Keeps next.tables record)
    {record : Handle Record} (styled : next.styled = pass.styled.insert node record)
    {outline : Record} (isOutline : engine.outline? answers doc node = some outline)
    (shows : next.tables.Shows record.value outline) :
    Underway engine answers held doc start todo next := by
  refine ⟨backed, ?_, ?_⟩
  · intro old inside
    refine (underway.keeps old inside).trans (keeps old ?_)
    rw [List.map_append]
    exact List.mem_append_left _ inside
  · intro other known outside
    by_cases same : other = node
    · subst same
      refine ⟨record, outline, ?_, isOutline, shows⟩
      rw [styled, Styled.get?_insert, if_pos rfl]
    · have fits : engine.Fits answers pass.tables doc pass.styled other := by
        refine underway.fits other known fun listed => ?_
        rcases List.mem_cons.mp listed with now | listed
        · exact same now
        · exact outside listed
      refine fits_of_keeps backed.sound keeps ?_ fits
      rw [styled, Styled.get?_insert, if_neg same]

/-- Styling a node whose parent has its record. -/
theorem Underway.styleNode (pure : engine.hosts.Pure answers) (forest : doc.Forest) {node : Nat}
    {todo : List Nat} {pass : Pass σ}
    (underway : Underway engine answers held doc start (node :: todo) pass)
    (known : node < doc.size)
    (later : ∀ parent ∈ todo, doc.parent? node ≠ some parent) :
    Underway engine answers held doc start todo (styleNode engine held doc pass node) := by
  have parentFits := underway.parent_fits forest known later
  by_cases element : doc.isElement node = true
  · have run : Pass.styleNode engine held doc pass node = styleElement engine held doc pass node :=
      if_pos element
    obtain ⟨backed, keeps, record, styled, shows⟩ :=
      styleElement_shows underway.backed (meets_of_parent_fits parentFits)
    rw [run]
    refine underway.insert backed keeps styled ?_ (shows answers pure)
    rw [Engine.outline?_eq forest, if_pos element]
  · -- a text shares the record of its parent
    cases under : doc.parent? node with
    | none => exact absurd (forest.isElement_of_root known under) element
    | some parent =>
      obtain ⟨record, outline, has, isOutline, shows⟩ := parentFits parent under
      have above : pass.parentRecord? doc node = some record := by
        rw [parentRecord?, under, Option.bind_some, has]
      have run : Pass.styleNode engine held doc pass node =
          { pass with styled := pass.styled.insert node record } := by
        rw [Pass.styleNode, if_neg element, above]
      have backed := styleNode_backs underway.backed doc node
      rw [run] at backed ⊢
      refine underway.insert backed (fun _ _ => .refl _ _) rfl ?_ shows
      rw [Engine.outline?_eq forest, if_neg element, under, Option.bind_some, isOutline]

/-- A pass that visits parents first leaves every node with its record. -/
theorem Underway.run (pure : engine.hosts.Pure answers) (forest : doc.Forest) {todo : List Nat}
    {pass : Pass σ}
    (underway : Underway engine answers held doc start todo pass)
    (known : ∀ node ∈ todo, node < doc.size)
    (parentsFirst : todo.Pairwise (fun early late => doc.parent? early ≠ some late)) :
    Underway engine answers held doc start [] (todo.foldl (Pass.styleNode engine held doc) pass) := by
  induction todo generalizing pass with
  | nil => exact underway
  | cons first rest ih =>
    obtain ⟨firstLater, restFirst⟩ := List.pairwise_cons.mp parentsFirst
    have next := underway.styleNode pure forest (known first List.mem_cons_self) firstLater
    exact ih next (fun node listed => known node (List.mem_cons_of_mem _ listed)) restFirst

end Pass

namespace Engine

variable {engine : Engine σ} {held : Held} {doc : Document} {styled : Styled} {node : Nat}

/-- Whether a node fits depends on the engine's store and configuration, not on its tables or its
host's state. -/
theorem Fits.moved {tables other : Tables} (fits : engine.Fits answers tables doc styled node)
    (state : σ) :
    ({ engine with tables := other, state := state } : Engine σ).Fits answers tables doc styled
      node := by
  obtain ⟨record, outline, has, isOutline, shows⟩ := fits
  exact ⟨record, outline, has, (outline?_moved other state doc node).trans isOutline, shows⟩

/-- Styling a document gives every node its record. -/
theorem documentPass_underway (pure : engine.hosts.Pure answers) (forest : doc.Forest)
    (backed : engine.Backs held) :
    Pass.Underway engine answers held doc engine.tables [] (engine.documentPass held doc) := by
  have noneStyled : held ++ Styled.empty.held = held := List.append_nil held
  have start : Pass.Underway engine answers held doc engine.tables (doc.roots.flatMap doc.subtree)
      ⟨engine.tables, engine.state, .empty, []⟩ := by
    refine ⟨⟨backed.sound, noneStyled.symm ▸ backed.backs, backed.files⟩,
      fun _ _ => .refl _ _, ?_⟩
    intro node known outside
    exact absurd (forest.mem_subtrees_of_roots known) outside
  rw [documentPass, Pass.styleSubtrees_eq]
  refine start.run pure forest ?_ (forest.roots_preorder.imp forest.parent?_ne_of_precedes)
  intro node listed
  obtain ⟨root, _, below⟩ := List.mem_flatMap.mp listed
  exact forest.lt_size_of_mem_subtree below

/-- Restyling a node gives every node its record, if all outside the reach had theirs. -/
theorem nodePass_underway (pure : engine.hosts.Pure answers) (forest : doc.Forest)
    (known : node < doc.size)
    (backed : engine.Backs (held ++ styled.held))
    (fits : ∀ other < doc.size, other ∉ doc.reach node →
      engine.Fits answers engine.tables doc styled other) :
    Pass.Underway engine answers held doc engine.tables [] (engine.nodePass held doc styled node) := by
  have start : Pass.Underway engine answers held doc engine.tables (doc.reach node)
      ⟨engine.tables, engine.state, styled, []⟩ :=
    ⟨backed.pass [], fun _ _ => .refl _ _, fits⟩
  have siblings : ∀ top ∈ node :: doc.followingSiblings node,
      doc.parent? top = doc.parent? node := by
    intro top isTop
    rcases List.mem_cons.mp isTop with rfl | behind
    · rfl
    · exact (forest.mem_followingSiblings_iff.mp behind).2.2.2.2.symm
  have topsKnown : ∀ top ∈ node :: doc.followingSiblings node, top < doc.size := by
    intro top isTop
    rcases List.mem_cons.mp isTop with rfl | behind
    · exact known
    · exact Document.lt_size_of_isElement (forest.mem_followingSiblings_iff.mp behind).2.1
  have preorder := forest.walk_preorder (forest.followingSiblings_sorted node)
    (fun one isOne other isOther => (siblings one isOne).trans (siblings other isOther).symm)
    topsKnown
  rw [nodePass, Pass.styleSubtrees_eq]
  refine start.run pure forest ?_ (preorder.imp forest.parent?_ne_of_precedes)
  intro low listed
  obtain ⟨top, _, below⟩ := List.mem_flatMap.mp listed
  exact forest.lt_size_of_mem_subtree below

end Engine

/-- A styled document that is looked after: its engine, and the document it belongs to. -/
structure Session (σ : Type) where
  engine : Engine σ
  doc : Document
  styled : Styled

/-- A change of a new node before it is styled for the first time. -/
inductive Change
  | attr (key value : String)
  | state (state : NodeState)

/-- A change of the document that is followed by the restyling it calls for. -/
inductive Edit
  | attr (node : Nat) (key value : String)
  | state (node : Nat) (state : NodeState)
  | element (parent : Option Nat) (tag : String) (changes : List Change)
  | text (parent : Nat) (text : String)
  /-- Forget shared values that are not held. -/
  | purge
  /-- Style everything from scratch as well, and drop the result. -/
  | again

/-- Changes a node, which stays as it is if it is not in the document. -/
def Change.apply (node : Nat) (doc : Document) : Change → Document
  | .attr key value => (doc.setAttribute? node key value).getD doc
  | .state new => (doc.setState? node new).getD doc

namespace Session

/-- The document is another one, and a node of it is restyled. -/
def restyled (held : Held) (session : Session σ) (doc : Document) (node : Nat) : Session σ :=
  let next := (session.engine.restyle held doc session.styled node).state
  ⟨next.1, doc, next.2⟩

/-- Carries an edit out, while some records are held elsewhere. An edit of an unknown node is
refused. -/
def edit (held : Held) (session : Session σ) : Edit → Session σ
  | .attr node key value =>
    session.restyled held (Change.apply node session.doc (.attr key value)) node
  | .state node state =>
    let next := (session.engine.setNodeState held session.doc session.styled node state).state
    ⟨next.1, next.2.1, next.2.2⟩
  | .element parent tag changes =>
    let new := session.doc.size
    session.restyled held (changes.foldl (Change.apply new) (session.doc.addElement parent tag)) new
  | .text parent text =>
    match session.doc.addText? parent text with
    | none => session
    | some grown => session.restyled held grown session.doc.size
  | .purge =>
    { session with engine := (session.engine.purge (held ++ session.styled.held)).state }
  | .again =>
    { session with
      engine := (session.engine.styleDocument (held ++ session.styled.held) session.doc).state }

/-- Carries edits out, one after the other. -/
def run (held : Held) (session : Session σ) (edits : List Edit) : Session σ :=
  edits.foldl (edit held) session

/-- Every node has the record that the tables show for its outline. -/
structure Settled (answers : Answers) (held : Held) (session : Session σ) : Prop where
  pure : session.engine.hosts.Pure answers
  idle : session.engine.running = false
  forest : session.doc.Forest
  backed : session.engine.Backs (held ++ session.styled.held)
  fits : ∀ node < session.doc.size,
    session.engine.Fits answers session.engine.tables session.doc session.styled node

variable {held : Held} {session : Session σ}

/-- Restyling settles a session again, if the change was not felt outside the reach of the node. -/
theorem Settled.restyled (settled : session.Settled answers held) {doc : Document}
    (forest : doc.Forest)
    {node : Nat} (known : node < doc.size) {inside : Nat → Prop}
    (agree : session.doc.AgreeOn inside doc)
    (outside : ∀ other < doc.size, other ∉ doc.reach node →
      other < session.doc.size ∧ inside other) :
    (session.restyled held doc node).Settled answers held := by
  have underway := Engine.nodePass_underway settled.pure forest known settled.backed (by
    intro other otherKnown apart
    obtain ⟨old, here⟩ := outside other otherKnown apart
    obtain ⟨record, outline, has, isOutline, shows⟩ := settled.fits other old
    exact ⟨record, outline, has, (Engine.outline?_of_agree agree here).trans isOutline, shows⟩)
  unfold Session.restyled
  rw [Engine.restyle_state settled.idle, if_pos (Document.contains_iff.mpr known)]
  let pass := session.engine.nodePass held doc session.styled node
  exact ⟨settled.pure, settled.idle, forest,
    ⟨underway.backed.sound, underway.backed.backs, underway.backed.files⟩,
    fun other otherKnown => (underway.fits other otherKnown List.not_mem_nil).moved pass.state⟩

/-- Restyling below an altered node settles the whole document: nodes out of its footprint are
styled as before. -/
theorem Settled.alter (settled : session.Settled answers held) {node : Nat} {changed : Document}
    (alters : session.doc.Alters node changed) :
    (session.restyled held changed node).Settled answers held := by
  have size := alters.size
  refine settled.restyled (alters.forest settled.forest) (size ▸ alters.1)
    (alters.agreeOn settled.forest) ?_
  intro other known outside
  rw [alters.reach] at outside
  exact ⟨size ▸ known, outside⟩

/-- A document with one more node, at the end, which the other nodes do not see. -/
structure Grown (doc grown : Document) : Prop where
  forest : grown.Forest
  size : grown.size = doc.size + 1
  agree : doc.AgreeOn (· < doc.size) grown

/-- Styling the subtree of a new node settles the document that has it. -/
theorem Settled.grow (settled : session.Settled answers held) {grown : Document}
    (grows : Grown session.doc grown) :
    (session.restyled held grown session.doc.size).Settled answers held := by
  have known : session.doc.size < grown.size := by rw [grows.size]; omega
  refine settled.restyled grows.forest known grows.agree ?_
  intro other otherKnown outside
  have apart : other ≠ session.doc.size := fun same =>
    outside (by rw [same]; exact grows.forest.mem_reach_self known)
  have bound := grows.size
  have old : other < session.doc.size := by omega
  exact ⟨old, old⟩

theorem alters_apply {doc : Document} {node : Nat} (known : node < doc.size) (change : Change) :
    doc.Alters node (change.apply node doc) := by
  have contained := Document.contains_iff.mpr known
  cases change with
  | attr key value =>
    have run : doc.setAttribute? node key value = some (Change.apply node doc (.attr key value)) := by
      simp [Change.apply, Document.setAttribute?, contained]
    exact Document.alters_setAttribute run
  | state new =>
    have run : doc.setState? node new = some (Change.apply node doc (.state new)) := by
      simp [Change.apply, Document.setState?, contained]
    exact Document.alters_setState run

/-- A node can be altered as soon as it is added. -/
theorem Grown.alter {doc grown changed : Document} (grows : Grown doc grown)
    (alters : grown.Alters doc.size changed) : Grown doc changed where
  forest := alters.forest grows.forest
  size := alters.size.trans grows.size
  agree := grows.agree.trans (alters.agreeOn grows.forest)
    fun old => grows.forest.not_mem_reach_of_lt alters.1 old

theorem Grown.changes {doc grown : Document} (grows : Grown doc grown) (changes : List Change) :
    Grown doc (changes.foldl (Change.apply doc.size) grown) := by
  induction changes generalizing grown with
  | nil => exact grows
  | cons first rest ih =>
    have known : doc.size < grown.size := by rw [grows.size]; omega
    exact ih (grows.alter (alters_apply known first))

/-- The new node is the last one, and nobody but its parent knows it. -/
theorem grown_addElement {doc : Document} (forest : doc.Forest) (parent : Option Nat)
    (tag : String) : Grown doc (doc.addElement parent tag) where
  forest := forest.addElement parent tag
  size := Document.size_push _ _
  agree := forest.agreeOn_push fun _ under =>
    Document.contains_iff.mp (Option.filter_eq_some_iff.mp under).2

theorem grown_addText {doc grown : Document} (forest : doc.Forest) {parent : Nat} {text : String}
    (run : doc.addText? parent text = some grown) : Grown doc grown := by
  obtain ⟨size, agree⟩ := forest.agreeOn_addText run
  exact ⟨forest.addText run, size, agree⟩

/-- Tables that keep what is held can take the place of those of a settled session, and the hosts may
be in another state. -/
theorem Settled.moved (settled : session.Settled answers held) {tables : Tables}
    (sound : tables.Sound) (backs : tables.Backs (held ++ session.styled.held))
    (files : ∀ traits, session.engine.hosts.Have session.engine.config traits →
      tables.Files traits)
    (keeps : ∀ record ∈ (held ++ session.styled.held).map Handle.value,
      session.engine.tables.Keeps tables record) (state : σ) :
    ({ session with
      engine := { session.engine with tables := tables, state := state } } : Session σ).Settled
        answers held := by
  refine ⟨settled.pure, settled.idle, settled.forest, ⟨sound, backs, files⟩, ?_⟩
  intro node known
  obtain ⟨record, outline, has, isOutline, shows⟩ := settled.fits node known
  have inside := Styled.mem_held_iff.mpr ⟨node, has⟩
  have kept := keeps _ (List.mem_map_of_mem (List.mem_append_right held inside))
  exact ⟨record, outline, has, (Engine.outline?_moved _ _ _ _).trans isOutline,
    shows.of_keeps sound kept⟩

/-- Each edit leaves a session settled. -/
theorem Settled.edit (settled : session.Settled answers held) (edit : Edit) :
    (session.edit held edit).Settled answers held := by
  cases edit with
  | attr node key value =>
    by_cases known : node < session.doc.size
    · exact settled.alter (alters_apply known (.attr key value))
    · have unknown : session.doc.contains node = false := by simpa [Document.contains] using known
      have kept : Change.apply node session.doc (.attr key value) = session.doc := by
        simp [Change.apply, Document.setAttribute?, unknown]
      have same : session.edit held (.attr node key value) = session := by
        rw [Session.edit, kept, Session.restyled, Engine.restyle_state settled.idle, unknown]
        rfl
      rw [same]
      exact settled
  | state node state =>
    rw [Session.edit, Engine.setNodeState_state]
    cases run : session.doc.setState? node state with
    | none => exact settled
    | some changed =>
      by_cases same : session.doc.state node = state
      · simp only [if_pos same]
        rw [Document.setState?_same run same]
        exact settled
      · simp only [if_neg same]
        exact settled.alter (Document.alters_setState run)
  | element parent tag changes =>
    exact settled.grow ((grown_addElement settled.forest parent tag).changes changes)
  | text parent text =>
    rw [Session.edit]
    cases run : session.doc.addText? parent text with
    | none => exact settled
    | some grown => exact settled.grow (grown_addText settled.forest run)
  | purge =>
    have backed := settled.backed.purge
    have run : (session.engine.purge (held ++ session.styled.held)).state = { session.engine with
        tables := session.engine.tables.purge (held ++ session.styled.held) } := by
      simp only [Engine.purge, settled.idle]
      rfl
    rw [Session.edit, run]
    rw [run] at backed
    exact settled.moved backed.sound backed.backs backed.files (fun _ => Tables.keeps_purge) _
  | again =>
    have underway := Engine.documentPass_underway settled.pure settled.forest settled.backed
    rw [Session.edit, (Engine.styleDocument_eq settled.idle _ _).2]
    refine settled.moved underway.backed.sound (underway.backed.backs.subset ?_)
      underway.backed.files underway.keeps _
    exact List.subset_append_left _ _

theorem Settled.run (settled : session.Settled answers held) (edits : List Edit) :
    (session.run held edits).Settled answers held := by
  induction edits generalizing session with
  | nil => exact settled
  | cons first rest ih => exact ih (settled.edit first)

/-- What a fresh pass over a settled session finds for a node is the record that is there. -/
theorem Settled.fresh (settled : session.Settled answers held) {node : Nat}
    (known : node < session.doc.size) :
    ∃ record, session.styled.get? node = some record ∧
      (session.engine.documentPass (held ++ session.styled.held) session.doc).styled.get? node =
        some record := by
  have underway := Engine.documentPass_underway settled.pure settled.forest settled.backed
  obtain ⟨record, outline, has, isOutline, shows⟩ := settled.fits node known
  obtain ⟨found, again, finds, isAgain, foundShows⟩ :=
    underway.fits node known List.not_mem_nil
  rw [isOutline] at isAgain
  cases Option.some.inj isAgain
  have heldRecord : record ∈ held ++ session.styled.held :=
    List.mem_append_right held (Styled.mem_held_iff.mpr ⟨node, has⟩)
  have stillShows := shows.of_keeps underway.backed.sound
    (underway.keeps _ (List.mem_map_of_mem heldRecord))
  -- both are held now, and the tables show both for one outline
  have same : record = found :=
    underway.backed.backs.unique (List.mem_append_left _ heldRecord)
      (List.mem_append_right _ (Styled.mem_held_iff.mpr ⟨node, finds⟩)) stillShows foundShows
  exact ⟨record, has, same ▸ finds⟩

/-- However a styled document is edited, every node has the record that styling the document from
scratch gives it, if the hosts always give the same answers. -/
theorem run_agrees_with_styling {engine : Engine σ} {held : Held} (lived : engine.Lived held)
    (pure : engine.hosts.Pure answers) {doc : Document} (built : doc.Built) (edits : List Edit) :
    ∃ styled, (engine.styleDocument held doc).result = .ok styled ∧
      let session := Session.run held ⟨(engine.styleDocument held doc).state, doc, styled⟩ edits
      ∃ fresh,
        (session.engine.styleDocument (held ++ session.styled.held) session.doc).result =
            .ok fresh ∧
          ∀ node < session.doc.size, ∃ record,
            session.styled.get? node = some record ∧ fresh.get? node = some record := by
  obtain ⟨idle, backed⟩ := lived.backs
  have underway := Engine.documentPass_underway pure built.forest backed
  obtain ⟨result, state⟩ := Engine.styleDocument_eq idle held doc
  let pass := engine.documentPass held doc
  have settled : Session.Settled answers held
      ⟨(engine.styleDocument held doc).state, doc, pass.styled⟩ := by
    rw [state]
    exact ⟨pure, idle, built.forest,
      ⟨underway.backed.sound, underway.backed.backs, underway.backed.files⟩,
      fun node known => (underway.fits node known List.not_mem_nil).moved pass.state⟩
  have last := settled.run edits
  exact ⟨_, result, _, (Engine.styleDocument_eq last.idle _ _).1, fun node known => last.fresh known⟩

/-- Hosts that count how often they are asked. Their answers do not tell. -/
def countingHosts : Hosts Nat where
  metrics key pixels count := (Answers.plain.metrics key pixels, count + 1)
  loadImage url count := (Answers.plain.image? url, count + 1)
  script := none

/-- Paragraphs behind a paragraph are red; the first one gets a class and a text, and a third one is
added. -/
theorem run_agrees_with_styling_paragraphs :
    let engine := ((Engine.new .screen countingHosts 0).addSheet ⟨.author, 1⟩
      (Utf8.encode "p.lead + p \x7b color: red \x7d")).state
    let doc := (Document.empty.addElement none "body").addElement (some 0) "p"
    let edits : List Edit := [.element (some 0) "p" [], .attr 1 "class" "lead", .text 1 "once",
      .state 1 (.ofNames ["hover"]), .purge, .element (some 0) "p" [.attr "class" "last"], .again]
    engine.hosts.Pure .plain ∧ ∃ styled, (engine.styleDocument [] doc).result = .ok styled ∧
      let session := Session.run [] ⟨(engine.styleDocument [] doc).state, doc, styled⟩ edits
      ∃ fresh,
        (session.engine.styleDocument ([] ++ session.styled.held) session.doc).result =
            .ok fresh ∧
          ∀ node < session.doc.size, ∃ record,
            session.styled.get? node = some record ∧ fresh.get? node = some record := by
  intro engine doc edits
  have pure : engine.hosts.Pure .plain := fun _ => rfl
  exact ⟨pure, run_agrees_with_styling
    (.addSheet ⟨.author, 1⟩ _ (.new .screen countingHosts 0)) pure
    (.addElement (some 0) "p" (.addElement none "body" .empty)) _⟩

end Session

end StyleCascade
