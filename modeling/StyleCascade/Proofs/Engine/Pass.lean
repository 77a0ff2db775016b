import StyleCascade.Engine
import StyleCascade.Proofs.Resolve.Pure

namespace StyleCascade

namespace Styled

variable {styled : Styled} {node other : Nat} {record handle : Handle Record}

theorem get?_insert (styled : Styled) (node other : Nat) (record : Handle Record) :
    (styled.insert node record).get? other =
      if other = node then some record else styled.get? other := by
  have longEnough : node < (styled.records ++
      Array.replicate (node + 1 - styled.records.size) none).size := by
    rw [Array.size_append, Array.size_replicate]
    omega
  simp only [get?, insert]
  rw [Array.getElem?_setIfInBounds]
  by_cases same : other = node
  · subst same
    rw [if_pos rfl, if_pos longEnough, if_pos rfl, Option.join_some]
  · rw [if_neg (Ne.symm same), if_neg same, Array.getElem?_append]
    split
    · rfl
    · next past =>
      rw [Array.getElem?_eq_none (by omega : styled.records.size ≤ other)]
      rw [Array.getElem?_replicate]
      split <;> rfl

theorem mem_held_iff : handle ∈ styled.held ↔ ∃ node, styled.get? node = some handle := by
  simp only [held, get?, List.mem_filterMap, id_eq, exists_eq_right]
  rw [Array.mem_toList_iff, Array.mem_iff_getElem?]
  simp only [Option.join_eq_some_iff]

/-- Styling a node brings its record, and none besides. -/
theorem held_insert_subset (styled : Styled) (node : Nat) (record : Handle Record) :
    (styled.insert node record).held ⊆ record :: styled.held := by
  intro handle inside
  obtain ⟨other, found⟩ := mem_held_iff.mp inside
  rw [get?_insert] at found
  split at found
  · cases found
    exact List.mem_cons_self
  · exact List.mem_cons_of_mem _ (mem_held_iff.mpr ⟨other, found⟩)

end Styled

variable {σ : Type}

/-- The property sets of an element in a document. -/
def Engine.setsOf (engine : Engine σ) (doc : Document) (node : Nat) : List PropertySet :=
  Cascade.apply engine.store .dynamic doc.tree node (Pass.inlineStyle? doc node)

/-- The tables of an engine are sound, back what is held, and list what the hosts gave. -/
structure Engine.Backs (engine : Engine σ) (held : Held) : Prop where
  sound : engine.tables.Sound
  backs : engine.tables.Backs held
  files : ∀ traits, engine.hosts.Have engine.config traits → engine.tables.Files traits

namespace Pass

variable {engine : Engine σ} {held : Held} {doc : Document} {pass : Pass σ} {node : Nat}

/-- The tables of a pass are sound, back what is held beside it and in it, and list what the hosts
gave. -/
structure Backs (engine : Engine σ) (held : Held) (pass : Pass σ) : Prop where
  sound : pass.tables.Sound
  backs : pass.tables.Backs (held ++ pass.styled.held)
  files : ∀ traits, engine.hosts.Have engine.config traits → pass.tables.Files traits

theorem mem_held_of_parentRecord? {record : Handle Record}
    (above : pass.parentRecord? doc node = some record) : record ∈ pass.styled.held := by
  obtain ⟨parent, _, found⟩ := Option.bind_eq_some_iff.mp above
  exact Styled.mem_held_iff.mpr ⟨parent, found⟩

/-- Styling an element shares a record. For hosts that always give the same answers, it is the one
that the tables show for the outline of the element. -/
theorem styleElement_shows (backed : Backs engine held pass) {above : Option Record}
    (meets : Draft.Meets pass.tables ((pass.parentRecord? doc node).map Handle.value) above) :
    let next := styleElement engine held doc pass node
    Backs engine held next ∧
      (∀ record ∈ (held ++ pass.styled.held).map Handle.value,
        pass.tables.Keeps next.tables record) ∧
      ∃ record, next.styled = pass.styled.insert node record ∧
        ∀ answers, engine.hosts.Pure answers → next.tables.Shows record.value
          (Basis.outline ⟨engine.config, above⟩ answers (engine.setsOf doc node)) := by
  let parent := pass.parentRecord? doc node
  let basis : Basis := ⟨engine.config, parent.map Handle.value⟩
  let all := held ++ pass.styled.held ++ parent.toList
  have known : all ⊆ held ++ pass.styled.held := by
    intro record inside
    rcases List.mem_append.mp inside with old | isParent
    · exact old
    · exact List.mem_append_right _ (mem_held_of_parentRecord? (Option.mem_toList.mp isParent))
  have parentHeld : ∀ record ∈ basis.parent, record ∈ all.map Handle.value := by
    intro record inside
    obtain ⟨handle, isParent, rfl⟩ := Option.map_eq_some_iff.mp inside
    exact List.mem_map_of_mem (List.mem_append_right _ (Option.mem_toList.mpr isParent))
  have allBacks := backed.backs.subset known
  let sets := engine.setsOf doc node
  have course {traits : Traits} (haveTraits : engine.hosts.Have engine.config traits) :=
    resolve_course basis backed.sound (backed.files traits haveTraits) haveTraits all pass.state sets
  obtain ⟨_, leads⟩ := course (engine.hosts.have_any engine.config)
  obtain ⟨sound, backs, -, keeps⟩ := leads.shows backed.sound allBacks meets parentHeld
  have files (traits : Traits) (haveTraits : engine.hosts.Have engine.config traits) :
      (resolve engine.hosts basis all pass.tables pass.state sets).tables.Files traits := by
    obtain ⟨_, leads⟩ := course haveTraits
    exact leads.files
  have shows (answers : Answers) (pure : engine.hosts.Pure answers) :=
    (resolve_shows pure basis backed.sound allBacks
      (backed.files _ (pure.traits engine.config)) meets parentHeld pass.state sets).2.2.2.1
  have tables : (styleElement engine held doc pass node).tables =
      (resolve engine.hosts basis all pass.tables pass.state sets).tables := by
    dsimp only [styleElement, Engine.setsOf, sets, all, basis, parent]
  have styled : (styleElement engine held doc pass node).styled = pass.styled.insert node
      (resolve engine.hosts basis all pass.tables pass.state sets).record := by
    dsimp only [styleElement, Engine.setsOf, sets, all, basis, parent]
  clear leads course
  generalize resolve engine.hosts basis all pass.tables pass.state sets = found at *
  generalize styleElement engine held doc pass node = next at *
  obtain ⟨newTables, newState, newStyled, events⟩ := next
  cases tables
  cases styled
  refine ⟨⟨sound, backs.subset ?_, files⟩, ?_, found.record, rfl, shows⟩
  · intro record inside
    rcases List.mem_append.mp inside with old | new
    · exact List.mem_cons_of_mem _ (List.mem_append_left _ (List.mem_append_left _ old))
    · rcases List.mem_cons.mp (Styled.held_insert_subset _ _ _ new) with rfl | old
      · exact List.mem_cons_self
      · exact List.mem_cons_of_mem _ (List.mem_append_left _ (List.mem_append_right _ old))
  · intro record inside
    obtain ⟨handle, old, rfl⟩ := List.mem_map.mp inside
    exact keeps _ (List.mem_map_of_mem (List.mem_append_left _ old))

/-- Styling a node keeps the tables in order, whatever document it is in. -/
theorem styleNode_backs (backed : Backs engine held pass) (doc : Document) (node : Nat) :
    Backs engine held (styleNode engine held doc pass node) := by
  unfold styleNode
  split
  · cases found : pass.parentRecord? doc node with
    | none =>
      have meets : Draft.Meets pass.tables ((pass.parentRecord? doc node).map Handle.value) none := by
        rw [found]
        exact .root
      exact (styleElement_shows backed meets).1
    | some parent =>
      have inside := List.mem_append_right held (mem_held_of_parentRecord? found)
      obtain ⟨outline, shown⟩ := backed.backs.shown parent inside
      have meets : Draft.Meets pass.tables ((pass.parentRecord? doc node).map Handle.value)
          (some outline) := by
        rw [found]
        exact .child shown
      exact (styleElement_shows backed meets).1
  · split
    · next record found =>
      refine ⟨backed.sound, backed.backs.subset ?_, backed.files⟩
      intro handle inside
      rcases List.mem_append.mp inside with old | new
      · exact List.mem_append_left _ old
      · rcases List.mem_cons.mp (Styled.held_insert_subset _ _ _ new) with rfl | old
        · exact List.mem_append_right _ (mem_held_of_parentRecord? found)
        · exact List.mem_append_right _ old
    · exact backed

/-- Styling subtrees is one fold over their nodes in document order, so that one step lemma serves
every pass. -/
theorem styleSubtrees_eq (engine : Engine σ) (held : Held) (doc : Document) (pass : Pass σ)
    (nodes : List Nat) :
    styleSubtrees engine held doc pass nodes =
      (nodes.flatMap doc.subtree).foldl (styleNode engine held doc) pass := by
  rw [List.foldl_flatMap]
  rfl

/-- The tables back what is held after every step, so they do after the pass. -/
theorem styleSubtrees_backs (backed : Backs engine held pass) (doc : Document)
    (nodes : List Nat) :
    Backs engine held (styleSubtrees engine held doc pass nodes) := by
  rw [styleSubtrees_eq]
  generalize nodes.flatMap doc.subtree = todo
  induction todo generalizing pass with
  | nil => exact backed
  | cons first rest ih => exact ih (styleNode_backs backed doc first)

end Pass

namespace Engine

/-- The engines that can come about, with all records that are held at the time. Records may be
dropped, and held more than once, at any time. -/
inductive Lived : Engine σ → Held → Prop
  | new (config : Config) (hosts : Hosts σ) (state : σ) : Lived (.new config hosts state) []
  | addSheet {engine held} (sheet : SheetId) (source : List UInt8) :
      Lived engine held → Lived (engine.addSheet sheet source).state held
  | addFile {engine held} (sheet : SheetId) (path : String) (content : Option (List UInt8)) :
      Lived engine held → Lived (engine.addFile sheet path content).state held
  | removeSheet {engine held} (sheet : SheetId) :
      Lived engine held → Lived (engine.removeSheet sheet).state held
  | purge {engine held} : Lived engine held → Lived (engine.purge held).state held
  | styleDocument {engine held styled} (doc : Document) : Lived engine held →
      (engine.styleDocument held doc).result = .ok styled →
        Lived (engine.styleDocument held doc).state (held ++ styled.held)
  | restyle {engine held} {styled : Styled} (doc : Document) (node : Nat) :
      Lived engine (held ++ styled.held) →
        Lived (engine.restyle held doc styled node).state.1
          (held ++ (engine.restyle held doc styled node).state.2.held)
  | setNodeState {engine held} {styled : Styled} (doc : Document) (node : Nat)
      (state : NodeState) : Lived engine (held ++ styled.held) →
        Lived (engine.setNodeState held doc styled node state).state.1
          (held ++ (engine.setNodeState held doc styled node state).state.2.2.held)
  | hold {engine held less} : Lived engine held → less ⊆ held → Lived engine less
  /-- The hosts do something else. -/
  | elsewhere {engine held} (state : σ) :
      Lived engine held → Lived { engine with state := state } held

variable {engine : Engine σ} {held : Held} {doc : Document} {styled : Styled} {node : Nat}

theorem Backs.withStore (backed : engine.Backs held) (store : Store) :
    ({ engine with store := store } : Engine σ).Backs held :=
  ⟨backed.sound, backed.backs, backed.files⟩

theorem Backs.subset {less : Held} (backed : engine.Backs held) (fewer : less ⊆ held) :
    engine.Backs less :=
  ⟨backed.sound, backed.backs.subset fewer, backed.files⟩

theorem Backs.pass (backed : engine.Backs (held ++ styled.held)) (events : List Event) :
    Pass.Backs engine held ⟨engine.tables, engine.state, styled, events⟩ :=
  ⟨backed.sound, backed.backs, backed.files⟩

theorem addSheet_state (engine : Engine σ) (sheet : SheetId) (source : List UInt8) :
    ∃ store, (engine.addSheet sheet source).state = { engine with store := store } := by
  unfold addSheet
  split
  · exact ⟨engine.store, rfl⟩
  · exact ⟨_, rfl⟩

/-- Reading a file can change the store and nothing else of the engine. -/
theorem addFile_state (engine : Engine σ) (sheet : SheetId) (path : String)
    (content : Option (List UInt8)) :
    ∃ store, (engine.addFile sheet path content).state = { engine with store := store } := by
  unfold addFile
  split
  · exact ⟨engine.store, rfl⟩
  · split
    · exact ⟨engine.store, rfl⟩
    · exact ⟨_, rfl⟩

theorem removeSheet_state (engine : Engine σ) (sheet : SheetId) :
    ∃ store, (engine.removeSheet sheet).state = { engine with store := store } := by
  unfold removeSheet
  split
  · exact ⟨engine.store, rfl⟩
  · exact ⟨_, rfl⟩

theorem Backs.purge (backed : engine.Backs held) : (engine.purge held).state.Backs held := by
  unfold Engine.purge
  split
  · exact backed
  · exact ⟨backed.sound.purge held, backed.backs.purge backed.sound,
      fun traits haveTraits => (backed.files traits haveTraits).purge held⟩

/-- The pass of styling a document. -/
def documentPass (engine : Engine σ) (held : Held) (doc : Document) : Pass σ :=
  Pass.styleSubtrees engine held doc ⟨engine.tables, engine.state, .empty, []⟩ doc.roots

/-- An idle engine always answers: the styling is what the pass over the whole document left, and
the engine is idle again with the tables of the pass. -/
theorem styleDocument_eq (idle : engine.running = false) (held : Held) (doc : Document) :
    (engine.styleDocument held doc).result = .ok (engine.documentPass held doc).styled ∧
      (engine.styleDocument held doc).state =
        { engine with
          tables := (engine.documentPass held doc).tables
          state := (engine.documentPass held doc).state } := by
  simp only [styleDocument, idle]
  exact ⟨rfl, rfl⟩

theorem documentPass_backs (backed : engine.Backs held) (doc : Document) :
    Pass.Backs engine held (engine.documentPass held doc) := by
  refine Pass.styleSubtrees_backs ⟨backed.sound, ?_, backed.files⟩ doc doc.roots
  have noneStyled : held ++ Styled.empty.held = held := List.append_nil held
  rw [noneStyled]
  exact backed.backs

/-- The pass of restyling a node. -/
def nodePass (engine : Engine σ) (held : Held) (doc : Document) (styled : Styled) (node : Nat) :
    Pass σ :=
  Pass.styleSubtrees engine held doc ⟨engine.tables, engine.state, styled, []⟩
    (node :: doc.followingSiblings node)

/-- An idle engine runs the pass below the node when the document has it and changes nothing when it
does not. -/
theorem restyle_state (idle : engine.running = false) :
    (engine.restyle held doc styled node).state =
      if doc.contains node then
        ({ engine with
            tables := (engine.nodePass held doc styled node).tables
            state := (engine.nodePass held doc styled node).state },
          (engine.nodePass held doc styled node).styled)
      else (engine, styled) := by
  unfold restyle
  cases known : doc.contains node <;> simp [idle, nodePass]

/-- After the pass the tables back everything the caller held and everything the new styling holds.
-/
theorem restyle_backs (idle : engine.running = false)
    (backed : engine.Backs (held ++ styled.held)) :
    let next := (engine.restyle held doc styled node).state
    next.1.running = false ∧ next.1.Backs (held ++ next.2.held) := by
  rw [restyle_state idle]
  split
  · have passed := Pass.styleSubtrees_backs (backed.pass []) doc
      (node :: doc.followingSiblings node)
    exact ⟨idle, passed.sound, passed.backs, passed.files⟩
  · exact ⟨idle, backed⟩

/-- The state of the document is written before the engine is asked to restyle, and only a changed
state asks for that. -/
theorem setNodeState_state (engine : Engine σ) (held : Held) (doc : Document) (styled : Styled)
    (node : Nat) (state : NodeState) :
    (engine.setNodeState held doc styled node state).state =
      match doc.setState? node state with
      | none => (engine, doc, styled)
      | some changed =>
        if doc.state node = state then (engine, changed, styled)
        else
          let next := (engine.restyle held changed styled node).state
          (next.1, changed, next.2) := by
  unfold setNodeState
  cases doc.setState? node state with
  | none => rfl
  | some changed =>
    by_cases same : doc.state node = state
    · simp only [if_pos same]
    · simp only [if_neg same]

/-- Whatever was done with an engine, its tables back the records that are held. -/
theorem Lived.backs {engine : Engine σ} {held : Held} (lived : engine.Lived held) :
    engine.running = false ∧ engine.Backs held := by
  induction lived with
  | new config hosts state => exact ⟨rfl, .empty, .nil _, fun _ _ => .empty⟩
  | addSheet sheet source _ ih =>
    obtain ⟨store, same⟩ := addSheet_state _ sheet source
    rw [same]
    exact ⟨ih.1, ih.2.withStore store⟩
  | addFile sheet path content _ ih =>
    obtain ⟨store, same⟩ := addFile_state _ sheet path content
    rw [same]
    exact ⟨ih.1, ih.2.withStore store⟩
  | removeSheet sheet _ ih =>
    obtain ⟨store, same⟩ := removeSheet_state _ sheet
    rw [same]
    exact ⟨ih.1, ih.2.withStore store⟩
  | purge _ ih =>
    refine ⟨?_, ih.2.purge⟩
    simp only [Engine.purge, ih.1]
    rfl
  | styleDocument doc _ styles ih =>
    obtain ⟨result, state⟩ := styleDocument_eq ih.1 _ doc
    rw [result] at styles
    cases styles
    have passed := documentPass_backs ih.2 doc
    rw [state]
    exact ⟨ih.1, passed.sound, passed.backs, passed.files⟩
  | restyle doc node _ ih => exact restyle_backs ih.1 ih.2
  | setNodeState doc node state _ ih =>
    rw [setNodeState_state]
    split
    · exact ih
    · split
      · exact ih
      · exact restyle_backs ih.1 ih.2
  | hold _ fewer ih => exact ⟨ih.1, ih.2.subset fewer⟩
  | elsewhere state _ ih => exact ⟨ih.1, ih.2.sound, ih.2.backs, ih.2.files⟩

end Engine

end StyleCascade
