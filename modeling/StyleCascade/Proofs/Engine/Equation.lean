import StyleCascade.Proofs.Engine.Restyling

namespace StyleCascade

variable {σ : Type} {answers : Answers} {engine : Engine σ} {held : Held} {doc : Document}
  {node : Nat}

namespace Pass

variable {pass : Pass σ} {start : Tables}

/-- Behind a pass, resolving the sets of an element again comes to the record that it has. -/
theorem Underway.resolve_again (pure : engine.hosts.Pure answers) (forest : doc.Forest)
    (finished : Underway engine answers held doc start [] pass) (known : node < doc.size)
    (element : doc.isElement node = true) {record : Handle Record}
    (has : pass.styled.get? node = some record) (state : σ) :
    (resolve engine.hosts ⟨engine.config, (pass.parentRecord? doc node).map Handle.value⟩
      (held ++ pass.styled.held) pass.tables state (engine.setsOf doc node)).record = record := by
  have meets := meets_of_parent_fits fun parent under =>
    finished.fits parent (Nat.lt_trans (forest.parent_lt under) known) List.not_mem_nil
  have parentHeld : ∀ parent ∈ (pass.parentRecord? doc node).map Handle.value,
      parent ∈ (held ++ pass.styled.held).map Handle.value := by
    intro parent inside
    obtain ⟨handle, isParent, rfl⟩ := Option.map_eq_some_iff.mp inside
    exact List.mem_map_of_mem (List.mem_append_right held (mem_held_of_parentRecord? isParent))
  obtain ⟨againSound, againBacks, _, againShows, keeps⟩ := resolve_shows pure
    ⟨engine.config, (pass.parentRecord? doc node).map Handle.value⟩ finished.backed.sound
    finished.backed.backs (finished.backed.files _ (pure.traits engine.config)) meets parentHeld
    state (engine.setsOf doc node)
  obtain ⟨found, outline, finds, isOutline, shows⟩ := finished.fits node known List.not_mem_nil
  cases Option.some.inj (has.symm.trans finds)
  rw [Engine.outline?_eq forest, if_pos element] at isOutline
  cases Option.some.inj isOutline
  have recordHeld : record ∈ held ++ pass.styled.held :=
    List.mem_append_right held (Styled.mem_held_iff.mpr ⟨node, has⟩)
  have stillShows := shows.of_keeps againSound (keeps _ (List.mem_map_of_mem recordHeld))
  exact againBacks.unique List.mem_cons_self (List.mem_cons_of_mem _ recordHeld) againShows
    stillShows

/-- Behind a pass, a text has the record of its parent. -/
theorem Underway.text_record (forest : doc.Forest)
    (finished : Underway engine answers held doc start [] pass) (known : node < doc.size)
    (text : doc.isElement node = false) {record : Handle Record}
    (has : pass.styled.get? node = some record) :
    pass.parentRecord? doc node = some record := by
  obtain ⟨found, outline, finds, isOutline, shows⟩ := finished.fits node known List.not_mem_nil
  cases Option.some.inj (has.symm.trans finds)
  rw [Engine.outline?_eq forest, text, if_neg Bool.false_ne_true] at isOutline
  obtain ⟨parent, under, parentOutline⟩ := Option.bind_eq_some_iff.mp isOutline
  obtain ⟨above, other, parentHas, isOther, aboveShows⟩ :=
    finished.fits parent (Nat.lt_trans (forest.parent_lt under) known) List.not_mem_nil
  cases Option.some.inj (parentOutline.symm.trans isOther)
  have same : above = record := finished.backed.backs.unique
    (List.mem_append_right held (Styled.mem_held_iff.mpr ⟨parent, parentHas⟩))
    (List.mem_append_right held (Styled.mem_held_iff.mpr ⟨node, has⟩)) aboveShows shows
  rw [parentRecord?, under, Option.bind_some, parentHas, same]

end Pass

/-- Styling covers the document. With the records of the parents, if there are any, resolving the
sets of an element in the tables that styling leaves gives the very record of the element, if the
hosts always give the same answers; a text has the record of its parent. -/
theorem styleDocument_solves (lived : engine.Lived held) (pure : engine.hosts.Pure answers)
    (built : doc.Built) :
    ∃ styled, (engine.styleDocument held doc).result = .ok styled ∧
      ∀ node < doc.size, ∃ record above,
        styled.get? node = some record ∧
        (doc.parent? node).map styled.get? = Option.map some above ∧
        (doc.isElement node = true → ∀ state,
          (resolve engine.hosts ⟨engine.config, above.map Handle.value⟩ (held ++ styled.held)
            (engine.styleDocument held doc).state.tables state
            (Cascade.apply engine.store .dynamic doc.tree node
              (Pass.inlineStyle? doc node))).record = record) ∧
        (doc.isElement node = false → above = some record) := by
  obtain ⟨idle, backed⟩ := lived.backs
  have forest := built.forest
  have finished := Engine.documentPass_underway pure forest backed
  obtain ⟨result, state⟩ := Engine.styleDocument_eq idle held doc
  refine ⟨_, result, fun node known => ?_⟩
  obtain ⟨record, _, has, _, _⟩ := finished.fits node known List.not_mem_nil
  refine ⟨record, (engine.documentPass held doc).parentRecord? doc node, has, ?_, ?_, ?_⟩
  · cases under : doc.parent? node with
    | none => rw [Pass.parentRecord?, under]; rfl
    | some parent =>
      obtain ⟨above, _, parentHas, _, _⟩ :=
        finished.fits parent (Nat.lt_trans (forest.parent_lt under) known) List.not_mem_nil
      rw [Pass.parentRecord?, under, Option.bind_some, Option.map_some, parentHas]
      rfl
  · intro element again
    rw [state]
    exact finished.resolve_again pure forest known element has again
  · intro text
    exact finished.text_record forest known text has

/-- An element below a text, and an element whose parent is not there. -/
theorem styleDocument_solves_mixed :
    let hosts : Hosts Unit := .plain
    let engine := ((Engine.new .screen hosts ()).addSheet ⟨.author, 1⟩
      (Utf8.encode "p \x7b color: red; font-size: 2em \x7d em \x7b width: 3em \x7d")).state
    let texts := ((Document.empty.addElement none "p").addText? 0 "see").getD .empty
    let inner := ((texts.addElement (some 1) "em").setAttribute? 2 "style" "top: 1ex").getD .empty
    let doc := inner.addElement (some 9) "p"
    hosts.Pure .plain ∧ doc.size = 4 ∧ doc.parent? 1 = some 0 ∧ doc.isElement 1 = false ∧
      doc.parent? 2 = some 1 ∧ doc.parent? 3 = none ∧
      ∃ styled, (engine.styleDocument [] doc).result = .ok styled ∧
        ∀ node < doc.size, ∃ record above,
          styled.get? node = some record ∧
          (doc.parent? node).map styled.get? = Option.map some above ∧
          (doc.isElement node = true → ∀ state,
            (resolve engine.hosts ⟨engine.config, above.map Handle.value⟩ ([] ++ styled.held)
              (engine.styleDocument [] doc).state.tables state
              (Cascade.apply engine.store .dynamic doc.tree node
                (Pass.inlineStyle? doc node))).record = record) ∧
          (doc.isElement node = false → above = some record) := by
  intro hosts engine texts inner doc
  have pure : hosts.Pure .plain := Hosts.pure_ofAnswers .plain
  have textsBuilt : texts.Built := .addText (.addElement none "p" .empty)
    (rfl : Document.addText? _ 0 "see" = some texts)
  have innerBuilt : inner.Built := .setAttribute (.addElement (some 1) "em" textsBuilt)
    (rfl : Document.setAttribute? _ 2 "style" "top: 1ex" = some inner)
  exact ⟨pure, by decide, by decide, by decide, by decide, by decide,
    styleDocument_solves (.addSheet ⟨.author, 1⟩ _ (.new .screen hosts ())) pure
      (.addElement (some 9) "p" innerBuilt)⟩

end StyleCascade
