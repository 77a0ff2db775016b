import StyleCascade.Proofs.Declared.PropertySet
import StyleCascade.Proofs.Resolve.Reached

namespace StyleCascade

/-- Each kind of write that a property can take keeps the record admissible. -/
theorem Record.Writes.admissible {property : Property} {change : Record → Record}
    (writes : Writes property change) {record : Record} (admissible : record.Admissible) :
    (change record).Admissible := by
  cases writes with
  | word written => exact admissible.withWord written
  | length length isLength permitted => exact admissible.withLength isLength permitted
  | pixels => exact admissible.withPixels property _
  | noImage => exact admissible.withImage property none
  | transparent | lineHeight | verticalAlign | zIndex | content => exact admissible.of_same rfl id

theorem Record.WellFormed.admissible {isRoot : Bool} {record : Record}
    (formed : record.WellFormed isRoot) : record.Admissible :=
  ⟨formed.lengths, formed.outline⟩

/-- What is well formed as a root is well formed below a parent. -/
theorem Record.WellFormed.below {isRoot : Bool} {record : Record}
    (formed : record.WellFormed isRoot) : record.WellFormed false :=
  { formed with
    display := fun shown leaves => formed.display shown (leaves.imp_left fun impossible => by
      cases impossible) }

namespace Draft

variable {basis : Basis} {held : Held} {tables : Tables} {draft : Draft} {traits : Traits}

theorem start_admissible (above : ∀ parent ∈ basis.parent, parent.Admissible) (root : Metrics) :
    (Draft.start basis held tables root).1.record.Admissible := by
  unfold Draft.start
  cases isParent : basis.parent with
  | none => exact .initial _ _
  | some parent => exact (Record.Admissible.initial _ _).copyAll (above parent isParent) _

/-- Inheriting copies from a parent that is admissible itself. -/
theorem inherit_admissible (above : ∀ parent ∈ basis.parent, parent.Admissible)
    (admissible : draft.record.Admissible) (property : Property) :
    (draft.inherit basis property).record.Admissible := by
  unfold Draft.inherit
  split
  case h_1 | h_2 | h_3 | h_4 => exact admissible
  case h_5 =>
    cases isParent : basis.parent with
    | none => exact admissible
    | some parent =>
      rw [markColor_record]
      exact admissible.copy (above parent isParent) property

/-- The step: taking one granted value keeps the record admissible, since every accepted form is one
that the property allows. -/
theorem take_admissible (above : ∀ parent ∈ basis.parent, parent.Admissible)
    (admissible : draft.record.Admissible) {property : Property} {accepted : Accepted}
    (grants : property.Grants traits accepted) :
    (draft.take basis held tables property accepted).1.record.Admissible := by
  cases grants with
  | inherited => exact inherit_admissible above admissible property
  | written writes => exact writes.admissible admissible
  | fontLength | alignPercent | font => exact admissible
  | color =>
    simp only [Draft.take, markColor_record]
    exact admissible.withColor property _
  | image => exact admissible.withImage property _

/-- The run: so does taking any list of them. -/
theorem takeAll_admissible (above : ∀ parent ∈ basis.parent, parent.Admissible)
    (start : Draft × Tables) (admissible : start.1.record.Admissible)
    {values : List (Property × Accepted)}
    (granted : ∀ property accepted, (property, accepted) ∈ values →
      property.Grants traits accepted) :
    (Draft.takeAll basis held start values).1.record.Admissible :=
  takeAll_induction (motive := fun state => state.1.record.Admissible) admissible
    fun _ property accepted inside before =>
      take_admissible above before (granted property accepted inside)

theorem withWaiting_admissible (draft : Draft) (metrics : Metrics) {record : Record}
    (admissible : record.Admissible) : (draft.withWaiting metrics record).Admissible := by
  unfold withWaiting
  generalize draft.waiting = waiting
  induction waiting generalizing record with
  | nil => exact admissible
  | cons first rest ih => exact ih (admissible.withPixels first.1 _)

theorem finished_wellFormed (admissible : draft.record.Admissible) (isRoot : Bool)
    (font : Handle Font) : (draft.finished isRoot font).WellFormed isRoot := by
  have measured := draft.withWaiting_admissible font.value.metrics admissible
  refine Record.Admissible.used ?_ isRoot
  have colored : (draft.withTextColor
      { draft.withWaiting font.value.metrics draft.record with font := font }).Admissible :=
    measured.of_same rfl id
  unfold withAlign
  split
  · exact colored
  · exact colored.of_same rfl id

end Draft

/-- A course leads from any declarations and any answers to a well-formed record, provided only that
the parent was admissible. -/
theorem Course.Leads.wellFormed {σ : Type} {traits : Traits} {basis : Basis} {held : Held}
    {tables : Tables} {sets : List PropertySet} {course : Course} {found : Resolution σ}
    (leads : course.Leads traits basis held tables sets found)
    (above : ∀ parent ∈ basis.parent, parent.Admissible) :
    found.record.value.WellFormed basis.parent.isNone := by
  rw [leads.value]
  refine Draft.finished_wellFormed ?_ _ _
  exact Draft.takeAll_admissible above _ (Draft.start_admissible above course.root)
    fun _ _ taken => leads.grants taken

section Reached

variable {σ : Type} {config : Config} {hosts : Hosts σ} {tables : Tables} {held : Held}

theorem Reached.wellFormed (reached : Reached config hosts tables held) :
    ∀ record ∈ held, record.value.WellFormed false := by
  induction reached with
  | fresh => exact fun _ noneHeld => nomatch noneHeld
  | @resolved tables held before parent parentHeld state sets found call ih =>
    intro record inside
    rcases List.mem_cons.mp inside with rfl | old
    · obtain ⟨course, leads⟩ :=
        before.course (hosts.have_any config) (parent.map Handle.value) state sets
      rw [← call] at leads
      refine (leads.wellFormed ?_).below
      intro above isParent
      obtain ⟨handle, named, rfl⟩ := Option.map_eq_some_iff.mp isParent
      exact (ih handle (parentHeld handle named)).admissible
    · exact ih record old
  | holding _ known ih => exact fun record inside => ih record (known inside)
  | purged _ ih => exact ih

/-- Whatever was resolved before, and whatever the hosts answer, every record that is held is well
formed, and so is what any sets are resolved to, as a root or against a record that is held. -/
theorem Reached.resolves_wellFormed (reached : Reached config hosts tables held) :
    (∀ record ∈ held, record.value.WellFormed false) ∧
      ∀ (parent : Option (Handle Record)) (state : σ) (sets : List PropertySet),
        (∀ record ∈ parent, record ∈ held) →
          let found := resolve hosts ⟨config, parent.map Handle.value⟩ held tables state sets
          found.record.value.WellFormed parent.isNone := by
  refine ⟨reached.wellFormed, fun parent state sets parentHeld => ?_⟩
  obtain ⟨course, leads⟩ :=
    reached.course (hosts.have_any config) (parent.map Handle.value) state sets
  have formed := leads.wellFormed (by
    intro above isParent
    obtain ⟨handle, named, rfl⟩ := Option.map_eq_some_iff.mp isParent
    exact (reached.wellFormed handle (parentHeld handle named)).admissible)
  rwa [Option.isNone_map] at formed

/-- A relative box in a root, and a fixed one in it that would float, with a hidden border. Each
script that is evaluated gives a longer text than the one before. -/
theorem Reached.resolves_wellFormed_fixed :
    let hosts : Hosts Nat := { Hosts.plain with
      script := some (fun source count => (some (source ++ String.join (List.replicate count "0")),
        count + 1)) }
    let top := resolve hosts ⟨.screen, none⟩ [] .empty 0 [.ofChoice (fun
      | .position => some (.ident "relative")
      | .left => some (.ident "auto")
      | .width => some (.script "2")
      | .height => some (.script "2")
      | _ => none)]
    let sets : List PropertySet := [.ofChoice (fun
      | .position => some (.ident "fixed")
      | .float => some (.ident "left")
      | .display => some (.ident "inline-table")
      | .borderTopStyle => some (.ident "hidden")
      | .borderTopWidth => some (.ident "thick")
      | .outlineStyle => some (.ident "hidden")
      | .left => some (.ident "inherit")
      | .paddingLeft => some (.ident "auto")
      | _ => none)]
    let box :=
      (resolve hosts ⟨.screen, some top.record.value⟩ [top.record] top.tables top.state sets).record
    Reached .screen hosts top.tables [top.record] ∧ top.state = 2 ∧
      top.record.value.height = .px 2 ∧ top.record.value.width = .px 20 ∧
      box.value.display = .table ∧ box.value.float = .none ∧ box.value.borderWidth.top = 0 ∧
      top.record.value.display = .block ∧
      (∀ record ∈ [top.record], record.value.WellFormed false) ∧
      ∀ (parent : Option (Handle Record)) (state : Nat) (sets : List PropertySet),
        (∀ record ∈ parent, record ∈ [top.record]) →
          let found :=
            resolve hosts ⟨.screen, parent.map Handle.value⟩ [top.record] top.tables state sets
          found.record.value.WellFormed parent.isNone := by
  intro hosts top sets box
  have reached : Reached .screen hosts top.tables [top.record] :=
    .resolved .fresh none (by simp) 0 _ top rfl
  exact ⟨reached, by decide +kernel, by decide +kernel, by decide +kernel, by decide +kernel,
    by decide +kernel, by decide +kernel, by decide +kernel, reached.resolves_wellFormed⟩

end Reached

end StyleCascade
